import MetricsQuery.Proofs.Text.Utf8
import MetricsQuery.Url.Form

/-!
# Form encoding and back

A byte that is form-encoded is read back as that byte, whatever follows it (`decode_formBytes`), and
is written without the two separators `&` and `=` (`not_mem_formBytes`). So a pair at the end of a
query is read back as that pair, after the pairs that were there before it: `decode_append`, for any
pair and any query, with or without an `&` at its end.
-/

namespace MetricsQuery.Url

namespace Percent

theorem decode_cons_of_ne {b : UInt8} (h : b ≠ 0x25) (rest : List UInt8) :
    decode (b :: rest) = b :: decode rest := by
  rw [decode]
  rintro - - - rfl
  exact absurd rfl h

/-- The byte of a hexadecimal digit. -/
def digitByte (n : Nat) : UInt8 := UInt8.ofNat (hexDigit n).toNat

theorem utf8EncodeChar_hexDigit : ∀ n < 16, String.utf8EncodeChar (hexDigit n) = [digitByte n] := by
  decide

theorem hexValue?_digitByte : ∀ n < 16, hexValue? (digitByte n) = some n := by
  decide

/-- The bytes of an encoded byte. -/
theorem flatMap_octet (b : UInt8) :
    (octet b).flatMap String.utf8EncodeChar =
      [0x25, digitByte (b.toNat / 16), digitByte (b.toNat % 16)] := by
  have hb := b.toNat_lt
  simp only [octet, List.flatMap_cons, List.flatMap_nil, List.append_nil,
    utf8EncodeChar_hexDigit _ (show b.toNat / 16 < 16 by omega),
    utf8EncodeChar_hexDigit _ (show b.toNat % 16 < 16 by omega)]
  rfl

theorem decode_octet (b : UInt8) (rest : List UInt8) :
    decode (0x25 :: digitByte (b.toNat / 16) :: digitByte (b.toNat % 16) :: rest) =
      b :: decode rest := by
  have hb := b.toNat_lt
  rw [decode]
  simp only [hexValue?_digitByte _ (show b.toNat / 16 < 16 by omega),
    hexValue?_digitByte _ (show b.toNat % 16 < 16 by omega)]
  rw [show b.toNat / 16 * 16 + b.toNat % 16 = b.toNat by omega]
  simp

end Percent

namespace Form

/-! ## One byte -/

/-- The bytes that a byte is form-encoded as. -/
def formBytes (b : UInt8) : List UInt8 := (encodeByte b).flatMap String.utf8EncodeChar

/-- The byte that a byte of a query stands for before percent-decoding: a space for a `+`. -/
def unplus (b : UInt8) : UInt8 := if b = 0x2B then 0x20 else b

theorem unplus_of_ne {b : UInt8} (h : b ≠ 0x2B) : unplus b = b := if_neg h

theorem formBytes_plain {b : UInt8} (h : isPlain b = true) : formBytes b = [b] := by
  have hlt : b.toNat < 0x80 := by
    simp only [isPlain, Bool.and_eq_true, decide_eq_true_eq, UInt8.lt_iff_toNat_lt] at h
    exact h.1
  rw [formBytes, encodeByte, if_pos h, List.flatMap_singleton, Utf8.utf8EncodeChar_ofNat hlt]
  simp

theorem formBytes_space : formBytes 0x20 = [0x2B] := by decide

theorem formBytes_other {b : UInt8} (h : isPlain b = false) (hs : b ≠ 0x20) :
    formBytes b = [0x25, Percent.digitByte (b.toNat / 16), Percent.digitByte (b.toNat % 16)] := by
  rw [formBytes, encodeByte, if_neg (by simp [h]), if_neg hs, Percent.flatMap_octet]

/-- A hexadecimal digit is neither a separator nor a plus sign. -/
theorem digitByte_ne : ∀ n < 16, Percent.digitByte n ≠ 0x26 ∧ Percent.digitByte n ≠ 0x3D ∧
    Percent.digitByte n ≠ 0x2B := by
  decide

/-- A byte stands for itself, is written as a plus sign, or is written with two digits. -/
theorem formBytes_cases (b : UInt8) :
    isPlain b = true ∧ formBytes b = [b] ∨ b = 0x20 ∧ formBytes b = [0x2B] ∨
      ∃ m < 16, ∃ n < 16, m * 16 + n = b.toNat ∧
        formBytes b = [0x25, Percent.digitByte m, Percent.digitByte n] := by
  cases hp : isPlain b with
  | true => exact .inl ⟨rfl, formBytes_plain hp⟩
  | false =>
    by_cases hs : b = 0x20
    · exact .inr (.inl ⟨hs, hs ▸ formBytes_space⟩)
    · have hb := b.toNat_lt
      exact .inr (.inr ⟨b.toNat / 16, by omega, b.toNat % 16, by omega, by omega,
        formBytes_other hp hs⟩)

theorem decode_formBytes (b : UInt8) (rest : List UInt8) :
    Percent.decode ((formBytes b).map unplus ++ rest) = b :: Percent.decode rest := by
  rcases formBytes_cases b with ⟨hp, hbytes⟩ | ⟨rfl, hbytes⟩ | ⟨m, hm, n, hn, hb, hbytes⟩
  · have hplus : b ≠ 0x2B := by rintro rfl; exact absurd hp (by decide)
    have hpercent : b ≠ 0x25 := by rintro rfl; exact absurd hp (by decide)
    rw [hbytes, List.map_singleton, unplus_of_ne hplus, List.singleton_append,
      Percent.decode_cons_of_ne hpercent]
  · rw [hbytes, List.map_singleton, List.singleton_append]
    exact Percent.decode_cons_of_ne (by decide) rest
  · obtain ⟨rfl, rfl⟩ : m = b.toNat / 16 ∧ n = b.toNat % 16 := by omega
    rw [hbytes]
    simp only [List.map_cons, List.map_nil, List.cons_append, List.nil_append,
      unplus_of_ne (digitByte_ne _ hm).2.2, unplus_of_ne (digitByte_ne _ hn).2.2]
    exact Percent.decode_octet b rest

/-- No separator is among the bytes that a byte is form-encoded as. -/
theorem not_mem_formBytes (b : UInt8) :
    (0x26 : UInt8) ∉ formBytes b ∧ (0x3D : UInt8) ∉ formBytes b := by
  rcases formBytes_cases b with ⟨hp, hbytes⟩ | ⟨-, hbytes⟩ | ⟨m, hm, n, hn, -, hbytes⟩ <;>
    rw [hbytes]
  · constructor <;> rw [List.mem_singleton] <;> rintro rfl <;> exact absurd hp (by decide)
  · decide
  · have hi := digitByte_ne m hm
    have lo := digitByte_ne n hn
    simp only [List.mem_cons, List.not_mem_nil, or_false, not_or]
    exact ⟨⟨by decide, hi.1.symm, lo.1.symm⟩, by decide, hi.2.1.symm, lo.2.1.symm⟩

/-! ## Names and values -/

theorem encode_encodeText (s : String) :
    Utf8.encode (String.ofList (encodeText s)) = (Utf8.encode s).flatMap formBytes := by
  rw [Utf8.encode_ofList, encodeText, List.flatMap_assoc]
  rfl

theorem decode_flatMap_formBytes (bs : List UInt8) :
    Percent.decode ((bs.flatMap formBytes).map unplus) = bs := by
  induction bs with
  | nil => rw [List.flatMap_nil, List.map_nil, Percent.decode]
  | cons b bs ih => rw [List.flatMap_cons, List.map_append, decode_formBytes, ih]

/-- A name or a value is read back as it was. -/
theorem decodeText_encodeText (s : String) :
    decodeText (Utf8.encode (String.ofList (encodeText s))) = s := by
  rw [encode_encodeText]
  exact (congrArg Utf8.decodeLossy (decode_flatMap_formBytes _)).trans (Utf8.decodeLossy_encode s)

theorem not_mem_encodeText (s : String) :
    (0x26 : UInt8) ∉ Utf8.encode (String.ofList (encodeText s)) ∧
      (0x3D : UInt8) ∉ Utf8.encode (String.ofList (encodeText s)) := by
  rw [encode_encodeText]
  constructor <;> intro h <;> obtain ⟨b, -, hb⟩ := List.mem_flatMap.mp h
  · exact (not_mem_formBytes b).1 hb
  · exact (not_mem_formBytes b).2 hb

/-! ## Pairs -/

theorem encode_encodePair (pair : String × String) :
    Utf8.encode (String.ofList (encodePair pair)) =
      Utf8.encode (String.ofList (encodeText pair.1)) ++
        0x3D :: Utf8.encode (String.ofList (encodeText pair.2)) := by
  simp only [Utf8.encode_ofList, encodePair, List.flatMap_append, List.flatMap_cons]
  rfl

theorem bne_of_not_mem {name : List UInt8} (h : (0x3D : UInt8) ∉ name) :
    ∀ b ∈ name, (b != 0x3D) = true := by
  intro b hb
  rw [bne_iff_ne]
  rintro rfl
  exact h hb

theorem takeWhile_append_cons {name : List UInt8} (h : (0x3D : UInt8) ∉ name) (value : List UInt8) :
    (name ++ 0x3D :: value).takeWhile (· != 0x3D) = name := by
  rw [List.takeWhile_append_of_pos (bne_of_not_mem h)]
  simp

theorem dropWhile_append_cons {name : List UInt8} (h : (0x3D : UInt8) ∉ name) (value : List UInt8) :
    (name ++ 0x3D :: value).dropWhile (· != 0x3D) = 0x3D :: value := by
  rw [List.dropWhile_append_of_pos (bne_of_not_mem h)]
  simp

theorem decodePair_encodePair (pair : String × String) :
    decodePair (Utf8.encode (String.ofList (encodePair pair))) = pair := by
  have h := (not_mem_encodeText pair.1).2
  rw [encode_encodePair, decodePair, takeWhile_append_cons h, dropWhile_append_cons h,
    List.drop_one, List.tail_cons, decodeText_encodeText, decodeText_encodeText]

/-- A written pair has no `&` in it. -/
theorem not_mem_encodePair (pair : String × String) :
    (0x26 : UInt8) ∉ Utf8.encode (String.ofList (encodePair pair)) := by
  rw [encode_encodePair, List.mem_append, List.mem_cons]
  rintro (h | h | h)
  · exact (not_mem_encodeText _).1 h
  · exact absurd h (by decide)
  · exact (not_mem_encodeText _).1 h

theorem encode_encodePair_ne_nil (pair : String × String) :
    Utf8.encode (String.ofList (encodePair pair)) ≠ [] := by
  rw [encode_encodePair]
  simp

/-! ## Queries -/

section splitAt

variable {α : Type} [BEq α] (sep : α)

theorem splitAt_ne_nil (xs : List α) : splitAt sep xs ≠ [] := by
  cases xs with
  | nil => simp [splitAt]
  | cons x xs =>
    rw [splitAt]
    split
    · split <;> exact List.cons_ne_nil _ _
    · exact List.cons_ne_nil _ _

variable [LawfulBEq α]

/-- The parts of two lists with a separator between them. -/
theorem splitAt_append (xs ys : List α) :
    splitAt sep (xs ++ sep :: ys) = splitAt sep xs ++ splitAt sep ys := by
  induction xs with
  | nil =>
    obtain ⟨part, parts, e⟩ := List.exists_cons_of_ne_nil (splitAt_ne_nil sep ys)
    simp only [List.nil_append, splitAt, e, beq_self_eq_true, if_true, List.cons_append]
  | cons x xs ih =>
    obtain ⟨part, parts, e⟩ := List.exists_cons_of_ne_nil (splitAt_ne_nil sep xs)
    simp only [List.cons_append, splitAt, ih, e]
    split <;> rfl

theorem splitAt_of_not_mem {xs : List α} (h : sep ∉ xs) : splitAt sep xs = [xs] := by
  induction xs with
  | nil => rfl
  | cons x xs ih =>
    rw [List.mem_cons, not_or] at h
    have hx : (x == sep) = false := beq_eq_false_iff_ne.mpr (Ne.symm h.1)
    simp only [splitAt, ih h.2, hx]
    rfl

end splitAt

theorem decode_nil : decode [] = [] := by
  rw [decode, Utf8.encode_ofList, List.flatMap_nil]
  rfl

/-- The pairs of two queries joined by `&`. -/
theorem decode_join (xs ys : List Char) : decode (xs ++ '&' :: ys) = decode xs ++ decode ys := by
  have e : (xs ++ '&' :: ys).flatMap String.utf8EncodeChar =
      xs.flatMap String.utf8EncodeChar ++ 0x26 :: ys.flatMap String.utf8EncodeChar := by
    rw [List.flatMap_append, List.flatMap_cons]
    rfl
  simp only [decode, Utf8.encode_ofList, e, splitAt_append, List.filter_append, List.map_append]

theorem decode_encodePair (pair : String × String) : decode (encodePair pair) = [pair] := by
  rw [decode, splitAt_of_not_mem _ (not_mem_encodePair pair), List.filter_cons,
    if_pos (bne_iff_ne.mpr (encode_encodePair_ne_nil pair)), List.filter_nil, List.map_singleton,
    decodePair_encodePair]

/-- A pair put at the end of a query is read back after the pairs of the query. -/
theorem decode_append (query : List Char) (pair : String × String) :
    decode (append query pair) = decode query ++ [pair] := by
  rw [append]
  by_cases h : query = []
  · rw [h, if_pos rfl, decode_nil]
    exact decode_encodePair pair
  · rw [if_neg h, List.append_assoc, List.singleton_append, decode_join, decode_encodePair]

end Form

end MetricsQuery.Url
