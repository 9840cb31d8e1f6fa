import MetricsQuery.Text.Utf8

/-!
# Text as bytes and back

A character's bytes are read as one step, whatever follows them (`scan_utf8EncodeChar`), by the
number of its bytes: `scan_ascii`, `scan_two`, `scan_three`, `scan_four`. So text that is written as
bytes is read back as it was (`decodeLossy_encode`, `decode?_encode`), and two texts with the same
bytes are equal (`encode_inj`).
-/

namespace MetricsQuery.Utf8

theorem toNat_ofNat {n : Nat} (h : n < 256) : (UInt8.ofNat n).toNat = n := by
  rw [UInt8.toNat_ofNat']
  omega

theorem ofNat_le_ofNat {m n : Nat} (hm : m < 256) (hn : n < 256) :
    UInt8.ofNat m ≤ UInt8.ofNat n ↔ m ≤ n := by
  rw [UInt8.le_iff_toNat_le, toNat_ofNat hm, toNat_ofNat hn]

theorem ofNat_lt_ofNat {m n : Nat} (hm : m < 256) (hn : n < 256) :
    UInt8.ofNat m < UInt8.ofNat n ↔ m < n := by
  rw [UInt8.lt_iff_toNat_lt, toNat_ofNat hm, toNat_ofNat hn]

theorem not_ofNat_lt_ascii {n : Nat} (h : 0x80 ≤ n ∧ n < 256) : ¬ UInt8.ofNat n < 0x80 := by
  intro hlt
  have := (ofNat_lt_ofNat (n := 0x80) h.2 (by decide)).mp hlt
  omega

/-- What a leading byte that is not ASCII announces. -/
theorem lead?_ofNat : ∀ n < 0xF5, 0xC2 ≤ n → lead? (UInt8.ofNat n) = some
    (if n ≤ 0xDF then 1 else if n ≤ 0xEF then 2 else 3,
      if n = 0xE0 then 0xA0 else if n = 0xF0 then 0x90 else 0x80,
      if n = 0xED then 0x9F else if n = 0xF4 then 0x8F else 0xBF) := by
  decide +kernel

/-! ## Continuation bytes -/

/-- The continuation byte with the low six bits of `n`. -/
abbrev tail (n : Nat) : UInt8 := UInt8.ofNat (n % 0x40 + 0x80)

theorem payload_tail (n : Nat) : payload (tail n) = n % 0x40 := by
  rw [payload, toNat_ofNat (by omega)]
  omega

theorem isContinuation_tail (n : Nat) : isContinuation (tail n) = true := by
  simp only [isContinuation, Bool.and_eq_true, decide_eq_true_eq]
  exact ⟨(ofNat_le_ofNat (m := 0x80) (by decide) (by omega)).mpr (by omega),
    (ofNat_le_ofNat (n := 0xBF) (by omega) (by decide)).mpr (by omega)⟩

/-- A continuation byte is in the range that the leading byte `a` announces, if it is neither an
overlong form, nor a surrogate, nor too large. -/
theorem tail_in_range {a n : Nat} (h0 : a = 0xE0 → 0x20 ≤ n % 0x40)
    (h1 : a = 0xED → n % 0x40 < 0x20) (h2 : a = 0xF0 → 0x10 ≤ n % 0x40)
    (h3 : a = 0xF4 → n % 0x40 < 0x10) :
    (if a = 0xE0 then (0xA0 : UInt8) else if a = 0xF0 then 0x90 else 0x80) ≤ tail n ∧
      tail n ≤ (if a = 0xED then (0x9F : UInt8) else if a = 0xF4 then 0x8F else 0xBF) := by
  constructor
  · repeat' split
    · exact (ofNat_le_ofNat (m := 0xA0) (by decide) (by omega)).mpr (by omega)
    · exact (ofNat_le_ofNat (m := 0x90) (by decide) (by omega)).mpr (by omega)
    · exact (ofNat_le_ofNat (m := 0x80) (by decide) (by omega)).mpr (by omega)
  · repeat' split
    · exact (ofNat_le_ofNat (n := 0x9F) (by omega) (by decide)).mpr (by omega)
    · exact (ofNat_le_ofNat (n := 0x8F) (by omega) (by decide)).mpr (by omega)
    · exact (ofNat_le_ofNat (n := 0xBF) (by omega) (by decide)).mpr (by omega)

/-! ## Characters by the number of their bytes -/

theorem scan_ascii {n : Nat} (h : n < 0x80) (rest : List UInt8) :
    scan (UInt8.ofNat n) rest = (some (Char.ofNat n), rest) := by
  have hlt : UInt8.ofNat n < 0x80 := (ofNat_lt_ofNat (n := 0x80) (by omega) (by decide)).mpr h
  unfold scan
  rw [if_pos hlt, toNat_ofNat (by omega)]

theorem scan_two {a : Nat} (ha : 0xC2 ≤ a ∧ a ≤ 0xDF) (x : Nat) (rest : List UInt8) :
    scan (UInt8.ofNat a) (tail x :: rest) =
      (some (Char.ofNat (a % 32 * 64 + x % 0x40)), rest) := by
  have hx := tail_in_range (a := a) (n := x) (by omega) (by omega) (by omega) (by omega)
  unfold scan
  rw [if_neg (not_ofNat_lt_ascii (by omega)), lead?_ofNat a (by omega) (by omega)]
  simp only [ha.2, if_true, hx, and_self, payload_tail, toNat_ofNat (show a < 256 by omega)]

theorem scan_three {a : Nat} (ha : 0xE0 ≤ a ∧ a ≤ 0xEF) (x y : Nat) (rest : List UInt8)
    (h0 : a = 0xE0 → 0x20 ≤ x % 0x40) (h1 : a = 0xED → x % 0x40 < 0x20) :
    scan (UInt8.ofNat a) (tail x :: tail y :: rest) =
      (some (Char.ofNat ((a % 16 * 64 + x % 0x40) * 64 + y % 0x40)), rest) := by
  have hx := tail_in_range (a := a) (n := x) h0 h1 (by omega) (by omega)
  unfold scan
  rw [if_neg (not_ofNat_lt_ascii (by omega)), lead?_ofNat a (by omega) (by omega)]
  simp only [show ¬ a ≤ 0xDF by omega, ha.2, if_true, if_false, hx, and_self, isContinuation_tail,
    payload_tail, toNat_ofNat (show a < 256 by omega)]

theorem scan_four {a : Nat} (ha : 0xF0 ≤ a ∧ a ≤ 0xF4) (x y z : Nat) (rest : List UInt8)
    (h2 : a = 0xF0 → 0x10 ≤ x % 0x40) (h3 : a = 0xF4 → x % 0x40 < 0x10) :
    scan (UInt8.ofNat a) (tail x :: tail y :: tail z :: rest) =
      (some (Char.ofNat (((a % 8 * 64 + x % 0x40) * 64 + y % 0x40) * 64 + z % 0x40)), rest) := by
  have hx := tail_in_range (a := a) (n := x) (by omega) (by omega) h2 h3
  unfold scan
  rw [if_neg (not_ofNat_lt_ascii (by omega)), lead?_ofNat a (by omega) (by omega)]
  simp only [show ¬ a ≤ 0xDF by omega, show ¬ a ≤ 0xEF by omega, if_true, if_false, hx, and_self,
    isContinuation_tail, payload_tail, toNat_ofNat (show a < 256 by omega)]

/-- A character's bytes are read as one step. -/
theorem scan_utf8EncodeChar (c : Char) (rest : List UInt8) :
    ∃ b bs, String.utf8EncodeChar c ++ rest = b :: bs ∧ scan b bs = (some c, rest) := by
  -- A character is no surrogate and not above U+10FFFF, which is what `scan` checks.
  have hc : c.val.toNat < 0xD800 ∨ 0xDFFF < c.val.toNat ∧ c.val.toNat < 0x110000 := c.valid
  have hn : c.val.toNat = c.toNat := rfl
  have back : ∀ {n}, n = c.toNat → Char.ofNat n = c := fun h => h ▸ Char.ofNat_toNat c
  simp only [String.utf8EncodeChar, hn] at hc ⊢
  generalize c.toNat = n at hc back ⊢
  by_cases h1 : n ≤ 0x7F
  · exact ⟨_, _, by rw [if_pos h1]; rfl, by rw [scan_ascii (by omega), back rfl]; rfl⟩
  by_cases h2 : n ≤ 0x7FF
  · refine ⟨_, _, by rw [if_neg h1, if_pos h2]; rfl, ?_⟩
    exact (scan_two (by omega) n rest).trans (by rw [back (by omega)])
  by_cases h3 : n ≤ 0xFFFF
  · refine ⟨_, _, by rw [if_neg h1, if_neg h2, if_pos h3]; rfl, ?_⟩
    exact (scan_three (by omega) (n / 64) n rest (by omega) (by omega)).trans
      (by rw [back (by omega)])
  · refine ⟨_, _, by rw [if_neg h1, if_neg h2, if_neg h3]; rfl, ?_⟩
    exact (scan_four (by omega) (n / 4096) (n / 64) n rest (by omega) (by omega)).trans
      (by rw [back (by omega)])

/-! ## Texts -/

theorem decodeListLossy_append (c : Char) (rest : List UInt8) :
    decodeListLossy (String.utf8EncodeChar c ++ rest) = c :: decodeListLossy rest := by
  obtain ⟨b, bs, he, hs⟩ := scan_utf8EncodeChar c rest
  rw [he, decodeListLossy, hs]
  rfl

theorem decodeListLossy_flatMap (cs : List Char) :
    decodeListLossy (cs.flatMap String.utf8EncodeChar) = cs := by
  induction cs with
  | nil => rw [List.flatMap_nil, decodeListLossy]
  | cons c cs ih => rw [List.flatMap_cons, decodeListLossy_append, ih]

/-- Text survives being written as bytes. -/
@[simp] theorem decodeLossy_encode (s : String) : decodeLossy (encode s) = s := by
  rw [decodeLossy, encode, decodeListLossy_flatMap, String.ofList_toList]

/-- The bytes of a text have no malformed prefix anywhere. -/
theorem decodeList?_flatMap (cs : List Char) :
    decodeList? (cs.flatMap String.utf8EncodeChar) = some cs := by
  induction cs with
  | nil => rw [List.flatMap_nil, decodeList?]
  | cons c cs ih =>
    obtain ⟨b, bs, he, hs⟩ := scan_utf8EncodeChar c (cs.flatMap String.utf8EncodeChar)
    rw [List.flatMap_cons, he, decodeList?, hs]
    simp only [ih, Option.map_some]

@[simp] theorem decode?_encode (s : String) : decode? (encode s) = some s := by
  rw [decode?, encode, decodeList?_flatMap, Option.map_some, String.ofList_toList]

theorem encode_inj {s t : String} : encode s = encode t ↔ s = t := by
  refine ⟨fun h => ?_, fun h => h ▸ rfl⟩
  rw [← decodeLossy_encode s, h, decodeLossy_encode]

theorem encode_ofList (cs : List Char) :
    encode (String.ofList cs) = cs.flatMap String.utf8EncodeChar := by
  rw [encode, String.toList_ofList]

/-- An ASCII character is one byte. -/
theorem utf8EncodeChar_ofNat {n : Nat} (h : n < 0x80) :
    String.utf8EncodeChar (Char.ofNat n) = [UInt8.ofNat n] := by
  have hv : (Char.ofNat n).toNat = n := by
    unfold Char.ofNat
    rw [dif_pos (Or.inl (by omega))]
    rfl
  have hn : (Char.ofNat n).val.toNat = n := hv
  simp only [String.utf8EncodeChar, hn]
  rw [if_pos (by omega)]

/-- The bytes of a character beyond ASCII are beyond ASCII. -/
theorem le_of_mem_utf8EncodeChar {c : Char} (hc : 0x80 ≤ c.toNat) {b : UInt8}
    (hb : b ∈ String.utf8EncodeChar c) : 0x80 ≤ b.toNat := by
  have hn : c.val.toNat = c.toNat := rfl
  have hvalid : c.val.toNat < 0xD800 ∨ 0xDFFF < c.val.toNat ∧ c.val.toNat < 0x110000 := c.valid
  simp only [String.utf8EncodeChar, hn] at hb hvalid
  rw [if_neg (by omega)] at hb
  repeat' split at hb
  all_goals
    simp only [List.mem_cons, List.not_mem_nil, or_false] at hb
    rcases hb with rfl | rfl | rfl | rfl <;> rw [UInt8.toNat_ofNat'] <;> omega

end MetricsQuery.Utf8
