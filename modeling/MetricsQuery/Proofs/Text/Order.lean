import MetricsQuery.Proofs.Text.Utf8

/-!
# The order of texts is the order of their bytes

Texts are ordered by their code points, one after another. Their bytes are in the same order
(`encode_lt_encode`, `encode_le_encode`): of two characters the smaller has the smaller leading byte,
or as many bytes, of which the first that differs is smaller (`utf8EncodeChar_lt`).
-/

namespace MetricsQuery.Utf8

/-! ## Characters -/

/-- Bytes that differ at their head are in the order of their heads. -/
theorem cons_lt {m n : Nat} (h : m < n) (hn : n < 256) (xs ys : List UInt8) :
    UInt8.ofNat m :: xs < UInt8.ofNat n :: ys :=
  List.cons_lt_cons_iff.mpr (.inl ((ofNat_lt_ofNat (by omega) hn).mpr h))

/-- Of two numbers, the digits of the smaller come first. -/
theorem cons_lt_of_digit {m n : Nat} (h : m < n ∨ m = n) (hn : n < 256) {xs ys : List UInt8}
    (hxs : m = n → xs < ys) : UInt8.ofNat m :: xs < UInt8.ofNat n :: ys := by
  rcases h with h | rfl
  · exact cons_lt h hn xs ys
  · exact List.cons_lt_cons_iff.mpr (.inr ⟨rfl, hxs rfl⟩)

/-- Whatever follows them, the bytes of a smaller character come first. -/
theorem utf8EncodeChar_lt {c d : Char} (h : c < d) (xs ys : List UInt8) :
    String.utf8EncodeChar c ++ xs < String.utf8EncodeChar d ++ ys := by
  have hlt : c.val.toNat < d.val.toNat := h
  have hc : c.val.toNat < 0x110000 := by
    rcases c.valid with hv | hv
    · exact Nat.lt_trans hv (by decide)
    · exact hv.2
  have hd : d.val.toNat < 0x110000 := by
    rcases d.valid with hv | hv
    · exact Nat.lt_trans hv (by decide)
    · exact hv.2
  simp only [String.utf8EncodeChar]
  generalize c.val.toNat = m at hlt hc ⊢
  generalize d.val.toNat = n at hlt hd ⊢
  -- By the number of bytes; the leading bytes of longer forms are larger.
  split
  · next hm =>
    repeat' split
    all_goals exact cons_lt (by omega) (by omega) _ _
  split
  · next hm =>
    rw [if_neg (show ¬ n ≤ 0x7F by omega)]
    repeat' split
    · refine cons_lt_of_digit (by omega) (by omega) fun _ => ?_
      exact cons_lt (by omega) (by omega) _ _
    all_goals exact cons_lt (by omega) (by omega) _ _
  split
  · next hm =>
    rw [if_neg (show ¬ n ≤ 0x7F by omega), if_neg (show ¬ n ≤ 0x7FF by omega)]
    split
    · refine cons_lt_of_digit (by omega) (by omega) fun _ => ?_
      refine cons_lt_of_digit (by omega) (by omega) fun _ => ?_
      exact cons_lt (by omega) (by omega) _ _
    · exact cons_lt (by omega) (by omega) _ _
  · rw [if_neg (show ¬ n ≤ 0x7F by omega), if_neg (show ¬ n ≤ 0x7FF by omega),
      if_neg (show ¬ n ≤ 0xFFFF by omega)]
    refine cons_lt_of_digit (by omega) (by omega) fun _ => ?_
    refine cons_lt_of_digit (by omega) (by omega) fun _ => ?_
    refine cons_lt_of_digit (by omega) (by omega) fun _ => ?_
    exact cons_lt (by omega) (by omega) _ _

/-! ## Texts -/

/-- The bytes of a smaller text come first. -/
theorem flatMap_lt {cs ds : List Char} (h : cs < ds) :
    cs.flatMap String.utf8EncodeChar < ds.flatMap String.utf8EncodeChar := by
  induction h with
  | @nil d ds =>
    obtain ⟨b, bs, hb, -⟩ := scan_utf8EncodeChar d (ds.flatMap String.utf8EncodeChar)
    rw [List.flatMap_nil, List.flatMap_cons, hb]
    exact List.nil_lt_cons b bs
  | @rel c cs d ds hcd =>
    rw [List.flatMap_cons, List.flatMap_cons]
    exact utf8EncodeChar_lt hcd _ _
  | cons _ ih =>
    rw [List.flatMap_cons, List.flatMap_cons]
    exact List.append_left_lt ih

/-- Texts are in the order of their bytes. -/
theorem encode_lt_encode {s t : String} : encode s < encode t ↔ s < t := by
  refine ⟨fun h => ?_, fun h => flatMap_lt h⟩
  by_cases hst : s < t
  · exact hst
  by_cases hts : t < s
  · exact absurd (flatMap_lt hts) (List.lt_asymm h)
  · have heq : s = t := String.le_antisymm (String.not_lt.mp hts) (String.not_lt.mp hst)
    subst heq
    exact absurd h (List.lt_irrefl _)

theorem encode_le_encode {s t : String} : encode s ≤ encode t ↔ s ≤ t := by
  rw [← List.not_lt, ← String.not_lt, encode_lt_encode]

end MetricsQuery.Utf8
