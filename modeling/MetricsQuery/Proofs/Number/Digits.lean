import MetricsQuery.Number.Fixed
import MetricsQuery.Number.Literal

/-!
# Decimal digits

A number below a power of ten is written with as many digits (`isNumeral_paddedDigits`), and the
value of these digits is the number. A fraction whose digits are cut off after some is rounded down
to so many places (`digitsValue_take`).
-/

namespace MetricsQuery

/-- As many digits as the width says, which write a number. -/
structure IsNumeral (width n : Nat) (ds : List Char) : Prop where
  length : ds.length = width
  digits : ∀ c ∈ ds, c.isDigit = true
  value : digitsValue ds = n

theorem digitsValue_eq (ds : List Char) : digitsValue ds = Nat.ofDigitChars 10 ds 0 := rfl

theorem digitsValue_append (ds es : List Char) :
    digitsValue (ds ++ es) = Nat.pow 10 es.length * digitsValue ds + digitsValue es := by
  rw [digitsValue_eq, Nat.ofDigitChars_append, Nat.ofDigitChars_eq_ofDigitChars_zero]
  rfl

/-- The value of a digit is nine at most. -/
theorem digitsValue_singleton_le {c : Char} (h : c.isDigit = true) : digitsValue [c] ≤ 9 := by
  simp only [Char.isDigit, Bool.and_eq_true, decide_eq_true_eq] at h
  have hle : c.toNat ≤ 57 := h.2
  show 10 * 0 + (c.toNat - 48) ≤ 9
  omega

/-- The value of digits is less than the power of ten for their number. -/
theorem digitsValue_lt {ds : List Char} (h : ∀ c ∈ ds, c.isDigit = true) :
    digitsValue ds < Nat.pow 10 ds.length := by
  induction ds with
  | nil => decide
  | cons c ds ih =>
    obtain ⟨hc, hds⟩ := List.forall_mem_cons.mp h
    have hlt := ih hds
    have hle : Nat.pow 10 ds.length * digitsValue [c] ≤ Nat.pow 10 ds.length * 9 :=
      Nat.mul_le_mul_left _ (digitsValue_singleton_le hc)
    have happend := digitsValue_append [c] ds
    rw [List.singleton_append] at happend
    rw [happend, List.length_cons]
    show _ < Nat.pow 10 ds.length * 10
    omega

/-- A number that fits is written with exactly so many digits. -/
theorem isNumeral_paddedDigits {width n : Nat} (hw : 0 < width) (h : n < Nat.pow 10 width) :
    IsNumeral width n (paddedDigits width n) where
  length := by
    have hle : (Nat.toDigits 10 n).length ≤ width :=
      (Nat.length_toDigits_le_iff (by decide) hw).mpr h
    rw [paddedDigits, List.length_append, List.length_replicate]
    omega
  digits c hc := by
    rcases List.mem_append.mp hc with hc | hc
    · rw [(List.mem_replicate.mp hc).2]
      decide
    · exact Nat.isDigit_of_mem_toDigits (by decide) (by decide) hc
  value := by
    rw [paddedDigits, digitsValue_eq, Nat.ofDigitChars_append, Nat.ofDigitChars_replicate_zero,
      Nat.mul_zero, Nat.ofDigitChars_ten_toDigits]

/-- A fraction whose digits are cut off after the first `k` is rounded down to `k` places. -/
theorem digitsValue_take (k : Nat) {ds : List Char} (h : ∀ c ∈ ds, c.isDigit = true) :
    digitsValue (ds.take k) * Nat.pow 10 (k - (ds.take k).length) =
      digitsValue ds * Nat.pow 10 k / Nat.pow 10 ds.length := by
  have hpos : ∀ n, 0 < Nat.pow 10 n := fun n => Nat.pow_pos (by decide)
  rcases Nat.le_total ds.length k with hle | hle
  · have hk : Nat.pow 10 k = Nat.pow 10 (k - ds.length) * Nat.pow 10 ds.length := by
      have hadd := Nat.pow_add 10 (k - ds.length) ds.length
      rwa [Nat.sub_add_cancel hle] at hadd
    rw [List.take_of_length_le hle, hk, ← Nat.mul_assoc, Nat.mul_div_cancel _ (hpos _)]
  · have hlen : (ds.take k).length = k := List.length_take_of_le hle
    have hk : Nat.pow 10 ds.length = Nat.pow 10 (ds.drop k).length * Nat.pow 10 k := by
      have hadd := Nat.pow_add 10 (ds.length - k) k
      rw [Nat.sub_add_cancel hle] at hadd
      rw [List.length_drop]
      exact hadd
    have hsplit : digitsValue ds =
        Nat.pow 10 (ds.drop k).length * digitsValue (ds.take k) + digitsValue (ds.drop k) := by
      rw [← digitsValue_append, List.take_append_drop]
    have hdrop : ∀ c ∈ ds.drop k, c.isDigit = true := fun c hc => h c (List.mem_of_mem_drop hc)
    have hrest := digitsValue_lt hdrop
    rw [hlen, Nat.sub_self, hk, Nat.mul_div_mul_right _ _ (hpos k), hsplit,
      Nat.mul_add_div (hpos _), Nat.div_eq_of_lt hrest]
    exact Nat.mul_one _

end MetricsQuery
