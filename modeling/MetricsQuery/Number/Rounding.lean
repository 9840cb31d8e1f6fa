/-!
# Rounding a quotient

`roundDiv` rounds the quotient of two natural numbers to the nearest natural number, a tie to the
even one. Every number this library rounds goes through it. Main statements: it is exact on
multiples (`roundDiv_mul_right`) and is never further than half a unit off (`le_roundDiv`,
`roundDiv_le`).
-/

namespace MetricsQuery

/-- The natural number nearest to `num / den`; of two equally near ones, the even one. -/
def roundDiv (num den : Nat) : Nat :=
  if 2 * (num % den) < den ∨ (2 * (num % den) = den ∧ num / den % 2 = 0) then num / den
  else num / den + 1

theorem roundDiv_mul_right (q : Nat) {den : Nat} (h : 0 < den) : roundDiv (q * den) den = q := by
  simp [roundDiv, Nat.mul_div_cancel _ h, h]

/-- Rounding loses at most half a unit. -/
theorem le_roundDiv (num : Nat) {den : Nat} (h : 0 < den) :
    2 * num ≤ 2 * (roundDiv num den * den) + den := by
  have hd := Nat.div_add_mod num den
  have hm := Nat.mod_lt num h
  rw [Nat.mul_comm] at hd
  unfold roundDiv
  split
  · omega
  · rw [Nat.add_mul]; omega

/-- Rounding gains at most half a unit. -/
theorem roundDiv_le (num : Nat) {den : Nat} (h : 0 < den) :
    2 * (roundDiv num den * den) ≤ 2 * num + den := by
  have hd := Nat.div_add_mod num den
  have hm := Nat.mod_lt num h
  rw [Nat.mul_comm] at hd
  unfold roundDiv
  split
  · omega
  · rw [Nat.add_mul]; omega

end MetricsQuery
