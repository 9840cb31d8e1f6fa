import MetricsQuery.Proofs.Number.Digits

/-!
# How far rounding is off

A quotient that is rounded to a binary64 magnitude is off by at most one part in `2 ^ 53` and half a
unit (`near_nearestUnits`). A number of thousandths is written with three decimal places
(`isMilli_milliText`), and this number is not zero exactly if the magnitude it is rounded from is
more than half a thousandth (`thousandths_pos_iff`).
-/

namespace MetricsQuery

/-- The text is a decimal with three places, which makes so many thousandths. -/
inductive IsMilli (n : Nat) (s : String) : Prop
  | mk {k : Nat} {whole places : List Char} (htext : s.toList = whole ++ '.' :: places)
    (hk : 0 < k) (hwhole : IsNumeral k (n / 1000) whole) (hplaces : IsNumeral 3 (n % 1000) places)

namespace Binary64

/-- The magnitude `r` is `num / den` but for one part in `2 ^ 53` and half a unit. -/
structure Near (num den r : Nat) : Prop where
  lower : 9007199254740991 * num ≤ 9007199254740992 * (r * den) + 4503599627370496 * den
  upper : 9007199254740992 * (r * den) ≤ 9007199254740993 * num + 4503599627370496 * den

theorem spacing_pos (units : Nat) : 0 < spacing units := by
  rw [spacing, Nat.one_shiftLeft]
  exact Nat.two_pow_pos _

/-- The spacing is one of `2 ^ 52` parts of a magnitude, or one unit. -/
theorem spacing_le (units : Nat) : spacing units * 4503599627370496 ≤ units + 4503599627370496 := by
  by_cases h : units.log2 ≤ 52
  · rw [spacing, Nat.sub_eq_zero_of_le h]
    show 1 * 4503599627370496 ≤ _
    omega
  have hne : units ≠ 0 := by
    rintro rfl
    exact h (by decide)
  have hlead : 1 <<< units.log2 ≤ units := by
    rw [Nat.one_shiftLeft]
    exact Nat.log2_self_le hne
  have hsplit : 1 <<< units.log2 = spacing units * 4503599627370496 := by
    calc 1 <<< units.log2 = 1 <<< (units.log2 - 52 + 52) := by rw [Nat.sub_add_cancel (by omega)]
      _ = spacing units <<< 52 := Nat.shiftLeft_add ..
      _ = spacing units * 4503599627370496 := Nat.shiftLeft_eq ..
  omega

theorem near_nearestUnits (num : Nat) {den : Nat} (hden : 0 < den) :
    Near num den (nearestUnits num den) := by
  have hquotient := Nat.mul_div_le num den
  have hpos := Nat.mul_pos hden (spacing_pos (num / den))
  have hlower := le_roundDiv num hpos
  have hupper := roundDiv_le num hpos
  have hspacing := Nat.mul_le_mul_left den (spacing_le (num / den))
  rw [Nat.mul_add, ← Nat.mul_assoc] at hspacing
  have hnearest : nearestUnits num den * den =
      roundDiv num (den * spacing (num / den)) * (den * spacing (num / den)) := by
    rw [nearestUnits, Nat.mul_assoc, Nat.mul_comm den]
  refine ⟨?_, ?_⟩ <;> omega

/-- What is not much more than `m` is at most twice as much and one unit. -/
theorem Near.le {num den r m : Nat} (h : Near num den r) (hden : 0 < den) (hm : num ≤ m * den) :
    r ≤ 2 * m + 1 := by
  have hupper := h.upper
  refine Nat.le_of_mul_le_mul_right ?_ hden
  rw [Nat.add_mul, Nat.mul_assoc]
  omega

/-! ## Thousandths -/

/-- Half a thousandth is rounded to none, and what is more than that is not. -/
theorem thousandths_pos_iff (units : Nat) : 0 < thousandths units ↔ unitsPerOne < 2000 * units := by
  have hpos : 0 < unitsPerOne := by decide
  unfold thousandths
  constructor
  · intro h
    refine Nat.lt_of_not_le fun hle => ?_
    have hlt : units * 1000 < unitsPerOne := by omega
    rw [roundDiv, Nat.div_eq_of_lt hlt, Nat.mod_eq_of_lt hlt, if_pos (by omega)] at h
    exact Nat.lt_irrefl 0 h
  · intro h
    have hlower := le_roundDiv (units * 1000) hpos
    refine Nat.pos_of_ne_zero fun hzero => ?_
    rw [hzero] at hlower
    omega

theorem isMilli_milliText (n : Nat) : IsMilli n (String.ofList (milliText n)) := by
  have hwhole : IsNumeral (Nat.toDigits 10 (n / 1000)).length (n / 1000)
      (Nat.toDigits 10 (n / 1000)) :=
    ⟨rfl, fun _ hc => Nat.isDigit_of_mem_toDigits (by decide) (by decide) hc,
      Nat.ofDigitChars_ten_toDigits⟩
  have hplaces : IsNumeral 3 (n % 1000) (paddedDigits 3 (n % 1000)) :=
    isNumeral_paddedDigits (by decide) (Nat.mod_lt n (by decide))
  exact .mk String.toList_ofList (List.length_pos_iff.mpr Nat.toDigits_ne_nil) hwhole hplaces

end Binary64

end MetricsQuery
