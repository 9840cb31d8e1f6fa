import MetricsQuery.Time.Civil

/-!
# The calendar and the count of days

The days and the dates that exist are in one-to-one correspondence (`toDays_ofDays`,
`ofDays_toDays`), and the next day has the next date (`ofDays_succ`). Years are taken to start in
March (`ofMarch`), so that a leap day is the last day of its year, and a day of a cycle of 400 years
is counted in centuries, groups of four years, years and days (`CycleDay`).
-/

namespace MetricsQuery.Date

theorem daysInMonth_le (y : Int) (m : Nat) : daysInMonth y m ≤ 31 := by
  unfold daysInMonth
  split
  · split <;> decide
  · split <;> decide

/-- The month and the day of a date that exists have two digits. -/
theorem lt_of_isValid {d : Date} (h : d.isValid = true) : d.month < 100 ∧ d.day < 100 := by
  have hle := daysInMonth_le d.year d.month
  simp only [isValid, Bool.and_eq_true, decide_eq_true_eq] at h
  omega

/-! ## Years that start in March -/

/-- The date in the year that starts with March of the year `y`; months and days are from zero. -/
def ofMarch (y : Int) (m k : Nat) : Date :=
  if m ≤ 9 then ⟨y, m + 3, k + 1⟩ else ⟨y + 1, m - 9, k + 1⟩

/-- The days of a month of such a year. -/
def marchLength (y : Int) (m : Nat) : Nat :=
  if m = 11 then (if isLeapYear (y + 1) then 29 else 28)
  else daysBeforeMonth (m + 1) - daysBeforeMonth m

theorem toDays_ofMarch (y : Int) {m : Nat} (hm : m ≤ 11) (k : Nat) :
    (ofMarch y m k).toDays = daysBeforeMarch y + daysBeforeMonth m + k - epochOffset := by
  unfold ofMarch
  split
  · next h =>
    simp only [toDays]
    rw [if_neg (by omega), if_neg (by omega), Nat.add_sub_cancel]
    omega
  · next h =>
    simp only [toDays]
    rw [if_pos (by omega), if_pos (by omega), Int.add_sub_cancel, show m - 9 + 9 = m by omega]
    omega

theorem daysInMonth_add_three (y : Int) {m : Nat} (hm : m ≤ 9) :
    daysInMonth y (m + 3) = marchLength y m := by
  have h : ∀ m ≤ 9, (if m + 3 = 4 ∨ m + 3 = 6 ∨ m + 3 = 9 ∨ m + 3 = 11 then 30 else 31) =
      daysBeforeMonth (m + 1) - daysBeforeMonth m := by decide
  rw [daysInMonth, marchLength, if_neg (show ¬m + 3 = 2 by omega), if_neg (show ¬m = 11 by omega)]
  exact h m hm

theorem daysInMonth_sub_nine (y : Int) {m : Nat} (h : 10 ≤ m) (hm : m ≤ 11) :
    daysInMonth (y + 1) (m - 9) = marchLength y m := by
  obtain rfl | rfl : m = 10 ∨ m = 11 := by omega
  · rfl
  · rfl

theorem isValid_ofMarch (y : Int) {m : Nat} (hm : m ≤ 11) (k : Nat) :
    (ofMarch y m k).isValid = true ↔ k < marchLength y m := by
  unfold ofMarch
  split
  · next h =>
    simp only [isValid, Bool.and_eq_true, decide_eq_true_eq, daysInMonth_add_three y h]
    omega
  · next h =>
    simp only [isValid, Bool.and_eq_true, decide_eq_true_eq,
      daysInMonth_sub_nine y (Nat.lt_of_not_le h) hm]
    omega

/-- Every date that exists is in such a year. -/
theorem exists_ofMarch {d : Date} (h : d.isValid = true) :
    ∃ y m k, m ≤ 11 ∧ k < marchLength y m ∧ d = ofMarch y m k := by
  obtain ⟨y, m, k⟩ := d
  have h' := h
  simp only [isValid, Bool.and_eq_true, decide_eq_true_eq] at h'
  obtain ⟨⟨⟨hm, hm'⟩, hk⟩, -⟩ := h'
  have hk' : k - 1 + 1 = k := by omega
  by_cases hlt : m ≤ 2
  · have e : (⟨y, m, k⟩ : Date) = ofMarch (y - 1) (m + 9) (k - 1) := by
      rw [ofMarch, if_neg (by omega), Int.sub_add_cancel, Nat.add_sub_cancel, hk']
    exact ⟨y - 1, m + 9, k - 1, by omega,
      (isValid_ofMarch (y - 1) (by omega) (k - 1)).mp (by rw [← e]; exact h), e⟩
  · have e : (⟨y, m, k⟩ : Date) = ofMarch y (m - 3) (k - 1) := by
      rw [ofMarch, if_pos (by omega), show m - 3 + 3 = m by omega, hk']
    exact ⟨y, m - 3, k - 1, by omega,
      (isValid_ofMarch y (by omega) (k - 1)).mp (by rw [← e]; exact h), e⟩

/-! ## Cycles of 400 years -/

/-- A day of a cycle: the centuries, groups of four years, years and days before it, all from zero.
The last year of a group has a day more, but not that of the last group of the first centuries. -/
structure CycleDay where
  century : Nat
  group : Nat
  year : Nat
  day : Nat
  century_le : century ≤ 3
  group_le : group ≤ 24
  year_le : year ≤ 3
  day_le : day ≤ 364 ∨ day = 365 ∧ year = 3 ∧ (group ≤ 23 ∨ century = 3)

namespace CycleDay

/-- The days of the cycle before the day. -/
def number (p : CycleDay) : Nat := 36524 * p.century + 1461 * p.group + 365 * p.year + p.day

/-- The years of the cycle before the year of the day. -/
def years (p : CycleDay) : Nat := 100 * p.century + 4 * p.group + p.year

theorem number_lt (p : CycleDay) : p.number < 146097 := by
  have := p.century_le; have := p.group_le; have := p.year_le; have := p.day_le
  simp only [number]
  omega

theorem exists_number {n : Nat} (h : n < 146097) : ∃ p : CycleDay, p.number = n := by
  have hc : ∃ c r, n = 36524 * c + r ∧ c ≤ 3 ∧ (r ≤ 36523 ∨ r = 36524 ∧ c = 3) := by
    by_cases hlast : n = 146096
    · exact ⟨3, 36524, by omega, by omega, by omega⟩
    · exact ⟨n / 36524, n % 36524, by omega, by omega, by omega⟩
  obtain ⟨c, r, rfl, hc, hr⟩ := hc
  have hg : ∃ y d, r % 1461 = 365 * y + d ∧ y ≤ 3 ∧ (d ≤ 364 ∨ d = 365 ∧ y = 3) := by
    by_cases hlast : r % 1461 = 1460
    · exact ⟨3, 365, by omega, by omega, by omega⟩
    · exact ⟨r % 1461 / 365, r % 1461 % 365, by omega, by omega, by omega⟩
  obtain ⟨y, d, hyd, hy, hd⟩ := hg
  refine ⟨⟨c, r / 1461, y, d, hc, by omega, hy, by omega⟩, ?_⟩
  simp only [number]
  omega

/-- The year of the cycle as it is computed from the day of the cycle. -/
theorem years_eq (p : CycleDay) : (p.number - p.number / 1460 + p.number / 36524 -
    p.number / 146096) / 365 = p.years := by
  obtain ⟨c, g, y, d, hc, hg, hy, hd⟩ := p
  simp only [number, years]
  by_cases hlast : c = 3 ∧ g = 24 ∧ y = 3 ∧ d = 365
  · obtain ⟨rfl, rfl, rfl, rfl⟩ := hlast
    rfl
  · -- `q` is one for the days of a group that come after as many days as four years have at least.
    obtain ⟨q, hq⟩ : ∃ q, q = (24 * c + g + 365 * y + d) / 1460 := ⟨_, rfl⟩
    have hfour : (36524 * c + 1461 * g + 365 * y + d) / 1460 = 25 * c + g + q := by omega
    have hcentury : (36524 * c + 1461 * g + 365 * y + d) / 36524 = c := by omega
    have hcycle : (36524 * c + 1461 * g + 365 * y + d) / 146096 = 0 := by omega
    rw [hfour, hcentury, hcycle]
    omega

theorem daysBefore_years (p : CycleDay) :
    365 * p.years + p.years / 4 - p.years / 100 + p.day = p.number := by
  have := p.century_le; have := p.group_le; have := p.year_le
  simp only [number, years]
  omega

theorem daysBeforeMarch_years (p : CycleDay) (cycle : Int) :
    daysBeforeMarch (cycle * 400 + p.years) + p.day = 146097 * cycle + p.number := by
  have := p.century_le; have := p.group_le; have := p.year_le
  simp only [number, years, daysBeforeMarch]
  omega

/-- A day more than 365 makes the year end with the February of a leap year. -/
theorem isLeapYear_years {p : CycleDay} (h : p.day = 365) (cycle : Int) :
    isLeapYear (cycle * 400 + p.years + 1) = true := by
  have := p.century_le; have := p.group_le; have := p.day_le
  simp only [isLeapYear, years, Bool.and_eq_true, Bool.or_eq_true, beq_iff_eq, bne_iff_ne]
  omega

/-- Every day of a year that starts in March is in a cycle. -/
theorem exists_years {y : Int} {day : Nat} (h : day ≤ 364 ∨ day = 365 ∧ isLeapYear (y + 1) = true) :
    ∃ cycle p, y = cycle * 400 + (years p : Int) ∧ p.day = day := by
  simp only [isLeapYear, Bool.and_eq_true, Bool.or_eq_true, beq_iff_eq, bne_iff_ne] at h
  obtain ⟨n, hn⟩ : ∃ n : Nat, (n : Int) = y % 400 := ⟨(y % 400).toNat, by omega⟩
  refine ⟨y / 400, ⟨n / 100, n % 100 / 4, n % 4, day, by omega, by omega, by omega, ?_⟩, ?_, rfl⟩
  · rcases h with h | h
    · exact .inl h
    · right
      omega
  · simp only [years]
    omega

end CycleDay

/-! ## Days and dates -/

/-- The month of a day of a year that starts in March, from zero. -/
def marchMonth (day : Nat) : Nat := (5 * day + 2) / 153

theorem marchMonth_le {day : Nat} (h : day ≤ 365) : marchMonth day ≤ 11 := by
  simp only [marchMonth]
  omega

theorem daysBeforeMonth_marchMonth_le (day : Nat) : daysBeforeMonth (marchMonth day) ≤ day := by
  simp only [daysBeforeMonth, marchMonth]
  omega

theorem lt_marchLength {y : Int} {day : Nat}
    (h : day ≤ 364 ∨ day = 365 ∧ isLeapYear (y + 1) = true) :
    day - daysBeforeMonth (marchMonth day) < marchLength y (marchMonth day) := by
  have hle := daysBeforeMonth_marchMonth_le day
  have hlt : day < daysBeforeMonth (marchMonth day + 1) := by
    simp only [daysBeforeMonth, marchMonth]
    omega
  unfold marchLength
  split
  · next hm =>
    rw [hm] at hle hlt ⊢
    simp only [daysBeforeMonth] at hle ⊢
    rcases h with h | ⟨h, hleap⟩
    · split <;> omega
    · rw [if_pos hleap]
      omega
  · omega

/-- A day of a month is a day of the year. -/
theorem marchMonth_add {y : Int} {m k : Nat} (hm : m ≤ 11) (hk : k < marchLength y m) :
    marchMonth (daysBeforeMonth m + k) = m ∧ (daysBeforeMonth m + k ≤ 364 ∨
      daysBeforeMonth m + k = 365 ∧ isLeapYear (y + 1) = true) := by
  unfold marchLength at hk
  split at hk
  · next h =>
    subst h
    simp only [marchMonth, daysBeforeMonth]
    split at hk
    · next hleap =>
      refine ⟨by omega, ?_⟩
      by_cases hlast : k = 28
      · exact .inr ⟨by omega, hleap⟩
      · exact .inl (by omega)
    · exact ⟨by omega, .inl (by omega)⟩
  · simp only [marchMonth, daysBeforeMonth] at hk ⊢
    exact ⟨by omega, by omega⟩

theorem ofDays_eq {n cycle : Int} {p : CycleDay} (h : n + epochOffset = 146097 * cycle + p.number) :
    ofDays n = ofMarch (cycle * 400 + p.years) (marchMonth p.day)
      (p.day - daysBeforeMonth (marchMonth p.day)) := by
  have hlt := p.number_lt
  have hcycle : (n + epochOffset) / 146097 = cycle := by omega
  have hnumber : ((n + epochOffset) % 146097).toNat = p.number := by omega
  have hday : p.number - (365 * p.years + p.years / 4 - p.years / 100) = p.day := by
    have := p.daysBefore_years
    omega
  have hm : marchMonth p.day ≤ 11 := marchMonth_le (by have := p.day_le; omega)
  have hmonth : (5 * p.day + 2) / 153 = marchMonth p.day := rfl
  simp only [ofDays, hcycle, hnumber, p.years_eq, hday, hmonth, ofMarch]
  by_cases hlt : marchMonth p.day ≤ 9
  · rw [if_pos hlt, if_pos (Nat.lt_succ_of_le hlt), if_neg (by omega)]
  · rw [if_neg hlt, if_neg (show ¬marchMonth p.day < 10 by omega), if_pos (by omega)]

/-- The number of the day whose date is looked up. -/
theorem toDays_ofDays (n : Int) : (ofDays n).toDays = n := by
  obtain ⟨p, hp⟩ := CycleDay.exists_number (n := ((n + epochOffset) % 146097).toNat) (by omega)
  have hn : n + epochOffset = 146097 * ((n + epochOffset) / 146097) + p.number := by omega
  have hday : p.day ≤ 365 := by have := p.day_le; omega
  have hle := daysBeforeMonth_marchMonth_le p.day
  rw [ofDays_eq hn, toDays_ofMarch _ (marchMonth_le hday)]
  have hyears := p.daysBeforeMarch_years ((n + epochOffset) / 146097)
  omega

theorem isValid_ofDays (n : Int) : (ofDays n).isValid = true := by
  obtain ⟨p, hp⟩ := CycleDay.exists_number (n := ((n + epochOffset) % 146097).toNat) (by omega)
  have hn : n + epochOffset = 146097 * ((n + epochOffset) / 146097) + p.number := by omega
  have hday : p.day ≤ 364 ∨ p.day = 365 := by have := p.day_le; omega
  rw [ofDays_eq hn, isValid_ofMarch _ (marchMonth_le (by omega))]
  exact lt_marchLength (hday.imp_right fun h => ⟨h, CycleDay.isLeapYear_years h _⟩)

/-- The date of the day whose number is looked up. -/
theorem ofDays_toDays {d : Date} (h : d.isValid = true) : ofDays d.toDays = d := by
  obtain ⟨y, m, k, hm, hk, rfl⟩ := exists_ofMarch h
  obtain ⟨hmonth, hday⟩ := marchMonth_add hm hk
  obtain ⟨cycle, p, rfl, hp⟩ := CycleDay.exists_years hday
  have hyears := p.daysBeforeMarch_years cycle
  have hn : (ofMarch (cycle * 400 + p.years) m k).toDays + epochOffset =
      146097 * cycle + p.number := by
    rw [toDays_ofMarch _ hm]
    omega
  rw [ofDays_eq hn, hp, hmonth, Nat.add_sub_cancel_left]

/-! ## The next day -/

/-- The date after a date: in the same month, or the first of the next one. -/
def next (d : Date) : Date :=
  if d.day < daysInMonth d.year d.month then ⟨d.year, d.month, d.day + 1⟩
  else if d.month < 12 then ⟨d.year, d.month + 1, 1⟩
  else ⟨d.year + 1, 1, 1⟩

theorem next_ofMarch (y : Int) {m k : Nat} (hm : m ≤ 11) :
    (ofMarch y m k).next =
      if k + 1 < marchLength y m then ofMarch y m (k + 1)
      else if m < 11 then ofMarch y (m + 1) 0 else ofMarch (y + 1) 0 0 := by
  by_cases h : m ≤ 9
  · have e : ∀ k, ofMarch y m k = ⟨y, m + 3, k + 1⟩ := fun _ => if_pos h
    simp only [e, next, daysInMonth_add_three y h]
    rw [if_pos (show m < 11 by omega)]
    by_cases hlast : m = 9
    · subst hlast
      rfl
    · have e' : ofMarch y (m + 1) 0 = ⟨y, m + 3 + 1, 1⟩ := if_pos (by omega)
      rw [if_pos (show m + 3 < 12 by omega), e']
  · have e : ∀ k, ofMarch y m k = ⟨y + 1, m - 9, k + 1⟩ := fun _ => if_neg h
    simp only [e, next, daysInMonth_sub_nine y (Nat.lt_of_not_le h) hm]
    rw [if_pos (show m - 9 < 12 by omega)]
    obtain rfl | rfl : m = 10 ∨ m = 11 := by omega
    · rfl
    · rfl

/-- A month has the days up to the next one. -/
theorem daysBeforeMonth_succ (y : Int) {m : Nat} (hm : m < 11) :
    daysBeforeMonth (m + 1) = daysBeforeMonth m + marchLength y m := by
  rw [marchLength, if_neg (by omega)]
  simp only [daysBeforeMonth]
  omega

/-- A year has the days up to the end of its last month. -/
theorem daysBeforeMarch_succ (y : Int) :
    daysBeforeMarch (y + 1) = daysBeforeMarch y + daysBeforeMonth 11 + marchLength y 11 := by
  rw [marchLength, if_pos rfl]
  simp only [daysBeforeMarch, daysBeforeMonth]
  by_cases h : isLeapYear (y + 1) = true
  · rw [if_pos h]
    simp only [isLeapYear, Bool.and_eq_true, Bool.or_eq_true, beq_iff_eq, bne_iff_ne] at h
    omega
  · rw [if_neg h]
    simp only [isLeapYear, Bool.and_eq_true, Bool.or_eq_true, beq_iff_eq, bne_iff_ne] at h
    omega

theorem marchLength_pos (y : Int) (m : Nat) : 0 < marchLength y m := by
  unfold marchLength
  split
  · split <;> decide
  · simp only [daysBeforeMonth]
    omega

/-- The next date exists and has the next number. -/
theorem toDays_next {d : Date} (h : d.isValid = true) :
    d.next.isValid = true ∧ d.next.toDays = d.toDays + 1 := by
  obtain ⟨y, m, k, hm, hk, rfl⟩ := exists_ofMarch h
  rw [next_ofMarch y hm, toDays_ofMarch y hm]
  split
  · next hlt =>
    refine ⟨(isValid_ofMarch y hm _).mpr hlt, ?_⟩
    rw [toDays_ofMarch y hm]
    omega
  · split
    · next hlt =>
      have hmonth := daysBeforeMonth_succ y hlt
      refine ⟨(isValid_ofMarch y (by omega) _).mpr (marchLength_pos y (m + 1)), ?_⟩
      rw [toDays_ofMarch y (by omega)]
      omega
    · next hlt =>
      obtain rfl : m = 11 := by omega
      have hyear := daysBeforeMarch_succ y
      have hzero : daysBeforeMonth 0 = 0 := rfl
      refine ⟨(isValid_ofMarch (y + 1) (Nat.zero_le _) _).mpr (marchLength_pos (y + 1) 0), ?_⟩
      rw [toDays_ofMarch _ (Nat.zero_le _)]
      omega

/-- The next day has the next date. -/
theorem ofDays_succ (n : Int) : ofDays (n + 1) = (ofDays n).next := by
  obtain ⟨hv, hn⟩ := toDays_next (isValid_ofDays n)
  rw [toDays_ofDays] at hn
  rw [← hn, ofDays_toDays hv]

end MetricsQuery.Date
