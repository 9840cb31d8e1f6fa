import MetricsQuery.Proofs.Time.Rfc3339

/-!
# Texts of instants

An instant of the years 0 to 9999 whose leap second, if it is in one, follows a second 59
(`Writable`) has a text in UTC with the fewest decimal places (`IsCanonical`), and this text denotes
it. So the text is read back as the instant (`ofText_toText`), and different instants have different
texts. What can be read and lies in those years can be written (`writable_of_denotes`). The text of
the second it lies in denotes the instant with its fraction cut off (`isSecondText_toSecondText`).
-/

namespace MetricsQuery.Instant

/-- The instant has a text with a year of four digits and a second of a minute. -/
structure Writable (t : Instant) : Prop where
  year : 0 ≤ t.civil.1.year ∧ t.civil.1.year ≤ 9999
  leap : nanosPerSecond ≤ t.nanos → t.secs % 60 = 59

/-- A fraction of so many nanoseconds in 0, 3, 6 or 9 places, and in no fewer. -/
structure IsFewest (nanos : Nat) (fraction : List Char) : Prop where
  isFraction : IsFraction fraction nanos
  places : fraction.tail.length ∈ [0, 3, 6, 9]
  fewest : ∀ other, IsFraction other nanos → other.tail.length ∈ [0, 3, 6, 9] →
    fraction.tail.length ≤ other.tail.length

/-- The text denotes the instant in UTC, and its fraction has the fewest places. -/
inductive IsCanonical (t : Instant) (s : String) : Prop
  | mk {k : Clock} {clock fraction : List Char} (htext : s.toList = clock ++ fraction ++ ['Z'])
    (hclock : Spells 'T' k clock) (hfraction : IsFewest t.subsecond fraction)
    (hdenotes : Denotes s t)

/-! ## The fraction -/

theorem IsFraction.lt {fraction : List Char} {n : Nat} (h : IsFraction fraction n) :
    n < nanosPerSecond := by
  cases h with
  | none => decide
  | @digits ds hne hd =>
    have hpos : 0 < Nat.pow 10 ds.length := Nat.pow_pos (by decide)
    refine (Nat.div_lt_iff_lt_mul hpos).mpr ?_
    rw [Nat.mul_comm]
    exact Nat.mul_lt_mul_of_pos_left (digitsValue_lt hd) (by decide)

/-- The nanoseconds of a fraction of so many places are a multiple of the unit of the last place. -/
theorem IsFraction.mod {fraction : List Char} {n : Nat} (h : IsFraction fraction n)
    (hplaces : fraction.tail.length ≤ 9) : n % Nat.pow 10 (9 - fraction.tail.length) = 0 := by
  cases h with
  | none => exact Nat.zero_mod _
  | @digits ds hne hd =>
    rw [List.tail_cons] at hplaces ⊢
    have hvalue := digitsValue_take 9 hd
    rw [List.take_of_length_le hplaces] at hvalue
    show digitsValue ds * Nat.pow 10 9 / Nat.pow 10 ds.length % Nat.pow 10 (9 - ds.length) = 0
    rw [← hvalue]
    exact Nat.mul_mod_left _ _

/-- A number of so many digits as a fraction. -/
theorem isFraction_paddedDigits {places n : Nat} (hplaces : 0 < places)
    (hn : n < Nat.pow 10 places) :
    IsFraction ('.' :: paddedDigits places n) (n * nanosPerSecond / Nat.pow 10 places) ∧
      (paddedDigits places n).length = places := by
  have h := isNumeral_paddedDigits hplaces hn
  have hne : paddedDigits places n ≠ [] := by
    intro e
    have hl := h.length
    rw [e] at hl
    exact Nat.ne_of_lt hplaces hl
  have hf := IsFraction.digits hne h.digits
  rw [h.value, h.length] at hf
  exact ⟨hf, h.length⟩

/-- A fraction has the fewest places if the nanoseconds are a multiple of the unit of the last place
but not of a larger unit. -/
theorem isFewest_paddedDigits {places n : Nat} (hplaces : places ∈ [3, 6, 9])
    (hn : n < nanosPerSecond) (hmod : n % Nat.pow 10 (9 - places) = 0)
    (hfewer : ∀ fewer ∈ [0, 3, 6], fewer < places → n % Nat.pow 10 (9 - fewer) ≠ 0) :
    IsFewest n ('.' :: paddedDigits places (n / Nat.pow 10 (9 - places))) := by
  simp only [List.mem_cons, List.not_mem_nil, or_false] at hplaces
  have hunits : nanosPerSecond = Nat.pow 10 (9 - places) * Nat.pow 10 places := by
    have hadd := Nat.pow_add 10 (9 - places) places
    rwa [Nat.sub_add_cancel (by omega)] at hadd
  have hlt : n / Nat.pow 10 (9 - places) < Nat.pow 10 places := by
    rw [hunits] at hn
    exact Nat.div_lt_of_lt_mul hn
  have hvalue : n / Nat.pow 10 (9 - places) * nanosPerSecond / Nat.pow 10 places = n := by
    rw [hunits, ← Nat.mul_assoc, Nat.div_mul_cancel (Nat.dvd_of_mod_eq_zero hmod)]
    exact Nat.mul_div_cancel n (Nat.pow_pos (by decide))
  obtain ⟨hf, hl⟩ := isFraction_paddedDigits (by omega) hlt
  rw [hvalue] at hf
  refine ⟨hf, ?_, fun other hother hother' => ?_⟩
  · rw [List.tail_cons, hl]
    simp only [List.mem_cons, List.not_mem_nil, or_false]
    omega
  · simp only [List.mem_cons, List.not_mem_nil, or_false] at hother'
    rw [List.tail_cons, hl]
    refine Nat.le_of_not_lt fun hless => hfewer _ ?_ hless (hother.mod (by omega))
    simp only [List.mem_cons, List.not_mem_nil, or_false]
    omega

theorem isFewest_fractionText {n : Nat} (hn : n < nanosPerSecond) :
    IsFewest n (fractionText n) := by
  have hsecond : n ≠ 0 → n % Nat.pow 10 9 ≠ 0 := fun h e => h ((Nat.mod_eq_of_lt hn).symm.trans e)
  unfold fractionText
  split
  · next h =>
    subst h
    exact ⟨.none, by decide, fun _ _ _ => Nat.zero_le _⟩
  · next hzero =>
    split
    · next hmilli =>
      refine isFewest_paddedDigits (by decide : 3 ∈ [3, 6, 9]) hn hmilli fun fewer hmem hlt => ?_
      simp only [List.mem_cons, List.not_mem_nil, or_false] at hmem
      obtain rfl : fewer = 0 := by omega
      exact hsecond hzero
    · next hmilli =>
      split
      · next hmicro =>
        refine isFewest_paddedDigits (by decide : 6 ∈ [3, 6, 9]) hn hmicro fun fewer hmem hlt => ?_
        simp only [List.mem_cons, List.not_mem_nil, or_false] at hmem
        obtain rfl | rfl : fewer = 0 ∨ fewer = 3 := by omega
        · exact hsecond hzero
        · exact hmilli
      · next hmicro =>
        have hnano : n / Nat.pow 10 (9 - 9) = n := Nat.div_one n
        have h := isFewest_paddedDigits (by decide : 9 ∈ [3, 6, 9]) hn (Nat.mod_one n)
          fun fewer hmem hlt => by
            simp only [List.mem_cons, List.not_mem_nil, or_false] at hmem
            rcases hmem with rfl | rfl | rfl
            · exact hsecond hzero
            · exact hmilli
            · exact hmicro
        rwa [hnano] at h

/-! ## The text -/

/-- The time of day of an instant, with second 60 in a leap second. -/
def utcClock (t : Instant) : Clock :=
  ⟨t.civil.1, t.civil.2 / 3600, t.civil.2 / 60 % 60,
    t.civil.2 % 60 + if nanosPerSecond ≤ t.nanos then 1 else 0⟩

theorem secondOfDay_lt (t : Instant) : t.civil.2 < 86400 := by
  simp only [civil, secondsPerDay]
  omega

theorem toText_eq {t : Instant} : t.toText.toList =
    dateText t.civil.1 ++ 'T' :: clockText t.civil.2 (nanosPerSecond ≤ t.nanos) ++
      fractionText t.subsecond ++ ['Z'] := by
  rw [toText, render, String.toList_ofList]

theorem spells_utcClock {t : Instant} (h : t.Writable) :
    Spells 'T' t.utcClock
      (dateText t.civil.1 ++ 'T' :: clockText t.civil.2 (nanosPerSecond ≤ t.nanos)) := by
  obtain ⟨hyear, hyear'⟩ := h.year
  obtain ⟨hmonth, hday⟩ := Date.lt_of_isValid (d := t.civil.1) (Date.isValid_ofDays _)
  have hlt := t.secondOfDay_lt
  have hsecond : t.utcClock.second < 100 := by
    simp only [utcClock]
    split <;> omega
  have hspells : Spells 'T' t.utcClock _ := .mk (y := t.civil.1.year.toNat)
    (by simp only [utcClock]; omega)
    (isNumeral_paddedDigits (by decide) (by show _ < 10000; omega))
    (isNumeral_paddedDigits (by decide) hmonth)
    (isNumeral_paddedDigits (by decide) hday)
    (isNumeral_paddedDigits (by decide) (by show t.civil.2 / 3600 < 100; omega))
    (isNumeral_paddedDigits (by decide) (by show t.civil.2 / 60 % 60 < 100; omega))
    (isNumeral_paddedDigits (by decide) hsecond)
  have hyearText : yearText t.civil.1.year = paddedDigits 4 t.civil.1.year.toNat :=
    if_pos h.year
  simpa only [dateText, clockText, hyearText, utcClock, decide_eq_true_eq, List.append_assoc,
    List.cons_append] using hspells

/-- The second of the day and the number of the day make the second. -/
theorem secs_civil (t : Instant) : t.secs = t.civil.1.toDays * 86400 + t.civil.2 := by
  simp only [civil, Date.toDays_ofDays, secondsPerDay]
  omega

/-- The second of a time of day in UTC is 60 exactly in a leap second. -/
theorem utcClock_second {t : Instant} (h : t.Writable) :
    t.utcClock.second = 60 ∧ nanosPerSecond ≤ t.nanos ∧ t.civil.2 % 60 = 59 ∨
      t.utcClock.second = t.civil.2 % 60 ∧ t.nanos < nanosPerSecond := by
  have hsecs := t.secs_civil
  have hleap := h.leap
  simp only [utcClock]
  split
  · next hle =>
    have hlast : t.civil.2 % 60 = 59 := by
      have := hleap hle
      omega
    exact .inl ⟨by omega, hle, hlast⟩
  · next hlt => exact .inr ⟨Nat.add_zero _, Nat.lt_of_not_le hlt⟩

/-- The text of an instant denotes it. -/
theorem denotes_toText {t : Instant} (h : t.Writable) : Denotes t.toText t := by
  have hlt := t.secondOfDay_lt
  have hsecs := t.secs_civil
  have hbounded : t.nanos < 2 * 1000000000 := t.bounded
  have hnanos : nanosPerSecond = 1000000000 := rfl
  have hsecond := utcClock_second h
  refine ⟨toText_eq, spells_utcClock h, .inl rfl,
    (isFewest_fractionText (Nat.mod_lt _ (by decide))).isFraction, .utc (.inl rfl),
    Date.isValid_ofDays _, ⟨?_, ?_, ?_⟩, by decide, ?_, ?_⟩
  · show t.civil.2 / 3600 ≤ 23
    omega
  · show t.civil.2 / 60 % 60 ≤ 59
    omega
  · omega
  · show t.secs = ((t.civil.1.toDays * 24 + (t.civil.2 / 3600 : Nat)) * 60 +
      (t.civil.2 / 60 % 60 : Nat) - 0) * 60 + min t.utcClock.second 59
    omega
  · show t.nanos = t.nanos % nanosPerSecond + _
    rw [hnanos]
    split <;> omega

/-- An instant has a canonical text. -/
theorem isCanonical_toText {t : Instant} (h : t.Writable) : IsCanonical t t.toText :=
  .mk toText_eq (spells_utcClock h) (isFewest_fractionText (Nat.mod_lt _ (by decide)))
    (denotes_toText h)

/-- The text of an instant is read back as the instant. -/
theorem ofText_toText {t : Instant} (h : t.Writable) : ofText t.toText = .ok t :=
  ofText_of_denotes (denotes_toText h)

theorem toText_injective {t u : Instant} (ht : t.Writable) (hu : u.Writable)
    (h : t.toText = u.toText) : t = u := by
  have hdenotes := denotes_toText hu
  rw [← h] at hdenotes
  exact (denotes_toText ht).unique hdenotes

/-- An instant that a text denotes can be written, if its year can. -/
theorem writable_of_denotes {s : String} {t : Instant} (h : Denotes s t)
    (hyear : 0 ≤ t.civil.1.year ∧ t.civil.1.year ≤ 9999) : t.Writable where
  year := hyear
  leap hle := by
    obtain ⟨-, -, -, hfraction, -, -, -, -, hsecs, hnanos⟩ := h
    have hlt := hfraction.lt
    split at hnanos
    · next hsecond =>
      rw [hsecs, hsecond]
      omega
    · omega

/-! ## Whole seconds -/

/-- The instant with the fraction of its second, or leap second, cut off. -/
def wholeSecond (t : Instant) : Instant :=
  ⟨t.secs, if nanosPerSecond ≤ t.nanos then nanosPerSecond else 0, by split <;> decide⟩

/-- The text denotes the instant in UTC, and it has no fraction. -/
inductive IsSecondText (t : Instant) (s : String) : Prop
  | mk {k : Clock} {clock : List Char} (htext : s.toList = clock ++ ['Z'])
    (hclock : Spells 'T' k clock) (hdenotes : Denotes s t)

theorem wholeSecond_secs (t : Instant) : t.wholeSecond.secs = t.secs := rfl

theorem wholeSecond_nanos (t : Instant) :
    t.wholeSecond.nanos = if nanosPerSecond ≤ t.nanos then nanosPerSecond else 0 := rfl

theorem wholeSecond_subsecond (t : Instant) : t.wholeSecond.subsecond = 0 := by
  rw [subsecond, wholeSecond_nanos]
  split <;> rfl

/-- Cutting off the fraction leads to the latest whole second that is not later. -/
theorem isAfter_wholeSecond {t u : Instant} (hu : u.subsecond = 0) :
    u.isAfter t.wholeSecond = u.isAfter t := by
  have hsecond : nanosPerSecond = 1000000000 := rfl
  have ht : t.nanos < 2 * 1000000000 := t.bounded
  have hbounded : u.nanos < 2 * 1000000000 := u.bounded
  rw [subsecond, hsecond] at hu
  rw [Bool.eq_iff_iff, isAfter, isAfter, wholeSecond_secs, wholeSecond_nanos]
  simp only [Bool.or_eq_true, decide_eq_true_eq, Bool.and_eq_true, beq_iff_eq]
  split <;> omega

theorem toSecondText_eq (t : Instant) : t.toSecondText = t.wholeSecond.toText := by
  have hleap : nanosPerSecond ≤ t.wholeSecond.nanos ↔ nanosPerSecond ≤ t.nanos := by
    rw [wholeSecond_nanos]
    split
    · next h => exact iff_of_true (Nat.le_refl _) h
    · next h => exact iff_of_false (by decide) h
  simp only [toSecondText, toText, render, civil, wholeSecond_secs, wholeSecond_subsecond, hleap]
  rfl

theorem Writable.wholeSecond {t : Instant} (h : t.Writable) : t.wholeSecond.Writable where
  year := by
    simp only [civil, wholeSecond_secs]
    exact h.year
  leap hle := by
    rw [wholeSecond_nanos] at hle
    rw [wholeSecond_secs]
    split at hle
    · next ht => exact h.leap ht
    · exact absurd hle (by decide)

/-- The text of the second an instant lies in denotes the instant with its fraction cut off. -/
theorem isSecondText_toSecondText {t : Instant} (h : t.Writable) :
    IsSecondText t.wholeSecond t.toSecondText := by
  rw [toSecondText_eq]
  have htext := toText_eq (t := t.wholeSecond)
  rw [wholeSecond_subsecond, show fractionText 0 = [] from rfl, List.append_nil] at htext
  exact .mk htext (spells_utcClock h.wholeSecond) (denotes_toText h.wholeSecond)

end MetricsQuery.Instant
