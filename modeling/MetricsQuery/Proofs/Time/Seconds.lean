import MetricsQuery.Context.Basic
import MetricsQuery.Proofs.Number.Rounding
import MetricsQuery.Proofs.Time.Duration

/-!
# Steps in seconds

The number of seconds of a duration is rounded three times, but never to infinity
(`exists_seconds`). So the text of a step is always a number of thousandths, and this number is not
zero exactly if the step is at least half a millisecond long (`exists_isMilli_stepText`). Only of
that very length do the three roundings decide. Below `2⁴⁰` seconds they never add up to half a
millisecond, so the number of thousandths is less than one off (`exists_close_stepText`).
-/

namespace MetricsQuery

open Binary64 (Near nearestUnits near_nearestUnits thousandths thousandths_pos_iff unitsPerOne
  unitLimit)

theorem Binary64.ofUnits_eq {negative : Bool} {num den r : Nat} (hr : nearestUnits num den = r)
    (h : r < unitLimit) : ofUnits negative num den = .finite negative r := by
  rw [ofUnits, hr, if_pos h]

namespace Duration

variable (d : Duration)

theorem secs_lt : d.secs < 18446744073709551616 :=
  Nat.div_lt_of_lt_mul (Nat.mul_comm _ _ ▸ d.bounded)

theorem subsecNanos_lt : d.subsecNanos < nanosPerSecond := Nat.mod_lt _ (by decide)

/-- Three roundings of seconds that fit into a word stay far below infinity. -/
theorem lt_limit_of_near {one limit secs nanos second whole part sum : Nat}
    (hsecond : 0 < second) (hlimit : 295147905179352825856 * one ≤ limit) (hone : 1 ≤ one)
    (hsecs : secs < 18446744073709551616) (hnanos : nanos < second)
    (hwhole : Near (secs * one) 1 whole) (hpart : Near (nanos * one) second part)
    (hsum : Near (whole + part) 1 sum) : whole < limit ∧ part < limit ∧ sum < limit := by
  have hsecs' : secs * one ≤ 18446744073709551616 * one * 1 := by
    rw [Nat.mul_one]
    exact Nat.mul_le_mul_right one (Nat.le_of_lt hsecs)
  have hnanos' : nanos * one ≤ one * second := by
    rw [Nat.mul_comm one]
    exact Nat.mul_le_mul_right one (Nat.le_of_lt hnanos)
  have hwhole' := hwhole.le Nat.one_pos hsecs'
  have hpart' := hpart.le hsecond hnanos'
  have hsum' := hsum.le Nat.one_pos (Nat.le_of_eq (Nat.mul_one _).symm)
  omega

/-- The whole seconds and the rest are rounded, and then their sum is. -/
theorem exists_seconds : ∃ whole part sum,
    Near (d.secs * unitsPerOne) 1 whole ∧ Near (d.subsecNanos * unitsPerOne) nanosPerSecond part ∧
      Near (whole + part) 1 sum ∧ d.seconds = .finite false sum := by
  have hlimit : 295147905179352825856 * unitsPerOne ≤ unitLimit := by decide +kernel
  have hwhole := near_nearestUnits (d.secs * unitsPerOne) Nat.one_pos
  have hpart := near_nearestUnits (d.subsecNanos * unitsPerOne) (by decide : 0 < nanosPerSecond)
  generalize hw : nearestUnits (d.secs * unitsPerOne) 1 = whole at hwhole
  generalize hp : nearestUnits (d.subsecNanos * unitsPerOne) nanosPerSecond = part at hpart
  have hsum := near_nearestUnits (whole + part) Nat.one_pos
  generalize hs : nearestUnits (whole + part) 1 = sum at hsum
  obtain ⟨hwhole', hpart', hsum'⟩ := lt_limit_of_near (by decide) hlimit (by decide) d.secs_lt
    d.subsecNanos_lt hwhole hpart hsum
  have hsecs : Binary64.ofNat d.secs = .finite false whole := Binary64.ofUnits_eq hw hwhole'
  have hnanos : Binary64.ofRatio false d.subsecNanos nanosPerSecond = .finite false part :=
    Binary64.ofUnits_eq hp hpart'
  refine ⟨whole, part, sum, hwhole, hpart, hsum, ?_⟩
  rw [seconds, hsecs, hnanos]
  exact Binary64.ofUnits_eq hs hsum'

/-- Three roundings do not lead across half a thousandth from as far as a nanosecond away. -/
theorem half_thousandth_of_near {one secs nanos whole part sum : Nat}
    (hone : 1152921504606846976 ≤ one) (hwhole : Near (secs * one) 1 whole)
    (hpart : Near (nanos * one) 1000000000 part) (hsum : Near (whole + part) 1 sum) :
    (500000 < secs * 1000000000 + nanos → one < 2000 * sum) ∧
      (secs * 1000000000 + nanos < 500000 → 2000 * sum ≤ one) := by
  obtain ⟨hwhole, hwhole'⟩ := hwhole
  obtain ⟨hpart, hpart'⟩ := hpart
  obtain ⟨hsum, hsum'⟩ := hsum
  have hlength : (secs * 1000000000 + nanos) * one = 1000000000 * (secs * one) + nanos * one := by
    rw [Nat.add_mul, Nat.mul_comm secs, Nat.mul_assoc]
  constructor
  · intro hlong
    have hle : 500001 * one ≤ _ := Nat.mul_le_mul_right one hlong
    rw [hlength] at hle
    omega
  · intro hshort
    have hle : _ ≤ 499999 * one := Nat.mul_le_mul_right one (Nat.le_of_lt_succ hshort)
    rw [hlength] at hle
    omega

theorem secs_mul_add (d : Duration) : d.secs * 1000000000 + d.subsecNanos = d.nanos := by
  have hsecs : d.secs = d.nanos / 1000000000 := rfl
  have hsubsec : d.subsecNanos = d.nanos % 1000000000 := rfl
  omega

/-- Of half a millisecond, the number of seconds is rounded to a little more. -/
theorem thousandths_pos_of_eq {d : Duration} {sum : Nat} (hd : d.nanos = 500000)
    (hsum : d.seconds = .finite false sum) : 0 < thousandths sum := by
  obtain rfl : d = ⟨500000, by decide⟩ := eq_of_nanos hd
  refine Nat.pos_of_ne_zero fun hzero => ?_
  have htext : Context.stepText ⟨500000, by decide⟩ = "0.000" := by
    rw [Context.stepText, hsum, Binary64.milli, hzero]
    rfl
  exact absurd htext (by decide +kernel)

theorem isMilli_stepText {d : Duration} {sum : Nat} (h : d.seconds = .finite false sum) :
    IsMilli (thousandths sum) (Context.stepText d) := by
  rw [Context.stepText, h, Binary64.milli, if_neg Bool.false_ne_true, String.empty_append]
  exact Binary64.isMilli_milliText _

/-- The text of a step is a number of thousandths of a second, and there are some exactly if the
step is half a millisecond or longer. -/
theorem exists_isMilli_stepText (d : Duration) :
    ∃ n, IsMilli n (Context.stepText d) ∧ (0 < n ↔ 500000 ≤ d.nanos) := by
  obtain ⟨whole, part, sum, hwhole, hpart, hsum, hseconds⟩ := d.exists_seconds
  have hone : 1152921504606846976 ≤ unitsPerOne := by decide +kernel
  obtain ⟨hlong, hshort⟩ := half_thousandth_of_near hone hwhole hpart hsum
  rw [d.secs_mul_add] at hlong hshort
  refine ⟨thousandths sum, isMilli_stepText hseconds, ?_⟩
  constructor
  · intro hpos
    refine Nat.le_of_not_lt fun hlt => ?_
    exact absurd ((thousandths_pos_iff sum).mp hpos) (Nat.not_lt_of_le (hshort hlt))
  · intro hle
    rcases Nat.eq_or_lt_of_le hle with heq | hlt
    · exact thousandths_pos_of_eq heq.symm hseconds
    · exact (thousandths_pos_iff sum).mpr (hlong hlt)

/-! ## Steps below `2⁴⁰` seconds -/

/-- So many milliseconds are less than a millisecond away from the duration. -/
structure Close (d : Duration) (millis : Nat) : Prop where
  lower : d.nanos < 1000000 * millis + 1000000
  upper : 1000000 * millis < d.nanos + 1000000

/-- Whole milliseconds that are so close are exact. -/
theorem Close.eq {d : Duration} {n k : Nat} (h : d.Close n) (hk : d.nanos = 1000000 * k) :
    n = k := by
  have hlower := h.lower
  have hupper := h.upper
  omega

/-- Three roundings of less than `2⁴⁰` seconds are less than half a thousandth off. -/
theorem half_thousandth_off_of_near {one secs nanos whole part sum : Nat}
    (hone : 1152921504606846976 ≤ one) (hsecs : secs < 1099511627776) (hnanos : nanos < 1000000000)
    (hwhole : Near (secs * one) 1 whole) (hpart : Near (nanos * one) 1000000000 part)
    (hsum : Near (whole + part) 1 sum) :
    2000000 * (sum * 1000) < (2 * (secs * 1000000000 + nanos) + 999999) * one ∧
      2 * (secs * 1000000000 + nanos) * one < 2000000 * (sum * 1000) + 999999 * one := by
  obtain ⟨hwhole, hwhole'⟩ := hwhole
  obtain ⟨hpart, hpart'⟩ := hpart
  obtain ⟨hsum, hsum'⟩ := hsum
  have hsecs' : secs * one ≤ 1099511627775 * one :=
    Nat.mul_le_mul_right one (Nat.le_of_lt_succ hsecs)
  have hnanos' : nanos * one ≤ 1000000000 * one := Nat.mul_le_mul_right one (Nat.le_of_lt hnanos)
  have hlength : 2 * (secs * 1000000000 + nanos) * one =
      2000000000 * (secs * one) + 2 * (nanos * one) := by
    rw [Nat.mul_assoc, Nat.add_mul, Nat.mul_comm secs, Nat.mul_assoc]
    omega
  constructor
  · rw [Nat.add_mul, hlength]
    omega
  · rw [hlength]
    omega

/-- The text of a step of less than `2⁴⁰` seconds is a number of thousandths of a second that is
less than one off. -/
theorem exists_close_stepText {d : Duration} (h : d.secs < 1 <<< 40) :
    ∃ n, IsMilli n (Context.stepText d) ∧ d.Close n := by
  obtain ⟨whole, part, sum, hwhole, hpart, hsum, hseconds⟩ := d.exists_seconds
  have hone : 1152921504606846976 ≤ unitsPerOne := by decide +kernel
  obtain ⟨hupper, hlower⟩ := half_thousandth_off_of_near hone h d.subsecNanos_lt hwhole hpart hsum
  rw [d.secs_mul_add] at hlower hupper
  have hpos : 0 < unitsPerOne := by decide
  have hlow : 2 * (sum * 1000) ≤ 2 * (thousandths sum * unitsPerOne) + unitsPerOne :=
    le_roundDiv (sum * 1000) hpos
  have hup : 2 * (thousandths sum * unitsPerOne) ≤ 2 * (sum * 1000) + unitsPerOne :=
    roundDiv_le (sum * 1000) hpos
  refine ⟨thousandths sum, isMilli_stepText hseconds, ?_, ?_⟩
  · refine Nat.lt_of_mul_lt_mul_right (a := unitsPerOne) ?_
    rw [Nat.add_mul, Nat.mul_assoc]
    rw [Nat.mul_assoc] at hlower
    omega
  · refine Nat.lt_of_mul_lt_mul_right (a := unitsPerOne) ?_
    rw [Nat.add_mul, Nat.mul_assoc]
    rw [Nat.add_mul, Nat.mul_assoc] at hupper
    omega

end Duration

end MetricsQuery
