import MetricsQuery.Time.Duration

/-!
# Lengths of durations

A duration is its number of nanoseconds. A sum is the duration of both numbers together if there is
one (`add?_eq_some_iff`), and a sum that stops at the longest duration is the lesser of the two
(`nanos_saturatingAdd`).
-/

namespace MetricsQuery.Duration

theorem eq_of_nanos {a b : Duration} (h : a.nanos = b.nanos) : a = b := by
  cases a
  cases b
  cases h
  rfl

theorem ofNanos?_eq_some_iff {n : Nat} {d : Duration} : ofNanos? n = some d ↔ d.nanos = n := by
  rw [ofNanos?]
  split
  · next h =>
    rw [Option.some.injEq]
    exact ⟨fun hd => hd ▸ rfl, fun hd => eq_of_nanos hd.symm⟩
  · next h => exact iff_of_false nofun fun hd => h (hd ▸ d.bounded)

theorem add?_eq_some_iff {a b d : Duration} : a.add? b = some d ↔ d.nanos = a.nanos + b.nanos :=
  ofNanos?_eq_some_iff

theorem le_longest (d : Duration) : d.nanos ≤ longest.nanos := Nat.le_pred_of_lt d.bounded

theorem nanos_saturatingAdd (a b : Duration) :
    (a.saturatingAdd b).nanos = min (a.nanos + b.nanos) longest.nanos := by
  rw [saturatingAdd]
  cases h : a.add? b with
  | some d =>
    have hsum := add?_eq_some_iff.mp h
    have hle := d.le_longest
    show d.nanos = _
    omega
  | none =>
    have hlong : ¬ a.nanos + b.nanos < durationLimit := fun hlt =>
      absurd (add?_eq_some_iff (d := ⟨_, hlt⟩).mpr rfl) (by rw [h]; nofun)
    have hlongest : longest.nanos = durationLimit - 1 := rfl
    show longest.nanos = _
    omega

end MetricsQuery.Duration
