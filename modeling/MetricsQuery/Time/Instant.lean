import MetricsQuery.Time.Civil
import MetricsQuery.Time.Duration

/-!
# Instants

An instant is a UTC second counted from 1970-01-01T00:00:00 and nanoseconds; from one thousand
million nanoseconds on it lies in the leap second after that second. `sub?` goes back in time within
the range of years an instant may have.
-/

namespace MetricsQuery

/-- A moment of UTC; `nanos` of a second and more are those of a leap second. -/
structure Instant where
  secs : Int
  nanos : Nat
  bounded : nanos < 2 * nanosPerSecond := by decide
  deriving DecidableEq

namespace Instant

instance : Repr Instant := ⟨fun t _ => repr (t.secs, t.nanos)⟩

def epoch : Instant := ⟨0, 0, by decide⟩

instance : Inhabited Instant := ⟨epoch⟩

/-- The instant, if the nanoseconds are within a second or the leap second after it. -/
def of? (secs : Int) (nanos : Nat) : Option Instant :=
  if h : nanos < 2 * nanosPerSecond then some ⟨secs, nanos, h⟩ else none

/-- Whether `a` is later than `b`; a leap second is later than the second it follows. -/
def isAfter (a b : Instant) : Bool := b.secs < a.secs || (b.secs == a.secs && b.nanos < a.nanos)

def secondsPerDay : Int := 86400

/-- The earliest and the latest year an instant may have. -/
def yearRange : Int × Int := (-262143, 262142)

/-- The first second of the earliest year and the first one after the latest year. -/
def secondRange : Int × Int :=
  (Date.toDays ⟨yearRange.1, 1, 1⟩ * secondsPerDay,
   Date.toDays ⟨yearRange.2 + 1, 1, 1⟩ * secondsPerDay)

/-- The longest duration, in nanoseconds, that can be taken from an instant: the milliseconds of
it fit into 63 bits. -/
def longestStep : Nat := ((1 <<< 63) - 1) * 1000000

/-- The instant `d` earlier, if it can be had. A leap second that is left behind counts as the
second after it, and one that is not keeps its second. -/
def sub? (t : Instant) (d : Duration) : Option Instant :=
  if longestStep < d.nanos then none
  else
    let total : Int := t.nanos - d.subsecNanos
    let inLeap := nanosPerSecond ≤ t.nanos
    if inLeap ∧ d.secs = 0 then of? t.secs total.toNat
    else
      let total := if inLeap then total - nanosPerSecond else total
      let secs := (if inLeap then t.secs + 1 else t.secs) - d.secs
      let (secs, nanos) := if total < 0 then (secs - 1, total + nanosPerSecond) else (secs, total)
      if secondRange.1 ≤ secs ∧ secs < secondRange.2 then of? secs nanos.toNat else none

/-- The date and the second of the day. -/
def civil (t : Instant) : Date × Nat :=
  (Date.ofDays (t.secs / secondsPerDay), (t.secs % secondsPerDay).toNat)

end Instant

end MetricsQuery
