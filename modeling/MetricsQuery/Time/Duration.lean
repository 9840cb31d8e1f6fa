import MetricsQuery.Number.Fixed

/-!
# Durations

A duration is a number of nanoseconds whose whole seconds fit into 64 bits. Sums are checked
(`add?`) or stop at the longest duration (`saturatingAdd`). `seconds` is the binary64 number of
seconds, rounded once for the nanoseconds and once for the sum.
-/

namespace MetricsQuery

def nanosPerSecond : Nat := 1000000000

/-- The first number of nanoseconds that is too long for a duration. -/
def durationLimit : Nat := UInt64.size * nanosPerSecond

/-- A span of time in nanoseconds. -/
structure Duration where
  nanos : Nat
  bounded : nanos < durationLimit := by decide
  deriving DecidableEq

namespace Duration

instance : Repr Duration := ⟨fun d _ => repr d.nanos ++ " ns"⟩

def zero : Duration := ⟨0, by decide⟩

instance : Inhabited Duration := ⟨zero⟩

/-- The longest duration. -/
def longest : Duration := ⟨durationLimit - 1, by decide⟩

def ofNanos? (n : Nat) : Option Duration := if h : n < durationLimit then some ⟨n, h⟩ else none

/-- A duration of milliseconds that fit into 64 bits. -/
def ofMillis (ms : UInt64) : Duration :=
  ⟨ms.toNat * 1000000, by
    have := ms.toNat_lt
    simp only [durationLimit, UInt64.size, nanosPerSecond]
    omega⟩

def secs (d : Duration) : Nat := d.nanos / nanosPerSecond

def subsecNanos (d : Duration) : Nat := d.nanos % nanosPerSecond

def isZero (d : Duration) : Bool := d.nanos == 0

/-- The sum, unless it is too long. -/
def add? (a b : Duration) : Option Duration := ofNanos? (a.nanos + b.nanos)

/-- The sum, or the longest duration if it is too long. -/
def saturatingAdd (a b : Duration) : Duration := (a.add? b).getD longest

/-- The number of seconds as a binary64 number: the fraction is rounded, then the sum. -/
def seconds (d : Duration) : Binary64 :=
  (Binary64.ofNat d.secs).plus (Binary64.ofRatio false d.subsecNanos nanosPerSecond)

/-- The duration nearest to a number of seconds, ties to an even number of nanoseconds; `none` for
numbers that are negative, too large or no number. -/
def ofSeconds? : Binary64 → Option Duration
  | .finite negative u =>
    if negative ∧ u ≠ 0 then none
    else ofNanos? (roundDiv (u * nanosPerSecond) Binary64.unitsPerOne)
  | _ => none

/-- A decimal of `whole` units and `part` parts of `10 ^ places`, without trailing zeros. -/
def decimalText (whole part places : Nat) : String :=
  let fraction := ((paddedDigits places part).reverse.dropWhile (· == '0')).reverse
  toString whole ++ (if fraction = [] then "" else "." ++ String.ofList fraction)

/-- The duration in the largest unit, of seconds down to nanoseconds, of which it holds one. -/
def text (d : Duration) : String :=
  if 0 < d.secs then decimalText d.secs d.subsecNanos 9 ++ "s"
  else if 1000000 ≤ d.nanos then decimalText (d.nanos / 1000000) (d.nanos % 1000000) 6 ++ "ms"
  else if 1000 ≤ d.nanos then decimalText (d.nanos / 1000) (d.nanos % 1000) 3 ++ "µs"
  else toString d.nanos ++ "ns"

end Duration

end MetricsQuery
