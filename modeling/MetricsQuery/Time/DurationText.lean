import MetricsQuery.Number.Literal
import MetricsQuery.Text.Blank
import MetricsQuery.Time.Duration

/-!
# Durations in configuration text

A duration is written as parts, each a decimal number and a unit: `250ms`, `90s`, `1h30m`. Parts may
come in any order and repeat. Nothing and a lone `0` are the zero duration. `Duration.ofText?` adds
the parts; each part is a product of two binary64 numbers rounded to whole nanoseconds.
-/

namespace MetricsQuery.Duration

/-- A character of the number of a part. -/
def isAmountChar (c : Char) : Bool := c.isDigit || c == '.'

/-- The number of seconds in a unit. -/
def unitSeconds? (unit : List Char) : Option Binary64 :=
  if unit = ['m', 's'] then some (Binary64.ofRatio false 1 1000)
  else if unit = ['s'] then some (Binary64.ofNat 1)
  else if unit = ['m'] then some (Binary64.ofNat 60)
  else if unit = ['h'] then some (Binary64.ofNat 3600)
  else none

/-- A part with its number and unit apart, and the text after it, which starts with a digit. -/
def splitPart (cs : List Char) : List Char × List Char × List Char :=
  let tail := cs.dropWhile isAmountChar
  (cs.takeWhile isAmountChar, tail.takeWhile (!·.isDigit), tail.dropWhile (!·.isDigit))

/-- The duration of one part. -/
def ofPart? (amount unit : List Char) : Option Duration := do
  let seconds ← unitSeconds? unit
  let number ← Binary64.ofText? (String.ofList amount)
  ofSeconds? (number.mul seconds)

/-- The sum of the parts of a text, on top of `total`. -/
def ofParts? : Nat → Duration → List Char → Option Duration
  | _, total, [] => some total
  | 0, _, _ :: _ => none
  | n + 1, total, cs => do
    let (amount, unit, rest) := splitPart cs
    let part ← ofPart? amount unit
    ofParts? n (← total.add? part) rest

/-- The duration a text denotes. -/
def ofText? (s : String) : Option Duration :=
  let cs := Text.trim s.toList
  if cs = [] ∨ cs = ['0'] then some zero else ofParts? cs.length zero cs

end MetricsQuery.Duration
