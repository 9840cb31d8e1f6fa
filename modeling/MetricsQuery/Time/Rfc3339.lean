import MetricsQuery.Number.Literal
import MetricsQuery.Time.Instant

/-!
# RFC 3339

Instants as text, in UTC with `Z`, to the second (`Instant.toSecondText`) or with the fewest of 0,
3, 6 or 9 decimal places that lose nothing (`Instant.toText`), and texts with any offset read back
as instants (`Instant.ofText`). A second 60 is a leap second. `Instant.display` is the form used in
messages.
-/

namespace MetricsQuery

namespace Instant

/-! ## Writing -/

/-- A year: four digits, or a sign and at least four beyond the years 0 to 9999. -/
def yearText (y : Int) : List Char :=
  if 0 ≤ y ∧ y ≤ 9999 then paddedDigits 4 y.toNat
  else (if y < 0 then '-' else '+') :: paddedDigits 4 y.natAbs

def dateText (d : Date) : List Char :=
  yearText d.year ++ '-' :: paddedDigits 2 d.month ++ '-' :: paddedDigits 2 d.day

/-- A time of day; the leap second is the second after `secondOfDay`. -/
def clockText (secondOfDay : Nat) (leap : Bool) : List Char :=
  paddedDigits 2 (secondOfDay / 3600) ++ ':' :: paddedDigits 2 (secondOfDay / 60 % 60) ++
    ':' :: paddedDigits 2 (secondOfDay % 60 + if leap then 1 else 0)

/-- The fraction of a second in 0, 3, 6 or 9 places, whichever is the first to lose nothing. -/
def fractionText (nanos : Nat) : List Char :=
  if nanos = 0 then []
  else if nanos % 1000000 = 0 then '.' :: paddedDigits 3 (nanos / 1000000)
  else if nanos % 1000 = 0 then '.' :: paddedDigits 6 (nanos / 1000)
  else '.' :: paddedDigits 9 nanos

/-- The instant in UTC with the given text between date and time and after the seconds. -/
def render (t : Instant) (separator : Char) (fraction zone : List Char) : String :=
  let (date, secondOfDay) := t.civil
  String.ofList (dateText date ++
    separator :: clockText secondOfDay (nanosPerSecond ≤ t.nanos) ++ fraction ++ zone)

/-- The nanoseconds within the second or leap second. -/
def subsecond (t : Instant) : Nat := t.nanos % nanosPerSecond

/-- The second the instant lies in. -/
def toSecondText (t : Instant) : String := t.render 'T' [] ['Z']

/-- The instant, to the nanosecond. -/
def toText (t : Instant) : String := t.render 'T' (fractionText t.subsecond) ['Z']

/-- The instant as messages show it. -/
def display (t : Instant) : String := t.render ' ' (fractionText t.subsecond) " UTC".toList

/-! ## Reading -/

/-- Why a text is no time. -/
inductive TextFault where
  | tooShort
  | invalid
  | outOfRange
  | trailing
  deriving DecidableEq, Repr

def TextFault.message : TextFault → String
  | tooShort => "premature end of input"
  | invalid => "input contains invalid characters"
  | outOfRange => "input is out of range"
  | trailing => "trailing input"

abbrev Read := Except TextFault

/-- The number that exactly these characters write. -/
def digits (cs : List Char) : Read Nat :=
  if cs.all Char.isDigit then .ok (digitsValue cs) else .error .invalid

/-- Refuses a text unless `b` holds. -/
def require (b : Bool) (f : TextFault) : Read Unit := if b then .ok () else .error f

/-- The length of a date and a time without fraction and offset. -/
def clockLength : Nat := 19

/-- A fraction after its point: nine digits count, more are skipped. -/
def readFraction (cs : List Char) : Read (Nat × List Char) :=
  let ds := cs.takeWhile Char.isDigit
  if cs = [] then .error .tooShort
  else if ds = [] then .error .invalid
  else
    let kept := ds.take 9
    .ok (digitsValue kept * Nat.pow 10 (9 - kept.length), cs.dropWhile Char.isDigit)

/-- The number of bytes of a text in UTF-8. -/
def byteLength (cs : List Char) : Nat := (String.ofList cs).utf8ByteSize

/-- An offset after its sign, in seconds. -/
def readOffsetAmount : List Char → Read (Nat × List Char)
  | h₁ :: h₂ :: rest => do
    require (h₁.isDigit && h₂.isDigit) .invalid
    match rest with
    | [] => .error .tooShort
    | c :: rest =>
      require (c == ':') .invalid
      match rest with
      | m₁ :: m₂ :: rest =>
        require (m₁.isDigit && m₂.isDigit) .invalid
        require (m₁ ≤ '5') .outOfRange
        .ok (digitsValue [h₁, h₂] * 3600 + digitsValue [m₁, m₂] * 60, rest)
      | [m] => .error (if byteLength [m] < 2 then .tooShort else .invalid)
      | [] => .error .tooShort
  | [c] => .error (if byteLength [c] < 2 then .tooShort else .invalid)
  | [] => .error .tooShort

/-- An offset from UTC in seconds: `Z`, or a sign, hours, a colon and minutes. -/
def readOffset : List Char → Read (Int × List Char)
  | [] => .error .tooShort
  | c :: rest =>
    if c = 'Z' ∨ c = 'z' then .ok (0, rest)
    else if c = '+' then (readOffsetAmount rest).map fun (n, r) => ((n : Int), r)
    else if c = '-' ∨ c = '\u2212' then (readOffsetAmount rest).map fun (n, r) => (-(n : Int), r)
    else .error .invalid

/-- A date, which must exist, and an hour, a minute and a second, which need not. -/
structure Clock where
  date : Date
  hour : Nat
  minute : Nat
  second : Nat

/-- The date and the time of day that `clockLength` characters write. -/
def readClock : List Char → Read Clock
  | [y₁, y₂, y₃, y₄, s₁, m₁, m₂, s₂, d₁, d₂, t, h₁, h₂, c₁, n₁, n₂, c₂, e₁, e₂] => do
    let year ← digits [y₁, y₂, y₃, y₄]
    require (s₁ == '-') .invalid
    let month ← digits [m₁, m₂]
    require (s₂ == '-') .invalid
    let day ← digits [d₁, d₂]
    require (Date.isValid ⟨year, month, day⟩) .outOfRange
    require (t == 'T' || t == 't' || t == ' ') .invalid
    let hour ← digits [h₁, h₂]
    require (c₁ == ':') .invalid
    let minute ← digits [n₁, n₂]
    require (c₂ == ':') .invalid
    let second ← digits [e₁, e₂]
    .ok ⟨⟨year, month, day⟩, hour, minute, second⟩
  | _ => .error .invalid

/-- Whether the time of day exists; a second 60 is a leap second. -/
def Clock.isValid (c : Clock) : Bool := c.hour ≤ 23 && c.minute ≤ 59 && c.second ≤ 60

def Clock.isLeap (c : Clock) : Bool := c.second == 60

/-- The second of the day; the one before it for a leap second. -/
def Clock.secondOfDay (c : Clock) : Nat :=
  c.hour * 3600 + c.minute * 60 + if c.isLeap then 59 else c.second

/-- The instant that a text denotes. A text that is too short in characters but not in bytes is read
as if filled up with characters that are never valid. -/
def ofText (s : String) : Read Instant := do
  let cs := s.toList
  require (clockLength ≤ byteLength cs) .tooShort
  let clock ← readClock ((cs ++ List.replicate clockLength '\x00').take clockLength)
  let (nanos, rest) ← match cs.drop clockLength with
    | '.' :: r => readFraction r
    | r => .ok (0, r)
  require clock.isValid .outOfRange
  let (offset, rest) ← readOffset rest
  require (offset.natAbs < 86400) .outOfRange
  require rest.isEmpty .trailing
  match of? (clock.date.toDays * secondsPerDay + clock.secondOfDay - offset)
      (nanos + if clock.isLeap then nanosPerSecond else 0) with
  | some t => .ok t
  | none => .error .outOfRange

end Instant

end MetricsQuery
