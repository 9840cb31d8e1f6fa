import MetricsQuery.Number.Binary64

/-!
# The shortest decimal of a binary64 number

`shortest` finds the decimal with the fewest significant digits that reads back as the same
magnitude, the nearest of them if there are several. The decimals that read back are those of the
interval half way to the neighbouring magnitudes, ends included when the significand is even. For
one, two, … seventeen digits the two neighbours of the value on that decimal grid are tested: the
first grid with a hit wins.

Two notations print the digits: `positional` never writes an exponent, `scientific` writes one
outside the range where the positional form is short.
-/

namespace MetricsQuery

/-- The number of decimal digits of `n`. -/
def digitCount (n : Nat) : Nat := (Nat.toDigits 10 n).length

namespace Binary64

/-- A decimal `digits · 10 ^ exponent`. -/
structure Decimal where
  digits : Nat
  exponent : Int
  deriving DecidableEq, Repr, Inhabited

/-- A fraction `num / den` times `10 ^ e`. -/
def scaleTen (num den : Nat) (e : Int) : Nat × Nat :=
  if 0 ≤ e then (num * Nat.pow 10 e.toNat, den) else (num, den * Nat.pow 10 (-e).toNat)

/-- The exponent of the leading decimal digit of `units`, which are not zero. -/
def leadingExponent (units : Nat) : Int :=
  if unitsPerOne ≤ units then digitCount (units / unitsPerOne) - 1
  else
    let j := digitCount (unitsPerOne / units)
    if unitsPerOne ≤ units * Nat.pow 10 (j - 1) then -((j : Int) - 1) else -(j : Int)

/-- Whether the decimal reads back as `units`: it lies between the midpoints to the neighbours.
All is counted in quarters of a unit. -/
def readsBack (units : Nat) (d : Decimal) : Bool :=
  let gap := spacing units
  let below := if units = gap <<< 52 ∧ gap ≠ 1 then gap else 2 * gap
  let (num, den) := scaleTen (4 * d.digits * unitsPerOne) 1 d.exponent
  let low := (4 * units - below) * den
  let high := (4 * units + 2 * gap) * den
  if units / gap % 2 = 0 then low ≤ num && num ≤ high else low < num && num < high

/-- The decimal without its trailing zeros. -/
def Decimal.trim (d : Decimal) : Nat → Decimal
  | 0 => d
  | n + 1 =>
    if d.digits % 10 = 0 ∧ d.digits ≠ 0 then
      Decimal.trim ⟨d.digits / 10, d.exponent + 1⟩ n
    else d

/-- The decimal on the grid of `10 ^ e` that reads back as `units` and is nearest to it. -/
def onGrid? (units : Nat) (e : Int) : Option Decimal :=
  let (num, den) := scaleTen units unitsPerOne (-e)
  let low : Decimal := ⟨num / den, e⟩
  let high : Decimal := ⟨num / den + 1, e⟩
  match readsBack units low, readsBack units high with
  | true, true => some (if 2 * (num % den) < den then low else high)
  | true, false => some low
  | false, true => some high
  | false, false => none

/-- The first grid, from `n` digits on, that holds a decimal reading back as `units`. -/
def shortestFrom (units : Nat) (lead : Int) : Nat → Nat → Decimal
  | _, 0 => ⟨0, 0⟩
  | n, fuel + 1 =>
    match onGrid? units (lead - n + 1) with
    | some d => d.trim 20
    | none => shortestFrom units lead (n + 1) fuel

/-- The shortest decimal that reads back as `units`; seventeen digits always suffice. -/
def shortest (units : Nat) : Decimal :=
  if units = 0 then ⟨0, 0⟩ else shortestFrom units (leadingExponent units) 1 18

/-- The digits and the position of the decimal point among them: the value is `0.digits` times ten
to that position. -/
def Decimal.pointed (d : Decimal) : List Char × Int :=
  let ds := Nat.toDigits 10 d.digits
  (ds, ds.length + d.exponent)

/-- The digits with the point in its place and zeros as needed, without a fraction if it is zero. -/
def Decimal.plain (d : Decimal) : String :=
  let (ds, point) := d.pointed
  if d.digits = 0 then "0"
  else if point ≤ 0 then
    String.ofList ("0.".toList ++ List.replicate (-point).toNat '0' ++ ds)
  else if ds.length ≤ point.toNat then
    String.ofList (ds ++ List.replicate (point.toNat - ds.length) '0')
  else String.ofList (ds.take point.toNat ++ '.' :: ds.drop point.toNat)

/-- The number in positional notation, however long. -/
def positional : Binary64 → String
  | nan => "NaN"
  | infinite a => if a then "-inf" else "inf"
  | finite a u => (if a then "-" else "") ++ (shortest u).plain

/-- The number with a fraction always shown, and an exponent outside `10⁻⁵ … 10¹⁶`. -/
def scientific : Binary64 → String
  | nan => "NaN"
  | infinite a => if a then "-inf" else "inf"
  | finite a u =>
    let d := shortest u
    let (ds, point) := d.pointed
    let sign := if a then "-" else ""
    if u = 0 then sign ++ "0.0"
    else if -5 < point ∧ point ≤ 16 then
      sign ++ (if 0 ≤ d.exponent then d.plain ++ ".0" else d.plain)
    else
      let fraction := if ds.length = 1 then "" else "." ++ String.ofList (ds.drop 1)
      sign ++ String.ofList (ds.take 1) ++ fraction ++ "e" ++ toString (point - 1)

end Binary64

end MetricsQuery
