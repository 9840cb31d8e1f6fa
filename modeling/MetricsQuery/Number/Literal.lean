import MetricsQuery.Number.Binary64

/-!
# Reading a number from decimal text

A number literal is an optional sign, digits with at most one point among them and at least one
digit, and an optional exponent; `inf`, `infinity` and `nan` are read in any case. The value is the
binary64 number nearest to the decimal. There are no blanks, no group separators and no other bases.
-/

namespace MetricsQuery

/-- The value of a list of decimal digits. -/
def digitsValue (ds : List Char) : Nat := ds.foldl (fun n c => 10 * n + (c.toNat - '0'.toNat)) 0

namespace Binary64

/-- The number nearest to `digits · 10 ^ exponent`. Exponents far outside the range of the numbers
are answered without computing their power of ten. -/
def ofDecimal (negative : Bool) (digits : Nat) (exponent : Int) : Binary64 :=
  if digits = 0 then finite negative 0
  else if 400 < exponent then infinite negative
  else if exponent < -((digits.log2 : Int) + 401) then finite negative 0
  else if 0 ≤ exponent then ofRatio negative (digits * Nat.pow 10 exponent.toNat) 1
  else ofRatio negative digits (Nat.pow 10 (-exponent).toNat)

/-- The digits before and after an optional point, and what follows them. -/
def splitMantissa (cs : List Char) : List Char × List Char × List Char :=
  let whole := cs.takeWhile Char.isDigit
  match cs.dropWhile Char.isDigit with
  | '.' :: rest => (whole, rest.takeWhile Char.isDigit, rest.dropWhile Char.isDigit)
  | rest => (whole, [], rest)

/-- The value of an exponent: an optional sign and at least one digit. -/
def exponent? (cs : List Char) : Option Int :=
  let (negative, ds) := match cs with
    | '-' :: r => (true, r)
    | '+' :: r => (false, r)
    | r => (false, r)
  if ds ≠ [] ∧ ds.all Char.isDigit then
    some (if negative then -(digitsValue ds : Int) else digitsValue ds)
  else none

/-- The value of an unsigned literal. -/
def unsigned? (negative : Bool) (cs : List Char) : Option Binary64 :=
  let (whole, fraction, rest) := splitMantissa cs
  if whole = [] ∧ fraction = [] then
    match String.ofList (cs.map Char.toLower) with
    | "inf" | "infinity" => some (infinite negative)
    | "nan" => some nan
    | _ => none
  else
    let digits := digitsValue (whole ++ fraction)
    match rest with
    | [] => some (ofDecimal negative digits (-fraction.length))
    | 'e' :: r | 'E' :: r =>
      (exponent? r).map fun e => ofDecimal negative digits (e - fraction.length)
    | _ => none

/-- The number a literal denotes, if the text is one. -/
def ofText? (s : String) : Option Binary64 :=
  match s.toList with
  | '-' :: cs => unsigned? true cs
  | '+' :: cs => unsigned? false cs
  | cs => unsigned? false cs

end Binary64

end MetricsQuery
