import MetricsQuery.Number.Binary64

/-!
# Fixed decimal places

`milli` writes a number with three decimal places: its value in thousandths, rounded once from the
exact value with ties to even.
-/

namespace MetricsQuery

/-- The decimal digits of `n`, with zeros in front up to `width`. -/
def paddedDigits (width n : Nat) : List Char :=
  let ds := Nat.toDigits 10 n
  List.replicate (width - ds.length) '0' ++ ds

namespace Binary64

/-- A magnitude in thousandths, rounded to the nearest, ties to even. -/
def thousandths (units : Nat) : Nat := roundDiv (units * 1000) unitsPerOne

/-- A count of thousandths as a decimal with three places. -/
def milliText (n : Nat) : List Char :=
  Nat.toDigits 10 (n / 1000) ++ '.' :: paddedDigits 3 (n % 1000)

/-- The number with exactly three decimal places. -/
def milli : Binary64 → String
  | nan => "NaN"
  | infinite a => if a then "-inf" else "inf"
  | finite a u => (if a then "-" else "") ++ String.ofList (milliText (thousandths u))

end Binary64

end MetricsQuery
