import MetricsQuery.Number.Rounding

/-!
# Binary64 numbers

A finite binary64 number is a whole number of units of `2⁻¹⁰⁷⁴`, the spacing of the numbers nearest
to zero, so its value is exact and every operation is arithmetic on natural numbers followed by one
rounding (`nearestUnits`). A natural number of units is a binary64 magnitude when it has at most 53
significant bits and stays below `unitLimit`.
-/

namespace MetricsQuery

/-- A binary64 number; the magnitude of a finite one is counted in units of `2⁻¹⁰⁷⁴`. -/
inductive Binary64 where
  | nan
  | infinite (negative : Bool)
  | finite (negative : Bool) (units : Nat)
  deriving DecidableEq, Repr, Inhabited

namespace Binary64

/-- How many units make the number one. -/
def unitsPerOne : Nat := 1 <<< 1074

/-- The first magnitude, in units, that rounds to infinity. -/
def unitLimit : Nat := 1 <<< 2098

/-- The distance between neighbouring magnitudes around `units`, which keeps 53 significant bits. -/
def spacing (units : Nat) : Nat := 1 <<< (units.log2 - 52)

/-- The magnitude nearest to `num / den` units, ties to the even significand. -/
def nearestUnits (num den : Nat) : Nat :=
  roundDiv num (den * spacing (num / den)) * spacing (num / den)

/-- The number nearest to `num / den` units. -/
def ofUnits (negative : Bool) (num den : Nat) : Binary64 :=
  if nearestUnits num den < unitLimit then finite negative (nearestUnits num den)
  else infinite negative

/-- The number nearest to `num / den`. -/
def ofRatio (negative : Bool) (num den : Nat) : Binary64 := ofUnits negative (num * unitsPerOne) den

/-- The number nearest to a natural number. -/
def ofNat (n : Nat) : Binary64 := ofRatio false n 1

def zero : Binary64 := finite false 0

/-- The product, rounded once; zero times infinity is no number. -/
def mul : Binary64 → Binary64 → Binary64
  | nan, _ | _, nan => nan
  | infinite a, infinite b => infinite (a ^^ b)
  | infinite a, finite b u | finite b u, infinite a => if u = 0 then nan else infinite (a ^^ b)
  | finite a u, finite b v => ofUnits (a ^^ b) (u * v) unitsPerOne

/-- The quotient, rounded once; only division by a number other than zero is of use here. -/
def div : Binary64 → Binary64 → Binary64
  | nan, _ | _, nan => nan
  | infinite _, infinite _ => nan
  | infinite a, finite b _ => infinite (a ^^ b)
  | finite a _, infinite b => finite (a ^^ b) 0
  | finite a u, finite b v =>
    if v = 0 then (if u = 0 then nan else infinite (a ^^ b))
    else ofRatio (a ^^ b) u v

/-- The sum of two magnitudes, rounded once. -/
def addUnits (u v : Nat) : Binary64 := ofUnits false (u + v) 1

/-- The sum of two numbers without a sign; a first one that is not finite stays as it is. -/
def plus : Binary64 → Binary64 → Binary64
  | finite _ u, finite _ v => addUnits u v
  | x, _ => x

/-- The number with its sign turned. -/
def neg : Binary64 → Binary64
  | nan => nan
  | infinite a => infinite !a
  | finite a u => finite (!a) u

/-- The 63 bits of a magnitude: the exponent field above the 52 bits of the significand. Below
`2⁵³` units they are the units themselves. -/
def magnitudeBits (units : Nat) : Nat := ((units.log2 - 52) <<< 52) + units / spacing units

/-- The interchange encoding of a number; no number has one encoding of its own. -/
def toBits : Binary64 → Nat
  | nan => 0x7ff8000000000000
  | infinite a => (if a then 1 <<< 63 else 0) + 0x7ff0000000000000
  | finite a u => (if a then 1 <<< 63 else 0) + magnitudeBits u

def isNaN : Binary64 → Bool
  | nan => true
  | _ => false

def isFinite : Binary64 → Bool
  | finite .. => true
  | _ => false

end Binary64

end MetricsQuery
