/-!
# Punycode

Text beyond ASCII as letters and digits: first the ASCII characters, then, after the last hyphen,
where the others are to be inserted, in the order of their code points. Each insertion is written as
a number of variable length whose thresholds adapt to the numbers before it.
-/

namespace MetricsQuery.Url.Punycode

/-- A letter for 0 to 25, a digit for 26 to 35. -/
def digitChar (n : Nat) : Char := Char.ofNat (if n < 26 then 97 + n else 22 + n)

def digitValue? (c : Char) : Option Nat :=
  if 'a' ≤ c ∧ c ≤ 'z' then some (c.toNat - 97)
  else if 'A' ≤ c ∧ c ≤ 'Z' then some (c.toNat - 65)
  else if c.isDigit then some (c.toNat - 22)
  else none

/-- The threshold of the digit at position `k`, in steps of 36. -/
def threshold (k bias : Nat) : Nat := min 26 (max 1 (k - bias))

/-- Divides by 35 while the number is too large, and counts in steps of 36. -/
def shrink : Nat → Nat → Nat → Nat × Nat
  | 0, delta, k => (delta, k)
  | n + 1, delta, k => if 455 < delta then shrink n (delta / 35) (k + 36) else (delta, k)

/-- The bias after a number, of which there have been `count`. -/
def adapt (delta count : Nat) (first : Bool) : Nat :=
  let delta := if first then delta / 700 else delta / 2
  let delta := delta + delta / count
  let (delta, k) := shrink delta delta 0
  k + 36 * delta / (delta + 38)

/-- The digits of a number from position `k` on. -/
def number (bias : Nat) : Nat → Nat → Nat → List Char
  | 0, _, _ => []
  | n + 1, k, q =>
    let t := threshold k bias
    if q < t then [digitChar q]
    else digitChar (t + (q - t) % (36 - t)) :: number bias n (k + 36) ((q - t) / (36 - t))

structure Encoder where
  output : List Char
  delta : Nat
  bias : Nat
  count : Nat

/-- What one character of the text adds while `point` is inserted. -/
def Encoder.step (basic point : Nat) (e : Encoder) (c : Char) : Encoder :=
  if c.toNat < point then { e with delta := e.delta + 1 }
  else if c.toNat = point then
    { output := e.output ++ number e.bias (e.delta + 1) 36 e.delta
      delta := 0
      bias := adapt e.delta (e.count + 1) (e.count = basic)
      count := e.count + 1 }
  else e

/-- Inserts the code points of the list, which are in order, from `next` on. -/
def Encoder.points (text : List Char) (basic : Nat) : Nat → List Nat → Encoder → Encoder
  | _, [], e => e
  | next, p :: ps, e =>
    let e := { e with delta := e.delta + (p - next) * (e.count + 1) }
    let e := text.foldl (Encoder.step basic p) e
    Encoder.points text basic (p + 1) ps { e with delta := e.delta + 1 }

/-- The text as letters, digits and hyphens. -/
def encode (text : List Char) : List Char :=
  let ascii := text.filter (·.toNat < 128)
  let others := ((text.map Char.toNat).filter (128 ≤ ·)).mergeSort (· ≤ ·) |>.eraseDups
  let start := if ascii = [] then [] else ascii ++ ['-']
  (Encoder.points text ascii.length 128 others ⟨start, 0, 72, ascii.length⟩).output

/-- A number from position `k` on, with what follows it. -/
def readNumber (bias : Nat) : Nat → Nat → Nat → List Char → Option (Nat × List Char)
  | _, _, _, [] => none
  | k, weight, sum, c :: cs => do
    let d ← digitValue? c
    let t := threshold k bias
    let sum := sum + d * weight
    if d < t then some (sum, cs) else readNumber bias (k + 36) (weight * (36 - t)) sum cs

/-- Inserts the code points of the rest of the input into `text`. -/
def insertions : Nat → List Char → Nat → Nat → Nat → List Char → Option (List Char)
  | _, text, _, _, _, [] => some text
  | 0, _, _, _, _, _ => none
  | fuel + 1, text, point, place, bias, cs => do
    let (delta, rest) ← readNumber bias 36 1 0 cs
    let size := text.length + 1
    let total := place + delta
    let point := point + total / size
    if 0x10FFFF < point ∨ (0xD800 ≤ point ∧ point ≤ 0xDFFF) then none
    let index := total % size
    insertions fuel (text.take index ++ Char.ofNat point :: text.drop index) point (index + 1)
      (adapt delta size (place == 0)) rest

/-- The text that was encoded. -/
def decode? (input : List Char) : Option (List Char) :=
  let tail := (input.reverse.takeWhile (· != '-')).reverse
  let front := (input.take (input.length - tail.length)).dropLast
  if !input.all (·.toNat < 128) then none
  else insertions (tail.length + 1) front 128 0 72 tail

end MetricsQuery.Url.Punycode
