import MetricsQuery.Url.Fault

/-!
# Numeric hosts

IPv4 addresses of one to four parts in decimal, octal or hexadecimal, and IPv6 addresses, read and
written in their canonical form.
-/

namespace MetricsQuery.Url

def hexDigit? (c : Char) : Option Nat :=
  if c.isDigit then some (c.toNat - 48)
  else if 'a' ≤ c ∧ c ≤ 'f' then some (c.toNat - 87)
  else if 'A' ≤ c ∧ c ≤ 'F' then some (c.toNat - 55)
  else none

/-- The value of digits in a base; nothing is zero. -/
def digitsIn? (base : Nat) (cs : List Char) : Option Nat :=
  (cs.mapM fun c => (hexDigit? c).filter (· < base)).map fun ds =>
    ds.foldl (fun n d => n * base + d) 0

/-- The parts of a text between the characters `sep`. -/
def splitOn (sep : Char → Bool) : List Char → List (List Char)
  | [] => [[]]
  | c :: cs =>
    match splitOn sep cs with
    | part :: parts => if sep c then [] :: part :: parts else (c :: part) :: parts
    | [] => [[]]

/-! ## IPv4 -/

/-- A part of an IPv4 address. -/
def ipv4Part? : List Char → Option Nat
  | [] => none
  | '0' :: 'x' :: cs | '0' :: 'X' :: cs => digitsIn? 16 cs
  | ['0'] => some 0
  | '0' :: cs => digitsIn? 8 cs
  | cs => digitsIn? 10 cs

/-- Whether the last part of a domain is a number, which makes the host an IPv4 address. -/
def endsInNumber (domain : List Char) : Bool :=
  let last := match (splitOn (· == '.') domain).reverse with
    | [] :: part :: _ => part
    | part :: _ => part
    | [] => []
  (last != [] && last.all Char.isDigit) || (ipv4Part? last).isSome

/-- The parts of an address before the last one, as the leading bytes. -/
def leadingBytes : Nat → List Nat → Nat
  | _, [] => 0
  | k, n :: ns => n <<< (8 * k) + leadingBytes (k - 1) ns

/-- The 32 bits of an address; the last part fills all bytes that are left. -/
def ipv4? (domain : List Char) : Option Nat := do
  let parts := splitOn (· == '.') domain
  let parts := if parts.getLast? = some [] then parts.dropLast else parts
  if 4 < parts.length then none
  let numbers ← parts.mapM ipv4Part?
  let last ← numbers.getLast?
  let front := numbers.dropLast
  if 1 <<< (8 * (4 - front.length)) ≤ last ∨ front.any (255 < ·) then none
  else some (leadingBytes 3 front + last)

/-- Four decimal parts. -/
def ipv4Text (n : Nat) : List Char :=
  (String.intercalate "." ([3, 2, 1, 0].map fun k => toString (n >>> (8 * k) % 256))).toList

/-! ## IPv6 -/

/-- The pieces of an address so far: those before `::`, and those after it if it has come. -/
structure Pieces where
  front : List Nat := []
  back : Option (List Nat) := none

namespace Pieces

/-- How many pieces there are; `::` counts as one. -/
def count (p : Pieces) : Nat := p.front.length + (p.back.elim 0 fun b => b.length + 1)

def push (p : Pieces) (n : Nat) : Pieces :=
  match p.back with
  | none => { p with front := p.front ++ [n] }
  | some b => { p with back := some (b ++ [n]) }

/-- All eight pieces, with zeros for `::`. -/
def all? (p : Pieces) : Option (List Nat) :=
  match p.back with
  | none => if p.front.length = 8 then some p.front else none
  | some b =>
    if p.count ≤ 8 then
      some (p.front ++ List.replicate (8 - p.front.length - b.length) 0 ++ b)
    else none

end Pieces

/-- The four bytes of an IPv4 address at the end of an IPv6 address. -/
def trailingIpv4? (cs : List Char) : Option (List Nat) := do
  let parts := splitOn (· == '.') cs
  let bytes ← parts.mapM fun part =>
    if part = [] ∨ 3 < part.length ∨ (part.head? = some '0' ∧ part.length ≠ 1) then none
    else (digitsIn? 10 part).filter (· ≤ 255)
  if bytes.length = 4 then some bytes else none

/-- The pieces that the rest of an address adds. -/
def ipv6Pieces? : Nat → Pieces → List Char → Option Pieces
  | _, p, [] => some p
  | 0, _, _ => none
  | n + 1, p, c :: cs =>
    if 8 ≤ p.count then none
    else if c = ':' then
      if p.back.isSome then none else ipv6Pieces? n { p with back := some [] } cs
    else
      let digits := ((c :: cs).take 4).takeWhile fun d => (hexDigit? d).isSome
      match (c :: cs).drop digits.length, digitsIn? 16 digits with
      | [], some v => some (p.push v)
      | '.' :: _, _ =>
        if digits = [] ∨ 6 < p.count then none
        else match trailingIpv4? (c :: cs) with
          | some [a, b, d, e] => some ((p.push (a * 256 + b)).push (d * 256 + e))
          | _ => none
      | ':' :: rest, some v => if rest = [] then none else ipv6Pieces? n (p.push v) rest
      | _, _ => none

/-- The eight pieces of an address without its brackets. -/
def ipv6? (cs : List Char) : Option (List Nat) :=
  match cs with
  | [] | [_] => none
  | ':' :: ':' :: rest => (ipv6Pieces? cs.length ⟨[], some []⟩ rest).bind Pieces.all?
  | ':' :: _ => none
  | _ => (ipv6Pieces? cs.length {} cs).bind Pieces.all?

/-- The number of zeros at the start. -/
def zeroRun (ns : List Nat) : Nat := (ns.takeWhile (· == 0)).length

/-- The longest run of at least two zeros, as its start and length; the first one of several. -/
def longestZeroRun? (ns : List Nat) : Option (Nat × Nat) :=
  let runs := (List.range ns.length).map fun i => (i, zeroRun (ns.drop i))
  (runs.foldl (fun best r => if best.2 < r.2 then r else best) (0, 1)) |>
    fun r => if 2 ≤ r.2 then some r else none

def pieceText (n : Nat) : List Char := Nat.toDigits 16 n

def piecesText (ns : List Nat) : List Char := [':'].intercalate (ns.map pieceText)

/-- The address in brackets, with its longest run of zeros left out. -/
def ipv6Text (ns : List Nat) : List Char :=
  let inner := match longestZeroRun? ns with
    | some (i, n) => piecesText (ns.take i) ++ [':', ':'] ++ piecesText (ns.drop (i + n))
    | none => piecesText ns
  '[' :: inner ++ [']']

end MetricsQuery.Url
