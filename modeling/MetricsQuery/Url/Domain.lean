import MetricsQuery.Text.Utf8
import MetricsQuery.Url.Percent
import MetricsQuery.Url.Punycode

/-!
# Domain names

A domain as it is looked up: letters are lowercase, and a label beyond ASCII is written in Punycode
after `xn--`. Characters that are forms of others are mapped to these, some are dropped, and some
cannot be in a domain. A label that is already in Punycode has to be one this encoding would give.
-/

namespace MetricsQuery.Url.Domain

/-- Ranges of capital letters, the step between them and the distance to the small letter. -/
def capitals : List (Nat × Nat × Nat × Nat) :=
  [(0x41, 0x5A, 1, 32), (0xC0, 0xD6, 1, 32), (0xD8, 0xDE, 1, 32), (0x100, 0x12E, 2, 1),
   (0x132, 0x136, 2, 1), (0x139, 0x147, 2, 1), (0x14A, 0x176, 2, 1), (0x179, 0x17D, 2, 1),
   (0x386, 0x386, 1, 38), (0x388, 0x38A, 1, 37), (0x38C, 0x38C, 1, 64), (0x38E, 0x38F, 1, 63),
   (0x391, 0x3A1, 1, 32), (0x3A3, 0x3AB, 1, 32), (0x400, 0x40F, 1, 80), (0x410, 0x42F, 1, 32),
   (0x460, 0x480, 2, 1), (0x48A, 0x4BE, 2, 1), (0x4D0, 0x52E, 2, 1), (0x531, 0x556, 1, 48),
   (0x1E00, 0x1E94, 2, 1), (0x1EA0, 0x1EFE, 2, 1)]

/-- Ranges of characters that are dropped. -/
def ignored : List (Nat × Nat) :=
  [(0xAD, 0xAD), (0x34F, 0x34F), (0x180B, 0x180F), (0x200B, 0x200B), (0x2060, 0x2060),
   (0x2064, 0x2064), (0xFE00, 0xFE0F), (0xFEFF, 0xFEFF)]

/-- Ranges of characters beyond ASCII that no domain has. -/
def disallowed : List (Nat × Nat) :=
  [(0x80, 0x9F), (0x61C, 0x61C), (0x1680, 0x1680), (0x180E, 0x180E), (0x200E, 0x200F),
   (0x2028, 0x202E), (0x2061, 0x2063), (0x2065, 0x206F), (0x2FF0, 0x2FFF), (0xE000, 0xF8FF),
   (0xFFF9, 0xFFFF), (0xE0000, 0x10FFFF)]

def inRanges (rs : List (Nat × Nat)) (n : Nat) : Bool := rs.any fun r => r.1 ≤ n && n ≤ r.2

/-- A character as a domain has it, before capitals are made small. -/
def unify (c : Char) : Char :=
  let n := c.toNat
  if n = 0x3002 ∨ n = 0xFF61 then '.'
  else if 0xFF01 ≤ n ∧ n ≤ 0xFF5E then Char.ofNat (n - 0xFEE0)
  else if n = 0x3000 ∨ n = 0xA0 ∨ n = 0x202F ∨ n = 0x205F ∨ (0x2000 ≤ n ∧ n ≤ 0x200A) then ' '
  else if n = 0x178 then 'ÿ'
  else c

/-- The small letter for a capital one. -/
def toSmall (c : Char) : Char :=
  let n := c.toNat
  match capitals.find? fun (lo, hi, step, _) => lo ≤ n && n ≤ hi && (n - lo) % step == 0 with
  | some (_, _, _, distance) => Char.ofNat (n + distance)
  | none => c

/-- An ASCII character that no domain has. -/
def isForbidden (c : Char) : Bool :=
  c.toNat ≤ 0x20 || c.toNat == 0x7F || "%#/:<>?@[\\]^|".toList.contains c

/-- The characters of a domain in their common form, if it can have them. -/
def mapped? (cs : List Char) : Option (List Char) :=
  let kept := cs.filter fun c => !inRanges ignored c.toNat
  let out := kept.map fun c => toSmall (unify c)
  if out.any fun c => isForbidden c || inRanges disallowed c.toNat then none else some out

/-- The labels between the dots. -/
def labels : List Char → List (List Char)
  | [] => [[]]
  | c :: cs =>
    match labels cs with
    | label :: rest => if c = '.' then [] :: label :: rest else (c :: label) :: rest
    | [] => [[]]

def punycodeMark : List Char := "xn--".toList

def isAscii (cs : List Char) : Bool := cs.all (·.toNat < 128)

/-- A label in ASCII. -/
def label? (cs : List Char) : Option (List Char) :=
  if punycodeMark.isPrefixOf cs then do
    let inner ← Punycode.decode? (cs.drop 4)
    if isAscii inner ∨ mapped? inner ≠ some inner ∨ '.' ∈ inner then none else some cs
  else if isAscii cs then some cs
  else some (punycodeMark ++ Punycode.encode cs)

/-- The domain in ASCII, if the bytes are one. -/
def toAscii? (bytes : List UInt8) : Option (List Char) := do
  let cs ← Utf8.decodeList? bytes
  let ls ← (labels (← mapped? cs)).mapM label?
  some (['.'].intercalate ls)

end MetricsQuery.Url.Domain
