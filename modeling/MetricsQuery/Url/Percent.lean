import MetricsQuery.Text.Utf8

/-!
# Percent encoding

A character that may not stand for itself is written as its UTF-8 bytes, each as `%` and two
hexadecimal digits. Which characters these are depends on the part of a URL; what is beyond ASCII
and the controls are among them everywhere. `decode` undoes the encoding and leaves a `%` without
two digits as it is.
-/

namespace MetricsQuery.Url.Percent

/-- An uppercase hexadecimal digit. -/
def hexDigit (n : Nat) : Char := (Nat.digitChar n).toUpper

/-- A byte as `%` and two digits. -/
def octet (b : UInt8) : List Char := ['%', hexDigit (b.toNat / 16), hexDigit (b.toNat % 16)]

/-- A character as its bytes. -/
def escaped (c : Char) : List Char := (String.utf8EncodeChar c).flatMap octet

/-! ## Characters that are encoded -/

def isControl (c : Char) : Bool := c.toNat < 0x20 || 0x7E < c.toNat

def inFragment (c : Char) : Bool := isControl c || " \"<>`".toList.contains c

def inPath (c : Char) : Bool := inFragment c || "#?\x7b\x7d".toList.contains c

def inUserinfo (c : Char) : Bool := inPath c || "/:;=@[\\]^|".toList.contains c

def inQuery (special : Bool) (c : Char) : Bool :=
  isControl c || " \"#<>".toList.contains c || (special && c == '\'')

/-- The text with the characters of `p` encoded. -/
def encode (p : Char → Bool) (cs : List Char) : List Char :=
  cs.flatMap fun c => if p c then escaped c else [c]

/-! ## Decoding -/

def hexValue? (b : UInt8) : Option Nat :=
  let n := b.toNat
  if 0x30 ≤ n ∧ n ≤ 0x39 then some (n - 0x30)
  else if 0x41 ≤ n ∧ n ≤ 0x46 then some (n - 55)
  else if 0x61 ≤ n ∧ n ≤ 0x66 then some (n - 87)
  else none

/-- The bytes that a text with encoded bytes stands for. -/
def decode : List UInt8 → List UInt8
  | 0x25 :: a :: b :: rest =>
    match hexValue? a, hexValue? b with
    | some x, some y => (x * 16 + y).toUInt8 :: decode rest
    | _, _ => 0x25 :: decode (a :: b :: rest)
  | b :: rest => b :: decode rest
  | [] => []

end MetricsQuery.Url.Percent
