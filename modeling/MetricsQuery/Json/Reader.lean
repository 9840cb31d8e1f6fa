import MetricsQuery.Json.Fault
import MetricsQuery.Json.Value
import MetricsQuery.Number.Literal
import MetricsQuery.Text.Utf8

/-!
# Reading JSON text

A reader takes the bytes not yet read and returns a value and the bytes after it, or a cause with
the number of bytes left where it was met. Containers are read by `elements` and `members`, which
take the reader of what they contain, so that a value of a known shape is read by the same rules as
a general one. `read` turns the place of a cause into a line and a column.
-/

namespace MetricsQuery.Json

/-- A cause and how many bytes were left where it was met. -/
structure Stop where
  cause : Cause
  left : Nat
  deriving DecidableEq, Repr

abbrev Reader (α : Type) := List UInt8 → Except Stop (α × List UInt8)

/-- The cause, met with `bs` still to be read. -/
def stopAt {α : Type} (c : Cause) (bs : List UInt8) : Except Stop α := .error ⟨c, bs.length⟩

/-- The cause, met at the first byte of `bs`, which counts as read if there is one. -/
def stopOn {α : Type} (c : Cause) (bs : List UInt8) : Except Stop α := .error ⟨c, bs.length - 1⟩

def isSpace (b : UInt8) : Bool := b == 0x20 || b == 0x0A || b == 0x09 || b == 0x0D

def isDigit (b : UInt8) : Bool := 0x30 ≤ b && b ≤ 0x39

def skipSpace (bs : List UInt8) : List UInt8 := bs.dropWhile isSpace

/-- The byte of an ASCII character. -/
def byte (c : Char) : UInt8 := c.toNat.toUInt8

/-! ## Words and numbers -/

/-- The rest of a word after its first letter. -/
def word : List Char → List UInt8 → Except Stop (List UInt8)
  | [], bs => .ok bs
  | _ :: _, [] => stopAt .endInValue []
  | c :: cs, b :: bs => if b = byte c then word cs bs else stopAt .badWord bs

/-- The bound of the integers that keep their digits. -/
def wordLimit : Nat := UInt64.size

/-- The power of ten a significand is scaled by in one step. -/
def stepExponent : Nat := 308

/-- The number `significand · 10 ^ exponent`, by one multiplication or division of binary64 numbers
for each step of at most `stepExponent`; `none` when it is too large. -/
def scale? (significand : Binary64) (exponent : Int) : Nat → Option Binary64
  | 0 => some significand
  | n + 1 =>
    if exponent.natAbs ≤ stepExponent then
      let power := Binary64.ofNat (Nat.pow 10 exponent.natAbs)
      if 0 ≤ exponent then
        if (significand.mul power).isFinite then some (significand.mul power) else none
      else some (significand.div power)
    else if significand = Binary64.zero then some significand
    else if 0 ≤ exponent then none
    else scale? (significand.div (Binary64.ofNat (Nat.pow 10 stepExponent))) (exponent + stepExponent) n

/-- The number a sign, a significand and a power of ten stand for. -/
def fromParts (positive : Bool) (significand : Nat) (exponent : Int) : Reader Number := fun bs =>
  match scale? (Binary64.ofNat significand) exponent (exponent.natAbs / stepExponent + 2) with
  | some x => .ok (.float (if positive then x else x.neg), bs)
  | none => stopAt .numberOutOfRange bs

/-- The largest exponent that is computed with. -/
def exponentLimit : Nat := (1 <<< 31) - 1

/-- The digits of an exponent after its first one; `none` when it grows too large, with the bytes
from that digit on. -/
def exponentDigits : Nat → List UInt8 → Option Nat × List UInt8
  | e, [] => (some e, [])
  | e, b :: bs =>
    if isDigit b then
      let e' := e * 10 + (b.toNat - 48)
      if exponentLimit < e' then (none, bs) else exponentDigits e' bs
    else (some e, b :: bs)

/-- What follows the letter of an exponent. -/
def afterExponent (positive : Bool) (significand : Nat) (start : Int) : Reader Number := fun bs =>
  let (up, bs) := match bs with
    | 0x2B :: r => (true, r)
    | 0x2D :: r => (false, r)
    | r => (true, r)
  match bs with
  | [] => stopAt .endInValue []
  | b :: r =>
    if isDigit b then
      match exponentDigits (b.toNat - 48) r with
      | (some e, r) => fromParts positive significand (if up then start + e else start - e) r
      | (none, r) =>
        if significand ≠ 0 ∧ up then stopAt .numberOutOfRange r
        else .ok (.float (.finite (!positive) 0), r.dropWhile isDigit)
    else stopAt .badNumber r

/-- The digits that still fit into a word of 64 bits, how many there were, and the rest. -/
def fittingDigits : Nat → Nat → List UInt8 → Nat × Nat × List UInt8
  | s, n, [] => (s, n, [])
  | s, n, b :: bs =>
    if isDigit b ∧ s * 10 + (b.toNat - 48) < wordLimit then
      fittingDigits (s * 10 + (b.toNat - 48)) (n + 1) bs
    else (s, n, b :: bs)

/-- What may follow the digits of a fraction. -/
def afterFraction (positive : Bool) (significand : Nat) (exponent : Int) : Reader Number
  | 0x65 :: r | 0x45 :: r => afterExponent positive significand exponent r
  | bs => fromParts positive significand exponent bs

/-- What follows the point: digits, of which those that no longer fit are dropped. -/
def afterPoint (positive : Bool) (significand : Nat) (exponent : Int) : Reader Number := fun bs =>
  let (s, n, r) := fittingDigits significand 0 bs
  match r with
  | [] => if n = 0 then stopOn .endInValue [] else afterFraction positive s (exponent - n) []
  | b :: _ =>
    if isDigit b then afterFraction positive s (exponent - n) (r.dropWhile isDigit)
    else if n = 0 then stopOn .badNumber r
    else afterFraction positive s (exponent - n) r

/-- What follows the digits of an integer that fits. -/
def afterInteger (positive : Bool) (significand : Nat) : Reader Number
  | 0x2E :: r => afterPoint positive significand 0 r
  | 0x65 :: r | 0x45 :: r => afterExponent positive significand 0 r
  | bs =>
    if positive then .ok (.natural significand, bs)
    else if significand = 0 ∨ 1 <<< 63 < significand then
      .ok (.float (Binary64.ofNat significand).neg, bs)
    else .ok (.negative significand, bs)

/-- What follows the digits of an integer that fit, when more digits come: each counts as a power
of ten. -/
def afterLongInteger (positive : Bool) (significand : Nat) : Reader Number := fun bs =>
  let exponent : Int := (bs.takeWhile isDigit).length
  match bs.dropWhile isDigit with
  | 0x2E :: r => afterPoint positive significand exponent r
  | 0x65 :: r | 0x45 :: r => afterExponent positive significand exponent r
  | r => fromParts positive significand exponent r

/-- A number after its sign. -/
def number (positive : Bool) : Reader Number
  | [] => stopAt .endInValue []
  | b :: bs =>
    if b = 0x30 then
      match bs with
      | c :: _ => if isDigit c then stopOn .badNumber bs else afterInteger positive 0 bs
      | [] => afterInteger positive 0 []
    else if isDigit b then
      let (s, _, r) := fittingDigits (b.toNat - 48) 0 bs
      match r with
      | c :: _ => if isDigit c then afterLongInteger positive s r else afterInteger positive s r
      | [] => afterInteger positive s []
    else stopAt .badNumber bs

/-! ## Strings -/

def hexValue? (b : UInt8) : Option Nat :=
  if isDigit b then some (b.toNat - 48)
  else if 0x61 ≤ b ∧ b ≤ 0x66 then some (b.toNat - 87)
  else if 0x41 ≤ b ∧ b ≤ 0x46 then some (b.toNat - 55)
  else none

/-- Four hexadecimal digits. -/
def hexQuad : Reader Nat
  | a :: b :: c :: d :: bs =>
    match hexValue? a, hexValue? b, hexValue? c, hexValue? d with
    | some a, some b, some c, some d => .ok (((a * 16 + b) * 16 + c) * 16 + d, bs)
    | _, _, _, _ => stopAt .badEscape bs
  | _ => stopAt .endInString []

/-- The second half of a surrogate pair, after its first half. -/
def lowSurrogate (high : Nat) : Reader Char
  | [] => stopAt .endInString []
  | b :: bs =>
    if b ≠ byte '\\' then stopAt .unfinishedSurrogate bs else
    match bs with
    | [] => stopAt .endInString []
    | c :: bs =>
      if c ≠ byte 'u' then stopAt .unfinishedSurrogate bs else do
      let (low, bs) ← hexQuad bs
      if low < 0xDC00 ∨ 0xDFFF < low then stopAt .loneSurrogate bs
      else .ok (Char.ofNat ((high - 0xD800) * 0x400 + (low - 0xDC00) + 0x10000), bs)

/-- The character of an escape, after the backslash. -/
def escape : Reader Char
  | [] => stopAt .endInString []
  | b :: bs =>
    if b = byte '"' then .ok ('"', bs)
    else if b = byte '\\' then .ok ('\\', bs)
    else if b = byte '/' then .ok ('/', bs)
    else if b = byte 'b' then .ok ('\x08', bs)
    else if b = byte 'f' then .ok ('\x0c', bs)
    else if b = byte 'n' then .ok ('\n', bs)
    else if b = byte 'r' then .ok ('\r', bs)
    else if b = byte 't' then .ok ('\t', bs)
    else if b = byte 'u' then do
      let (n, bs) ← hexQuad bs
      if 0xDC00 ≤ n ∧ n ≤ 0xDFFF then stopAt .loneSurrogate bs
      else if 0xD800 ≤ n ∧ n ≤ 0xDBFF then lowSurrogate n bs
      else .ok (Char.ofNat n, bs)
    else stopAt .badEscape bs

/-- The bytes of a string after its opening quote, in reverse on top of `acc`. -/
def stringBytes : Nat → List UInt8 → Reader (List UInt8)
  | 0, _, bs => stopAt .endInString bs
  | _ + 1, _, [] => stopAt .endInString []
  | n + 1, acc, b :: bs =>
    if b = byte '"' then .ok (acc, bs)
    else if b = byte '\\' then do
      let (c, bs) ← escape bs
      stringBytes n ((String.utf8EncodeChar c).reverse ++ acc) bs
    else if b < 0x20 then stopAt .controlCharacter bs
    else stringBytes n (b :: acc) bs

/-- A string after its opening quote; its bytes must be text. -/
def string : Reader String := fun bs => do
  let (acc, rest) ← stringBytes (bs.length + 1) [] bs
  match Utf8.decode? acc.reverse with
  | some s => .ok (s, rest)
  | none => stopAt .badCodePoint rest

/-! ## Containers -/

/-- The next element of a list, or its end; `first` before the first element. The closing bracket
is not read. -/
def nextElement {α : Type} (item : Reader α) (first : Bool) : Reader (Option α) := fun bs =>
  match skipSpace bs with
  | [] => stopOn .endInList []
  | b :: r =>
    if b = byte ']' then .ok (none, b :: r)
    else if first then (item (b :: r)).map fun (x, r) => (some x, r)
    else if b = byte ',' then
      match skipSpace r with
      | [] => stopOn .endInValue []
      | c :: r =>
        if c = byte ']' then stopOn .trailingComma (c :: r)
        else (item (c :: r)).map fun (x, r) => (some x, r)
    else stopOn .noCommaOrBracket (b :: r)

/-- The elements of a list after its opening bracket, up to the closing one. -/
def elements {α : Type} (item : Reader α) : Nat → Bool → Reader (List α)
  | 0, _, bs => stopAt .endInList bs
  | n + 1, first, bs => do
    match ← nextElement item first bs with
    | (none, r) => .ok ([], r)
    | (some x, r) =>
      let (xs, r) ← elements item n false r
      .ok (x :: xs, r)

/-- The closing bracket of a list. -/
def endList : Reader Unit := fun bs =>
  match skipSpace bs with
  | [] => stopOn .endInList []
  | b :: r =>
    if b = byte ']' then .ok ((), r)
    else if b = byte ',' then
      match skipSpace r with
      | [] => stopOn .trailingText []
      | c :: r => stopOn (if c = byte ']' then .trailingComma else .trailingText) (c :: r)
    else stopOn .trailingText (b :: r)

/-- The next key of an object, or its end; `first` before the first key. The closing brace is not
read. -/
def nextKey (first : Bool) : Reader (Option String) := fun bs =>
  match skipSpace bs with
  | [] => stopOn .endInObject []
  | b :: r =>
    if b = byte '\x7d' then .ok (none, b :: r)
    else if first then
      if b = byte '"' then (string r).map fun (s, r) => (some s, r)
      else stopOn .keyNotString (b :: r)
    else if b = byte ',' then
      match skipSpace r with
      | [] => stopOn .endInValue []
      | c :: r =>
        if c = byte '"' then (string r).map fun (s, r) => (some s, r)
        else stopOn (if c = byte '\x7d' then .trailingComma else .keyNotString) (c :: r)
    else stopOn .noCommaOrBrace (b :: r)

/-- The colon after a key. -/
def colon : Reader Unit := fun bs =>
  match skipSpace bs with
  | [] => stopOn .endInObject []
  | b :: r => if b = byte ':' then .ok ((), r) else stopOn .noColon (b :: r)

/-- The members of an object after its opening brace, up to the closing one. -/
def members {α : Type} (item : Reader α) : Nat → Bool → Reader (List (String × α))
  | 0, _, bs => stopAt .endInObject bs
  | n + 1, first, bs => do
    match ← nextKey first bs with
    | (none, r) => .ok ([], r)
    | (some k, r) =>
      let (_, r) ← colon r
      let (x, r) ← item r
      let (ms, r) ← members item n false r
      .ok ((k, x) :: ms, r)

/-- The closing brace of an object. -/
def endObject : Reader Unit := fun bs =>
  match skipSpace bs with
  | [] => stopOn .endInObject []
  | b :: r =>
    if b = byte '\x7d' then .ok ((), r)
    else stopOn (if b = byte ',' then .trailingComma else .trailingText) (b :: r)

/-! ## Values -/

/-- Containers may be nested one less than this deep. -/
def depthLimit : Nat := 128

/-- A value in which containers may be nested `depth` deep. -/
def value : Nat → Reader Value
  | depth, bs =>
    match skipSpace bs with
    | [] => stopOn .endInValue []
    | b :: r =>
      if b = byte 'n' then (word "ull".toList r).map fun r => (.null, r)
      else if b = byte 't' then (word "rue".toList r).map fun r => (.bool true, r)
      else if b = byte 'f' then (word "alse".toList r).map fun r => (.bool false, r)
      else if b = byte '-' then (number false r).map fun (n, r) => (.number n, r)
      else if isDigit b then (number true (b :: r)).map fun (n, r) => (.number n, r)
      else if b = byte '"' then (string r).map fun (s, r) => (.string s, r)
      else if b = byte '[' then
        match depth with
        | 0 => stopOn .tooDeep (b :: r)
        | d + 1 => do
          let (vs, r) ← elements (value d) (r.length + 1) true r
          let (_, r) ← endList r
          .ok (.array vs, r)
      else if b = byte '\x7b' then
        match depth with
        | 0 => stopOn .tooDeep (b :: r)
        | d + 1 => do
          let (ms, r) ← members (value d) (r.length + 1) true r
          let (_, r) ← endObject r
          .ok (.ofMembers ms, r)
      else stopOn .noValue (b :: r)

/-! ## Whole texts -/

/-- The line and the column after the bytes `bs`. -/
def place (bs : List UInt8) : Nat × Nat :=
  bs.foldl (fun (p : Nat × Nat) b => if b = 0x0A then (p.1 + 1, 0) else (p.1, p.2 + 1)) (1, 0)

/-- The fault that a stop in the text `bs` is. -/
def Stop.fault (bs : List UInt8) (s : Stop) : Fault :=
  let (line, column) := place (bs.take (bs.length - s.left))
  ⟨s.cause, line, column⟩

/-- What `r` reads from the whole text, which holds nothing else. -/
def readAll {α : Type} (r : Reader α) (bs : List UInt8) : Except Fault α :=
  match r bs with
  | .error s => .error (s.fault bs)
  | .ok (x, rest) =>
    match skipSpace rest with
    | [] => .ok x
    | rest => .error (Stop.fault bs ⟨.trailingText, rest.length - 1⟩)

/-- The value a text holds. -/
def read (bs : List UInt8) : Except Fault Value := readAll (value (depthLimit - 1)) bs

end MetricsQuery.Json
