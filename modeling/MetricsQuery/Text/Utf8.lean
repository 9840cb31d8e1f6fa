/-!
# UTF-8

Text as bytes and back. `scan` reads one step of a byte sequence: a character, or the longest
malformed prefix. `decode?` refuses malformed bytes, `decodeLossy` writes U+FFFD for each malformed
prefix.
-/

namespace MetricsQuery.Utf8

/-- The bytes of a text. -/
def encode (s : String) : List UInt8 := s.toList.flatMap String.utf8EncodeChar

/-- What a leading byte announces: how many bytes follow and the range of the first of them. -/
def lead? (b : UInt8) : Option (Nat × UInt8 × UInt8) :=
  if 0xC2 ≤ b ∧ b ≤ 0xDF then some (1, 0x80, 0xBF)
  else if b = 0xE0 then some (2, 0xA0, 0xBF)
  else if b = 0xED then some (2, 0x80, 0x9F)
  else if 0xE1 ≤ b ∧ b ≤ 0xEF then some (2, 0x80, 0xBF)
  else if b = 0xF0 then some (3, 0x90, 0xBF)
  else if 0xF1 ≤ b ∧ b ≤ 0xF3 then some (3, 0x80, 0xBF)
  else if b = 0xF4 then some (3, 0x80, 0x8F)
  else none

/-- The low six bits of a continuation byte. -/
def payload (b : UInt8) : Nat := b.toNat % 64

def isContinuation (b : UInt8) : Bool := 0x80 ≤ b && b ≤ 0xBF

/-- One step through bytes that are not empty: the character at their head, or `none` for a
malformed prefix, and the bytes after it. -/
def scan (b : UInt8) (bs : List UInt8) : Option Char × List UInt8 :=
  if b < 0x80 then (some (Char.ofNat b.toNat), bs)
  else match lead? b, bs with
    | some (1, lo, hi), c :: r =>
      if lo ≤ c ∧ c ≤ hi then (some (Char.ofNat (b.toNat % 32 * 64 + payload c)), r) else (none, bs)
    | some (2, lo, hi), c :: r =>
      if lo ≤ c ∧ c ≤ hi then
        match r with
        | d :: r' =>
          if isContinuation d then
            (some (Char.ofNat ((b.toNat % 16 * 64 + payload c) * 64 + payload d)), r')
          else (none, r)
        | [] => (none, [])
      else (none, bs)
    | some (3, lo, hi), c :: r =>
      if lo ≤ c ∧ c ≤ hi then
        match r with
        | d :: r' =>
          if isContinuation d then
            match r' with
            | e :: r'' =>
              if isContinuation e then
                (some (Char.ofNat
                  (((b.toNat % 8 * 64 + payload c) * 64 + payload d) * 64 + payload e)), r'')
              else (none, r')
            | [] => (none, [])
          else (none, r)
        | [] => (none, [])
      else (none, bs)
    | _, _ => (none, bs)

theorem length_scan_le (b : UInt8) (bs : List UInt8) : (scan b bs).2.length ≤ bs.length := by
  unfold scan
  repeat' split
  all_goals simp only [List.length_cons, List.length_nil]
  all_goals omega

/-- The characters of well-formed bytes. -/
def decodeList? : List UInt8 → Option (List Char)
  | [] => some []
  | b :: bs =>
    match (scan b bs).1 with
    | some c => (decodeList? (scan b bs).2).map (c :: ·)
    | none => none
termination_by bs => bs.length
decreasing_by have := length_scan_le b bs; simp; omega

/-- The text of well-formed bytes. -/
def decode? (bs : List UInt8) : Option String := (decodeList? bs).map String.ofList

/-- The characters of the bytes, with U+FFFD for each malformed prefix. -/
def decodeListLossy : List UInt8 → List Char
  | [] => []
  | b :: bs => (scan b bs).1.getD '\uFFFD' :: decodeListLossy (scan b bs).2
termination_by bs => bs.length
decreasing_by have := length_scan_le b bs; simp; omega

/-- The text of the bytes, with U+FFFD for each malformed prefix. -/
def decodeLossy (bs : List UInt8) : String := String.ofList (decodeListLossy bs)

end MetricsQuery.Utf8
