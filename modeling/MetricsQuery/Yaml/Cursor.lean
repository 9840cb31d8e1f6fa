import MetricsQuery.Yaml.Fault

/-!
# Moving through YAML text

A cursor is the text not yet read and the place it starts at. The character after the end is NUL,
which no YAML text holds. Line breaks are the five of YAML 1.1; a carriage return and a line feed
are one break.
-/

namespace MetricsQuery.Yaml

structure Cursor where
  rest : List Char
  mark : Mark
  deriving Repr, Inhabited

def isBreak (c : Char) : Bool :=
  c == '\n' || c == '\r' || c == '\u0085' || c == '\u2028' || c == '\u2029'

def isBlank (c : Char) : Bool := c == ' ' || c == '\t'

def isEnd (c : Char) : Bool := c == '\x00'

def isBreakOrEnd (c : Char) : Bool := isBreak c || isEnd c

def isBlankOrEnd (c : Char) : Bool := isBlank c || isBreakOrEnd c

/-- A character of a name of an anchor, a directive or a tag handle. -/
def isWordChar (c : Char) : Bool := c.isAlphanum || c == '_' || c == '-'

namespace Cursor

/-- The character `n` places ahead. -/
def peek (c : Cursor) (n : Nat) : Char := c.rest.getD n '\x00'

def head (c : Cursor) : Char := c.peek 0

/-- The cursor after one character that is no line break. -/
def skip (c : Cursor) : Cursor :=
  ⟨c.rest.drop 1, c.mark.index + 1, c.mark.line, c.mark.column + 1⟩

/-- The cursor after `n` characters that are no line breaks. -/
def skipMany (c : Cursor) (n : Nat) : Cursor :=
  ⟨c.rest.drop n, c.mark.index + n, c.mark.line, c.mark.column + n⟩

/-- The cursor after a line break, and the break as content keeps it. -/
def readBreak (c : Cursor) : List Char × Cursor :=
  match c.rest with
  | '\r' :: '\n' :: r => (['\n'], ⟨r, c.mark.index + 2, c.mark.line + 1, 0⟩)
  | b :: r =>
    (if b = '\u2028' ∨ b = '\u2029' then [b] else ['\n'], ⟨r, c.mark.index + 1, c.mark.line + 1, 0⟩)
  | [] => ([], c)

/-- The characters of `p` at the cursor, and the cursor after them; none of them is a break. -/
def span (p : Char → Bool) (c : Cursor) : List Char × Cursor :=
  let cs := c.rest.takeWhile p
  (cs, c.skipMany cs.length)

def skipWhile (p : Char → Bool) (c : Cursor) : Cursor := (c.span p).2

/-- Whether the cursor is at the start of a line with three times the character `b` alone. -/
def atIndicator (c : Cursor) (b : Char) : Bool :=
  c.mark.column == 0 && c.peek 0 == b && c.peek 1 == b && c.peek 2 == b && isBlankOrEnd (c.peek 3)

/-- Whether the cursor is at the start of a line with a document indicator. -/
def atDocumentIndicator (c : Cursor) : Bool := c.atIndicator '-' || c.atIndicator '.'

/-- A fault at the cursor, within a construct that began at `start`. -/
def fail {α : Type} (c : Cursor) (problem : Problem) (construct : Construct) (start : Mark) :
    Except Fault α :=
  .error (.syntaxError problem c.mark (some (construct, start)))

/-- The cursor after blanks and a comment, up to the end of the line. -/
def skipToLineEnd (c : Cursor) : Cursor :=
  let c := c.skipWhile isBlank
  if c.head = '#' then c.skipWhile (!isBreakOrEnd ·) else c

/-- The cursor after a line break, if there is one. -/
def skipBreak (c : Cursor) : Cursor := if isBreak c.head then c.readBreak.2 else c

end Cursor

end MetricsQuery.Yaml
