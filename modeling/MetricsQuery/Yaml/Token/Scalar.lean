import MetricsQuery.Yaml.Token

/-!
# Scalars of YAML

Reading the three kinds of scalars: block scalars, whose lines are kept or folded, quoted scalars,
whose escapes are resolved and whose line breaks are folded, and plain scalars. Text is gathered in
reverse; a fuel that exceeds the number of characters left bounds each loop.
-/

namespace MetricsQuery.Yaml

/-- A scalar token and the cursor after it. -/
abbrev ScalarRead := Except Fault (Token × Cursor)

def hexDigit? (c : Char) : Option Nat :=
  if c.isDigit then some (c.toNat - 48)
  else if 'a' ≤ c ∧ c ≤ 'f' then some (c.toNat - 87)
  else if 'A' ≤ c ∧ c ≤ 'F' then some (c.toNat - 55)
  else none

/-! ## Folding -/

/-- White space inside a quoted or plain scalar: blanks, or a first line break and further ones. -/
structure Gap where
  broken : Bool := false
  blanks : List Char := []
  first : List Char := []
  more : List Char := []

/-- The text a gap stands for, in reverse: its blanks, or its line breaks with the first one folded
into a space or dropped in favour of further ones. -/
def Gap.reversed (g : Gap) : List Char :=
  if g.broken then
    if g.first = ['\n'] then (if g.more = [] then [' '] else g.more)
    else g.more ++ g.first
  else g.blanks

/-! ## Block scalars -/

/-- What happens to the line breaks at the end of a block scalar. -/
inductive Chomping where
  | clip
  | strip
  | keep
  deriving DecidableEq

def chompingOf (c : Char) : Chomping := if c = '+' then .keep else .strip

/-- Line breaks and indentation before a line of a block scalar, with the deepest column met. -/
def blockBreaks (indent : Nat) (start : Mark) :
    Nat → Nat → List Char → Mark → Cursor → Except Fault (Nat × List Char × Mark × Cursor)
  | 0, deepest, breaks, stop, c => .ok (deepest, breaks, stop, c)
  | n + 1, deepest, breaks, stop, c =>
    let spaces := c.rest.takeWhile (· == ' ')
    let c := c.skipMany
      (if indent = 0 then spaces.length else min spaces.length (indent - c.mark.column))
    let deepest := max deepest c.mark.column
    if (indent = 0 ∨ c.mark.column < indent) ∧ c.head = '\t' then
      c.fail .tabIndent .blockScalar start
    else if isBreak c.head then
      let (b, c) := c.readBreak
      blockBreaks indent start n deepest (b ++ breaks) c.mark c
    else .ok (deepest, breaks, stop, c)

/-- The lines of a block scalar on top of `text`, all in reverse; `leading` is the line break before
the current line, `breaks` are further ones, `indented` says that the last line began with a blank.
-/
def blockLines (literal : Bool) (indent : Nat) (start : Mark) :
    Nat → List Char → List Char → List Char → Bool → Mark → Cursor →
      Except Fault (List Char × List Char × List Char × Mark × Cursor)
  | 0, text, leading, breaks, _, stop, c => .ok (text, leading, breaks, stop, c)
  | n + 1, text, leading, breaks, indented, stop, c =>
    if c.mark.column = indent ∧ !isEnd c.head then do
      let blank := isBlank c.head
      let joint :=
        if !literal && leading = ['\n'] && !indented && !blank then
          if breaks = [] then [' '] else []
        else leading
      let (line, c) := c.span (!isBreakOrEnd ·)
      let (leading, c) := if isBreak c.head then c.readBreak else ([], c)
      let (_, after, stop, c) ← blockBreaks indent start (c.rest.length + 1) 0 [] c.mark c
      blockLines literal indent start n (line.reverse ++ (breaks ++ (joint ++ text))) leading after
        blank stop c
    else .ok (text, leading, breaks, stop, c)

/-- The indicators of a block scalar: its chomping and its indentation, zero if not given. -/
def blockHeader (start : Mark) (c : Cursor) : Except Fault (Chomping × Nat × Cursor) :=
  let indentation (c : Cursor) : Except Fault (Nat × Cursor) :=
    if c.head = '0' then c.fail .zeroIndent .blockScalar start
    else if c.head.isDigit then .ok (c.head.toNat - 48, c.skip)
    else .ok (0, c)
  if c.head = '+' ∨ c.head = '-' then do
    let (increment, r) ← indentation c.skip
    .ok (chompingOf c.head, increment, r)
  else do
    let (increment, r) ← indentation c
    if increment ≠ 0 ∧ (r.head = '+' ∨ r.head = '-') then
      .ok (chompingOf r.head, increment, r.skip)
    else .ok (.clip, increment, r)

/-- A block scalar in a block indented by `parent`, which is `-1` outside of all blocks. -/
def blockScalar (literal : Bool) (parent : Int) (c : Cursor) : ScalarRead := do
  let start := c.mark
  let (chomping, increment, c) ← blockHeader start c.skip
  let c := c.skipToLineEnd
  if !isBreakOrEnd c.head then c.fail .noDirectiveEnd .blockScalar start else
  let c := c.skipBreak
  let given := if increment = 0 then 0 else (max parent 0).toNat + increment
  let (deepest, breaks, stop, c) ← blockBreaks given start (c.rest.length + 1) 0 [] c.mark c
  let indent := if given = 0 then max (max deepest (parent + 1).toNat) 1 else given
  let (text, leading, breaks, stop, c) ←
    blockLines literal indent start (c.rest.length + 1) [] [] breaks false stop c
  let text := if chomping = .strip then text else leading ++ text
  let text := if chomping = .keep then breaks ++ text else text
  let style := if literal then .literal else .folded
  .ok (⟨.scalar (String.ofList text.reverse) style, start, stop⟩, c)

/-! ## Quoted scalars -/

/-- The character an escape letter stands for. -/
def simpleEscape? (c : Char) : Option Char :=
  if c = '0' then some '\x00'
  else if c = 'a' then some '\x07'
  else if c = 'b' then some '\x08'
  else if c = 't' ∨ c = '\t' then some '\t'
  else if c = 'n' then some '\n'
  else if c = 'v' then some '\x0b'
  else if c = 'f' then some '\x0c'
  else if c = 'r' then some '\r'
  else if c = 'e' then some '\x1b'
  else if c = ' ' ∨ c = '"' ∨ c = '/' ∨ c = '\\' then some c
  else if c = 'N' then some '\u0085'
  else if c = '_' then some '\u00a0'
  else if c = 'L' then some '\u2028'
  else if c = 'P' then some '\u2029'
  else none

/-- How many hexadecimal digits follow an escape letter. -/
def codeLength? (c : Char) : Option Nat :=
  if c = 'x' then some 2 else if c = 'u' then some 4 else if c = 'U' then some 8 else none

/-- The character of an escape whose backslash the cursor is at. -/
def quotedEscape (start : Mark) (c : Cursor) : Except Fault (Char × Cursor) :=
  match simpleEscape? (c.peek 1), codeLength? (c.peek 1) with
  | some e, _ => .ok (e, c.skipMany 2)
  | none, none => c.fail .unknownEscape .quotedEscape start
  | none, some n =>
    let c := c.skipMany 2
    let ds := (List.range n).filterMap fun k => hexDigit? (c.peek k)
    if ds.length ≠ n then c.fail .noHexDigits .quotedEscape start
    else
      let code := ds.foldl (fun v d => v * 16 + d) 0
      if (0xD800 ≤ code ∧ code ≤ 0xDFFF) ∨ 0x10FFFF < code then
        c.fail .badEscapeCode .quotedEscape start
      else .ok (Char.ofNat code, c.skipMany n)

/-- Characters of a quoted scalar up to white space, the closing quote or an escaped line break,
which is read; the flag tells whether there was one. -/
def quotedWord (single : Bool) (start : Mark) :
    Nat → List Char → Cursor → Except Fault (List Char × Bool × Cursor)
  | 0, text, c => .ok (text, false, c)
  | n + 1, text, c =>
    let ch := c.head
    if isBlankOrEnd ch then .ok (text, false, c)
    else if single && ch == '\'' && c.peek 1 == '\'' then
      quotedWord single start n ('\'' :: text) (c.skipMany 2)
    else if ch = (if single then '\'' else '"') then .ok (text, false, c)
    else if !single && ch == '\\' && isBreak (c.peek 1) then .ok (text, true, c.skip.readBreak.2)
    else if !single && ch == '\\' then do
      let (e, c) ← quotedEscape start c
      quotedWord single start n (e :: text) c
    else quotedWord single start n (ch :: text) c.skip

/-- White space after a word. Blanks that follow a line break are dropped. -/
def readGap : Nat → Gap → Cursor → Gap × Cursor
  | 0, g, c => (g, c)
  | n + 1, g, c =>
    if isBlank c.head then
      readGap n (if g.broken then g else { g with blanks := c.head :: g.blanks }) c.skip
    else if isBreak c.head then
      let (b, c) := c.readBreak
      readGap n
        (if g.broken then { g with more := b ++ g.more }
         else { g with broken := true, blanks := [], first := b }) c
    else (g, c)

/-- The content of a quoted scalar on top of `text`, in reverse, up to the closing quote. -/
def quotedText (single : Bool) (start : Mark) :
    Nat → List Char → Cursor → Except Fault (List Char × Cursor)
  | 0, text, c => .ok (text, c)
  | n + 1, text, c =>
    if c.atDocumentIndicator then c.fail .documentIndicator .quotedScalar start
    else if isEnd c.head then c.fail .endOfStream .quotedScalar start
    else do
      let (text, escaped, c) ← quotedWord single start (c.rest.length + 1) text c
      if c.head = (if single then '\'' else '"') then .ok (text, c)
      else
        let (g, c) := readGap (c.rest.length + 1) ⟨escaped, [], [], []⟩ c
        quotedText single start n (g.reversed ++ text) c

def quotedScalar (single : Bool) (c : Cursor) : ScalarRead := do
  let start := c.mark
  let (text, c) ← quotedText single start (c.rest.length + 1) [] c.skip
  let c := c.skip
  let style := if single then Style.singleQuoted else .doubleQuoted
  .ok (⟨.scalar (String.ofList text.reverse) style, start, c.mark⟩, c)

/-! ## Plain scalars -/

/-- A character that ends a plain scalar inside a flow collection. -/
def isFlowIndicator (c : Char) : Bool :=
  c == ',' || c == '[' || c == ']' || c == '\x7b' || c == '\x7d'

/-- Characters of a plain scalar up to white space or an indicator. -/
def plainWord (flow : Bool) (start : Mark) :
    Nat → List Char → Cursor → Except Fault (List Char × Cursor)
  | 0, text, c => .ok (text, c)
  | n + 1, text, c =>
    let ch := c.head
    if isBlankOrEnd ch then .ok (text, c)
    else if flow && ch == ':' && (isFlowIndicator (c.peek 1) || c.peek 1 == '?') then
      c.fail .colonInFlow .plainScalar start
    else if ch == ':' && isBlankOrEnd (c.peek 1) then .ok (text, c)
    else if flow && isFlowIndicator ch then .ok (text, c)
    else plainWord flow start n (ch :: text) c.skip

/-- White space after a word of a plain scalar, whose lines are indented by at least `indent`. -/
def plainGap (indent : Int) (start : Mark) : Nat → Gap → Cursor → Except Fault (Gap × Cursor)
  | 0, g, c => .ok (g, c)
  | n + 1, g, c =>
    if isBlank c.head then
      if g.broken && c.mark.column < indent && c.head == '\t' then
        c.fail .tabInPlain .plainScalar start
      else
        plainGap indent start n
          (if g.broken then g else { g with blanks := c.head :: g.blanks }) c.skip
    else if isBreak c.head then
      let (b, c) := c.readBreak
      plainGap indent start n
        (if g.broken then { g with more := b ++ g.more }
         else { g with broken := true, blanks := [], first := b }) c
    else .ok (g, c)

/-- The content of a plain scalar on top of `text`, in reverse, with the gap after it and the place
where it ends. -/
def plainText (flow : Bool) (indent : Int) (start : Mark) :
    Nat → List Char → Gap → Mark → Cursor → Except Fault (List Char × Gap × Mark × Cursor)
  | 0, text, g, stop, c => .ok (text, g, stop, c)
  | n + 1, text, g, stop, c =>
    if c.atDocumentIndicator ∨ c.head = '#' then .ok (text, g, stop, c)
    else do
      let (word, r) ← plainWord flow start (c.rest.length + 1) [] c
      let (text, g, stop) :=
        if word = [] then (text, g, stop) else (word ++ (g.reversed ++ text), {}, r.mark)
      if !(isBlank r.head || isBreak r.head) then .ok (text, g, stop, r)
      else
        let (g, r) ← plainGap indent start (r.rest.length + 1) g r
        if !flow && r.mark.column < indent then .ok (text, g, stop, r)
        else plainText flow indent start n text g stop r

/-- A plain scalar in a block indented by `parent`; the flag tells whether a line break follows. -/
def plainScalar (flow : Bool) (parent : Int) (c : Cursor) :
    Except Fault (Token × Bool × Cursor) := do
  let start := c.mark
  let (text, g, stop, c) ←
    plainText flow (parent + 1) start (c.rest.length + 1) [] {} c.mark c
  .ok (⟨.scalar (String.ofList text.reverse) .plain, start, stop⟩, g.broken, c)

end MetricsQuery.Yaml
