import MetricsQuery.Yaml.Token.Property

/-!
# The tokens of a YAML text

A layout is how far a text has been read: the tokens so far, the indentation of the open blocks, and
for each open flow collection the place that a simple key may have started at. A colon turns such a
place into a key, and so puts tokens before ones already read. `Token.ofText` reads all tokens; when
the text breaks off, only those are left whose place in the order was settled before.
-/

namespace MetricsQuery.Yaml

/-- A place that may turn out to be the start of a simple key. In a block, one at the indentation of
the block has to. -/
structure Candidate where
  required : Bool
  /-- The number of tokens before it. -/
  number : Nat
  mark : Mark

structure Layout where
  cursor : Cursor
  /-- The tokens so far, the last one first. -/
  reversed : List Token := []
  /-- The column of the innermost block; `-1` outside of all blocks. -/
  indent : Int := -1
  outer : List Int := []
  /-- One entry for the blocks and one for each open flow collection, the innermost first. -/
  candidates : List (Option Candidate) := [none]
  keyAllowed : Bool := true

namespace Layout

/-- Whether a flow collection is open. -/
def inFlow (s : Layout) : Bool := 1 < s.candidates.length

def count (s : Layout) : Nat := s.reversed.length

def mark (s : Layout) : Mark := s.cursor.mark

def column (s : Layout) : Nat := s.mark.column

def push (s : Layout) (t : Token) : Layout := { s with reversed := t :: s.reversed }

/-- The layout with a token without text as the one with the given number. -/
def insert (s : Layout) (number : Nat) (kind : TokenKind) (m : Mark) : Layout :=
  { s with reversed := s.reversed.insertIdx (s.count - number) ⟨kind, m, m⟩ }

/-- The layout with the next `n` characters as a token. -/
def pushNext (s : Layout) (kind : TokenKind) (n : Nat) : Layout :=
  let c := s.cursor.skipMany n
  { s with cursor := c, reversed := ⟨kind, s.mark, c.mark⟩ :: s.reversed }

/-! ## Simple keys -/

/-- The fault of a candidate that had to be a key. -/
def unmetKey (s : Layout) (k : Candidate) : Fault :=
  .syntaxError .noKeyColon s.mark (some (.simpleKey, k.mark))

/-- Gives up the innermost candidate. -/
def dropCandidate (s : Layout) : Except Fault Layout :=
  match s.candidates with
  | some k :: r =>
    if k.required then .error (s.unmetKey k) else .ok { s with candidates := none :: r }
  | _ => .ok s

/-- Makes the cursor's place a candidate, if a key may start there. -/
def addCandidate (s : Layout) : Except Fault Layout :=
  if s.keyAllowed then do
    let required := !s.inFlow && s.indent == (s.column : Int)
    let t ← s.dropCandidate
    .ok { t with candidates := some ⟨required, s.count, s.mark⟩ :: t.candidates.drop 1 }
  else .ok s

/-- Whether a candidate can no longer become a key; a key is within a line and 1024 characters. -/
def isStale (s : Layout) (k : Candidate) : Bool :=
  k.mark.line < s.mark.line || k.mark.index + 1024 < s.mark.index

/-- Gives up the stale candidates, from the outermost on. -/
def dropStale (s : Layout) : Except Fault Layout :=
  let stale := s.candidates.reverse.filterMap fun k => k.filter s.isStale
  match stale.find? (·.required) with
  | some k => .error (s.unmetKey k)
  | none => .ok { s with candidates := s.candidates.map fun k => k.filter (!s.isStale ·) }

/-! ## Indentation -/

/-- Opens a block at `column` unless one is open there; its start is the token `number`. -/
def openBlock (s : Layout) (column number : Nat) (kind : TokenKind) (m : Mark) : Layout :=
  if !s.inFlow && s.indent < (column : Int) then
    { s.insert number kind m with indent := column, outer := s.indent :: s.outer }
  else s

/-- Opens a block at the cursor. -/
def openBlockHere (s : Layout) (kind : TokenKind) : Layout :=
  s.openBlock s.column s.count kind s.mark

/-- Closes the blocks that are indented by more than `column`. -/
def closeBlocks (column : Int) : List Int → Layout → Layout
  | [], s => s
  | i :: is, s =>
    if column < s.indent then
      closeBlocks column is { s.push ⟨.blockEnd, s.mark, s.mark⟩ with indent := i, outer := is }
    else s

/-- The layout after a dedent to `column`; flow collections know no indentation. -/
def dedent (s : Layout) (column : Int) : Layout :=
  if s.inFlow then s else closeBlocks column s.outer s

/-! ## Tokens -/

/-- The layout at the next character that is no white space, comment or line break. -/
def skipSpace : Nat → Layout → Layout
  | 0, s => s
  | n + 1, s =>
    let c := if s.column = 0 ∧ s.cursor.head = '\uFEFF' then s.cursor.skip else s.cursor
    let tabs := s.inFlow || !s.keyAllowed
    let c := c.skipWhile fun ch => ch == ' ' || (tabs && ch == '\t')
    let c := if c.head = '#' then c.skipWhile (!isBreakOrEnd ·) else c
    if isBreak c.head then
      skipSpace n { s with cursor := c.readBreak.2, keyAllowed := s.keyAllowed || !s.inFlow }
    else { s with cursor := c }

/-- The end of the text; it ends the last line. -/
def streamEnd (s : Layout) : Except Fault Layout := do
  let m := s.mark
  let m := if m.column = 0 then m else ⟨m.index, m.line + 1, 0⟩
  let s ← ({ s with cursor := ⟨[], m⟩ }.dedent (-1)).dropCandidate
  .ok ({ s with keyAllowed := false }.push ⟨.streamEnd, m, m⟩)

/-- A directive or a document indicator: no block goes on after it. -/
def documentToken (s : Layout) (read : Cursor → TokenRead) : Except Fault Layout := do
  let s ← (s.dedent (-1)).dropCandidate
  let (t, c) ← read s.cursor
  .ok ({ s with keyAllowed := false, cursor := c }.push t)

/-- A document indicator. -/
def indicator (kind : TokenKind) (c : Cursor) : TokenRead :=
  let r := c.skipMany 3
  .ok (⟨kind, c.mark, r.mark⟩, r)

def openFlow (s : Layout) (kind : TokenKind) : Except Fault Layout := do
  let s ← s.addCandidate
  .ok ({ s with candidates := none :: s.candidates, keyAllowed := true }.pushNext kind 1)

def closeFlow (s : Layout) (kind : TokenKind) : Except Fault Layout := do
  let s ← s.dropCandidate
  let s := if s.inFlow then { s with candidates := s.candidates.drop 1 } else s
  .ok ({ s with keyAllowed := false }.pushNext kind 1)

def flowEntry (s : Layout) : Except Fault Layout := do
  let s ← s.dropCandidate
  .ok ({ s with keyAllowed := true }.pushNext .flowEntry 1)

/-- In a block, an indicator is allowed only where a key is, and opens a block. -/
def blockIndicator (s : Layout) (kind : TokenKind) (problem : Problem) : Except Fault Layout :=
  if s.inFlow then .ok s
  else if !s.keyAllowed then .error (.syntaxError problem s.mark none)
  else .ok (s.openBlockHere kind)

def blockEntry (s : Layout) : Except Fault Layout := do
  let s ← (← s.blockIndicator .blockSequenceStart .sequenceNotAllowed).dropCandidate
  .ok ({ s with keyAllowed := true }.pushNext .blockEntry 1)

def key (s : Layout) : Except Fault Layout := do
  let s ← (← s.blockIndicator .blockMappingStart .keyNotAllowed).dropCandidate
  .ok ({ s with keyAllowed := !s.inFlow }.pushNext .key 1)

/-- A colon: it turns the innermost candidate into a key, or follows a key that is marked. -/
def value (s : Layout) : Except Fault Layout := do
  match s.candidates with
  | some k :: r =>
    let s := s.insert k.number .key k.mark
    let s := s.openBlock k.mark.column k.number .blockMappingStart k.mark
    .ok ({ s with candidates := none :: r, keyAllowed := false }.pushNext .value 1)
  | _ =>
    let s ← s.blockIndicator .blockMappingStart .valueNotAllowed
    .ok ({ s with keyAllowed := !s.inFlow }.pushNext .value 1)

/-- A token that may start a simple key. -/
def keyToken (s : Layout) (read : Cursor → TokenRead) : Except Fault Layout := do
  let s ← s.addCandidate
  let (t, c) ← read s.cursor
  .ok ({ s with keyAllowed := false, cursor := c }.push t)

def plain (s : Layout) : Except Fault Layout := do
  let s ← s.addCandidate
  let (t, broken, c) ← plainScalar s.inFlow s.indent s.cursor
  .ok ({ s with keyAllowed := broken, cursor := c }.push t)

def block (s : Layout) (literal : Bool) : Except Fault Layout := do
  let s ← s.dropCandidate
  let (t, c) ← blockScalar literal s.indent s.cursor
  .ok ({ s with keyAllowed := true, cursor := c }.push t)

/-- A character that cannot start a plain scalar. -/
def isIndicator (c : Char) : Bool := "-?:,[]\x7b\x7d#&*!|>'\"%@`".toList.contains c

/-- Whether a plain scalar starts at the cursor. -/
def atPlain (s : Layout) : Bool :=
  let c := s.cursor
  !(isBlankOrEnd c.head || isIndicator c.head) || (c.head == '-' && !isBlank (c.peek 1)) ||
    (!s.inFlow && (c.head == '?' || c.head == ':') && !isBlankOrEnd (c.peek 1))

/-- The token at the cursor, which is at no white space. -/
def tokenHere (s : Layout) : Except Fault Layout :=
  let c := s.cursor
  let ends := isBlankOrEnd (c.peek 1)
  if isEnd c.head then s.streamEnd
  else if c.mark.column = 0 ∧ c.head = '%' then s.documentToken directive
  else if c.atIndicator '-' then s.documentToken (indicator .documentStart)
  else if c.atIndicator '.' then s.documentToken (indicator .documentEnd)
  else if c.head = '[' then s.openFlow .flowSequenceStart
  else if c.head = '\x7b' then s.openFlow .flowMappingStart
  else if c.head = ']' then s.closeFlow .flowSequenceEnd
  else if c.head = '\x7d' then s.closeFlow .flowMappingEnd
  else if c.head = ',' then s.flowEntry
  else if c.head = '-' ∧ ends then s.blockEntry
  else if c.head = '?' ∧ (s.inFlow ∨ ends) then s.key
  else if c.head = ':' ∧ (s.inFlow ∨ ends) then s.value
  else if c.head = '*' then s.keyToken (anchor true)
  else if c.head = '&' then s.keyToken (anchor false)
  else if c.head = '!' then s.keyToken (tag s.inFlow)
  else if (c.head = '|' ∨ c.head = '>') ∧ !s.inFlow then s.block (c.head == '|')
  else if c.head = '\'' ∨ c.head = '"' then s.keyToken (quotedScalar (c.head == '\''))
  else if s.atPlain then s.plain
  else c.fail .noTokenStart .nextToken c.mark

/-- The layout after one more token. -/
def next (s : Layout) : Except Fault Layout := do
  let s ← (skipSpace (s.cursor.rest.length + 1) s).dropStale
  (← (s.dedent s.column).tokenHere).dropStale

/-- The tokens before which no further token can be put. -/
def settled (s : Layout) : List Token :=
  s.reversed.reverse.take
    ((s.candidates.filterMap fun k => k.map Candidate.number).foldl min s.count)

def isDone (s : Layout) : Bool := (s.reversed.head?.map Token.kind) == some .streamEnd

/-- The tokens from a layout on, and the fault that ends them. -/
def tokens : Nat → Layout → List Token × Option Fault
  | 0, s => (s.reversed.reverse, none)
  | n + 1, s =>
    if s.isDone then (s.reversed.reverse, none)
    else match s.next with
      | .ok t => tokens n t
      | .error f => (s.settled, some f)

end Layout

/-- A character a YAML text may hold. -/
def isAllowed (c : Char) : Bool :=
  let n := c.toNat
  n == 9 || n == 10 || n == 13 || (0x20 ≤ n && n ≤ 0x7E) || n == 0x85 || (0xA0 ≤ n && n ≤ 0xD7FF) ||
    (0xE000 ≤ n && n ≤ 0xFFFD) || 0x10000 ≤ n

/-- The offset in bytes of the first character that is not allowed. -/
def controlOffset? : Nat → List Char → Option Nat
  | _, [] => none
  | n, c :: cs => if isAllowed c then controlOffset? (n + c.utf8Size) cs else some n

/-- The tokens of a text, and the fault that ends them if it is no YAML. -/
def Token.ofText (text : String) : List Token × Option Fault :=
  let cs := text.toList
  match controlOffset? 0 cs with
  | some n => ([], some (.controlCharacter n))
  | none =>
    let start : Mark := ⟨0, 0, 0⟩
    let cs := if cs.head? = some '\uFEFF' then cs.drop 1 else cs
    (Layout.mk ⟨cs, start⟩ [⟨.streamStart, start, start⟩] (-1) [] [none] true).tokens
      (cs.length + 2)

end MetricsQuery.Yaml
