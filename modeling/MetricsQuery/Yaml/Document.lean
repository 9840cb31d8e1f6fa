import MetricsQuery.Yaml.Token.Layout

/-!
# Documents of YAML

A document is the sequence of its events: scalars, aliases, and the starts and ends of collections,
each with its place. `Document.ofText` takes the tokens of a text apart by the grammar of YAML. The
events before a fault are kept, because whoever reads them may object to one of them first.
-/

namespace MetricsQuery.Yaml

inductive Content where
  | scalar (text : String) (style : Style) (tag : Option String)
  | aliased (anchor : Nat)
  | sequenceStart
  | sequenceEnd
  | mappingStart
  | mappingEnd
  /-- The only event of a text without documents. -/
  | void
  deriving DecidableEq, Repr, Inhabited

structure Event where
  content : Content
  mark : Mark
  deriving DecidableEq, Repr, Inhabited

/-- The first document of a text. -/
structure Document where
  events : List Event
  /-- The number of an anchor and the number of events before its node, the last anchor first. -/
  anchors : List (Nat × Nat)
  /-- What ends the events too early. -/
  fault : Option Fault
  /-- Whether anything but the end of the text follows. -/
  hasMore : Bool

/-- How far the tokens have been taken apart. -/
structure Progress where
  tokens : List Token
  /-- The fault after the last token. Tokens without one end with a token that is never passed. -/
  stop : Option Fault
  /-- The tag handles of the document and what they stand for. -/
  handles : List (String × String) := []
  /-- The events so far, the last one first. -/
  reversed : List Event := []
  /-- The numbers of the anchors. -/
  names : List (String × Nat) := []
  anchors : List (Nat × Nat) := []

/-- A step of the grammar; a fault leaves the events before it. -/
abbrev Grammar := EStateM Fault Progress

namespace Grammar

/-- The next token. -/
def peek : Grammar Token := do
  let s ← get
  match s.tokens with
  | t :: _ => pure t
  | [] => throw (s.stop.getD (.syntaxError .endOfStream default none))

def skip : Grammar Unit := modify fun s => { s with tokens := s.tokens.drop 1 }

def emit (content : Content) (m : Mark) : Grammar Unit :=
  modify fun s => { s with reversed := ⟨content, m⟩ :: s.reversed }

/-- A node that is left out. -/
def emitEmpty (m : Mark) : Grammar Unit := emit (.scalar "" .plain none) m

def fail (problem : Problem) (place : Mark) (construct : Construct) (start : Mark) : Grammar Unit :=
  throw (.syntaxError problem place (some (construct, start)))

/-- An alias stands for the node of the last anchor of its name. -/
def emitAlias (name : String) (m : Mark) : Grammar Unit := do
  match (← get).names.lookup name with
  | some n => emit (.aliased n) m
  | none => throw (.unknownAnchor m)

/-- Gives the next node an anchor, numbered by how many names of anchors there are already. -/
def anchorNext (name : String) : Grammar Unit :=
  modify fun s =>
    let n := s.names.length
    { s with
      names := (name, n) :: s.names.filter (·.1 != name)
      anchors := (n, s.reversed.length) :: s.anchors }

/-! ## Properties of nodes -/

/-- What precedes the content of a node, and where the node starts. -/
structure Properties where
  start : Mark
  anchor : Option String := none
  tag : Option (String × String × Mark) := none

def anchor? : TokenKind → Option String
  | .anchor name => some name
  | _ => none

def tag? : TokenKind → Option (String × String)
  | .tag handle suffix => some (handle, suffix)
  | _ => none

/-- At most one anchor and one tag, in any order. -/
def properties : Grammar Properties := do
  let t ← peek
  match anchor? t.kind, tag? t.kind with
  | some name, _ =>
    skip
    let u ← peek
    match tag? u.kind with
    | some (h, s) => skip; pure ⟨t.start, some name, some (h, s, u.start)⟩
    | none => pure ⟨t.start, some name, none⟩
  | none, some (h, s) =>
    skip
    let u ← peek
    match anchor? u.kind with
    | some name => skip; pure ⟨t.start, some name, some (h, s, t.start)⟩
    | none => pure ⟨t.start, none, some (h, s, t.start)⟩
  | none, none => pure ⟨t.start, none, none⟩

/-- The tag that a handle and a suffix stand for. -/
def resolveTag (p : Properties) : Grammar (Option String) := do
  match p.tag with
  | none => pure none
  | some (handle, suffix, m) =>
    if handle = "" then pure (some suffix)
    else match (← get).handles.lookup handle with
      | some stem => pure (some (stem ++ suffix))
      | none =>
        fail .undefinedTag m .node p.start
        pure none

/-! ## Nodes -/

/-- Whether the node after an indicator is left out, because one of `kinds` follows it. -/
def isOmittedBefore (kinds : List TokenKind) : Grammar (Token × Bool) := do
  let t ← peek
  pure (t, kinds.contains t.kind)

mutual

/-- A node; outside of blocks only flow collections are allowed, and only in a mapping a sequence
may be indented like its key. The fuel bounds nesting and length. -/
def node (inBlock indentless : Bool) : Nat → Grammar Unit
  | 0 => pure ()
  | n + 1 => do
    let t ← peek
    match t.kind with
    | .aliased name => skip; emitAlias name t.start
    | _ =>
      let p ← properties
      let tag ← resolveTag p
      let t ← peek
      let begin : Grammar Unit := match p.anchor with
        | some name => anchorNext name
        | none => pure ()
      match t.kind with
      | .scalar text style =>
        begin
        emit (.scalar text style (if tag = some "!" then none else tag)) p.start
        skip
      | .flowSequenceStart =>
        begin; emit .sequenceStart p.start; skip; flowSequence t.start true n
      | .flowMappingStart =>
        begin; emit .mappingStart p.start; skip; flowMapping t.start true n
      | kind =>
        if indentless && kind == .blockEntry then
          begin; emit .sequenceStart p.start; indentlessSequence n
        else if inBlock && kind == .blockSequenceStart then
          begin; emit .sequenceStart p.start; skip; blockSequence t.start n
        else if inBlock && kind == .blockMappingStart then
          begin; emit .mappingStart p.start; skip; blockMapping t.start n
        else if p.anchor.isSome || p.tag.isSome then
          begin; emit (.scalar "" .plain tag) p.start
        else fail .noNode t.start (if inBlock then .blockNode else .flowNode) p.start

/-- The entries of a sequence in a block of its own. -/
def blockSequence (start : Mark) : Nat → Grammar Unit
  | 0 => pure ()
  | n + 1 => do
    let t ← peek
    if t.kind = .blockEntry then
      skip
      if (← isOmittedBefore [.blockEntry, .blockEnd]).2 then emitEmpty t.stop
      else node true false n
      blockSequence start n
    else if t.kind = .blockEnd then
      emit .sequenceEnd t.start
      skip
    else fail .noDash t.start .blockCollection start

/-- The entries of a sequence that is indented like the key it belongs to. -/
def indentlessSequence : Nat → Grammar Unit
  | 0 => pure ()
  | n + 1 => do
    let t ← peek
    if t.kind = .blockEntry then
      skip
      if (← isOmittedBefore [.blockEntry, .key, .value, .blockEnd]).2 then emitEmpty t.stop
      else node true false n
      indentlessSequence n
    else emit .sequenceEnd t.start

/-- The entries of a mapping in a block. -/
def blockMapping (start : Mark) : Nat → Grammar Unit
  | 0 => pure ()
  | n + 1 => do
    let t ← peek
    if t.kind = .key then
      skip
      if (← isOmittedBefore [.key, .value, .blockEnd]).2 then emitEmpty t.stop
      else node true true n
      let v ← peek
      if v.kind = .value then
        skip
        if (← isOmittedBefore [.key, .value, .blockEnd]).2 then emitEmpty v.stop
        else node true true n
      else emitEmpty v.start
      blockMapping start n
    else if t.kind = .blockEnd then
      emit .mappingEnd t.start
      skip
    else fail .noKey t.start .blockMapping start

/-- The value of an entry of a flow collection that ends with `closing`. -/
def flowValue (closing : TokenKind) : Nat → Grammar Unit
  | 0 => pure ()
  | n + 1 => do
    let v ← peek
    if v.kind = .value then
      skip
      let (t, omitted) ← isOmittedBefore [.flowEntry, closing]
      if omitted then emitEmpty t.start else node false false n
    else emitEmpty v.start

/-- The entries of a sequence in brackets; one with a key is a mapping of its own. -/
def flowSequence (start : Mark) (first : Bool) : Nat → Grammar Unit
  | 0 => pure ()
  | n + 1 => do
    let t ← peek
    if t.kind = .flowSequenceEnd then
      emit .sequenceEnd t.start
      skip
    else if !first && t.kind != .flowEntry then
      fail .noSequenceEnd t.start .flowSequence start
    else
      unless first do skip
      let t ← peek
      if t.kind = .key then
        emit .mappingStart t.start
        skip
        let (k, omitted) ← isOmittedBefore [.value, .flowEntry, .flowSequenceEnd]
        if omitted then
          skip
          emitEmpty k.stop
        else node false false n
        flowValue .flowSequenceEnd n
        emit .mappingEnd (← peek).start
        flowSequence start false n
      else if t.kind = .flowSequenceEnd then
        emit .sequenceEnd t.start
        skip
      else
        node false false n
        flowSequence start false n

/-- The entries of a mapping in braces. -/
def flowMapping (start : Mark) (first : Bool) : Nat → Grammar Unit
  | 0 => pure ()
  | n + 1 => do
    let t ← peek
    if t.kind = .flowMappingEnd then
      emit .mappingEnd t.start
      skip
    else if !first && t.kind != .flowEntry then
      fail .noMappingEnd t.start .flowMapping start
    else
      unless first do skip
      let t ← peek
      if t.kind = .key then
        skip
        let (k, omitted) ← isOmittedBefore [.value, .flowEntry, .flowMappingEnd]
        if omitted then emitEmpty k.start else node false false n
        flowValue .flowMappingEnd n
        flowMapping start false n
      else if t.kind = .flowMappingEnd then
        emit .mappingEnd t.start
        skip
      else
        node false false n
        emitEmpty (← peek).start
        flowMapping start false n

end

/-! ## Documents -/

def isDirective : TokenKind → Bool
  | .version .. | .tagDirective .. => true
  | _ => false

/-- The handles every document has. -/
def standardHandles : List (String × String) := [("!", "!"), ("!!", "tag:yaml.org,2002:")]

/-- The directives of a document: one version and each tag handle once. -/
def directives (versioned : Bool) : Nat → Grammar Unit
  | 0 => pure ()
  | n + 1 => do
    let t ← peek
    match t.kind with
    | .version major minor =>
      if versioned then throw (.syntaxError .duplicateVersion t.start none)
      if major ≠ 1 ∨ (minor ≠ 1 ∧ minor ≠ 2) then throw (.syntaxError .badVersion t.start none)
      skip
      directives true n
    | .tagDirective handle stem =>
      if ((← get).handles.lookup handle).isSome then
        throw (.syntaxError .duplicateTag t.start none)
      modify fun s => { s with handles := (handle, stem) :: s.handles }
      skip
      directives versioned n
    | _ => modify fun s => { s with handles := s.handles ++ standardHandles }

/-- The first document, after the start of the stream. -/
def document (fuel : Nat) : Grammar Unit := do
  skip
  let t ← peek
  if t.kind = .streamEnd then emit .void t.start
  else if isDirective t.kind ∨ t.kind = .documentStart then
    directives false fuel
    let t ← peek
    if t.kind ≠ .documentStart then throw (.syntaxError .noDocumentStart t.start none)
    skip
    let t ← peek
    if isDirective t.kind ∨ t.kind = .documentStart ∨ t.kind = .documentEnd ∨ t.kind = .streamEnd
    then emitEmpty t.start
    else node true false fuel
  else
    modify fun s => { s with handles := standardHandles }
    node true false fuel
  if (← peek).kind = .documentEnd then skip

end Grammar

/-- Whether the tokens go on to the end of the text without a further document. -/
def isLastDocument (s : Progress) : Bool :=
  ((s.tokens.dropWhile (·.kind == .documentEnd)).head?.map Token.kind) == some .streamEnd

def Document.ofText (text : String) : Document :=
  let (tokens, stop) := Token.ofText text
  let start : Progress := { tokens, stop }
  match Grammar.document (4 * tokens.length + 8) start with
  | .ok _ s => ⟨s.reversed.reverse, s.anchors, none, !isLastDocument s⟩
  | .error f s => ⟨s.reversed.reverse, s.anchors, some f, false⟩

end MetricsQuery.Yaml
