import MetricsQuery.Text.Utf8
import MetricsQuery.Yaml.Token.Scalar

/-!
# Directives, anchors and tags of YAML

Reading the tokens that say something about a document or a node: directives at the start of a line,
anchors and aliases, and tags with their URI escapes.
-/

namespace MetricsQuery.Yaml

/-- A token and the cursor after it. -/
abbrev TokenRead := Except Fault (Token × Cursor)

/-! ## URIs of tags -/

/-- A character of the URI of a tag; a verbatim one may hold flow indicators. -/
def isUriChar (verbatim : Bool) (c : Char) : Bool :=
  isWordChar c || ";/?:@&=+$.%!~*'()".toList.contains c || (verbatim && ",[]".toList.contains c)

/-- The length of a UTF-8 sequence by its first octet. -/
def sequenceLength? (octet : Nat) : Option Nat :=
  if octet < 0x80 then some 1
  else if octet / 0x20 = 6 then some 2
  else if octet / 0x10 = 14 then some 3
  else if octet / 0x08 = 30 then some 4
  else none

/-- One escaped octet. -/
def uriOctet (within : Construct) (start : Mark) (c : Cursor) : Except Fault (Nat × Cursor) :=
  match c.peek 0 == '%', hexDigit? (c.peek 1), hexDigit? (c.peek 2) with
  | true, some a, some b => .ok (a * 16 + b, c.skipMany 3)
  | _, _, _ => c.fail .noUriOctet within start

/-- The escaped octets that continue a character. -/
def uriTrailing (within : Construct) (start : Mark) :
    Nat → Cursor → Except Fault (List UInt8 × Cursor)
  | 0, c => .ok ([], c)
  | n + 1, c => do
    let (octet, r) ← uriOctet within start c
    if octet / 0x40 ≠ 2 then c.fail .badTrailingOctet within start
    else
      let (bs, r) ← uriTrailing within start n r
      .ok (octet.toUInt8 :: bs, r)

/-- One escaped character. -/
def uriEscape (within : Construct) (start : Mark) (c : Cursor) :
    Except Fault (List UInt8 × Cursor) := do
  let (octet, r) ← uriOctet within start c
  match sequenceLength? octet with
  | none => c.fail .badLeadingOctet within start
  | some n =>
    let (bs, r) ← uriTrailing within start (n - 1) r
    .ok (octet.toUInt8 :: bs, r)

/-- The octets of a URI and how many characters they are written with. -/
def uriOctets (verbatim : Bool) (within : Construct) (start : Mark) :
    Nat → Cursor → Except Fault (List UInt8 × Cursor)
  | 0, c => .ok ([], c)
  | n + 1, c =>
    if !isUriChar verbatim c.head then .ok ([], c)
    else do
      let (bs, c) ←
        if c.head = '%' then uriEscape within start c
        else .ok (String.utf8EncodeChar c.head, c.skip)
      let (rest, c) ← uriOctets verbatim within start n c
      .ok (bs ++ rest, c)

/-- The URI of a tag, after what was read of it as a handle. -/
def tagUri (verbatim : Bool) (within : Construct) (handle : List Char) (start : Mark) (c : Cursor) :
    Except Fault (String × Cursor) := do
  let (bs, r) ← uriOctets verbatim within start (c.rest.length + 1) c
  if handle = [] ∧ bs = [] then r.fail .noTagUri within start
  else .ok (String.ofList (handle.drop 1) ++ Utf8.decodeLossy bs, r)

/-- A tag handle: word characters after an exclamation mark, and a second one if there is one. -/
def tagHandle (c : Cursor) : List Char × Cursor :=
  let (cs, r) := c.skip.span isWordChar
  if r.head = '!' then ('!' :: cs ++ ['!'], r.skip) else ('!' :: cs, r)

/-! ## Directives -/

/-- A number of at most nine digits. -/
def versionNumber (start : Mark) (c : Cursor) : Except Fault (Nat × Cursor) :=
  let (ds, r) := c.span Char.isDigit
  if 9 < ds.length then (c.skipMany 9).fail .longVersion .versionDirective start
  else if ds = [] then c.fail .noVersionNumber .versionDirective start
  else .ok (ds.foldl (fun n d => n * 10 + (d.toNat - 48)) 0, r)

def versionValue (start : Mark) (c : Cursor) : Except Fault (TokenKind × Cursor) := do
  let (major, c) ← versionNumber start (c.skipWhile isBlank)
  if c.head ≠ '.' then c.fail .noVersionDot .versionDirective start
  else
    let (minor, c) ← versionNumber start c.skip
    .ok (.version major minor, c)

def tagDirectiveValue (start : Mark) (c : Cursor) : Except Fault (TokenKind × Cursor) := do
  let c := c.skipWhile isBlank
  if c.head ≠ '!' then c.fail .noTagBang .tagDirectiveHandle start else
  let (handle, c) := tagHandle c
  if handle.length ≠ 1 ∧ handle.getLast? ≠ some '!' then
    c.fail .noTagBang .tagDirectiveBang start
  else if !isBlank c.head then c.fail .noTagBlank .tagDirectiveValue start
  else
    let (stem, c) ← tagUri true .tagDirectiveUri [] start (c.skipWhile isBlank)
    if !isBlankOrEnd c.head then c.fail .noTagEnd .tagDirectiveValue start
    else .ok (.tagDirective (String.ofList handle) stem, c)

/-- A directive and the rest of its line. -/
def directive (c : Cursor) : TokenRead := do
  let start := c.mark
  let (name, c) := c.skip.span isWordChar
  if name = [] then c.fail .noDirectiveName .directive start
  else if !isBlankOrEnd c.head then c.fail .badDirectiveName .directive start
  else
    let (kind, c) ←
      if name = "YAML".toList then versionValue start c
      else if name = "TAG".toList then tagDirectiveValue start c
      else c.fail .unknownDirective .directive start
    let rest := c.skipToLineEnd
    if !isBreakOrEnd rest.head then rest.fail .noDirectiveEnd .directive start
    else .ok (⟨kind, start, c.mark⟩, rest.skipBreak)

/-! ## Anchors and tags -/

/-- An anchor, or an alias for one. -/
def anchor (isAlias : Bool) (c : Cursor) : TokenRead :=
  let start := c.mark
  let (name, c) := c.skip.span isWordChar
  if name = [] ∨ !(isBlankOrEnd c.head || "?:,]\x7d%@`".toList.contains c.head) then
    c.fail .noAnchorName (if isAlias then .aliased else .anchor) start
  else
    let text := String.ofList name
    .ok (⟨if isAlias then .aliased text else .anchor text, start, c.mark⟩, c)

/-- The handle and the suffix of a tag. -/
def tagParts (start : Mark) (c : Cursor) : Except Fault (String × String × Cursor) := do
  if c.peek 1 = '<' then
    let (uri, c) ← tagUri true .tagUri [] start (c.skipMany 2)
    if c.head ≠ '>' then c.fail .noTagClose .tag start else .ok ("", uri, c.skip)
  else
    let (handle, c) := tagHandle c
    if handle.length ≠ 1 ∧ handle.getLast? = some '!' then
      let (uri, c) ← tagUri false .tagUri [] start c
      .ok (String.ofList handle, uri, c)
    else
      let (uri, c) ← tagUri false .tagUri handle start c
      if uri = "" then .ok ("", "!", c) else .ok ("!", uri, c)

def tag (flow : Bool) (c : Cursor) : TokenRead := do
  let start := c.mark
  let (handle, suffix, c) ← tagParts start c
  if !isBlankOrEnd c.head && !(flow && c.head == ',') then c.fail .noTagEnd .tag start
  else .ok (⟨.tag handle suffix, start, c.mark⟩, c)

end MetricsQuery.Yaml
