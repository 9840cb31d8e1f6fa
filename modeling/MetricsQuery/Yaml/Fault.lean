/-!
# Faults of YAML text

A place in a text, and what can be wrong there. A fault may also name the construct that was being
read and where it began. Lines and columns are counted from zero and shown from one; the very start
of a text is not worth showing.
-/

namespace MetricsQuery.Yaml

/-- A place in a text, in characters. -/
structure Mark where
  index : Nat
  line : Nat
  column : Nat
  deriving DecidableEq, Repr, Inhabited

/-- Whether the place is not the start of the text. -/
def Mark.isShown (m : Mark) : Bool := m.line != 0 || m.column != 0

def Mark.sameLineAndColumn (a b : Mark) : Bool := a.line == b.line && a.column == b.column

/-- The place after ` at `, or nothing for the start of the text. -/
def Mark.suffix (m : Mark) : String :=
  if m.isShown then " at line " ++ toString (m.line + 1) ++ " column " ++ toString (m.column + 1)
  else ""

/-- What is wrong. -/
inductive Problem where
  | noTokenStart
  | noKeyColon
  | sequenceNotAllowed
  | keyNotAllowed
  | valueNotAllowed
  | unknownDirective
  | noDirectiveEnd
  | noDirectiveName
  | badDirectiveName
  | noVersionDot
  | longVersion
  | noVersionNumber
  | noTagBlank
  | noTagEnd
  | noAnchorName
  | noTagClose
  | noTagBang
  | noTagUri
  | noUriOctet
  | badLeadingOctet
  | badTrailingOctet
  | zeroIndent
  | tabIndent
  | documentIndicator
  | endOfStream
  | unknownEscape
  | noHexDigits
  | badEscapeCode
  | colonInFlow
  | tabInPlain
  | noDocumentStart
  | duplicateVersion
  | badVersion
  | duplicateTag
  | undefinedTag
  | noNode
  | noDash
  | noKey
  | noSequenceEnd
  | noMappingEnd
  deriving DecidableEq, Repr

def Problem.message : Problem → String
  | noTokenStart => "found character that cannot start any token"
  | noKeyColon => "could not find expected ':'"
  | sequenceNotAllowed => "block sequence entries are not allowed in this context"
  | keyNotAllowed => "mapping keys are not allowed in this context"
  | valueNotAllowed => "mapping values are not allowed in this context"
  | unknownDirective => "found unknown directive name"
  | noDirectiveEnd => "did not find expected comment or line break"
  | noDirectiveName => "could not find expected directive name"
  | badDirectiveName => "found unexpected non-alphabetical character"
  | noVersionDot => "did not find expected digit or '.' character"
  | longVersion => "found extremely long version number"
  | noVersionNumber => "did not find expected version number"
  | noTagBlank => "did not find expected whitespace"
  | noTagEnd => "did not find expected whitespace or line break"
  | noAnchorName => "did not find expected alphabetic or numeric character"
  | noTagClose => "did not find the expected '>'"
  | noTagBang => "did not find expected '!'"
  | noTagUri => "did not find expected tag URI"
  | noUriOctet => "did not find URI escaped octet"
  | badLeadingOctet => "found an incorrect leading UTF-8 octet"
  | badTrailingOctet => "found an incorrect trailing UTF-8 octet"
  | zeroIndent => "found an indentation indicator equal to 0"
  | tabIndent => "found a tab character where an indentation space is expected"
  | documentIndicator => "found unexpected document indicator"
  | endOfStream => "found unexpected end of stream"
  | unknownEscape => "found unknown escape character"
  | noHexDigits => "did not find expected hexdecimal number"
  | badEscapeCode => "found invalid Unicode character escape code"
  | colonInFlow => "found unexpected ':'"
  | tabInPlain => "found a tab character that violates indentation"
  | noDocumentStart => "did not find expected <document start>"
  | duplicateVersion => "found duplicate %YAML directive"
  | badVersion => "found incompatible YAML document"
  | duplicateTag => "found duplicate %TAG directive"
  | undefinedTag => "found undefined tag handle"
  | noNode => "did not find expected node content"
  | noDash => "did not find expected '-' indicator"
  | noKey => "did not find expected key"
  | noSequenceEnd => "did not find expected ',' or ']'"
  | noMappingEnd => "did not find expected ',' or '\x7d'"

/-- The construct a problem is met in. -/
inductive Construct where
  | nextToken
  | simpleKey
  | directive
  | versionDirective
  | tagDirectiveValue
  | tagDirectiveHandle
  | tagDirectiveBang
  | tagDirectiveUri
  | anchor
  | aliased
  | tag
  | tagUri
  | blockScalar
  | quotedScalar
  | quotedEscape
  | plainScalar
  | node
  | blockNode
  | flowNode
  | blockCollection
  | blockMapping
  | flowSequence
  | flowMapping
  deriving DecidableEq, Repr

def Construct.message : Construct → String
  | nextToken => "while scanning for the next token"
  | simpleKey => "while scanning a simple key"
  | directive => "while scanning a directive"
  | versionDirective => "while scanning a %YAML directive"
  | tagDirectiveValue => "while scanning a %TAG directive"
  | tagDirectiveHandle => "while scanning a tag directive"
  | tagDirectiveBang => "while parsing a tag directive"
  | tagDirectiveUri => "while parsing a %TAG directive"
  | anchor => "while scanning an anchor"
  | aliased => "while scanning an alias"
  | tag => "while scanning a tag"
  | tagUri => "while parsing a tag"
  | blockScalar => "while scanning a block scalar"
  | quotedScalar => "while scanning a quoted scalar"
  | quotedEscape => "while parsing a quoted scalar"
  | plainScalar => "while scanning a plain scalar"
  | node => "while parsing a node"
  | blockNode => "while parsing a block node"
  | flowNode => "while parsing a flow node"
  | blockCollection => "while parsing a block collection"
  | blockMapping => "while parsing a block mapping"
  | flowSequence => "while parsing a flow sequence"
  | flowMapping => "while parsing a flow mapping"

/-- Why a text is no YAML. -/
inductive Fault where
  /-- A character that no YAML text may hold, at an offset in bytes. -/
  | controlCharacter (offset : Nat)
  | syntaxError (problem : Problem) (place : Mark) (within : Option (Construct × Mark))
  /-- An alias for an anchor that no node before it has. -/
  | unknownAnchor (place : Mark)
  deriving DecidableEq, Repr

def Fault.message : Fault → String
  | controlCharacter offset =>
    "control characters are not allowed" ++
      if offset = 0 then "" else " at position " ++ toString offset
  | syntaxError problem place none => problem.message ++ place.suffix
  | syntaxError problem place (some (construct, start)) =>
    problem.message ++ place.suffix ++ ", " ++ construct.message ++
      if start.sameLineAndColumn place then "" else start.suffix
  | unknownAnchor place => "unknown anchor" ++ place.suffix

end MetricsQuery.Yaml
