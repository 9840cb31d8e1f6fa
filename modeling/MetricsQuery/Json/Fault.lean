/-!
# Faults of JSON text

Each cause of a malformed text, and where it was met. `Fault.message` is the only place that words
them.
-/

namespace MetricsQuery.Json

/-- What is wrong with a text. The last three are about the value a reader asked for. -/
inductive Cause where
  | endInList
  | endInObject
  | endInString
  | endInValue
  | noColon
  | noCommaOrBracket
  | noCommaOrBrace
  | badWord
  | noValue
  | badEscape
  | badNumber
  | numberOutOfRange
  | badCodePoint
  | controlCharacter
  | keyNotString
  | loneSurrogate
  | trailingComma
  | trailingText
  | unfinishedSurrogate
  | tooDeep
  | invalidType (found expected : String)
  | invalidLength (length : Nat) (expected : String)
  | missingField (name : String)
  | duplicateField (name : String)
  deriving DecidableEq, Repr

def Cause.message : Cause → String
  | endInList => "EOF while parsing a list"
  | endInObject => "EOF while parsing an object"
  | endInString => "EOF while parsing a string"
  | endInValue => "EOF while parsing a value"
  | noColon => "expected `:`"
  | noCommaOrBracket => "expected `,` or `]`"
  | noCommaOrBrace => "expected `,` or `\x7d`"
  | badWord => "expected ident"
  | noValue => "expected value"
  | badEscape => "invalid escape"
  | badNumber => "invalid number"
  | numberOutOfRange => "number out of range"
  | badCodePoint => "invalid unicode code point"
  | controlCharacter => "control character (\\u0000-\\u001F) found while parsing a string"
  | keyNotString => "key must be a string"
  | loneSurrogate => "lone leading surrogate in hex escape"
  | trailingComma => "trailing comma"
  | trailingText => "trailing characters"
  | unfinishedSurrogate => "unexpected end of hex escape"
  | tooDeep => "recursion limit exceeded"
  | invalidType found expected => "invalid type: " ++ found ++ ", expected " ++ expected
  | invalidLength n expected => "invalid length " ++ toString n ++ ", expected " ++ expected
  | missingField name => "missing field `" ++ name ++ "`"
  | duplicateField name => "duplicate field `" ++ name ++ "`"

/-- A cause and its place: lines count from one, columns count the bytes read in the line. -/
structure Fault where
  cause : Cause
  line : Nat
  column : Nat
  deriving DecidableEq, Repr

def Fault.message (f : Fault) : String :=
  f.cause.message ++ " at line " ++ toString f.line ++ " column " ++ toString f.column

end MetricsQuery.Json
