import MetricsQuery.Yaml.Cursor

/-!
# Tokens of YAML

The tokens a YAML text consists of, with the places they cover. Where the text shows structure by
indentation, tokens without text mark the starts and ends of collections.
-/

namespace MetricsQuery.Yaml

/-- How a scalar is written. -/
inductive Style where
  | plain
  | singleQuoted
  | doubleQuoted
  | literal
  | folded
  deriving DecidableEq, Repr

inductive TokenKind where
  | streamStart
  | streamEnd
  | version (major minor : Nat)
  | tagDirective (handle stem : String)
  | documentStart
  | documentEnd
  | blockSequenceStart
  | blockMappingStart
  | blockEnd
  | flowSequenceStart
  | flowSequenceEnd
  | flowMappingStart
  | flowMappingEnd
  | blockEntry
  | flowEntry
  | key
  | value
  | aliased (name : String)
  | anchor (name : String)
  | tag (handle suffix : String)
  | scalar (text : String) (style : Style)
  deriving DecidableEq, Repr

structure Token where
  kind : TokenKind
  start : Mark
  stop : Mark
  deriving DecidableEq, Repr

end MetricsQuery.Yaml
