import MetricsQuery.Number.Literal
import MetricsQuery.Number.Shortest
import MetricsQuery.Text.Quoted
import MetricsQuery.Yaml.Document

/-!
# The values of YAML scalars

What a scalar without a tag stands for: null, a boolean, an integer, a number or text, by the core
schema. Integers may be written in the bases 2, 8 and 16; a decimal with leading zeros is text.
`Content.found` names what an event holds, for messages about an unexpected one.
-/

namespace MetricsQuery.Yaml

def isNullWord (s : String) : Bool := s == "null" || s == "Null" || s == "NULL" || s == "~"

def boolean? (s : String) : Option Bool :=
  if s = "true" ∨ s = "True" ∨ s = "TRUE" then some true
  else if s = "false" ∨ s = "False" ∨ s = "FALSE" then some false
  else none

/-! ## Numbers -/

/-- The value of a digit in a base of at most sixteen. -/
def digit? (base : Nat) (c : Char) : Option Nat := (hexDigit? c).filter (· < base)

/-- The value of digits, at least one. -/
def digits? (base : Nat) (cs : List Char) : Option Nat :=
  if cs = [] then none
  else (cs.mapM (digit? base)).map fun ds => ds.foldl (fun n d => n * base + d) 0

/-- Whether digits start with a zero that a number would not have. -/
def hasLeadingZero (cs : List Char) : Bool :=
  cs.length != 1 && cs.head? == some '0' && cs.all Char.isDigit

/-- The value of an integer without a sign. -/
def magnitude? : List Char → Option Nat
  | '0' :: 'x' :: cs => digits? 16 cs
  | '0' :: 'o' :: cs => digits? 8 cs
  | '0' :: 'b' :: cs => digits? 2 cs
  | cs => if hasLeadingZero cs then none else digits? 10 cs

/-- The value of an integer that is not marked as negative. -/
def natural? (cs : List Char) : Option Nat :=
  match cs with
  | '+' :: r => magnitude? r
  | r => magnitude? r

/-- The value of an integer without its minus sign. -/
def negated? : List Char → Option Nat
  | '-' :: r => magnitude? r
  | _ => none

/-- The text without a sign in front of it. -/
def unsigned : List Char → List Char
  | '-' :: cs | '+' :: cs => cs
  | cs => cs

/-- The value of a number that is no integer. -/
def float? (s : String) : Option Binary64 :=
  let cs := s.toList
  let plus := cs.head? = some '+'
  let rest := String.ofList (if plus then cs.drop 1 else cs)
  if plus ∧ (cs.drop 1 |>.head?).any (fun c => c == '+' || c == '-') then none
  else if rest = ".inf" ∨ rest = ".Inf" ∨ rest = ".INF" then some (.infinite false)
  else if s = "-.inf" ∨ s = "-.Inf" ∨ s = "-.INF" then some (.infinite true)
  else if s = ".nan" ∨ s = ".NaN" ∨ s = ".NAN" then some .nan
  else (Binary64.ofText? rest).filter Binary64.isFinite

/-! ## Naming what was found -/

def foundText (s : String) : String := "string " ++ Text.quoted s

/-- A number with a fraction always shown. -/
def foundFloat (x : Binary64) : String :=
  let t := x.positional
  "floating point `" ++ (if x.isFinite && !t.toList.contains '.' then t ++ ".0" else t) ++ "`"

/-- An integer, with the kind of those that do not fit into 64 bits. -/
def foundInteger? (s : String) : Option String :=
  match natural? s.toList, negated? s.toList with
  | some n, _ =>
    if n < 1 <<< 64 then some ("integer `" ++ toString n ++ "`")
    else if n < 1 <<< 128 then some ("integer `" ++ toString n ++ "` as u128")
    else none
  | none, some n =>
    if n = 0 then some "integer `0`"
    else if n ≤ 1 <<< 63 then some ("integer `-" ++ toString n ++ "`")
    else if n ≤ 1 <<< 127 then some ("integer `-" ++ toString n ++ "` as i128")
    else none
  | none, none => none

def foundUnit : String := "unit value"

def foundBool (b : Bool) : String := "boolean `" ++ toString b ++ "`"

/-- What a scalar without quotes and tag stands for. -/
def foundPlain (s : String) : String :=
  if s = "" ∨ isNullWord s then foundUnit
  else match boolean? s, foundInteger? s with
    | some b, _ => foundBool b
    | none, some t => t
    | none, none =>
      match float? s with
      | some x => if hasLeadingZero (unsigned s.toList) then foundText s else foundFloat x
      | none => foundText s

/-- What is wrong with the shape of a document. -/
inductive ShapeCause where
  | invalidType (found expected : String)
  | invalidValue (found expected : String)
  | missingField (name : String)
  | duplicateField (name : String)
  deriving DecidableEq, Repr

def ShapeCause.message : ShapeCause → String
  | invalidType found expected => "invalid type: " ++ found ++ ", expected " ++ expected
  | invalidValue found expected => "invalid value: " ++ found ++ ", expected " ++ expected
  | missingField name => "missing field `" ++ name ++ "`"
  | duplicateField name => "duplicate field `" ++ name ++ "`"

/-- A tag of the core schema. -/
def coreTag (name : String) : String := "tag:yaml.org,2002:" ++ name

/-- What a scalar with a tag of the core schema stands for, and the name of what it should be. -/
def tagged? (tag s : String) : Option (Option String × String) :=
  if tag = coreTag "bool" then some ((boolean? s).map foundBool, "a boolean")
  else if tag = coreTag "int" then some (foundInteger? s, "an integer")
  else if tag = coreTag "float" then some ((float? s).map foundFloat, "a float")
  else if tag = coreTag "null" then
    some (if isNullWord s then some foundUnit else none, "null")
  else none

/-- The cause that an event is not what was expected. -/
def Content.mismatch (expected : String) : Content → ShapeCause
  | .scalar s style none =>
    .invalidType (if style = .plain then foundPlain s else foundText s) expected
  | .scalar s style (some tag) =>
    match tagged? tag s with
    | some (some found, _) => .invalidType found expected
    | some (none, wanted) => .invalidValue (foundText s) wanted
    | none =>
      let isOwn := style = .plain ∧ tag.toList.head? = some '!'
      .invalidType (if isOwn then foundPlain s else foundText s) expected
  | .mappingStart | .mappingEnd => .invalidType "map" expected
  | .sequenceStart | .sequenceEnd => .invalidType "sequence" expected
  | .void | .aliased _ => .invalidType foundUnit expected

end MetricsQuery.Yaml
