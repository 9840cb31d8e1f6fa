import MetricsQuery.Json.Value

/-!
# Printing JSON

`compact` writes a value without blanks, `pretty` one element or member a line, indented by two
spaces a level. Numbers that are no finite number have no JSON form and are written `null`.
-/

namespace MetricsQuery.Json

def hexDigit (n : Nat) : Char := Nat.digitChar n

/-- A character inside a string. -/
def escapeChar (c : Char) : List Char :=
  if c = '"' then ['\\', '"']
  else if c = '\\' then ['\\', '\\']
  else if c = '\x08' then ['\\', 'b']
  else if c = '\x0c' then ['\\', 'f']
  else if c = '\n' then ['\\', 'n']
  else if c = '\r' then ['\\', 'r']
  else if c = '\t' then ['\\', 't']
  else if c.toNat < 0x20 then
    ['\\', 'u', '0', '0', hexDigit (c.toNat / 16), hexDigit (c.toNat % 16)]
  else [c]

/-- A string with its quotes. -/
def quote (s : String) : String :=
  String.ofList ('"' :: s.toList.flatMap escapeChar ++ ['"'])

def Number.text : Number → String
  | natural n => toString n
  | negative n => "-" ++ toString n
  | float x => if x.isFinite then x.scientific else "null"

namespace Value

mutual

/-- The value without blanks. -/
def compact : Value → String
  | null => "null"
  | bool b => if b then "true" else "false"
  | number n => n.text
  | string s => quote s
  | array vs => "[" ++ String.intercalate "," (compactItems vs) ++ "]"
  | object ms => "\x7b" ++ String.intercalate "," (compactMembers ms) ++ "\x7d"

def compactItems : List Value → List String
  | [] => []
  | v :: vs => v.compact :: compactItems vs

def compactMembers : List (String × Value) → List String
  | [] => []
  | (k, v) :: ms => (quote k ++ ":" ++ v.compact) :: compactMembers ms

end

def indent (level : Nat) : String := String.ofList (List.replicate (2 * level) ' ')

/-- Lines between an opening and a closing bracket, one level deeper than these. -/
def block (opening closing : String) (level : Nat) : List String → String
  | [] => opening ++ closing
  | items =>
    opening ++ "\n" ++ String.intercalate ",\n" (items.map (indent (level + 1) ++ ·)) ++ "\n" ++
      indent level ++ closing

mutual

/-- The value over several lines, the first of them at the indentation `level`. -/
def prettyAt (level : Nat) : Value → String
  | null => "null"
  | bool b => if b then "true" else "false"
  | number n => n.text
  | string s => quote s
  | array vs => block "[" "]" level (prettyItems (level + 1) vs)
  | object ms => block "\x7b" "\x7d" level (prettyMembers (level + 1) ms)

def prettyItems (level : Nat) : List Value → List String
  | [] => []
  | v :: vs => v.prettyAt level :: prettyItems level vs

def prettyMembers (level : Nat) : List (String × Value) → List String
  | [] => []
  | (k, v) :: ms => (quote k ++ ": " ++ v.prettyAt level) :: prettyMembers level ms

end

/-- The value over several lines. -/
def pretty (v : Value) : String := v.prettyAt 0

end Value

end MetricsQuery.Json
