import MetricsQuery.Context.Execution
import MetricsQuery.Json.Printer

/-!
# Printing results

Results as lines of text and as JSON. A query that ran as a task is printed in one block, which has
its fault or its series. A value that is no number has no JSON and is `null`.
-/

namespace MetricsQuery

open Json (Value)

/-! ## Text -/

def Sample.line (s : Sample) : String :=
  "    " ++ s.value.positional ++ " @ " ++ s.timestamp.positional

/-- The labels of a series in braces. -/
def Series.heading (s : Series) : String :=
  "  \x7b" ++ String.intercalate ", " (s.labels.map fun (k, v) => k ++ "=\"" ++ v ++ "\"") ++ "\x7d"

def Series.lines (s : Series) : List String :=
  s.heading :: (s.text.toList.map fun t => "    \"" ++ t ++ "\"") ++ s.samples.map Sample.line

/-- The lines of the series of a result. -/
def seriesLines (ss : List Series) : List String :=
  if ss = [] then ["  (no data)"] else ss.flatMap Series.lines

/-- The lines of what a query delivered. -/
def Delivery.lines (d : Delivery) : List String :=
  d.query :: (d.warnings.map fun w => "  warning: " ++ w) ++
    match d.fault with
    | some f => ["  error: " ++ f.message]
    | none => seriesLines d.results

/-! ## JSON -/

def Binary64.json : Binary64 → Value
  | .finite a u => .number (.float (.finite a u))
  | _ => .null

def Sample.json (s : Sample) : Value :=
  .object [("timestamp", s.timestamp.json), ("value", s.value.json)]

/-- The members of a series; only a string result has a text. -/
def Series.members (s : Series) : List (String × Value) :=
  [("metric", .object (s.labels.map fun (k, v) => (k, .string v))),
   ("values", .array (s.samples.map Sample.json))] ++
    s.text.toList.map fun t => ("text", .string t)

/-- The series of a result. -/
def seriesJson (ss : List Series) : Value := .array (ss.map fun s => .object s.members)

/-- What a query delivered, with sorted members. -/
def Delivery.json (d : Delivery) : Value :=
  .ofMembers [("query", .string d.query), ("warnings", .array (d.warnings.map .string)),
    ("error", d.fault.elim .null fun f => .string f.message),
    ("results", .array (d.results.map fun s => .ofMembers s.members))]

/-- The block of what a query delivered. -/
def Delivery.block (json : Bool) (d : Delivery) : List String :=
  if json then [d.json.pretty] else d.lines

end MetricsQuery
