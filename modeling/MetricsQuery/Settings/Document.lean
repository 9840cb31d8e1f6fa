import MetricsQuery.Settings.Basic
import MetricsQuery.Yaml.Reader

/-!
# Settings as a YAML document

A settings file is a YAML mapping. The address has to be given, every other field may be left out,
and fields that are not known are passed over. A query offset that is no duration is refused, so
that it is not found out by the first query.
-/

namespace MetricsQuery.Settings

open Yaml in
/-- The fields read so far. -/
structure Fields where
  address : Option String := none
  queryOffset : Option (Option String) := none
  timeoutMs : Option UInt64 := none
  contextName : Option (Option String) := none

open Yaml in
/-- Reads the value of one field, which must not have been given before. -/
def readField (d : Document) (record : Mark) (key path : String) (f : Fields) (es : List Event) :
    Except ReadFault (Fields × List Event) :=
  let once {α : Type} (given : Bool) (r : Except ReadFault α) : Except ReadFault α :=
    if given then .error (.shape (.duplicateField key) "" record) else r
  if key = "address" then
    once f.address.isSome do
      let (s, r) ← d.string "a string" path es
      .ok ({ f with address := some s }, r)
  else if key = "query_offset" then
    once f.queryOffset.isSome do
      let (s, r) ← d.optionalString path record es
      .ok ({ f with queryOffset := some s }, r)
  else if key = "timeout_ms" then
    once f.timeoutMs.isSome do
      let (n, r) ← d.word64 path es
      .ok ({ f with timeoutMs := some n }, r)
  else if key = "context_name" then
    once f.contextName.isSome do
      let (s, r) ← d.optionalString path record es
      .ok ({ f with contextName := some s }, r)
  else (d.skipNode 0 es).map fun r => (f, r)

open Yaml in
/-- Refuses fields without an address. -/
def requireAddress (record : Mark) (f : Fields) : Except ReadFault Fields :=
  if f.address.isSome then .ok f else .error (.shape (.missingField "address") "" record)

/-- The settings with the fields of a document. -/
def ofFields (f : Fields) : Settings :=
  let standard : Settings := {}
  { address := f.address.getD standard.address
    queryOffset := f.queryOffset.getD none
    timeoutMs := f.timeoutMs.getD standard.timeoutMs
    contextName := f.contextName.getD none }

/-- The settings a YAML text holds. -/
def ofYaml (text : String) : Except Fault Settings := do
  let d := Yaml.Document.ofText text
  match d.record "struct PromConfig" (readField d) {} requireAddress with
  | .error f => .error (.settings (.malformed f.message))
  | .ok f =>
    let s := ofFields f
    let _ ← s.offset
    .ok s

/-- What became of reading a file: its bytes, or the reason that it cannot be read. -/
abbrev FileContent := Except String (List UInt8)

/-- The settings of a file in an environment. -/
def ofFile (path : String) (content : FileContent) (env : Environment) :
    Except Fault Settings := do
  let unreadable := fun reason => Fault.settings (.unreadable path reason)
  let bytes ← content.mapError unreadable
  match Utf8.decode? bytes with
  | none => .error (unreadable "stream did not contain valid UTF-8")
  | some text => return (← ofYaml text).withEnvironment env

end MetricsQuery.Settings
