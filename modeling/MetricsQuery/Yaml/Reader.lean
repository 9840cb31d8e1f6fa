import MetricsQuery.Yaml.Schema

/-!
# Reading values from a YAML document

A reader takes the events not yet read and returns a value and the events after it. An alias is read
as the node it stands for. Faults of shape tell where they are, by a path and a place; those of a
record without a place of their own have the place of the record.
-/

namespace MetricsQuery.Yaml

/-- Why a document does not hold what is asked for. -/
inductive ReadFault where
  | shape (cause : ShapeCause) (path : String) (place : Mark)
  | text (fault : Fault)
  | endOfEvents
  | moreDocuments
  deriving DecidableEq, Repr

def ReadFault.message : ReadFault → String
  | shape cause path place =>
    (if path = "" then "" else path ++ ": ") ++ cause.message ++ place.suffix
  | text fault => fault.message
  | endOfEvents => "EOF while parsing a value"
  | moreDocuments => "deserializing from YAML containing more than one document is not supported"

namespace Document

variable (d : Document)

/-- A value and the events after it. -/
abbrev Reader (α : Type) := List Event → Except ReadFault (α × List Event)

/-- The fault of events that end too early. -/
def endFault : ReadFault :=
  match d.fault with
  | some f => .text f
  | none => .endOfEvents

/-- The event that an alias stands for; any other event is itself. -/
def resolve (e : Event) : Event :=
  match e.content with
  | .aliased n => ((d.anchors.lookup n).bind (d.events[·]?)).getD e
  | _ => e

/-- The next event, an alias resolved. -/
def next : Reader Event
  | [] => .error d.endFault
  | e :: es => .ok (d.resolve e, es)

/-- The fault that an event is not what was expected. -/
def refuse {α : Type} (expected path : String) (e : Event) : Except ReadFault α :=
  .error (.shape (e.content.mismatch expected) path e.mark)

/-- A scalar as text, however it is written. -/
def string (expected path : String) : Reader String := fun es => do
  let (e, r) ← d.next es
  match e.content with
  | .scalar s _ _ => .ok (s, r)
  | _ => refuse expected path e

/-- A scalar as text, or nothing for null. -/
def optionalString (path : String) (record : Mark) : Reader (Option String) := fun es => do
  let (e, r) ← d.next es
  match e.content with
  | .scalar s .plain none => .ok (if s = "" ∨ isNullWord s then none else some s, r)
  | .scalar s .plain (some tag) =>
    if tag ≠ coreTag "null" then .ok (some s, r)
    else if isNullWord s then .ok (none, r)
    else .error (.shape (.invalidValue (foundText s) "null") "" record)
  | .scalar s _ _ => .ok (some s, r)
  | _ => refuse "a string" path e

/-- Whether a scalar may be a number: it has no quotes, or is tagged as an integer. -/
def isNumeric (style : Style) (tag : Option String) : Bool :=
  style == .plain || (style == .literal && tag == some (coreTag "int"))

/-- A number of 64 bits. -/
def word64 (path : String) : Reader UInt64 := fun es => do
  let (e, r) ← d.next es
  match e.content with
  | .scalar s style tag =>
    match (natural? s.toList).filter (· < UInt64.size), isNumeric style tag with
    | some n, true => .ok (n.toUInt64, r)
    | _, _ => refuse "u64" path e
  | _ => refuse "u64" path e

/-- Passes over a node; `depth` collections of it are open. -/
def skipNode : Nat → List Event → Except ReadFault (List Event)
  | _, [] => .error d.endFault
  | depth, e :: es =>
    match e.content with
    | .sequenceStart | .mappingStart => skipNode (depth + 1) es
    | .sequenceEnd | .mappingEnd => if depth ≤ 1 then .ok es else skipNode (depth - 1) es
    | _ => if depth = 0 then .ok es else skipNode depth es

/-- The fields of a mapping on top of `acc`. Each key is given with its path and its reader by
`field`, which the events after the key are handed to; fuel bounds the number of fields. -/
def fields {α : Type} (field : (key path : String) → α → List Event →
    Except ReadFault (α × List Event)) : Nat → α → Reader α
  | 0, acc, es => .ok (acc, es)
  | _ + 1, _, [] => .error d.endFault
  | n + 1, acc, e :: es =>
    match e.content with
    | .mappingEnd => .ok (acc, es)
    | _ => do
      let (key, r) ← d.string "field identifier" "" (e :: es)
      let path := match e.content with
        | .scalar s _ _ => s
        | _ => "?"
      let (acc, r) ← field key path acc r
      fields field n acc r

/-- What `read` makes of the fields of a document that is one record; an empty one has none. -/
def record {α : Type} (expected : String) (field : Mark → (key path : String) → α → List Event →
    Except ReadFault (α × List Event)) (start : α) (finish : Mark → α → Except ReadFault α) :
    Except ReadFault α := do
  let (e, r) ← d.next d.events
  let a ← match e.content with
    | .mappingStart => do
      let (a, _) ← d.fields (field e.mark) (r.length + 1) start r
      finish e.mark a
    | .void | .scalar "" .plain _ => finish e.mark start
    | _ => refuse expected "" e
  match d.fault with
  | some f => .error (.text f)
  | none => if d.hasMore then .error .moreDocuments else .ok a

end Document

end MetricsQuery.Yaml
