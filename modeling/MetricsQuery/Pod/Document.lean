import MetricsQuery.Json.Shape
import MetricsQuery.Pod.Basic

/-!
# Pods as a JSON document

A list of pods. Name and namespace of a pod have to be given, as do name and kind of an owner; what
else is left out is empty, and members that are not known are passed over.
-/

namespace MetricsQuery

open Json

/-- Gives a field that has no value yet the value that `read` reads. -/
def once {α β : Type} (name : String) (given : Option β) (read : Reader β) (set : β → α) :
    Except Cause (Reader α) :=
  if given.isSome then .error (.duplicateField name)
  else .ok fun bs => (read bs).map fun (b, r) => (set b, r)

/-- The value of a field that has to be given. -/
def needed {β : Type} (name : String) (given : Option β) : Except Cause β :=
  match given with
  | some b => .ok b
  | none => .error (.missingField name)

/-- Passes over the value of a member that is not known. -/
def passOver {α : Type} (acc : α) : Reader α := fun bs => (anything bs).map fun (_, r) => (acc, r)

/-- An element as the value of a field. -/
def setting {α β : Type} (read : Reader β) (set : α → β → α) : α → Reader α := fun acc bs =>
  (read bs).map fun (b, r) => (set acc b, r)

namespace Owner

/-- The members of an owner read so far. -/
structure Fields where
  name : Option String := none
  kind : Option String := none
  controller : Option Bool := none

def field (key : String) (f : Fields) : Except Cause (Reader Fields) :=
  if key = "name" then once key f.name text fun v => { f with name := some v }
  else if key = "kind" then once key f.kind text fun v => { f with kind := some v }
  else if key = "controller" then
    once key f.controller flag fun v => { f with controller := some v }
  else .ok (passOver f)

def ofFields (f : Fields) : Except Cause Owner := do
  .ok { name := ← needed "name" f.name, kind := ← needed "kind" f.kind,
        controller := f.controller.getD false }

/-- The fields in their order. -/
def elements : List (Bool × (Fields → Reader Fields)) :=
  [(true, setting text fun f v => { f with name := some v }),
   (true, setting text fun f v => { f with kind := some v }),
   (false, setting flag fun f v => { f with controller := some v })]

def read : Reader Owner :=
  record "struct OwnerEntry"
    (fun bs => (fields field (bs.length + 1) true {} bs).map fun (f, r) => (f.bind ofFields, r))
    (fun bs => (positions "struct OwnerEntry with 3 elements" 0 elements true {} bs).map
      fun (f, r) => (f.bind ofFields, r))

end Owner

namespace Pod

/-- The members of a pod read so far. -/
structure Fields where
  name : Option String := none
  space : Option String := none
  uid : Option String := none
  labels : Option (List (String × String)) := none
  annotations : Option (List (String × String)) := none
  owners : Option (List Owner) := none

def field (key : String) (f : Fields) : Except Cause (Reader Fields) :=
  if key = "name" then once key f.name text fun v => { f with name := some v }
  else if key = "namespace" then once key f.space text fun v => { f with space := some v }
  else if key = "uid" then once key f.uid text fun v => { f with uid := some v }
  else if key = "labels" then once key f.labels (mapOf text) fun v => { f with labels := some v }
  else if key = "annotations" then
    once key f.annotations (mapOf text) fun v => { f with annotations := some v }
  else if key = "owners" then
    once key f.owners (listOf Owner.read) fun v => { f with owners := some v }
  else .ok (passOver f)

def ofFields (f : Fields) : Except Cause Pod := do
  .ok { name := ← needed "name" f.name, space := ← needed "namespace" f.space,
        uid := f.uid.getD "", labels := f.labels.getD [], annotations := f.annotations.getD [],
        owners := f.owners.getD [] }

/-- The fields in their order. -/
def elements : List (Bool × (Fields → Reader Fields)) :=
  [(true, setting text fun f v => { f with name := some v }),
   (true, setting text fun f v => { f with space := some v }),
   (false, setting text fun f v => { f with uid := some v }),
   (false, setting (mapOf text) fun f v => { f with labels := some v }),
   (false, setting (mapOf text) fun f v => { f with annotations := some v }),
   (false, setting (listOf Owner.read) fun f v => { f with owners := some v })]

def read : Reader Pod :=
  record "struct PodEntry"
    (fun bs => (fields field (bs.length + 1) true {} bs).map fun (f, r) => (f.bind ofFields, r))
    (fun bs => (positions "struct PodEntry with 6 elements" 0 elements true {} bs).map
      fun (f, r) => (f.bind ofFields, r))

/-- The pods a JSON text lists. -/
def listOfJson (bs : List UInt8) : Except Json.Fault (List Pod) := readAll (listOf read) bs

end Pod

end MetricsQuery
