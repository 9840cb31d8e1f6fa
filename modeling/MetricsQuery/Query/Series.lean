import MetricsQuery.Entries
import MetricsQuery.Number.Binary64
import MetricsQuery.Query.Fault

/-!
# Series

A series of a query response: labels in the order of their names, samples, and the text of a result
that is a string. Labels that were exported under a prefix are found by it.
-/

namespace MetricsQuery

/-- A value at a time, both as the backend wrote them. -/
structure Sample where
  timestamp : Binary64
  value : Binary64
  deriving DecidableEq, Repr

structure Series where
  labels : List (String × String)
  samples : List Sample
  text : Option String
  deriving DecidableEq, Repr

namespace Series

/-- The value of a label. -/
def label (s : Series) (name : String) : Except Fault String :=
  match s.labels.lookup name with
  | some v => .ok v
  | none => .error (.missingLabel name)

/-- The values of several labels; the first that is missing is the fault. -/
def labelValues (s : Series) (names : List String) : Except Fault (List (String × String)) :=
  (names.mapM fun n => (s.label n).map fun v => (n, v)).map Entries.ofList

/-- The labels whose names start with `stem`, without it. -/
def stripped (s : Series) (stem : String) : List (String × String) :=
  s.labels.filterMap fun (k, v) =>
    if stem.toList.isPrefixOf k.toList then
      some (String.ofList (k.toList.drop stem.toList.length), v)
    else none

/-- The labels of a pod. -/
def podLabels (s : Series) : List (String × String) := s.stripped "label_"

/-- The annotations of a pod. -/
def podAnnotations (s : Series) : List (String × String) := s.stripped "annotation_"

end Series

end MetricsQuery
