import MetricsQuery.Entries

/-!
# Label names

Keys of any form become label names: each character that a label name may not have is replaced, and
a qualifier is put in front. Keys that give the same name are represented by the smallest of them.
-/

namespace MetricsQuery.Label

/-- A character of a label name. -/
def isNameChar (c : Char) : Bool := c.isAlphanum || c == '_'

/-- The key with an underscore for each character that a label name may not have. -/
def sanitize (key : String) : String :=
  String.ofList (key.toList.map fun c => if isNameChar c then c else '_')

/-- Entries of which no name is among `seen`, the first of those with one name. -/
def firstOfEachName : List String → List (String × String) → List (String × String)
  | _, [] => []
  | seen, (name, value) :: rest =>
    if name ∈ seen then firstOfEachName seen rest
    else (name, value) :: firstOfEachName (name :: seen) rest

/-- The names and values for the entries of a map, in the order of their keys. -/
def qualified (qualifier : String) (entries : List (String × String)) : List (String × String) :=
  firstOfEachName [] ((Entries.ofList entries).map fun (k, v) => (qualifier ++ sanitize k, v))

def ofLabels (entries : List (String × String)) : List (String × String) :=
  qualified "label_" entries

def ofAnnotations (entries : List (String × String)) : List (String × String) :=
  qualified "annotation_" entries

end MetricsQuery.Label
