/-!
# Entries by key

A map as a list of entries in the order of their keys, one entry a key. Keys are ordered by their
code points, which is the order of their UTF-8 bytes.
-/

namespace MetricsQuery.Entries

variable {α : Type}

/-- The entries with `key` set to `v`, at the place the order of the keys gives it. -/
def insert (key : String) (v : α) : List (String × α) → List (String × α)
  | [] => [(key, v)]
  | (k, w) :: rest =>
    if key = k then (k, v) :: rest
    else if key < k then (key, v) :: (k, w) :: rest
    else (k, w) :: insert key v rest

/-- Entries in any order as a map; of several with one key, the last. -/
def ofList (es : List (String × α)) : List (String × α) :=
  es.foldl (fun acc e => insert e.1 e.2 acc) []

end MetricsQuery.Entries
