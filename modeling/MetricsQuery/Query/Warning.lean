import MetricsQuery.Json.Value
import MetricsQuery.Query.Fault
import MetricsQuery.Text.Utf8

/-!
# Warnings of a backend

A response may carry warnings beside its data. One kind of warning says that some stores of a
federated backend were not asked, which makes the data incomplete: it is promoted to a fault.
`classify` also lists the other warnings met before it, which are worth logging.
-/

namespace MetricsQuery.Warning

/-- The marker of a warning that stores are missing. -/
def storesMissingMarker : String := "No StoreAPIs matched for this query"

/-- Whether `needle` occurs in `hay`. -/
def occurs (needle : List Char) : List Char → Bool
  | [] => needle.isEmpty
  | c :: cs => needle.isPrefixOf (c :: cs) || occurs needle cs

/-- Whether a warning says that stores are missing. -/
def isStoresMissing (w : String) : Bool := occurs storesMissingMarker.toList w.toList

/-- The warnings of a decoded body: the strings of its `warnings` array. -/
def ofBody (body : Json.Value) : List String :=
  (((body.get? "warnings").bind Json.Value.asArray?).getD []).filterMap Json.Value.asString?

/-- The warnings before the first one that says that stores are missing, and the fault it is. -/
def classify (query : String) (body : List UInt8) (ws : List String) :
    List String × Except Fault Unit :=
  (ws.takeWhile (!isStoresMissing ·),
   match ws.find? isStoresMissing with
   | some w => .error (.storesMissing w (Utf8.decodeLossy body) query)
   | none => .ok ())

end MetricsQuery.Warning
