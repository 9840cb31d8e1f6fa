/-!
# Pods

What is known about a pod of a cluster: its identity, its labels and annotations, ordered by their
keys, and the objects that own it.
-/

namespace MetricsQuery

structure Owner where
  name : String
  kind : String
  controller : Bool := false
  deriving DecidableEq, Repr, Inhabited

structure Pod where
  name : String
  space : String
  uid : String := ""
  labels : List (String × String) := []
  annotations : List (String × String) := []
  owners : List Owner := []
  deriving DecidableEq, Repr, Inhabited

end MetricsQuery
