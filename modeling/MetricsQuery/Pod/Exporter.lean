import MetricsQuery.Pod.Document
import MetricsQuery.Pod.Sample
import MetricsQuery.Settings.Document

/-!
# Exporting the pods of a file

The file is read for every look at the cluster; one that cannot be read or is no list of pods is an
empty cluster. `Exporter.respond` answers one who asks for the exposition.
-/

namespace MetricsQuery.Exporter

/-- The pods in the content of a file, or the reason that there are none. -/
def podsOf (content : Settings.FileContent) : Except String (List Pod) := do
  (Pod.listOfJson (← content)).mapError Json.Fault.message

/-- The exposition, from the content of the file at the first and at the second look. -/
def render (first second : Settings.FileContent) : List String :=
  Pod.render ((podsOf first).toOption.getD []) ((podsOf second).toOption.getD [])

/-- The path of the exposition. -/
def path : String := "/metrics"

/-- The path of a target, without its query. -/
def pathOf (target : String) : String := String.ofList (target.toList.takeWhile (· != '?'))

/-- The status and the lines for who asks for a target. -/
def respond (target : String) (first second : Settings.FileContent) : Nat × List String :=
  if pathOf target = path then (200, render first second) else (404, [])

end MetricsQuery.Exporter
