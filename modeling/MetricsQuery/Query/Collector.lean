import MetricsQuery.Query.Fault

/-!
# Collected warnings and errors

A collector keeps a record of every warning and every error that its queries report, each with the
query it belongs to. Records are only ever added, at the end; one report is added as a whole.
-/

namespace MetricsQuery

/-- A message and the query it belongs to. -/
structure Record where
  query : String
  message : String
  deriving DecidableEq, Repr

/-- What one query reports: its warnings, the fault of its request and the fault of its body. -/
structure Report where
  query : String
  warnings : List String := []
  requestFault : Option Fault := none
  bodyFault : Option Fault := none
  deriving DecidableEq, Repr

namespace Report

def warningRecords (r : Report) : List Record := r.warnings.map fun w => ⟨r.query, w⟩

def errorRecords (r : Report) : List Record :=
  (r.requestFault.toList ++ r.bodyFault.toList).map fun f => ⟨r.query, f.message⟩

end Report

/-- All warnings and errors so far, oldest first. -/
structure Collector where
  warnings : List Record := []
  errors : List Record := []
  deriving DecidableEq, Repr, Inhabited

namespace Collector

def report (c : Collector) (r : Report) : Collector :=
  ⟨c.warnings ++ r.warningRecords, c.errors ++ r.errorRecords⟩

def hasWarnings (c : Collector) : Bool := !c.warnings.isEmpty

def hasErrors (c : Collector) : Bool := !c.errors.isEmpty

/-- All errors as one message. -/
def display (c : Collector) : String :=
  if c.errors.isEmpty then "no error"
  else "Error Collection:\n" ++ String.join
    (c.errors.map fun e => "Query: " ++ e.query ++ ", Error: " ++ e.message ++ "\n")

/-- Everything collected, once there is an error. -/
def collection? (c : Collector) : Option Collector := if c.hasErrors then some c else none

/-- The records in the order of their queries, those of one query as they were. -/
def sorted (c : Collector) : Collector :=
  let byQuery := fun (a b : Record) => decide (a.query ≤ b.query)
  ⟨c.warnings.mergeSort byQuery, c.errors.mergeSort byQuery⟩

@[simp] theorem warnings_report (c : Collector) (r : Report) :
    (c.report r).warnings = c.warnings ++ r.warningRecords := rfl

@[simp] theorem errors_report (c : Collector) (r : Report) :
    (c.report r).errors = c.errors ++ r.errorRecords := rfl

end Collector

end MetricsQuery
