import MetricsQuery.Query.Collector

/-!
# A collector that many share

Any number of callers report to one collector and read it at the same time. A report holds the lock
alone while it adds its records, one after another; readers may hold it together, and each copies the
warnings and then the errors, and answers from the copies. One turn of one caller is an event, so the
order of the events is the interleaving, and what holds after `run {} events` for every list of
events holds however the callers take turns. `taken` is the order in which the reports got the lock.
-/

namespace MetricsQuery

/-- A record that is added to a collector. -/
inductive Addition where
  | warning (r : Record)
  | error (r : Record)
  deriving DecidableEq, Repr

namespace Report

/-- The records of a report in the order in which they are added. -/
def additions (r : Report) : List Addition :=
  r.warningRecords.map .warning ++ r.errorRecords.map .error

/-- Whether there is nothing to add. Such a report is not made. -/
def isEmpty (r : Report) : Bool :=
  r.warnings.isEmpty && r.requestFault.isNone && r.bodyFault.isNone

end Report

/-- The collector with one more record. -/
def Collector.add (c : Collector) : Addition → Collector
  | .warning r => { c with warnings := c.warnings ++ [r] }
  | .error r => { c with errors := c.errors ++ [r] }

namespace SharedCollector

/-- What a reader asks. -/
inductive Question where
  | warnings
  | errors
  | hasWarnings
  | hasErrors
  | snapshot
  | collection
  deriving DecidableEq, Repr

inductive Answer where
  | records (rs : List Record)
  | flag (b : Bool)
  | snapshot (c : Collector)
  | collection (c : Option Collector)
  deriving DecidableEq, Repr

/-- The answer that a collector gives. -/
def Question.answer : Question → Collector → Answer
  | warnings, c => .records c.warnings
  | errors, c => .records c.errors
  | hasWarnings, c => .flag c.hasWarnings
  | hasErrors, c => .flag c.hasErrors
  | snapshot, c => .snapshot c
  | collection, c => .collection c.collection?

/-- How far a report is. -/
inductive Writing where
  | waiting
  /-- It holds the lock, and has the rest to add. -/
  | adding (rest : List Addition)
  | done
  deriving DecidableEq, Repr

/-- How far a reader is. -/
inductive Reading where
  | waiting
  /-- It holds the lock. -/
  | begun
  /-- It holds the lock, and has copied the warnings. -/
  | copied (warnings : List Record)
  | answered (a : Answer)
  deriving DecidableEq, Repr

inductive Caller where
  | reporter (r : Report) (progress : Writing)
  | reader (q : Question) (progress : Reading)
  deriving DecidableEq, Repr

namespace Caller

/-- Whether the caller holds the lock alone. -/
def writes : Caller → Bool
  | reporter _ (.adding _) => true
  | _ => false

/-- Whether the caller holds the lock, alone or with others. -/
def holds : Caller → Bool
  | reporter _ (.adding _) | reader _ .begun | reader _ (.copied _) => true
  | _ => false

end Caller

end SharedCollector

open SharedCollector in
/-- A collector and all its callers. -/
structure SharedCollector where
  records : Collector := {}
  /-- The callers in the order of their calls. -/
  callers : List Caller := []
  /-- The reports that got the lock, with the places of their callers, in that order. -/
  taken : List (Nat × Report) := []

namespace SharedCollector

inductive Event where
  | report (r : Report)
  | read (q : Question)
  /-- The caller in place `i` takes a turn. -/
  | turn (i : Nat)

variable (s : SharedCollector)

/-- The collector with the caller in place `i` changed. -/
def put (i : Nat) (c : Caller) : SharedCollector := { s with callers := s.callers.set i c }

/-- A turn of a caller. One that waits for the lock in vain stays as it is. -/
def turn (i : Nat) : Caller → SharedCollector
  | .reporter r .waiting =>
    if r.isEmpty then s.put i (.reporter r .done)
    else if s.callers.any Caller.holds then s
    else { s.put i (.reporter r (.adding r.additions)) with taken := s.taken ++ [(i, r)] }
  | .reporter r (.adding (a :: rest)) =>
    { s.put i (.reporter r (.adding rest)) with records := s.records.add a }
  | .reporter r (.adding []) => s.put i (.reporter r .done)
  | .reader q .waiting => if s.callers.any Caller.writes then s else s.put i (.reader q .begun)
  | .reader q .begun => s.put i (.reader q (.copied s.records.warnings))
  | .reader q (.copied ws) => s.put i (.reader q (.answered (q.answer ⟨ws, s.records.errors⟩)))
  | .reporter _ .done | .reader _ (.answered _) => s

def step : Event → SharedCollector
  | .report r => { s with callers := s.callers ++ [.reporter r .waiting] }
  | .read q => { s with callers := s.callers ++ [.reader q .waiting] }
  | .turn i =>
    match s.callers[i]? with
    | some c => s.turn i c
    | none => s

/-- The collector and its callers after events, in their order. -/
def run (events : List Event) : SharedCollector := events.foldl step s

end SharedCollector

end MetricsQuery
