import MetricsQuery.Context.Execution
import MetricsQuery.Context.Log

/-!
# Tasks that run at the same time

The queries of one context and how far each of them is. A pool changes by events, such as a reply to
one query or the end of another, and the order of the events is the interleaving: what holds after
`Pool.run c events` for every list of events holds however tasks, inline queries and the readers of
handles take turns. An event that does not fit how far its query is changes nothing.
-/

namespace MetricsQuery

/-- Who waits for a query: its caller, who is given an outcome or a raw body, or a handle, to which
a task delivers, profiled under a label or not. -/
inductive Waiting where
  | inline
  | raw
  | handle (label : Option String)
  deriving DecidableEq, Repr

/-- How far a query is. -/
inductive Stage where
  /-- No reply yet. A task can be destroyed here and nowhere else. -/
  | awaiting
  /-- A raw query has its body. -/
  | answered (body : Except Fault (List UInt8))
  /-- There is an outcome, and it has been reported. -/
  | settled (outcome : Outcome)
  /-- The latency of a settled task has been recorded if it is profiled. -/
  | timed (outcome : Outcome)
  /-- The outcome is where the handle can read it. -/
  | delivered (outcome : Outcome)
  /-- It ended without an outcome: a task was destroyed, or a decoder panicked inline. -/
  | lost

/-- The outcome of a stage that has one. -/
def Stage.outcome? : Stage → Option Outcome
  | settled o | timed o | delivered o => some o
  | _ => none

structure Task where
  query : String
  request : Request
  waiting : Waiting
  stage : Stage := .awaiting
  /-- Whether the handle is still there to be read. -/
  held : Bool := true

namespace Task

/-- The body of the reply to the query. -/
def body (t : Task) (reply : Reply) : Except Fault (List UInt8) := t.request.body t.query reply

/-- What the reply to the query comes to. -/
def execution (c : Context) (t : Task) (reply : Reply) : Execution :=
  c.execute t.query (t.body reply)

/-- What the reply to a query that awaits one leads to, and the report that is made of it. -/
def settle (c : Context) (t : Task) (reply : Reply) : Stage × Option Report :=
  match t.waiting with
  | .raw => (.answered (t.body reply), none)
  | .inline =>
    match t.execution c reply with
    | .finished o r => (.settled o, some r)
    | .panicked _ => (.lost, none)
  | .handle _ =>
    let (o, r) := (t.execution c reply).caught t.query
    (.settled o, some r)

/-- What is logged when the reply to a query has come. -/
def log (c : Context) (t : Task) (reply : Reply) : List LogEntry :=
  let warned := (Context.loggedWarnings t.query (t.body reply)).map (.warned t.query)
  match t.waiting, t.execution c reply with
  | .raw, _ => []
  | .handle _, .panicked text => warned ++ [.taskPanicked t.query (.task t.query (.panicked text))]
  | _, _ => warned

/-- The label that a latency of the task is recorded under. -/
def label? (t : Task) : Option String :=
  match t.waiting with
  | .handle label => label
  | _ => none

/-- What the handle of the task gives once the task has ended. -/
def delivery? (t : Task) : Option Delivery :=
  match t.waiting, t.stage with
  | .handle _, .delivered o => some (.ofOutcome t.query o)
  | .handle _, .lost => some (.missing t.query)
  | _, _ => none

end Task

structure Pool where
  /-- The queries in the order they were started. -/
  tasks : List Task := []
  collector : Collector := {}
  /-- The labels of the latencies recorded so far. -/
  profiled : List String := []
  /-- The places in `tasks` of the queries that have made a report, in the order of the reports. -/
  reported : List Nat := []
  /-- What handles gave when they were read, in that order. -/
  readings : List (Nat × Delivery) := []
  log : List LogEntry := []

namespace Pool

/-- What can happen next; a number is the place of a query among those started. -/
inductive Event where
  | start (now : Instant) (query : String) (kind : QueryKind) (waiting : Waiting)
  | settle (i : Nat) (reply : Reply)
  | time (i : Nat) (elapsed : Duration)
  | deliver (i : Nat)
  | destroy (i : Nat)
  | read (i : Nat)
  | drop (i : Nat)

variable (c : Context) (p : Pool)

/-- The pool with the query in place `i` changed. -/
def put (i : Nat) (t : Task) : Pool := { p with tasks := p.tasks.set i t }

def settle (i : Nat) (t : Task) (reply : Reply) : Pool :=
  let (stage, report) := t.settle c reply
  let p := { p.put i { t with stage } with log := p.log ++ t.log c reply }
  match report with
  | none => p
  | some r => { p with collector := p.collector.report r, reported := p.reported ++ [i] }

def time (i : Nat) (elapsed : Duration) (t : Task) (o : Outcome) : Pool :=
  { p.put i { t with stage := .timed o } with
    profiled := p.profiled ++ t.label?.toList
    log := p.log ++ t.label?.toList.map (.profiled · elapsed) }

def read (i : Nat) (t : Task) : Pool :=
  match t.held, t.delivery? with
  | true, some d => { p.put i { t with held := false } with readings := p.readings ++ [(i, d)] }
  | _, _ => p

/-- What an event does to the query in place `i`. -/
def on (i : Nat) (f : Task → Pool) : Pool :=
  match p.tasks[i]? with
  | some t => f t
  | none => p

def step : Event → Pool
  | .start now query kind waiting =>
    { p with tasks := p.tasks ++ [⟨query, c.request now query kind, waiting, .awaiting, true⟩] }
  | .settle i reply => p.on i fun t =>
    match t.stage with
    | .awaiting => p.settle c i t reply
    | _ => p
  | .time i elapsed => p.on i fun t =>
    match t.waiting, t.stage with
    | .handle _, .settled o => p.time i elapsed t o
    | _, _ => p
  | .deliver i => p.on i fun t =>
    match t.stage with
    | .timed o => p.put i { t with stage := .delivered o }
    | _ => p
  | .destroy i => p.on i fun t =>
    match t.stage with
    | .awaiting => p.put i { t with stage := .lost }
    | _ => p
  | .read i => p.on i fun t => p.read i t
  | .drop i => p.on i fun t => p.put i { t with held := false }

/-- The pool after events, in their order. -/
def run (events : List Event) : Pool := events.foldl (step c) p

/-- The label of a query among several: its number from one. -/
def batchLabel (i : Nat) : String := "Query #" ++ toString (i + 1)

/-- Queries that are not profiled. -/
def unlabelled (queries : List String) : List (String × Option String) :=
  queries.map fun q => (q, none)

/-- Queries with the labels that they have when they are profiled together. -/
def labelled (queries : List String) : List (String × Option String) :=
  queries.zipIdx.map fun (q, i) => (q, some (batchLabel i))

end Pool

end MetricsQuery
