import MetricsQuery.Context.Basic
import MetricsQuery.Json.Reader
import MetricsQuery.Query.Collector
import MetricsQuery.Query.Warning

/-!
# Executing a query

What a reply to a request comes to: the bytes of the body (`Request.body`), the decoded JSON with
the warnings of the backend (`Context.fetched`), and the outcome with what is reported about it
(`Context.execute`). The first fault on the way is the outcome. A decoder that panics leaves an
outcome only where the query runs as a task (`Execution.caught`).
-/

namespace MetricsQuery

/-- The results of a query or its fault, and the warnings of the backend in either case. -/
structure Outcome where
  results : Except Fault (List Series)
  warnings : List String

/-- Whether there are results. -/
def Outcome.isOk (o : Outcome) : Bool :=
  match o.results with
  | .ok _ => true
  | .error _ => false

/-- The diagnosis of a response that is no success. -/
def Request.statusText (r : Request) (query : String) (p : Response) : String :=
  toString p.status ++ " (" ++ (Status.reason? p.status).getD "Unknown" ++
    ") URL: '" ++ r.url.text ++
    "', Request Headers: '" ++ Header.render r.headers ++
    "', Headers: '" ++ Header.render p.headers ++ "', Body: '" ++
    Utf8.decodeLossy p.body ++ "' Query: '" ++ query ++ "'"

/-- The body of a successful reply. -/
def Request.body (r : Request) (query : String) : Reply → Except Fault (List UInt8)
  | .error f => .error (.request query f.message)
  | .ok p =>
    if Status.isSuccess p.status then .ok p.body else .error (.status (r.statusText query p))

namespace Context

variable (c : Context)

/-- The JSON of a body whose data is complete, and the warnings in it. -/
def fetched (query : String) (body : Except Fault (List UInt8)) :
    Except Fault Json.Value × List String :=
  match body with
  | .error f => (.error f, [])
  | .ok bytes =>
    match Json.read bytes with
    | .error f => (.error (.body query f), [])
    | .ok v =>
      let ws := Warning.ofBody v
      ((Warning.classify query bytes ws).2.map fun _ => v, ws)

/-- The warnings that are logged while a body is looked at. -/
def loggedWarnings (query : String) (body : Except Fault (List UInt8)) : List String :=
  match body with
  | .error _ => []
  | .ok bytes =>
    match Json.read bytes with
    | .error _ => []
    | .ok v => (Warning.classify query bytes (Warning.ofBody v)).1

end Context

/-- How an execution ends: with an outcome and its report, or in a panic of the decoder. -/
inductive Execution where
  | finished (outcome : Outcome) (report : Report)
  | panicked (text : Option String)

namespace Context

variable (c : Context)

/-- What a body comes to. -/
def execute (query : String) (body : Except Fault (List UInt8)) : Execution :=
  match fetched query body with
  | (.error f, ws) => .finished ⟨.error f, ws⟩ ⟨query, ws, some f, none⟩
  | (.ok v, ws) =>
    match c.decoder query v with
    | .done (.ok ss) => .finished ⟨.ok ss, ws⟩ ⟨query, ws, none, none⟩
    | .done (.error f) => .finished ⟨.error f, ws⟩ ⟨query, ws, none, some f⟩
    | .panic text => .panicked text

end Context

namespace Execution

/-- The outcome, unless the decoder panicked. -/
def outcome? : Execution → Option Outcome
  | finished o _ => some o
  | panicked _ => none

/-- The outcome and the report of an execution whose panic is caught: the panic is a fault of its
own. -/
def caught (query : String) : Execution → Outcome × Report
  | finished o r => (o, r)
  | panicked text =>
    let f := Fault.task query (.panicked text)
    (⟨.error f, []⟩, ⟨query, [], some f, none⟩)

end Execution

/-- What is delivered for a query that ran as a task. -/
structure Delivery where
  query : String
  results : List Series
  warnings : List String
  fault : Option Fault

namespace Delivery

def ofOutcome (query : String) (o : Outcome) : Delivery :=
  match o.results with
  | .ok ss => ⟨query, ss, o.warnings, none⟩
  | .error f => ⟨query, [], o.warnings, some f⟩

/-- What is delivered for a task that ended before it had an outcome. -/
def missing (query : String) : Delivery := ⟨query, [], [], some (.task query .undelivered)⟩

/-- The results or the fault, without the warnings. -/
def toResult (d : Delivery) : Except Fault (List Series) :=
  match d.fault with
  | some f => .error f
  | none => .ok d.results

end Delivery

end MetricsQuery
