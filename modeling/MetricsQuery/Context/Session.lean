import MetricsQuery.Context.Pool
import MetricsQuery.Metric.Exposition
import MetricsQuery.Retry

/-!
# Sessions

A session is a pool whose queries are sent to a backend, one after another. Its entry points run one
query, several, or retry one; each plays the events of its queries on the pool.
-/

namespace MetricsQuery

/-- What is around a session: the backend, the time, and how long each query takes. -/
structure Surroundings where
  backend : Backend
  now : Instant
  latency : Duration := .zero

structure Session extends Pool where
  /-- The requests that were sent, whether or not they got through. -/
  sent : List Request := []

namespace Session

variable (c : Context) (env : Surroundings)

def logged (s : Session) (es : List LogEntry) : Session := { s with log := s.log ++ es }

def play (s : Session) (events : List Pool.Event) : Session :=
  { s with toPool := s.toPool.run c events }

/-- The place of the next query. -/
def place (s : Session) : Nat := s.tasks.length

/-- The reply to a query that is sent now. -/
def reply (query : String) (kind : QueryKind) (s : Session) : Reply :=
  env.backend.answer s.sent (c.request env.now query kind)

/-- The body of the reply to a query that is sent now. -/
def body (query : String) (kind : QueryKind) (s : Session) : Except Fault (List UInt8) :=
  (c.request env.now query kind).body query (reply c env query kind s)

/-- What a query that is sent now comes to. -/
def execution (query : String) (kind : QueryKind) (s : Session) : Execution :=
  c.execute query (body c env query kind s)

/-- Sends a query and plays the events of its reply. -/
def send (query : String) (kind : QueryKind) (waiting : Waiting) (s : Session) : Session :=
  let r := reply c env query kind s
  { s.play c [.start env.now query kind waiting, .settle s.place r] with
    sent := s.sent ++ [c.request env.now query kind] }

/-- Sends a query and gives the body of the reply. -/
def raw (query : String) (kind : QueryKind) (s : Session) :
    Except Fault (List UInt8) × Session :=
  (body c env query kind s, send c env query kind .raw s)

/-- Runs a query inline; a panic of the decoder is not caught. -/
def run (query : String) (kind : QueryKind) (s : Session) : Option Outcome × Session :=
  ((execution c env query kind s).outcome?, send c env query kind .inline s)

/-- Runs a query as a task, under a label if it is profiled, and reads its handle. -/
def spawn (query : String) (kind : QueryKind) (label : Option String) (s : Session) :
    Delivery × Session :=
  (.ofOutcome query ((execution c env query kind s).caught query).1,
   (send c env query kind (.handle label) s).play c
    [.time s.place env.latency, .deliver s.place, .read s.place])

/-- Runs a query as a task whose handle is dropped. -/
def abandon (query : String) (kind : QueryKind) (s : Session) : Session :=
  (send c env query kind (.handle none) s).play c
    [.drop s.place, .time s.place env.latency, .deliver s.place]

/-- Starts a query as a task that is destroyed before it runs, and reads its handle. -/
def kill (query : String) (kind : QueryKind) (s : Session) : Delivery × Session :=
  (.missing query, s.play c
    [.start env.now query kind (.handle none), .destroy s.place, .read s.place])

/-- Runs instant queries as tasks, one label for each that is profiled. -/
def spawnAll : List (String × Option String) → Session → List Delivery × Session
  | [], s => ([], s)
  | (query, label) :: rest, s =>
    let (d, s) := spawn c env query .instant label s
    let (ds, s) := spawnAll rest s
    (d :: ds, s)

/-- Runs instant queries, not profiled. -/
def queryAll (queries : List String) : Session → List Delivery × Session :=
  spawnAll c env (Pool.unlabelled queries)

/-- Runs instant queries, each profiled under its number. -/
def profileAll (queries : List String) : Session → List Delivery × Session :=
  spawnAll c env (Pool.labelled queries)

/-- An instant query as an operation to be retried, cancelled when `cancelled` says so. A panic of
the decoder ends the retry without a value. -/
def retryWorld (query : String) (cancelled : Session → Bool) :
    Retry.World Session Fault (Option (List Series)) where
  attempt s :=
    match run c env query .instant s with
    | (some o, s) => (o.results.map some, s)
    | (none, s) => (.ok none, s)
  isCancelled := cancelled
  sleep _ s := s
  draw s := (0, s)

/-- Retries an instant query. -/
def retryQuery (query : String) (attempts : Nat) (delay : Duration) (cancelled : Session → Bool)
    (s : Session) : Except (Retry.Failure Fault) (Option (List Series)) × Session :=
  retry (retryWorld c env query cancelled) attempts delay s

/-- The exposition of the latencies recorded. -/
def latencies (s : Session) : List String := Exposition.latencies env.latency s.profiled

end Session

end MetricsQuery
