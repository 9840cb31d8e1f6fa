import MetricsQuery.Command.Basic
import MetricsQuery.Command.Block
import MetricsQuery.Context.Session
import MetricsQuery.Pod.Exporter

/-!
# Running a command

What a command prints, logs and ends with on a host, which gives it files, environment variables and
a backend. A command that fails prints why; its exit code is then one, and two if the command line
cannot be understood.
-/

namespace MetricsQuery

/-- Where commands run. -/
structure Host where
  files : String → Settings.FileContent
  environment : Environment
  surroundings : Surroundings

/-- Why a command fails. -/
inductive CommandFault where
  | fault (f : Fault)
  /-- A range ends before it starts. -/
  | backwards (start stop : Instant)
  /-- Queries failed; the report has them all. -/
  | reported (report : Collector)
  /-- The decoder panicked. -/
  | panicked

namespace CommandFault

def message : CommandFault → String
  | fault f => f.message
  | backwards start stop => "range start " ++ start.display ++ " is after end " ++ stop.display
  | reported c => c.display
  | panicked => "the decoder panicked"

/-- What lies behind the failure. -/
def source? : CommandFault → Option String
  | fault f => f.source?
  | _ => none

/-- The failure as it is printed. -/
def report (f : CommandFault) : String :=
  "Error: " ++ f.message ++ (f.source?.elim "" fun s => "\n\nCaused by:\n    " ++ s)

end CommandFault

/-- What a command leaves: the entries of the log, what was printed after them (each item with a
line end behind it), the requests that were sent, and the failure if there is one. -/
structure Ending where
  log : List LogEntry := []
  printed : List String := []
  sent : List Request := []
  failure : Option CommandFault := none

namespace Ending

def ofSession (s : Session) (printed : List String) (failure : Option CommandFault) : Ending :=
  ⟨s.log, printed, s.sent, failure⟩

def exitCode (e : Ending) : Nat := if e.failure.isSome then 1 else 0

/-- All that is printed, without the log. -/
def stdout (e : Ending) : String := String.join (e.printed.map (· ++ "\n"))

/-- The report of the failure. -/
def stderr (e : Ending) : String := e.failure.elim "" fun f => f.report ++ "\n"

end Ending

namespace Connection

/-- The settings of a connection: those of the file it names, or else the standard ones, in the
environment, replaced by what is given about the connection. -/
def settings (c : Connection) (h : Host) : Except Fault Settings := do
  let s ← match c.configFile with
    | some path => Settings.ofFile path (h.files path) h.environment
    | none => .ok (({} : Settings).withEnvironment h.environment)
  .ok { s with
    address := c.address.getD s.address
    contextName := c.contextName.or s.contextName
    queryOffset := c.queryOffset.or s.queryOffset }

/-- The context of a connection, and the log of making it. -/
def context (c : Connection) (h : Host) : Except CommandFault Context × List LogEntry :=
  match c.settings h with
  | .error f => (.error (.fault f), [])
  | .ok s =>
    match Client.ofAddress s.address with
    | .error f => (.error (.fault f), [])
    | .ok client => ((Context.ofSettings s).mapError .fault, [.configured client.base])

end Connection

/-- One hour, the length of a window that has no start. -/
def Window.standardLength : Duration := .ofMillis 3600000

/-- The bounds of a window. -/
def Window.bounds (w : Window) (now : Instant) : Except CommandFault (Instant × Instant) :=
  let stop := w.stop.getD now
  let start := w.start.getD ((stop.sub? standardLength).getD stop)
  if start.isAfter stop then .error (.backwards start stop) else .ok (start, stop)

/-- The range query of a window. -/
def Window.kind (w : Window) (now : Instant) : Except CommandFault QueryKind :=
  (w.bounds now).map fun (start, stop) => .range start stop w.step

namespace Command

/-- The failure of a command whose queries have been reported on. -/
def collected (p : Pool) : Option CommandFault := p.collector.collection?.map .reported

/-- What is printed once every query has been delivered: a block for each and, if they were
profiled, the exposition of their latencies. -/
def printed (json : Bool) (exposition : List String) (ds : List Delivery) : List String :=
  ds.flatMap (Delivery.block json) ++ exposition

def runQuery (env : Surroundings) (c : Context) (s : Session) (queries : List String)
    (profiled json : Bool) : Ending :=
  let (ds, s) :=
    if profiled then Session.profileAll c env queries s else Session.queryAll c env queries s
  .ofSession s (printed json (if profiled then s.latencies env else []) ds) (collected s.toPool)

/-- The lines of an outcome that has results. -/
def resultLines (query : String) (json : Bool) (ss : List Series) : List String :=
  if json then [(seriesJson ss).pretty] else query :: seriesLines ss

def runRange (env : Surroundings) (c : Context) (s : Session) (query : String) (w : Window)
    (json : Bool) : Ending :=
  match w.bounds env.now with
  | .error f => .ofSession s [] (some f)
  | .ok (start, stop) =>
    let s := s.logged [.rangeStarted query start stop w.step]
    match Session.run c env query (.range start stop w.step) s with
    | (none, s) => .ofSession s [] (some .panicked)
    | (some o, s) =>
      let warnings := o.warnings.map fun w => "warning: " ++ w
      match o.results with
      | .error f => .ofSession s warnings (some (.fault f))
      | .ok ss => .ofSession s (warnings ++ resultLines query json ss) (collected s.toPool)

def runRaw (env : Surroundings) (c : Context) (s : Session) (query : String)
    (window : Option Window) : Ending :=
  match window.elim (.ok .instant) fun w => w.kind env.now with
  | .error f => .ofSession s [] (some f)
  | .ok kind =>
    match Session.raw c env query kind s with
    | (.error f, s) => .ofSession s [] (some (.fault f))
    | (.ok body, s) => .ofSession s [Utf8.decodeLossy body] none

/-- The log of a look at the pods of a file. -/
def podLog (path : String) (content : Settings.FileContent) : List LogEntry :=
  match Exporter.podsOf content with
  | .error reason => [.podsUnreadable path reason]
  | .ok _ => []

/-- Exports the pods of a file once. Whoever asks later is answered by `Exporter.respond`. -/
def runPodLabels (h : Host) (file : String) (once : Bool) : Ending :=
  if once then
    let content := h.files file
    { log := podLog file content ++ podLog file content
      printed := Exporter.render content content }
  else {}

def run (h : Host) (connection : Connection) (command : Command) : Ending :=
  let env := h.surroundings
  let within (f : Context → Session → Ending) : Ending :=
    match connection.context h with
    | (.error e, log) => { log, failure := some e }
    | (.ok c, log) => f c (({} : Session).logged log)
  match command with
  | .query queries profiled json => within fun c s => runQuery env c s queries profiled json
  | .range q w json => within fun c s => runRange env c s q w json
  | .raw q w => within fun c s => runRaw env c s q w
  | .podLabels file once => runPodLabels h file once

end Command

end MetricsQuery
