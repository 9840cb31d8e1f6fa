import MetricsQuery.Command.Given

/-!
# Commands

The commands of the program with all that they are given, and their reading from the words of a
command line. A parameter of the connection may be given at the program or at the command; the
command comes first.
-/

namespace MetricsQuery

/-- What is given about the connection. -/
structure Connection where
  configFile : Option String := none
  address : Option String := none
  contextName : Option String := none
  queryOffset : Option String := none
  deriving DecidableEq, Repr

namespace Connection

def ofGiven (g : Given) : Connection :=
  ⟨g.configFile, g.prometheusUrl, g.contextName, g.queryOffset⟩

/-- The connection given at a command, below the one given at the program. -/
def orElse (inner outer : Connection) : Connection :=
  ⟨inner.configFile.or outer.configFile, inner.address.or outer.address,
   inner.contextName.or outer.contextName, inner.queryOffset.or outer.queryOffset⟩

end Connection

/-- The window of a range query as it is given. -/
structure Window where
  start : Option Instant := none
  stop : Option Instant := none
  step : Duration
  deriving DecidableEq, Repr

/-- One minute, the step that is used when none is given. -/
def Window.standardStep : Duration := .ofMillis 60000

def Window.ofGiven (g : Given) : Window := ⟨g.start, g.stop, g.step.getD standardStep⟩

inductive Command where
  /-- Runs instant queries at the same time. -/
  | query (queries : List String) (profiled json : Bool)
  /-- Runs a range query. -/
  | range (query : String) (window : Window) (json : Bool)
  /-- Prints the body that a query is answered with; a range query has a window. -/
  | raw (query : String) (window : Option Window)
  /-- Exports the pods of a file, once or to whoever asks. -/
  | podLabels (file : String) (once : Bool)
  deriving DecidableEq, Repr

/-- The name and the version of the program. -/
def programVersion : String := "prom-query 0.1.0"

namespace Command

/-- The command of a level, if what it needs is given. -/
def ofGiven? (l : Level) (g : Given) : Option Command :=
  match l with
  | .program => none
  | .query => if g.words = [] then none else some (.query g.words (g.has .profile) (g.has .output))
  | .range => g.words.head?.map fun q => .range q (.ofGiven g) (g.has .output)
  | .raw => g.words.head?.map fun q => .raw q (if g.has .range then some (.ofGiven g) else none)
  | .podLabels => g.podsFile.map fun f => .podLabels f (g.has .once)

/-- The names after `help` have to be those of commands. -/
def helpOn : List String → Halt
  | [] => .help
  | [w] => if w ∈ Level.program.commands then .help else .fault (.unknownCommand w)
  | w :: v :: _ => if w ∈ Level.program.commands then .fault (.unknownCommand v)
    else .fault (.unknownCommand w)

/-- A command with its connection, from the words after the name of the program. -/
def ofWords (ws : List String) : Except Halt (Connection × Command) := do
  match ← Reading.read .program {} ws with
  | (r, none) =>
    let g ← r.settle
    .error (.fault (if g.seen = [] then .nothingGiven else .commandMissing))
  | (r, some (name, ws)) =>
    match Level.ofName? name with
    | none => .error (helpOn ws)
    | some l =>
      let g ← Given.ofWords l ws
      match ofGiven? l g with
      | none => .error (.fault .incomplete)
      | some c => .ok ((Connection.ofGiven g).orElse (.ofGiven (← r.settle)), c)

end Command

end MetricsQuery
