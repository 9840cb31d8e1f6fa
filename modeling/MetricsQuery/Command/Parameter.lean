/-!
# Parameters of the command line

The parameters and the levels they belong to: the program itself and its commands. Every level has
those of the connection; a level also takes a number of words.
-/

namespace MetricsQuery

inductive Parameter where
  | configFile
  | prometheusUrl
  | contextName
  | queryOffset
  | profile
  | output
  | start
  | stop
  | step
  | range
  | podsFile
  | listen
  | once
  | help
  | version
  deriving DecidableEq, Repr

namespace Parameter

def name : Parameter → String
  | configFile => "config-file"
  | prometheusUrl => "prometheus-url"
  | contextName => "context-name"
  | queryOffset => "query-offset"
  | profile => "profile"
  | output => "output"
  | start => "start"
  | stop => "end"
  | step => "step"
  | range => "range"
  | podsFile => "pods-file"
  | listen => "listen"
  | once => "once"
  | help => "help"
  | version => "version"

/-- Whether the parameter is given without a value. -/
def isFlag : Parameter → Bool
  | profile | range | once | help | version => true
  | _ => false

/-- How messages name the parameter. -/
def display (p : Parameter) : String :=
  if p.isFlag then "--" ++ p.name
  else
    "--" ++ p.name ++ " <" ++
      String.ofList (p.name.toList.map fun c => if c = '-' then '_' else c.toUpper) ++ ">"

/-- The parameters of the connection to a backend. -/
def connection : List Parameter := [configFile, prometheusUrl, contextName, queryOffset]

end Parameter

/-- Where parameters are given: at the program itself or at one of its commands. -/
inductive Level where
  | program
  | query
  | range
  | raw
  | podLabels
  deriving DecidableEq, Repr

namespace Level

/-- The command of a name. -/
def ofName? : String → Option Level
  | "query" => some query
  | "range" => some range
  | "raw" => some raw
  | "pod-labels" => some podLabels
  | _ => none

/-- The names of the commands, of which `help` is one. -/
def commands : Level → List String
  | program => ["query", "range", "raw", "pod-labels", "help"]
  | _ => []

/-- The parameters of the level beside those of the connection. -/
def own : Level → List Parameter
  | program => [.version]
  | query => [.profile, .output]
  | range => [.start, .stop, .step, .output]
  | raw => [.range, .start, .stop, .step]
  | podLabels => [.podsFile, .listen, .once]

def parameters (l : Level) : List Parameter := Parameter.connection ++ l.own ++ [.help]

/-- How many words the level takes; `none` is any number. -/
def capacity : Level → Option Nat
  | program | podLabels => some 0
  | range | raw => some 1
  | query => none

/-- The parameter of a name. -/
def find? (l : Level) (name : String) : Option Parameter := l.parameters.find? (·.name == name)

end Level

end MetricsQuery
