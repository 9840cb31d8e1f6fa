import MetricsQuery.Command.Parameter

/-!
# Usage faults

What can be wrong with a command line, each with the first line of its message.
-/

namespace MetricsQuery

/-- What the program is for. -/
def programPurpose : String :=
  "Issue instant and range queries against a Prometheus compatible backend"

inductive UsageFault where
  /-- Nothing is given at all. -/
  | nothingGiven
  | commandMissing
  | unknownCommand (word : String)
  /-- A word or a parameter that the level does not take. -/
  | unexpected (word : String)
  /-- A flag with a value. -/
  | needlessValue (p : Parameter) (value : String)
  | repeated (p : Parameter)
  | valueMissing (p : Parameter)
  /-- Something that has to be given is not. -/
  | incomplete
  /-- A value that is none of the possible ones. -/
  | notPossible (p : Parameter) (value : String)
  | badValue (p : Parameter) (value reason : String)
  deriving DecidableEq, Repr

namespace UsageFault

def problem : UsageFault → String
  | nothingGiven => programPurpose
  | commandMissing => "'prom-query' requires a subcommand but one was not provided"
  | unknownCommand w => "unrecognized subcommand '" ++ w ++ "'"
  | unexpected w => "unexpected argument '" ++ w ++ "' found"
  | needlessValue p v =>
    "unexpected value '" ++ v ++ "' for '" ++ p.display ++ "' found; no more were expected"
  | repeated p => "the argument '" ++ p.display ++ "' cannot be used multiple times"
  | valueMissing p => "a value is required for '" ++ p.display ++ "' but none was supplied"
  | incomplete => "the following required arguments were not provided:"
  | notPossible p v => "invalid value '" ++ v ++ "' for '" ++ p.display ++ "'"
  | badValue p v reason => "invalid value '" ++ v ++ "' for '" ++ p.display ++ "': " ++ reason

def message (f : UsageFault) : String :=
  match f with
  | nothingGiven => f.problem
  | _ => "error: " ++ f.problem

end UsageFault

end MetricsQuery
