import MetricsQuery.Query.Fault
import MetricsQuery.Time.Rfc3339
import MetricsQuery.Url.Basic

/-!
# The log

What is worth a message while queries run, each with its level, the part of the program it is from
and its text.
-/

namespace MetricsQuery

inductive LogLevel where
  | info
  | warn
  | error
  deriving DecidableEq, Repr

def LogLevel.text : LogLevel → String
  | info => "INFO"
  | warn => "WARN"
  | error => "ERROR"

/-- What is worth a message in the log. -/
inductive LogEntry where
  /-- A client was made for a base URL. -/
  | configured (base : Url)
  /-- A range query is about to run. -/
  | rangeStarted (query : String) (start stop : Instant) (step : Duration)
  /-- A warning came with a response. -/
  | warned (query warning : String)
  /-- The task of a query panicked. -/
  | taskPanicked (query : String) (fault : Fault)
  /-- A latency was recorded. -/
  | profiled (label : String) (elapsed : Duration)
  /-- The pods of a file could not be read. -/
  | podsUnreadable (path reason : String)

namespace LogEntry

def level : LogEntry → LogLevel
  | configured _ | rangeStarted .. | profiled .. => .info
  | warned .. | podsUnreadable .. => .warn
  | taskPanicked .. => .error

/-- The part of the program an entry is from. -/
def origin : LogEntry → String
  | configured _ => "prom_query::client"
  | rangeStarted .. => "prom_query::query"
  | warned .. => "prom_query::warnings"
  | taskPanicked .. => "prom_query::context"
  | profiled .. => "prom_query::query_metrics"
  | podsUnreadable .. => "prom_query::pods"

def text : LogEntry → String
  | configured base => "Prometheus client configured for " ++ base.text
  | rangeStarted query start stop step =>
    "running range query query=" ++ query ++ " start=" ++ start.display ++
      " end=" ++ stop.display ++ " step=" ++ step.text
  | warned query warning => "fetching query '" ++ query ++ "': " ++ warning
  | taskPanicked query fault => "query task panicked query=" ++ query ++ " error=" ++ fault.message
  | profiled label elapsed => "[Profiler] " ++ label ++ ": " ++ elapsed.text
  | podsUnreadable path reason => "unable to read pods from " ++ path ++ ": " ++ reason

end LogEntry

end MetricsQuery
