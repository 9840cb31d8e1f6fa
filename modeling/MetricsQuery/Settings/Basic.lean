import MetricsQuery.Query.Fault
import MetricsQuery.Time.DurationText

/-!
# Settings

What a client and its query contexts are configured with: the backend's address, how far in the past
instant queries are evaluated, the timeout of a request and the name of the context. Environment
variables take precedence over the settings they are applied to.
-/

namespace MetricsQuery

/-- The values of environment variables. -/
abbrev Environment := String → Option String

structure Settings where
  address : String := "http://127.0.0.1:9090"
  queryOffset : Option String := none
  timeoutMs : UInt64 := 120000
  contextName : Option String := none
  deriving DecidableEq, Repr, Inhabited

/-- The duration that a text denotes. -/
def durationOf (text : String) : Except Fault Duration :=
  match Duration.ofText? text with
  | some d => .ok d
  | none => .error (.settings (.badDuration text))

namespace Settings

/-- The environment variable that replaces the address. -/
def addressVariable : String := "PROMETHEUS_SERVER_ENDPOINT"

/-- The environment variable that replaces the query offset. -/
def offsetVariable : String := "PROMETHEUS_QUERY_OFFSET"

/-- The query offset; zero when there is none. -/
def offset (s : Settings) : Except Fault Duration :=
  match s.queryOffset with
  | some text => durationOf text
  | none => .ok .zero

def timeout (s : Settings) : Duration := .ofMillis s.timeoutMs

/-- The settings in an environment. An empty address is none, an empty query offset is one. -/
def withEnvironment (s : Settings) (env : Environment) : Settings :=
  { s with
    address := ((env addressVariable).filter (· != "")).getD s.address
    queryOffset := (env offsetVariable).orElse fun _ => s.queryOffset }

end Settings

end MetricsQuery
