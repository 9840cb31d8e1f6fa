import MetricsQuery.Client
import MetricsQuery.Number.Fixed
import MetricsQuery.Query.Decoder
import MetricsQuery.Time.Rfc3339
import MetricsQuery.Url.Form

/-!
# Query contexts

A context issues queries to one backend. It has a name, which its requests carry, an offset, which
instant queries are evaluated in the past by, and a decoder. `Context.request` is the request of a
query at a given time.
-/

namespace MetricsQuery

/-- How a query is evaluated: at one time, or over a range of times with a step. -/
inductive QueryKind where
  | instant
  | range (start stop : Instant) (step : Duration)
  deriving DecidableEq, Repr

structure Context where
  client : Client
  name : String := ""
  offset : Duration := .zero
  decoder : BodyDecoder := Decoder.standard

namespace Context

/-- The name of the contexts that are always evaluated at the current time. -/
def allocationName : String := "allocation"

/-- The header with the name of the context. -/
def nameHeader : String := "x-prom-query-context"

/-- The header with the text of the query, form-encoded. -/
def queryHeader : String := "x-prom-query"

/-- The context that settings describe. -/
def ofSettings (s : Settings) : Except Fault Context := do
  let client ← Client.ofAddress s.address
  let offset ← s.offset
  .ok { client, name := s.contextName.getD "", offset }

variable (c : Context)

/-- The URL of instant queries. -/
def queryUrl : Url := c.client.url Client.queryEndpoint

/-- The URL of range queries. -/
def rangeUrl : Url := c.client.url Client.rangeEndpoint

/-- The time an instant query is evaluated at: the offset ago, or now if there is no such time. -/
def evaluationTime (now : Instant) : Instant :=
  if c.offset.isZero ∨ c.name = allocationName then now else (now.sub? c.offset).getD now

/-- A step in seconds, with three decimal places. -/
def stepText (step : Duration) : String := step.seconds.milli

def requestUrl (now : Instant) (query : String) : QueryKind → Url
  | .instant =>
    (c.queryUrl.appendPair "query" query).appendPair "time" (c.evaluationTime now).toSecondText
  | .range start stop step =>
    (((c.rangeUrl.appendPair "query" query).appendPair "start" start.toText).appendPair
      "end" stop.toText).appendPair "step" (stepText step)

/-- The headers of a request: the name, if it can be a header, and the query. -/
def requestHeaders (query : String) : List Header :=
  let encoded := String.ofList (Url.Form.encodeText query)
  (if c.name ≠ "" ∧ Header.isLegal c.name then [⟨nameHeader, c.name⟩] else []) ++
    if Header.isLegal encoded then [⟨queryHeader, encoded⟩] else []

def request (now : Instant) (query : String) (kind : QueryKind) : Request :=
  ⟨c.requestUrl now query kind, c.requestHeaders query⟩

end Context

end MetricsQuery
