import MetricsQuery.Http.Exchange
import MetricsQuery.Settings.Basic
import MetricsQuery.Url.Reader

/-!
# Clients

A client knows the base URL of a backend. Endpoints are resolved against it, below any path it has.
-/

namespace MetricsQuery

structure Client where
  base : Url
  deriving DecidableEq, Repr

namespace Client

/-- The endpoint of instant queries. -/
def queryEndpoint : String := "/api/v1/query"

/-- The endpoint of range queries. -/
def rangeEndpoint : String := "/api/v1/query_range"

/-- The client of the backend at an address. -/
def ofAddress (address : String) : Except Fault Client :=
  match Url.ofText address with
  | .error f => .error (.address f)
  | .ok u => if u.isBase then .ok ⟨u⟩ else .error (.settings (.notABase address))

def url (c : Client) (endpoint : String) : Url := c.base.resolve endpoint

end Client

end MetricsQuery
