import MetricsQuery.Http.Header
import MetricsQuery.Http.Status
import MetricsQuery.Url.Basic

/-!
# Exchanges with a backend

A request is sent to a backend and comes back as a reply: a complete response, or the failure that
kept it from being one. What a backend replies may depend on the requests it received before.
-/

namespace MetricsQuery

structure Request where
  url : Url
  headers : List Header
  deriving DecidableEq, Repr

structure Response where
  status : Nat
  headers : List Header
  body : List UInt8
  deriving DecidableEq, Repr

/-- Why there is no complete response, with the status if that much was read. -/
structure TransportFailure where
  text : String
  status : Option Nat := none
  deriving DecidableEq, Repr

/-- The failure with its status, for messages. -/
def TransportFailure.message (f : TransportFailure) : String :=
  match f.status with
  | some code => f.text ++ " (status " ++ toString code ++ ")"
  | none => f.text

abbrev Reply := Except TransportFailure Response

namespace Request

/-- The URL as failures name it. -/
def shownUrl (r : Request) : String := r.url.withoutCredentials.text

/-- The failure of a request that cannot be sent at all. -/
def refused (r : Request) : TransportFailure :=
  ⟨"builder error for url (" ++ r.shownUrl ++ ")", none⟩

/-- The failure of a request without an answer. -/
def unanswered (r : Request) : TransportFailure :=
  ⟨"error sending request for url (" ++ r.shownUrl ++ ")", none⟩

/-- Whether requests can be sent to the URL. -/
def isSendable (r : Request) : Bool :=
  r.url.scheme == "http".toList || r.url.scheme == "https".toList

end Request

/-- The failure of a response whose body breaks off. -/
def TransportFailure.brokenBody (status : Nat) : TransportFailure :=
  ⟨"error decoding response body", some status⟩

/-- What is at the other end. -/
structure Backend where
  /-- Whether a request gets through. -/
  receives : Request → Bool
  /-- The reply to a request that gets through, given those that did before. -/
  reply : List Request → Request → Reply

namespace Backend

/-- A backend that no request gets through to. -/
def unreachable : Backend := ⟨fun _ => false, fun _ r => .error r.unanswered⟩

variable (b : Backend)

/-- Those of the requests sent that get through. -/
def received (sent : List Request) : List Request :=
  sent.filter fun r => r.isSendable && b.receives r

/-- The reply to a request, given the requests sent before. -/
def answer (sent : List Request) (r : Request) : Reply :=
  if !r.isSendable then .error r.refused
  else if !b.receives r then .error r.unanswered
  else b.reply (b.received sent) r

end Backend

end MetricsQuery
