import MetricsQuery.Http.Exchange
import MetricsQuery.Url.Form

/-!
# Scripted backends

A backend that answers from a script: by the text of a query, or by `*` for every other query, with
one answer after another; the last one is repeated. It refuses tunnels, so nothing sent by `https`
gets through.
-/

namespace MetricsQuery.Script

/-- How an answer goes wrong. -/
inductive Failure where
  | close
  | truncate
  | hang
  deriving DecidableEq, Repr

structure Answer where
  status : Nat := 200
  headers : List Header := []
  body : List UInt8
  failure : Option Failure := none
  deriving Repr

/-- The answers by query. -/
abbrev Answers := List (String × List Answer)

/-- The query a request asks for: the last of its URL. -/
def queryOf (r : Request) : String :=
  (((Url.Form.decode (r.url.query.getD [])).filter (·.1 == "query")).getLast?.map (·.2)).getD ""

/-- The key of the script that a query is answered by. -/
def keyOf (answers : Answers) (query : String) : String :=
  if (answers.lookup query).isSome then query else "*"

/-- A successful body without series. -/
def emptyBody : List UInt8 :=
  Utf8.encode
    "\x7b\"status\":\"success\",\"data\":\x7b\"resultType\":\"vector\",\"result\":[]\x7d\x7d"

def isOuterSpace (c : Char) : Bool := c == ' ' || c == '\t'

/-- A value without the blanks around it. -/
def trimmed (value : String) : String :=
  let tail := value.toList.dropWhile isOuterSpace
  String.ofList (tail.reverse.dropWhile isOuterSpace).reverse

/-- A header as it arrives: its name in small letters, its value trimmed. -/
def arriving (h : Header) : Header :=
  ⟨String.ofList (h.name.toList.map Char.toLower), trimmed h.value⟩

/-- The headers as they arrive, those of one name together. -/
def arrange (hs : List Header) : List Header :=
  let arrived := hs.map arriving
  (arrived.map Header.name).eraseDups.flatMap fun n => arrived.filter (·.name == n)

/-- The response that an answer describes. -/
def Answer.response (a : Answer) : Response :=
  if Status.isBodiless a.status then ⟨a.status, arrange a.headers, []⟩
  else
    ⟨a.status, arrange a.headers ++ [⟨"content-length", toString a.body.length⟩], a.body⟩

def Answer.reply (a : Answer) (r : Request) : Reply :=
  match a.failure with
  | some .close | some .hang => .error r.unanswered
  | some .truncate => .error (.brokenBody a.status)
  | none => .ok a.response

/-- The backend of a script. -/
def backend (answers : Answers) : Backend where
  receives r := r.url.scheme == "http".toList
  reply received r :=
    let key := keyOf answers (queryOf r)
    let earlier := received.countP fun r' => keyOf answers (queryOf r') == key
    let list := (answers.lookup key).getD []
    let answer := (list[min earlier (list.length - 1)]?).getD { body := emptyBody }
    answer.reply r

end MetricsQuery.Script
