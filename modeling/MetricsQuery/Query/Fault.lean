import MetricsQuery.Json.Fault
import MetricsQuery.Url.Fault

/-!
# Faults of queries

Everything that can go wrong between a query text and its results, by cause. `Fault.message` is the
text a user sees, `Fault.query?` the query a fault belongs to, and `Fault.isBackend` tells the
faults a backend reports from those of the transport and of decoding.
-/

namespace MetricsQuery

/-- Why a decoded body holds no results. `other` is what a decoder of another format reports. -/
inductive ResultCause where
  | bodyNotObject
  | reported (kind text : String)
  | noData
  | noResult
  | resultNotArray
  | entryNotObject
  | valuesNotArray
  | noValues
  | sampleNotPair
  | timestampNotNumber
  | valueNotString
  | badValue (raw : String)
  | other (text : String)
  deriving DecidableEq, Repr

def ResultCause.message : ResultCause → String
  | bodyNotObject => "response body is not an object"
  | reported kind text => kind ++ ": " ++ text
  | noData => "'data' field does not exist in response"
  | noResult => "'result' field does not exist in data"
  | resultNotArray => "'result' field is not an array"
  | entryNotObject => "result entry is not an object"
  | valuesNotArray => "'values' field is not an array"
  | noValues => "neither 'value' nor 'values' exist in result entry"
  | sampleNotPair => "sample is not a [timestamp, value] pair"
  | timestampNotNumber => "sample timestamp is not a number"
  | valueNotString => "sample value is not a string"
  | badValue raw => "unable to parse sample value '" ++ raw ++ "'"
  | other text => text

/-- Why a query task delivered no outcome of its own. -/
inductive TaskCause where
  | panicked (text : Option String)
  | undelivered
  deriving DecidableEq, Repr

def TaskCause.message : TaskCause → String
  | panicked (some text) => text
  | panicked none => "unknown panic"
  | undelivered => "query task ended without delivering results"

/-- Why settings cannot be used. -/
inductive SettingsCause where
  | badDuration (text : String)
  | malformed (reason : String)
  | unreadable (path reason : String)
  | notABase (address : String)
  | other (text : String)
  deriving DecidableEq, Repr

def SettingsCause.message : SettingsCause → String
  | badDuration text => "invalid duration value: " ++ text
  | malformed reason => "invalid configuration: " ++ reason
  | unreadable path reason => "unable to read " ++ path ++ ": " ++ reason
  | notABase address => "'" ++ address ++ "' cannot be used as a base URL"
  | other text => text

inductive Fault where
  /-- The request never got a complete response. -/
  | request (query text : String)
  /-- The backend answered with a status that is no success; the text is the whole diagnosis. -/
  | status (text : String)
  /-- The backend left out some of its stores, so that its data is incomplete. -/
  | storesMissing (warning body query : String)
  /-- The body is no JSON. -/
  | body (query : String) (source : Json.Fault)
  /-- The body is JSON without results. -/
  | result (query : String) (cause : ResultCause)
  /-- A label that was asked for is absent. -/
  | missingLabel (name : String)
  | task (query : String) (cause : TaskCause)
  | address (cause : Url.Fault)
  | settings (cause : SettingsCause)
  deriving DecidableEq, Repr

namespace Fault

def message : Fault → String
  | request query text => "query error: '" ++ text ++ "' fetching query '" ++ query ++ "'"
  | status text => text
  | storesMissing warning text query =>
    "Error: " ++ warning ++ ", Body: " ++ text ++ ", Query: " ++ query
  | body query source => "Unmarshal Error: " ++ source.message ++ "\nQuery: " ++ query
  | result query cause => "result error for query '" ++ query ++ "': " ++ cause.message
  | missingLabel name => "'" ++ name ++ "' field does not exist in data result vector"
  | task query cause => "query task for '" ++ query ++ "' failed: " ++ cause.message
  | address cause => "unable to parse the address: " ++ cause.message
  | settings cause => "configuration error: " ++ cause.message

/-- The query a fault belongs to, for the faults that carry one. -/
def query? : Fault → Option String
  | request query _ | storesMissing _ _ query | body query _ | result query _ | task query _ =>
    some query
  | status _ | missingLabel _ | address _ | settings _ => none

/-- Whether the backend itself reports the fault. -/
def isBackend : Fault → Bool
  | status _ | storesMissing .. => true
  | _ => false

/-- The fault behind a fault, as text. -/
def source? : Fault → Option String
  | body _ source => some source.message
  | address cause => some cause.message
  | _ => none

end Fault

end MetricsQuery
