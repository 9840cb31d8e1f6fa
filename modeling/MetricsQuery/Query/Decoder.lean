import MetricsQuery.Json.Value
import MetricsQuery.Number.Literal
import MetricsQuery.Query.Series

/-!
# Decoding a response body

`decode` turns the body of an instant or a range query into its series. The type of a result chooses
its form: a scalar and a string are one sample, everything else is a list of series. The first fault
in document order is the answer; there are no partial results. A context may use another `Decoder`,
which may also panic.
-/

namespace MetricsQuery.Decoder

/-- The value of a sample text. -/
def sampleValue? (raw : String) : Option Binary64 :=
  if raw = "NaN" then some .nan
  else if raw = "+Inf" ∨ raw = "Inf" then some (.infinite false)
  else if raw = "-Inf" then some (.infinite true)
  else Binary64.ofText? raw

abbrev Result := Except ResultCause

/-- A timestamp and the text beside it. -/
def samplePair : Json.Value → Result (Binary64 × String)
  | .array [t, v] =>
    match t.asNumber?, v.asString? with
    | none, _ => .error .timestampNotNumber
    | some _, none => .error .valueNotString
    | some t, some raw => .ok (t, raw)
  | _ => .error .sampleNotPair

/-- A timestamp and a value. -/
def sample (v : Json.Value) : Result Sample := do
  let (t, raw) ← samplePair v
  match sampleValue? raw with
  | some x => .ok ⟨t, x⟩
  | none => .error (.badValue raw)

/-- The string members of a metric; anything else has no labels. -/
def labels (metric : Option Json.Value) : List (String × String) :=
  match metric with
  | some (.object ms) => ms.filterMap fun (k, v) => v.asString?.map fun s => (k, s)
  | _ => []

/-- The samples of an entry: the one of `value` if there is that member, else those of `values`. -/
def samples (entry : Json.Value) : Result (List Sample) :=
  match entry.get? "value", entry.get? "values" with
  | some v, _ => (sample v).map fun x => [x]
  | none, some (.array vs) => vs.mapM sample
  | none, some _ => .error .valuesNotArray
  | none, none => .error .noValues

/-- One entry of a list of series. -/
def series (entry : Json.Value) : Result Series :=
  match entry with
  | .object _ => (samples entry).map fun xs => ⟨labels (entry.get? "metric"), xs, none⟩
  | _ => .error .entryNotObject

/-- A string result: its text, and its value if it is one. -/
def stringSeries (result : Json.Value) : Result Series :=
  (samplePair result).map fun (t, raw) => ⟨[], [⟨t, (sampleValue? raw).getD .nan⟩], some raw⟩

/-- The series of a result of the given type. -/
def results (resultType : Option String) (result : Json.Value) : Result (List Series) :=
  match resultType, result with
  | some "scalar", _ => (sample result).map fun x => [⟨[], [x], none⟩]
  | some "string", _ => (stringSeries result).map fun s => [s]
  | _, .array vs => vs.mapM series
  | _, _ => .error .resultNotArray

/-- The text of a string member. -/
def memberText? (v : Json.Value) (key : String) : Option String :=
  (v.get? key).bind Json.Value.asString?

/-- The series of a body. -/
def ofBody (body : Json.Value) : Result (List Series) :=
  match body with
  | .object _ =>
    if memberText? body "status" = some "error" then
      .error (.reported ((memberText? body "errorType").getD "unknown")
        ((memberText? body "error").getD ""))
    else
      match body.get? "data" with
      | some (.object ms) =>
        match ms.lookup "result" with
        | some result => results (memberText? (.object ms) "resultType") result
        | none => .error .noResult
      | _ => .error .noData
  | _ => .error .bodyNotObject

/-- The series of the body of a query. -/
def decode (query : String) (body : Json.Value) : Except Fault (List Series) :=
  (ofBody body).mapError (.result query)

end Decoder

/-- What decoding a body comes to: an answer, or a panic, with its text if it has one. -/
inductive Decoding where
  | done (answer : Except Fault (List Series))
  | panic (text : Option String)

/-- A decoder of response bodies. -/
abbrev BodyDecoder := String → Json.Value → Decoding

namespace Decoder

/-- The decoder of the standard format; it never panics. -/
def standard : BodyDecoder := fun query body => .done (decode query body)

end MetricsQuery.Decoder
