import MetricsQuery.Metric.Basic
import MetricsQuery.Number.Shortest
import MetricsQuery.Time.Duration

/-!
# The exposition of metrics

Samples as lines of text: after a description and a type for each metric that has samples, one line
a series with its labels and its value. Lines are in the order of their text; samples of one series
are one line.
-/

namespace MetricsQuery.Exposition

/-- A label value, of which `pending` says that a backslash came before. A backslash is doubled
unless it is doubled already or stands before a quote, which it then escapes. -/
def escapeFrom : Bool → List Char → List Char
  | pending, [] => if pending then ['\\', '\\'] else []
  | pending, c :: cs =>
    if c = '\n' then '\\' :: 'n' :: escapeFrom pending cs
    else if c = '"' then '\\' :: '"' :: escapeFrom false cs
    else if c = '\\' then (if pending then ['\\', '\\'] else []) ++ escapeFrom (!pending) cs
    else (if pending then ['\\', '\\'] else []) ++ c :: escapeFrom false cs

/-- A label value inside its quotes. -/
def escape (value : String) : String := String.ofList (escapeFrom false value.toList)

def label (l : String × String) : String := l.1 ++ "=\"" ++ escape l.2 ++ "\""

/-- A series with its labels. -/
def series (name : String) (labels : List (String × String)) : String :=
  name ++ "\x7b" ++ String.intercalate "," (labels.map label) ++ "\x7d"

def line (name : String) (labels : List (String × String)) (value : String) : String :=
  series name labels ++ " " ++ value

/-- The lines that introduce a metric. -/
def introduction (m : Metric) (kind : String) : List String :=
  ["# HELP " ++ m.name ++ " " ++ m.description, "# TYPE " ++ m.name ++ " " ++ kind]

/-- The lines in the order of their text, each of them once. -/
def arrange (lines : List String) : List String :=
  (lines.mergeSort fun a b => decide (a ≤ b)).eraseDups

/-! ## Latencies -/

/-- The quantiles of a summary. -/
def quantiles : List String := ["0", "0.5", "0.9", "0.95", "0.99", "0.999", "1"]

/-- The number of latencies under a label, or under one that is written the same. -/
def countOf (recorded : List String) (label : String) : Nat :=
  recorded.countP fun l => escape l == escape label

/-- The lines of a summary of `count` equal latencies under a label. -/
def summary (latency : Duration) (label : String) (count : Nat) : List String :=
  let name := Metric.queryDuration.name
  let l := ("label", label)
  let total := (Duration.ofNanos? (count * latency.nanos)).getD .longest
  quantiles.map (fun q => line name [l, ("quantile", q)] latency.seconds.positional) ++
    [line (name ++ "_sum") [l] total.seconds.positional,
     line (name ++ "_count") [l] (toString count)]

/-- The exposition of recorded latencies, given by their labels, each of them `latency`. -/
def latencies (latency : Duration) (recorded : List String) : List String :=
  if recorded = [] then []
  else
    arrange (introduction Metric.queryDuration "summary" ++
      recorded.flatMap fun l => summary latency l (countOf recorded l))

end MetricsQuery.Exposition
