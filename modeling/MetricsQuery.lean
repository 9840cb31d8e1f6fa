import MetricsQuery.Client
import MetricsQuery.Command.Basic
import MetricsQuery.Command.Block
import MetricsQuery.Command.Given
import MetricsQuery.Command.Listener
import MetricsQuery.Command.Parameter
import MetricsQuery.Command.Run
import MetricsQuery.Command.Usage
import MetricsQuery.Context.Basic
import MetricsQuery.Context.Execution
import MetricsQuery.Context.Log
import MetricsQuery.Context.Pool
import MetricsQuery.Context.Session
import MetricsQuery.Entries
import MetricsQuery.Http.Exchange
import MetricsQuery.Http.Header
import MetricsQuery.Http.Script
import MetricsQuery.Http.Status
import MetricsQuery.Json.Fault
import MetricsQuery.Json.Printer
import MetricsQuery.Json.Reader
import MetricsQuery.Json.Shape
import MetricsQuery.Json.Value
import MetricsQuery.Label.Name
import MetricsQuery.Main
import MetricsQuery.Metric.Basic
import MetricsQuery.Metric.Exposition
import MetricsQuery.Number.Binary64
import MetricsQuery.Number.Fixed
import MetricsQuery.Number.Literal
import MetricsQuery.Number.Rounding
import MetricsQuery.Number.Shortest
import MetricsQuery.Pod.Basic
import MetricsQuery.Pod.Document
import MetricsQuery.Pod.Exporter
import MetricsQuery.Pod.Sample
import MetricsQuery.Pod.Scrape
import MetricsQuery.Query.Collector
import MetricsQuery.Query.Decoder
import MetricsQuery.Query.Fault
import MetricsQuery.Query.Series
import MetricsQuery.Query.Shared
import MetricsQuery.Query.Warning
import MetricsQuery.Retry
import MetricsQuery.Settings.Basic
import MetricsQuery.Settings.Document
import MetricsQuery.Text.Blank
import MetricsQuery.Text.Printable
import MetricsQuery.Text.Quoted
import MetricsQuery.Text.Utf8
import MetricsQuery.Time.Civil
import MetricsQuery.Time.Duration
import MetricsQuery.Time.DurationText
import MetricsQuery.Time.Instant
import MetricsQuery.Time.Rfc3339
import MetricsQuery.Url.Address
import MetricsQuery.Url.Basic
import MetricsQuery.Url.Domain
import MetricsQuery.Url.Fault
import MetricsQuery.Url.Form
import MetricsQuery.Url.Path
import MetricsQuery.Url.Percent
import MetricsQuery.Url.Punycode
import MetricsQuery.Url.Reader
import MetricsQuery.Yaml.Cursor
import MetricsQuery.Yaml.Document
import MetricsQuery.Yaml.Fault
import MetricsQuery.Yaml.Reader
import MetricsQuery.Yaml.Schema
import MetricsQuery.Yaml.Token
import MetricsQuery.Yaml.Token.Layout
import MetricsQuery.Yaml.Token.Property
import MetricsQuery.Yaml.Token.Scalar
import MetricsQuery.Proofs.Fallible
import MetricsQuery.Proofs.Entries
import MetricsQuery.Proofs.Places
import MetricsQuery.Proofs.Text.Utf8
import MetricsQuery.Proofs.Text.Order
import MetricsQuery.Proofs.Text.Trim
import MetricsQuery.Proofs.Number.Digits
import MetricsQuery.Proofs.Number.Literal
import MetricsQuery.Proofs.Number.Rounding
import MetricsQuery.Proofs.Time.Civil
import MetricsQuery.Proofs.Time.Rfc3339
import MetricsQuery.Proofs.Time.Canonical
import MetricsQuery.Proofs.Time.Duration
import MetricsQuery.Proofs.Time.DurationText
import MetricsQuery.Proofs.Time.Earlier
import MetricsQuery.Proofs.Time.Seconds
import MetricsQuery.Proofs.Json.Grammar
import MetricsQuery.Proofs.Json.Printer
import MetricsQuery.Proofs.Url.Form
import MetricsQuery.Proofs.Url.Segment
import MetricsQuery.Proofs.Url.Resolve
import MetricsQuery.Proofs.Http.Header
import MetricsQuery.Proofs.Query.Decoder
import MetricsQuery.Proofs.Query.FirstFault
import MetricsQuery.Proofs.Query.Series
import MetricsQuery.Proofs.Query.Linearized
import MetricsQuery.Proofs.Label.Name
import MetricsQuery.Proofs.Label.Listing
import MetricsQuery.Proofs.Metric.Exposition
import MetricsQuery.Proofs.Pod.Sample
import MetricsQuery.Proofs.Pod.Exported
import MetricsQuery.Proofs.Pod.Restored
import MetricsQuery.Proofs.Pod.Scrape
import MetricsQuery.Proofs.Retry.Course
import MetricsQuery.Proofs.Retry.Growth
import MetricsQuery.Proofs.Context.Request
import MetricsQuery.Proofs.Context.Execution
import MetricsQuery.Proofs.Context.Collected
import MetricsQuery.Proofs.Context.Batch
import MetricsQuery.Proofs.Context.Session
import MetricsQuery.Proofs.Context.Agreement
import MetricsQuery.Proofs.Context.Retried
import MetricsQuery.Proofs.Context.Warned
import MetricsQuery.Proofs.Context.Schedule
import MetricsQuery.Proofs.Context.Profiled
import MetricsQuery.Proofs.Context.Evaluation
import MetricsQuery.Proofs.Context.Step
import MetricsQuery.Proofs.Context.Headers
import MetricsQuery.Proofs.Context.Diagnosis
import MetricsQuery.Proofs.Client
import MetricsQuery.Proofs.Command.Window
import MetricsQuery.Proofs.Command.Block
import MetricsQuery.Proofs.Command.Query
import MetricsQuery.Proofs.Command.Settings
import MetricsQuery.Proofs.Command.Range
import MetricsQuery.Proofs.Command.Step
