import FleetTelemetry.Chart.Content
import FleetTelemetry.Chart.Curve
import FleetTelemetry.Chart.Drawing
import FleetTelemetry.Chart.Plot
import FleetTelemetry.Chart.Window
import FleetTelemetry.Collection.Aggregator
import FleetTelemetry.Collection.Inspection
import FleetTelemetry.Collection.LogFiles
import FleetTelemetry.Collection.Logs
import FleetTelemetry.Collection.Poller
import FleetTelemetry.Collection.Schedule
import FleetTelemetry.Collection.StartUp
import FleetTelemetry.Collection.Task
import FleetTelemetry.Collection.World
import FleetTelemetry.Command.Flag
import FleetTelemetry.Command.Line
import FleetTelemetry.Command.Reach
import FleetTelemetry.Command.Run
import FleetTelemetry.Dashboard.Keys
import FleetTelemetry.Dashboard.Overview
import FleetTelemetry.Dashboard.Plain
import FleetTelemetry.Dashboard.Screen
import FleetTelemetry.Dashboard.Theme
import FleetTelemetry.Diagnostics.Event
import FleetTelemetry.Diagnostics.Failure
import FleetTelemetry.Diagnostics.Filter
import FleetTelemetry.Files.Basic
import FleetTelemetry.Files.Fault
import FleetTelemetry.Files.Path
import FleetTelemetry.Fleet.Averaging
import FleetTelemetry.Fleet.Frame
import FleetTelemetry.Fleet.State
import FleetTelemetry.Fleet.Totals
import FleetTelemetry.Http.Fetch
import FleetTelemetry.Http.Url
import FleetTelemetry.Json.Fault
import FleetTelemetry.Json.Printer
import FleetTelemetry.Json.Punctuation
import FleetTelemetry.Json.Reader
import FleetTelemetry.Json.Record
import FleetTelemetry.Json.Scalar
import FleetTelemetry.Json.Skip
import FleetTelemetry.Json.Value
import FleetTelemetry.Main
import FleetTelemetry.Number.Binary
import FleetTelemetry.Number.Fixed
import FleetTelemetry.Number.Literal
import FleetTelemetry.Number.Shortest
import FleetTelemetry.Proofs.Chart.Gaps
import FleetTelemetry.Proofs.Chart.Nesting
import FleetTelemetry.Proofs.Chart.Points
import FleetTelemetry.Proofs.Chart.Samples
import FleetTelemetry.Proofs.Chart.Window
import FleetTelemetry.Proofs.Collection.Divisors
import FleetTelemetry.Proofs.Collection.Drawing
import FleetTelemetry.Proofs.Collection.Endings
import FleetTelemetry.Proofs.Collection.Frames
import FleetTelemetry.Proofs.Collection.GoingOn
import FleetTelemetry.Proofs.Collection.Independence
import FleetTelemetry.Proofs.Collection.Lockstep
import FleetTelemetry.Proofs.Collection.NodeFiles
import FleetTelemetry.Proofs.Collection.Offers
import FleetTelemetry.Proofs.Collection.Pacing
import FleetTelemetry.Proofs.Collection.Pipeline
import FleetTelemetry.Proofs.Collection.Recording
import FleetTelemetry.Proofs.Collection.Refinement
import FleetTelemetry.Proofs.Collection.Skew
import FleetTelemetry.Proofs.Collection.Starting
import FleetTelemetry.Proofs.Dashboard.NodeLines
import FleetTelemetry.Proofs.Dashboard.PlainDrawing
import FleetTelemetry.Proofs.Fleet.Averaging
import FleetTelemetry.Proofs.Fleet.Frames
import FleetTelemetry.Proofs.Fleet.History
import FleetTelemetry.Proofs.Fleet.Interleavings
import FleetTelemetry.Proofs.Fleet.Sums
import FleetTelemetry.Proofs.Http.Statuses
import FleetTelemetry.Proofs.Json.Values
import FleetTelemetry.Proofs.Outcomes
import FleetTelemetry.Proofs.Roster.Endpoints
import FleetTelemetry.Proofs.Series.Compaction
import FleetTelemetry.Proofs.Series.Retention
import FleetTelemetry.Proofs.Series.Retries
import FleetTelemetry.Proofs.Series.Rewrites
import FleetTelemetry.Proofs.Settings.Checks
import FleetTelemetry.Proofs.Settings.Intervals
import FleetTelemetry.Proofs.Snapshot.Edits
import FleetTelemetry.Proofs.Snapshot.Rows
import FleetTelemetry.Proofs.Time.Clock
import FleetTelemetry.Proofs.Time.Units
import FleetTelemetry.Roster.Basic
import FleetTelemetry.Roster.Parser
import FleetTelemetry.Roster.Record
import FleetTelemetry.Series.Data
import FleetTelemetry.Series.Header
import FleetTelemetry.Series.Store
import FleetTelemetry.Settings.Basic
import FleetTelemetry.Settings.Conversion
import FleetTelemetry.Settings.Layer
import FleetTelemetry.Settings.Load
import FleetTelemetry.Snapshot.Basic
import FleetTelemetry.Snapshot.Payload
import FleetTelemetry.Text.Blank
import FleetTelemetry.Text.Columns
import FleetTelemetry.Text.Escaped
import FleetTelemetry.Text.Markup
import FleetTelemetry.Text.Numeral
import FleetTelemetry.Text.Pad
import FleetTelemetry.Text.Shapeless
import FleetTelemetry.Text.Split
import FleetTelemetry.Time.Reading
import FleetTelemetry.Time.Span
import FleetTelemetry.Toml.Document
import FleetTelemetry.Toml.Moment
import FleetTelemetry.Toml.Reader
import FleetTelemetry.Toml.Scalar
import FleetTelemetry.Toml.Text
import FleetTelemetry.Toml.Value
