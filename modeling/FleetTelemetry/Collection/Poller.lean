import FleetTelemetry.Diagnostics.Event
import FleetTelemetry.Http.Fetch
import FleetTelemetry.Series.Data

/-!
# Pollers

A poller asks one node for its snapshots, one after another, and records each in the node's series
before it offers it as a report. A fetch or an update that fails is told and forgotten.
-/

namespace FleetTelemetry

open Text Diagnostics

/-- Where a poller's snapshots come from: what each fetch brings and how many nanoseconds it
takes. -/
structure Source where
  description : String
  outcome : Nat → Fetched
  delay : Nat → Nat

/-- The time series of a node: the updates that it has taken, and what it does at each attempt. -/
structure SeriesPanel where
  faultAt : Nat → Option StoreError := fun _ => none
  attempts : Nat := 0
  updates : Array (List UInt64) := #[]

def SeriesPanel.update (series : SeriesPanel) (values : List UInt64) :
    Option StoreError × SeriesPanel :=
  let series' := { series with attempts := series.attempts + 1 }
  match series.faultAt series.attempts with
  | some fault => (some fault, series')
  | none => (none, { series' with updates := series.updates.push values })

structure Poller where
  node : String
  source : Source
  series : SeriesPanel := {}
  interval : Span
  fetches : Nat := 0

namespace Poller

def event (p : Poller) (level : Level) (message : String) : Event :=
  { level, origin := .poller, message, values := [nodeValue p.node] }

def startedEvent (p : Poller) : Event :=
  { level := .info
    origin := .poller
    message := "poller started"
    values := [nodeValue p.node, ("source", quoted p.source.description)] }

def fetchFailedEvent (p : Poller) : FetchError → Event
  | .body cause => p.event .warn ("bad snapshot payload: " ++ cause.message)
  | e => p.event .debug ("fetch failed: " ++ e.message)

def updateFailedEvent (p : Poller) (fault : StoreError) : Event :=
  p.event .warn ("time series update failed: " ++ fault.message)

def aggregatorGoneEvent (p : Poller) : Event :=
  p.event .debug "aggregator gone, stopping poller"

/-- Takes in what the next fetch brings: a snapshot is recorded and is to be reported. -/
def poll (p : Poller) : Option Snapshot × Poller × List Event :=
  let p' := { p with fetches := p.fetches + 1 }
  match p.source.outcome p.fetches with
  | .error e => (none, p', [p.fetchFailedEvent e])
  | .ok s =>
    match p.series.update s.seriesValues with
    | (none, series) => (some s, { p' with series }, [])
    | (some fault, series) => (some s, { p' with series }, [p.updateFailedEvent fault])

end Poller

end FleetTelemetry
