import FleetTelemetry.Collection.Logs
import FleetTelemetry.Diagnostics.Event
import FleetTelemetry.Diagnostics.Failure
import FleetTelemetry.Fleet.Frame

/-!
# The aggregator

The aggregator owns the state of the fleet, the logs and the dashboard. A tick of its clock turns a
warm state into a frame, appends a row to every log and only then draws the frame. A drawing that
fails is told and forgotten; a log that fails is the outcome of the tick. Writers and the dashboard
are given from outside, and the aggregator crashes when one of them does.
-/

namespace FleetTelemetry

open Diagnostics

inductive DrawOutcome where
  | drawn
  | failed (fault : FileFault)
  /-- Drawing ends the program that draws. -/
  | crashed
  deriving DecidableEq, Repr

/-- A dashboard: what it does at each attempt to draw, and the frames that it has shown. -/
structure DashboardPanel where
  outcomeAt : Nat → DrawOutcome := fun _ => .drawn
  attempts : Nat := 0
  shown : Array Frame := #[]

def DashboardPanel.draw (panel : DashboardPanel) (frame : Frame) : DrawOutcome × DashboardPanel :=
  let panel' := { panel with attempts := panel.attempts + 1 }
  match panel.outcomeAt panel.attempts with
  | .drawn => (.drawn, { panel' with shown := panel.shown.push frame })
  | outcome => (outcome, panel')

inductive AggregateError where
  | zeroDivisor (cause : ZeroDivisor)
  | log (cause : LogError)
  | task
  deriving DecidableEq, Repr

def AggregateError.message : AggregateError → String
  | .zeroDivisor cause => cause.message
  | .log cause => cause.message
  | .task => "aggregator task failed"

/-- An aggregation error as the end of a command. A log's fault is told in the wording of the error
and once more as its cause. -/
def AggregateError.abort (e : AggregateError) : Abort :=
  match e with
  | .log cause => .failed { headline := e.message, causes := [cause.fault.message] }
  | _ => .failed { headline := e.message }

inductive TickOutcome where
  | idle
  | frame (frame : Frame)
  | failed (e : AggregateError)
  | crashed

structure Aggregator where
  state : FleetState := {}
  roster : Roster
  divisors : Divisors
  logs : NodeLogs
  panel : DashboardPanel := {}
  interval : Span

namespace Aggregator

def apply (a : Aggregator) (report : Report) : Aggregator :=
  { a with state := a.state.apply report }

def event (level : Level) (message : String) (values : List (String × String)) : Event :=
  { level, origin := .aggregator, message, values }

def skippedEvent : Event := event .debug "tick skipped, waiting for second report" []

def drawFailedEvent (fault : FileFault) : Event :=
  event .warn ("dashboard draw failed: " ++ fault.message) []

def startedEvent (a : Aggregator) : Event :=
  event .info "aggregator started" [numberValue "nodes" a.roster.size, intervalValue a.interval]

def channelClosedEvent : Event := event .debug "report channel closed" []

def stoppingEvent : Event := event .info "aggregator stopping" []

def draw (a : Aggregator) (frame : Frame) : TickOutcome × Aggregator × List Event :=
  match a.panel.draw frame with
  | (.drawn, panel) => (.frame frame, { a with panel }, [])
  | (.failed fault, panel) => (.frame frame, { a with panel }, [drawFailedEvent fault])
  | (.crashed, panel) => (.crashed, { a with panel }, [])

/-- One tick: the frame of the elapsed time is logged at a timestamp and drawn. -/
def tick (a : Aggregator) (elapsed : Span) (timestamp : UInt64) :
    TickOutcome × Aggregator × List Event :=
  if !a.state.isWarm then (.idle, a, [skippedEvent])
  else
    match Frame.ofState a.divisors a.roster a.state elapsed with
    | .error cause => (.failed (.zeroDivisor cause), a, [])
    | .ok frame =>
      match a.logs.writeTick timestamp a.state.current with
      | (.failed cause, logs) => (.failed (.log cause), { a with logs }, [])
      | (.crashed, logs) => (.crashed, { a with logs }, [])
      | (.written, logs) => draw { a with logs } frame

end Aggregator

end FleetTelemetry
