import FleetTelemetry.Collection.Aggregator
import FleetTelemetry.Collection.Poller

/-!
# Tasks

The aggregator and each poller run as tasks of their own. A task waits for its clock, for the other
end of the report channel and for the shutdown signal, and does one thing at a time when something
that it waits for has happened. Time is counted in nanoseconds from the start of the run.
-/

namespace FleetTelemetry

open Diagnostics

structure Shutdown where
  value : Bool := false
  /-- How often the value was set. -/
  version : Nat := 0
  /-- Nobody is left who could set it. -/
  dropped : Bool := false
  deriving DecidableEq, Repr

inductive Notice where
  /-- The signal was set, but not for stopping. -/
  | goOn
  | stop
  deriving DecidableEq, Repr

/-- What a task learns that has seen the first `seen` settings. A setting that it has not seen comes
before the loss of the signal. -/
def Shutdown.notice (shutdown : Shutdown) (seen : Nat) : Option Notice :=
  if seen < shutdown.version then some (if shutdown.value then .stop else .goOn)
  else if shutdown.dropped then some .stop
  else none

/-- Ticks that come later than this shift the ticks after them. -/
def latenessBound : Nat := 5 * Span.perMilli

/-- When the tick after one that was due at some time and came at another is due: at its place in
the rhythm, or a whole interval after a tick that was late. -/
def nextDue (interval due now : Nat) : Nat :=
  if due + latenessBound < now then now + interval else due + interval

inductive PollerPhase where
  | created
  | idle
  | fetching (ends : Nat)
  /-- Waiting for room in the channel. -/
  | offering (report : Report)
  | stopped
  deriving DecidableEq, Repr

structure PollerTask where
  poller : Poller
  phase : PollerPhase := .created
  due : Nat := 0
  /-- The settings of the shutdown signal that were seen. -/
  seen : Nat := 0

namespace PollerTask

def period (t : PollerTask) : Nat := t.poller.interval.nanoseconds

/-- Begins; the first tick is due at once. A task without time between ticks does not begin. -/
def start (t : PollerTask) (now : Nat) : Option (PollerTask × List Event) :=
  match t.phase with
  | .created =>
    if t.period = 0 then some ({ t with phase := .stopped }, [])
    else some ({ t with phase := .idle, due := now }, [t.poller.startedEvent])
  | _ => none

def beginFetch (t : PollerTask) (now : Nat) : Option PollerTask :=
  match t.phase with
  | .idle =>
    if t.due ≤ now then
      some { t with
        phase := .fetching (now + t.poller.source.delay t.poller.fetches)
        due := nextDue t.period t.due now }
    else none
  | _ => none

/-- Ends a fetch whose time is over. A snapshot is then offered as a report. -/
def endFetch (t : PollerTask) (now : Nat) : Option (PollerTask × List Event) :=
  match t.phase with
  | .fetching ends =>
    if ends ≤ now then
      match t.poller.poll with
      | (some snapshot, poller, events) =>
        some ({ t with poller, phase := .offering { node := poller.node, snapshot } }, events)
      | (none, poller, events) => some ({ t with poller, phase := .idle }, events)
    else none
  | _ => none

def offer? (t : PollerTask) : Option Report :=
  match t.phase with
  | .offering report => some report
  | _ => none

def delivered (t : PollerTask) : PollerTask := { t with phase := .idle }

/-- Stops because nobody takes reports any more. -/
def abandon (t : PollerTask) : PollerTask × List Event :=
  ({ t with phase := .stopped }, [t.poller.aggregatorGoneEvent])

/-- Looks at the shutdown signal while waiting for a tick or for room. A report that is being
offered when the signal is set is dropped. -/
def notice (t : PollerTask) (shutdown : Shutdown) : Option PollerTask :=
  if t.phase = .idle ∨ t.offer?.isSome then
    (shutdown.notice t.seen).map fun notice =>
      { t with
        seen := shutdown.version
        phase := if notice = .stop then .stopped else .idle }
  else none

def wakeTime (t : PollerTask) : Option Nat :=
  match t.phase with
  | .idle => some t.due
  | .fetching ends => some ends
  | _ => none

def cancel (t : PollerTask) : PollerTask := { t with phase := .stopped }

def isStopped (t : PollerTask) : Bool := t.phase = .stopped

end PollerTask

inductive AggregatorEnd where
  | stopped
  | failed (e : AggregateError)
  | crashed
  deriving DecidableEq, Repr

inductive AggregatorPhase where
  | created
  | running
  | ended (how : AggregatorEnd)
  deriving DecidableEq, Repr

structure AggregatorTask where
  aggregator : Aggregator
  phase : AggregatorPhase := .created
  due : Nat := 0
  reportsOpen : Bool := true
  seen : Nat := 0

namespace AggregatorTask

def period (t : AggregatorTask) : Nat := t.aggregator.interval.nanoseconds

/-- Begins; the first tick is due after one interval. A task without time between ticks crashes, and
so does one whose first tick comes at a time that the clock cannot tell. -/
def start (t : AggregatorTask) (now clockEnd : Nat) : Option (AggregatorTask × List Event) :=
  if t.phase = .created then
    if t.period = 0 ∨ clockEnd ≤ now + t.period then some ({ t with phase := .ended .crashed }, [])
    else
      some ({ t with phase := .running, due := now + t.period }, [t.aggregator.startedEvent])
  else none

def receive (t : AggregatorTask) (report : Report) : Option AggregatorTask :=
  if t.phase = .running ∧ t.reportsOpen then
    some { t with aggregator := t.aggregator.apply report }
  else none

def closeReports (t : AggregatorTask) : Option (AggregatorTask × List Event) :=
  if t.phase = .running ∧ t.reportsOpen then
    some ({ t with reportsOpen := false }, [Aggregator.channelClosedEvent])
  else none

def phaseAfter : TickOutcome → AggregatorPhase
  | .idle => .running
  | .frame _ => .running
  | .failed e => .ended (.failed e)
  | .crashed => .ended .crashed

def tick (t : AggregatorTask) (now : Nat) (timestamp : UInt64) :
    Option (AggregatorTask × List Event) :=
  if t.phase = .running ∧ t.due ≤ now then
    match t.aggregator.tick ⟨now⟩ timestamp with
    | (outcome, aggregator, events) =>
      some ({ t with aggregator, phase := phaseAfter outcome, due := nextDue t.period t.due now },
        events)
  else none

def notice (t : AggregatorTask) (shutdown : Shutdown) : Option (AggregatorTask × List Event) :=
  if t.phase = .running then
    (shutdown.notice t.seen).map fun
      | .goOn => ({ t with seen := shutdown.version }, [])
      | .stop =>
        ({ t with seen := shutdown.version, phase := .ended .stopped },
          [Aggregator.stoppingEvent])
  else none

def end? (t : AggregatorTask) : Option AggregatorEnd :=
  match t.phase with
  | .ended how => some how
  | _ => none

def wakeTime (t : AggregatorTask) : Option Nat :=
  if t.phase = .running then some t.due else none

end AggregatorTask

end FleetTelemetry
