import FleetTelemetry.Collection.Task

/-!
# Runs

Pollers and an aggregator share a channel with room for one report and a shutdown signal. A run is
a sequence of moves: something that a task can do now, something that comes from outside, or the
passing of time. Which of several possible moves comes next is left open, so what holds for all
sequences of moves holds for every order of the tasks.
-/

namespace FleetTelemetry

open Diagnostics

/-- The nanoseconds that the system's clock can count: its seconds are below `2 ^ 63`. It counts
from before the run, so it ends earlier in the time of the run. -/
def clockRange : Nat := 0x8000000000000000 * Span.perSecond

/-- All tasks and what is between them. -/
structure World where
  now : Nat := 0
  /-- The seconds since the epoch at which the run began. -/
  epoch : Nat := 0
  /-- The first time that the system's clock cannot tell. -/
  clockEnd : Nat := clockRange
  shutdown : Shutdown := {}
  slot : Option Report := none
  receiving : Bool := true
  /-- Someone besides the pollers may put reports into the channel. -/
  sending : Bool := false
  pollers : List PollerTask := []
  aggregator : Option AggregatorTask := none
  result : Option (Except AggregateError Unit) := none
  journal : Array Event := #[]

/-- One thing that happens in a run. -/
inductive Move where
  | startPoller (i : Nat)
  | beginFetch (i : Nat)
  | endFetch (i : Nat)
  | deliver (i : Nat)
  | abandon (i : Nat)
  | noticePoller (i : Nat)
  | startAggregator
  | receive
  | closeReports
  | tick
  | noticeAggregator
  | finish
  | wait (time : Nat)
  | signal (value : Bool)
  | dropSignal
  | send (report : Report)
  | closeSender
  | take
  | closeReceiver
  deriving DecidableEq, Repr

namespace World

def tell (w : World) (events : List Event) : World :=
  { w with journal := w.journal ++ events.toArray }

def setPoller (w : World) (i : Nat) (t : PollerTask) : World :=
  { w with pollers := w.pollers.set i t }

/-- Replaces the aggregator's task. When it has ended nobody takes reports any more, and the one in
the channel is lost. -/
def setAggregator (w : World) (t : AggregatorTask) : World :=
  if t.end?.isSome then
    { w with aggregator := some t, receiving := false, slot := none }
  else
    { w with aggregator := some t }

def timestamp (w : World) : UInt64 := UInt64.ofNat (w.epoch + w.now / Span.perSecond)

/-- Somebody may still put a report into the channel. -/
def hasSender (w : World) : Bool :=
  w.sending || w.pollers.any fun t => !t.isStopped

def resultOf : AggregatorEnd → Except AggregateError Unit
  | .stopped => .ok ()
  | .failed e => .error e
  | .crashed => .error .task

/-- One move, if it is possible now. -/
def step (w : World) : Move → Option World
  | .startPoller i => do
    let (t, events) ← (← w.pollers[i]?).start w.now
    return (w.setPoller i t).tell events
  | .beginFetch i => do
    return w.setPoller i (← (← w.pollers[i]?).beginFetch w.now)
  | .endFetch i => do
    let (t, events) ← (← w.pollers[i]?).endFetch w.now
    return (w.setPoller i t).tell events
  | .deliver i => do
    let t ← w.pollers[i]?
    let report ← t.offer?
    if w.receiving ∧ w.slot = none then
      return { w.setPoller i t.delivered with slot := some report }
    else none
  | .abandon i => do
    let t ← w.pollers[i]?
    if t.offer?.isSome ∧ !w.receiving then
      return (w.setPoller i t.abandon.1).tell t.abandon.2
    else none
  | .noticePoller i => do
    return w.setPoller i (← (← w.pollers[i]?).notice w.shutdown)
  | .startAggregator => do
    let (t, events) ← (← w.aggregator).start w.now w.clockEnd
    return (w.setAggregator t).tell events
  | .receive => do
    let t ← (← w.aggregator).receive (← w.slot)
    return { w.setAggregator t with slot := none }
  | .closeReports => do
    let (t, events) ← (← w.aggregator).closeReports
    if w.slot = none ∧ !w.hasSender then
      return (w.setAggregator t).tell events
    else none
  | .tick => do
    let (t, events) ← (← w.aggregator).tick w.now w.timestamp
    return (w.setAggregator t).tell events
  | .noticeAggregator => do
    let (t, events) ← (← w.aggregator).notice w.shutdown
    return (w.setAggregator t).tell events
  | .finish => do
    let how ← (← w.aggregator).end?
    if w.result.isNone then
      return { w with result := some (resultOf how), pollers := w.pollers.map PollerTask.cancel }
    else none
  | .wait time => if w.now ≤ time then some { w with now := time } else none
  | .signal value =>
    if w.shutdown.dropped then none
    else some { w with shutdown := { w.shutdown with value, version := w.shutdown.version + 1 } }
  | .dropSignal => some { w with shutdown := { w.shutdown with dropped := true } }
  | .send report =>
    if w.sending ∧ w.receiving ∧ w.slot = none then some { w with slot := some report } else none
  | .closeSender => some { w with sending := false }
  | .take => if w.slot.isSome then some { w with slot := none } else none
  | .closeReceiver => some { w with receiving := false, slot := none }

def run (w : World) : List Move → Option World
  | [] => some w
  | m :: ms => (w.step m).bind fun w' => w'.run ms

end World

end FleetTelemetry
