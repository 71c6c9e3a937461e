import FleetTelemetry.Collection.World

/-!
# Schedules

A run in which no task waits longer than it must: whatever a task can do is done before time
passes, and time passes only up to the next moment at which a task goes on by itself. Tasks take
their turns in a fixed order.
-/

namespace FleetTelemetry.World

def pollerMoves (i : Nat) : List Move :=
  [.startPoller i, .endFetch i, .deliver i, .abandon i, .beginFetch i, .noticePoller i]

def aggregatorMoves : List Move :=
  [.startAggregator, .receive, .closeReports, .tick, .noticeAggregator, .finish]

/-- Everything that tasks may do of their own accord, in the order of their turns. -/
def ownMoves (w : World) : List Move :=
  (List.range w.pollers.length).flatMap pollerMoves ++ aggregatorMoves

def advance? (w : World) : Option World :=
  w.ownMoves.findSome? w.step

def wakeTime (w : World) : Option Nat :=
  (w.pollers.filterMap PollerTask.wakeTime ++
    (w.aggregator.bind AggregatorTask.wakeTime).toList).min?

def isOver (w : World) : Bool := w.result.isSome

def settle (limit : Nat) : Nat → World → World
  | 0, w => w
  | fuel + 1, w =>
    match w.advance? with
    | some w' => settle limit fuel w'
    | none =>
      match w.wakeTime with
      | some time =>
        if time ≤ limit then settle limit fuel { w with now := max w.now time }
        else { w with now := max w.now limit }
      | none => { w with now := max w.now limit }

/-- Moves and jumps that a world makes at most until some time: a task makes no more than eight for
each tick, and of ticks there is no more than one in a nanosecond. -/
def moveBound (w : World) (limit : Nat) : Nat :=
  8 * (limit + latenessBound + 2) * (w.pollers.length + 1)

def runUntil (w : World) (limit : Nat) : World :=
  settle limit (w.moveBound limit) w

def happen (w : World) (m : Move) : World := (w.step m).getD w

/-- Lets tasks go on by at most `fuel` moves and jumps until the run is over. -/
def runToEnd : Nat → World → World
  | 0, w => w
  | fuel + 1, w =>
    if w.isOver then w
    else
      match w.advance? with
      | some w' => runToEnd fuel w'
      | none =>
        match w.wakeTime with
        | some time => runToEnd fuel { w with now := max w.now time }
        | none => w

end FleetTelemetry.World
