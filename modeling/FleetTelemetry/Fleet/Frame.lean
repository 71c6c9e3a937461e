import FleetTelemetry.Fleet.Averaging
import FleetTelemetry.Fleet.State
import FleetTelemetry.Time.Span

/-!
# Frames

What a dashboard shows at one moment: sums and averages over the fleet, rates since the start,
latencies per block, and a row for each node that has reported.
-/

namespace FleetTelemetry

/-- An average over the elapsed seconds; zero while no time has elapsed. -/
def throughput (average : Float) (elapsed : Span) : Float :=
  let seconds := elapsed.toFloatSeconds
  if seconds > 0.0 then average / seconds else 0.0

/-- A latency over the number of blocks, the first block included. -/
def latencyPerBlock (latency depth : Float) : Float :=
  latency / (depth + 1.0)

structure NodeRow where
  name : String
  nodeClass : Option NodeClass
  leader : Bool
  chainDepth : UInt64
  proposeBlock : UInt64
  signBlock : UInt64
  submitBlock : UInt64
  deriving DecidableEq, Repr

def NodeRow.ofSnapshot (roster : Roster) (name : String) (s : Snapshot) : NodeRow :=
  { name
    nodeClass := roster.classOf? name
    leader := s.token
    chainDepth := s.chainDepth
    proposeBlock := s.proposeBlock
    signBlock := s.signBlock
    submitBlock := s.submitBlock }

/-- Everything that one moment of a fleet amounts to. -/
structure Frame where
  elapsed : Span
  current : Totals
  previous : Totals
  currentAverage : Averages
  previousAverage : Averages
  /-- Transactions per second since the start. -/
  generatedRate : Float
  confirmedRate : Float
  /-- Seconds of latency per block. -/
  proposePerBlock : Float
  signPerBlock : Float
  submitPerBlock : Float
  nodes : List NodeRow

namespace Frame

def chainDepth (frame : Frame) : Float := frame.currentAverage.chainDepth

def gas (frame : Frame) : Nat := frame.current.gas

def millisPerSecond : Float := 1000.0

def ofState (divisors : Divisors) (roster : Roster) (state : FleetState) (elapsed : Span) :
    Except ZeroDivisor Frame := do
  let current := Totals.sum state.current.values
  let previous := Totals.sum state.previous.values
  let currentAverage ← divisors.average current
  let previousAverage ← divisors.average previous
  let perBlock (latency : Float) :=
    latencyPerBlock latency currentAverage.chainDepth / millisPerSecond
  return {
    elapsed, current, previous, currentAverage, previousAverage
    generatedRate := throughput currentAverage.generated elapsed
    confirmedRate := throughput currentAverage.confirmed elapsed
    proposePerBlock := perBlock currentAverage.proposeLatency
    signPerBlock := perBlock currentAverage.signLatency
    submitPerBlock := perBlock currentAverage.submitLatency
    nodes := state.current.toList.map fun entry => NodeRow.ofSnapshot roster entry.1 entry.2 }

end Frame

end FleetTelemetry
