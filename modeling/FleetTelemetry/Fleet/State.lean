import FleetTelemetry.Snapshot.Basic
import Std.Data.ExtTreeMap

/-!
# The state of a fleet

Of every node the last two snapshots are known. Once some node has reported twice the state is
warm: from then on there is something to compare.
-/

namespace FleetTelemetry

abbrev SnapshotMap := Std.ExtTreeMap String Snapshot

/-- The last snapshot and the last but one of every node. -/
structure FleetState where
  current : SnapshotMap := ∅
  previous : SnapshotMap := ∅

namespace FleetState

def empty : FleetState := {}

/-- Takes in a report: what was current for its node becomes previous. -/
def apply (state : FleetState) (report : Report) : FleetState :=
  { current := state.current.insert report.node report.snapshot
    previous :=
      match state.current[report.node]? with
      | some old => state.previous.insert report.node old
      | none => state.previous }

/-- Some node has reported twice. -/
def isWarm (state : FleetState) : Bool :=
  !state.current.isEmpty && !state.previous.isEmpty

end FleetState

end FleetTelemetry
