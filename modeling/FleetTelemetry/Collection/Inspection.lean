import FleetTelemetry.Collection.Aggregator
import FleetTelemetry.Collection.Poller
import FleetTelemetry.Text.Escaped

/-!
# Inspection

The inside of an aggregator and of a poller on one line, for people who look for faults: records
with the names of their fields, maps in the order of their keys.
-/

namespace FleetTelemetry.Inspection

open Text

def braced (first last : String) (members : List (String × String)) : String :=
  first ++ String.intercalate ", " (members.map fun m => m.1 ++ ": " ++ m.2) ++ last

def recordText (name : String) (fields : List (String × String)) : String :=
  name ++ braced " \x7b " " \x7d" fields

def mapText (entries : List (String × String)) : String :=
  braced "\x7b" "\x7d" (entries.map fun e => (quoted e.1, e.2))

def truthText (b : Bool) : String := if b then "true" else "false"

def fieldText (s : Snapshot) : Snapshot.Field → String
  | .token => truthText s.token
  | field => decimalString (s.get field).toNat

def snapshotText (s : Snapshot) : String :=
  recordText "Snapshot" (Snapshot.Field.all.map fun field => (field.name, fieldText s field))

def snapshotMapText (map : SnapshotMap) : String :=
  mapText (map.toList.map fun e => (e.1, snapshotText e.2))

def stateText (state : FleetState) : String :=
  recordText "AggregatorState"
    [("current", snapshotMapText state.current), ("previous", snapshotMapText state.previous)]

def profileName : AveragingProfile → String
  | .full => "Full"
  | .reduced => "Reduced"
  | .reducedScale => "ReducedScale"

def divisorName : Divisor → String
  | .side => "Side"
  | .scale => "Scale"
  | .nodes => "Nodes"
  | .unit => "Unit"

def divisorsText (d : Divisors) : String :=
  recordText "Divisors"
    [("scale", decimalString d.scale), ("side", decimalString d.side),
     ("profile", profileName d.profile)]

def aggregatorText (a : Aggregator) : String :=
  recordText "Aggregator"
    [("state", stateText a.state), ("divisors", divisorsText a.divisors),
     ("interval", a.interval.text)]

def pollerText (p : Poller) : String :=
  recordText "Poller" [("node", quoted p.node), ("interval", p.interval.text)]

end FleetTelemetry.Inspection
