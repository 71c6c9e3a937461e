import Std.Data.ExtTreeMap

/-!
# Rosters

The nodes of a fleet by name, each with its class and its address. A roster grows by one endpoint
at a time and keeps the size of each class beside the map; a name can be taken once.
-/

namespace FleetTelemetry

inductive NodeClass where
  | scale
  | side
  deriving DecidableEq, Repr

namespace NodeClass

/-- The class that a marker stands for: a single zero is the side class. -/
def ofMarker (marker : String) : NodeClass :=
  if marker = "0" then .side else .scale

def label : NodeClass → String
  | .scale => "scale"
  | .side => "side"

end NodeClass

/-- A node and where it is reached. -/
structure Endpoint where
  name : String
  nodeClass : NodeClass
  url : String
  deriving DecidableEq, Repr

/-- The nodes of a fleet. -/
structure Roster where
  nodes : Std.ExtTreeMap String Endpoint := ∅
  scaleCount : Nat := 0
  sideCount : Nat := 0

namespace Roster

def empty : Roster := {}

/-- A roster with one more endpoint, unless its name is taken. -/
def add? (roster : Roster) (endpoint : Endpoint) : Option Roster :=
  if endpoint.name ∈ roster.nodes then none
  else
    let nodes := roster.nodes.insert endpoint.name endpoint
    match endpoint.nodeClass with
    | .scale => some { roster with nodes, scaleCount := roster.scaleCount + 1 }
    | .side => some { roster with nodes, sideCount := roster.sideCount + 1 }

def size (roster : Roster) : Nat := roster.nodes.size

def isEmpty (roster : Roster) : Bool := roster.nodes.isEmpty

def get? (roster : Roster) (name : String) : Option Endpoint := roster.nodes[name]?

def classOf? (roster : Roster) (name : String) : Option NodeClass :=
  (roster.get? name).map (·.nodeClass)

def names (roster : Roster) : List String := roster.nodes.keys

def endpoints (roster : Roster) : List Endpoint := roster.nodes.values

end Roster

end FleetTelemetry
