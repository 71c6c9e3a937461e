import FleetTelemetry.Fleet.Frame
import FleetTelemetry.Number.Fixed
import FleetTelemetry.Text.Pad

/-!
# Figures on the dashboard

The texts that every kind of dashboard shows: the figures of the whole fleet with their labels,
and a line per node whose columns are under those of a header.
-/

namespace FleetTelemetry.Dashboard

open Number Text

/-- What a dashboard takes from a frame. -/
structure View where
  elapsed : Span
  generatedRate : Float
  confirmedRate : Float
  chainDepth : Float
  gas : Nat
  proposePerBlock : Float
  signPerBlock : Float
  submitPerBlock : Float
  nodes : List NodeRow

def View.ofFrame (frame : Frame) : View :=
  { elapsed := frame.elapsed
    generatedRate := frame.generatedRate
    confirmedRate := frame.confirmedRate
    chainDepth := frame.chainDepth
    gas := frame.gas
    proposePerBlock := frame.proposePerBlock
    signPerBlock := frame.signPerBlock
    submitPerBlock := frame.submitPerBlock
    nodes := frame.nodes }

def figureWidth : Nat := 8

def figure (places : Nat) (x : Float) : String :=
  padLeft figureWidth (fixed places x)

def overview (view : View) : List (String × String) :=
  [("Telematics duration", view.elapsed.clock),
   ("Generated transaction", figure 1 view.generatedRate ++ " tx/s"),
   ("Confirmed transaction", figure 1 view.confirmedRate ++ " tx/s"),
   ("Chain depth", figure 1 view.chainDepth),
   ("Gas", padLeft figureWidth (decimalString view.gas)),
   ("latency - propose", figure 3 view.proposePerBlock ++ " s"),
   ("latency - sign", figure 3 view.signPerBlock ++ " s"),
   ("latency - submit", figure 3 view.submitPerBlock ++ " s")]

def nodeLabel (row : NodeRow) : String :=
  row.name ++ "(" ++ (if row.leader then "*" else " ") ++ ")"

/-- The name of a node's class; a node outside the roster has none. -/
def classLabel (nodeClass : Option NodeClass) : String :=
  match nodeClass with
  | some c => c.label
  | none => "-"

def nodeColumns (label nodeClass depth propose sign submit : String) : String :=
  padRight 16 label ++ " " ++ padRight 6 nodeClass ++ " " ++ padLeft 8 depth ++ " " ++
    padLeft 12 propose ++ " " ++ padLeft 12 sign ++ " " ++ padLeft 12 submit

def nodeLine (row : NodeRow) : String :=
  nodeColumns (nodeLabel row) (classLabel row.nodeClass)
    (decimalString row.chainDepth.toNat) (decimalString row.proposeBlock.toNat)
    (decimalString row.signBlock.toNat) (decimalString row.submitBlock.toNat)

def nodeHeader : String :=
  nodeColumns "Nodes" "Class" "Depth" "Propose(id)" "Sign(id)" "Submit(id)"

def labelWidth : Nat := 23

end FleetTelemetry.Dashboard
