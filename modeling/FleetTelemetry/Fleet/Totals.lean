import FleetTelemetry.Snapshot.Basic

/-!
# Totals

Seven fields of a snapshot can be added up over a fleet; the token, the block ids and the event
counts cannot. A figure per such field is one record type, so that sums and averages have the same
shape.
-/

namespace FleetTelemetry

inductive FleetField where
  | generated
  | confirmed
  | chainDepth
  | proposeLatency
  | signLatency
  | submitLatency
  | gas
  deriving DecidableEq, Repr

namespace FleetField

def all : List FleetField :=
  [generated, confirmed, chainDepth, proposeLatency, signLatency, submitLatency, gas]

def source : FleetField → Snapshot.Field
  | generated => .generatedTransactions
  | confirmed => .confirmedTransactions
  | chainDepth => .chainDepth
  | proposeLatency => .proposeLatency
  | signLatency => .signLatency
  | submitLatency => .submitLatency
  | gas => .gas

def name (field : FleetField) : String := field.source.name

end FleetField

structure PerField (α : Type) where
  generated : α
  confirmed : α
  chainDepth : α
  proposeLatency : α
  signLatency : α
  submitLatency : α
  gas : α
  deriving DecidableEq, Repr

namespace PerField

def get {α : Type} (figures : PerField α) : FleetField → α
  | .generated => figures.generated
  | .confirmed => figures.confirmed
  | .chainDepth => figures.chainDepth
  | .proposeLatency => figures.proposeLatency
  | .signLatency => figures.signLatency
  | .submitLatency => figures.submitLatency
  | .gas => figures.gas

def ofFn {α : Type} (f : FleetField → α) : PerField α :=
  { generated := f .generated
    confirmed := f .confirmed
    chainDepth := f .chainDepth
    proposeLatency := f .proposeLatency
    signLatency := f .signLatency
    submitLatency := f .submitLatency
    gas := f .gas }

def tryOfFn {α ε : Type} (f : FleetField → Except ε α) : Except ε (PerField α) := do
  let generated ← f .generated
  let confirmed ← f .confirmed
  let chainDepth ← f .chainDepth
  let proposeLatency ← f .proposeLatency
  let signLatency ← f .signLatency
  let submitLatency ← f .submitLatency
  let gas ← f .gas
  return { generated, confirmed, chainDepth, proposeLatency, signLatency, submitLatency, gas }

theorem get_ofFn {α : Type} (f : FleetField → α) (field : FleetField) :
    (ofFn f).get field = f field := by
  cases field <;> rfl

end PerField

abbrev Totals := PerField Nat

abbrev Averages := PerField Float

namespace Totals

def zero : Totals := PerField.ofFn fun _ => 0

def add (totals : Totals) (snapshot : Snapshot) : Totals :=
  PerField.ofFn fun field => totals.get field + (snapshot.get field.source).toNat

/-- The sum of every field over some snapshots, which are added one after the other. -/
def sum (snapshots : List Snapshot) : Totals := snapshots.foldl add zero

theorem sum_concat (snapshots : List Snapshot) (snapshot : Snapshot) :
    sum (snapshots ++ [snapshot]) = (sum snapshots).add snapshot := by
  rw [sum, List.foldl_append]
  rfl

end Totals

end FleetTelemetry
