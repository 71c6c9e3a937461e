import FleetTelemetry.Fleet.Totals
import FleetTelemetry.Roster.Basic

/-!
# Averaging

The two classes of nodes do different work, so a field is divided by the size of the class that
does the work behind it. A profile says by what each field is divided. Divisors are checked once,
in field order, before anything is averaged.
-/

namespace FleetTelemetry

inductive Divisor where
  | side
  | scale
  | nodes
  | unit
  deriving DecidableEq, Repr

def Divisor.label : Divisor → String
  | .side => "side"
  | .scale => "scale"
  | .nodes => "roster"
  | .unit => "unit"

/-- Which divisor each field has. -/
inductive AveragingProfile where
  | full
  | reduced
  | reducedScale
  deriving DecidableEq, Repr, Inhabited

def AveragingProfile.divisor : AveragingProfile → FleetField → Divisor
  | .full, .generated => .side
  | .full, .confirmed => .side
  | .full, .chainDepth => .side
  | .full, .proposeLatency => .unit
  | .full, .signLatency => .scale
  | .full, .submitLatency => .scale
  | .full, .gas => .scale
  | .reduced, _ => .nodes
  | .reducedScale, _ => .scale

structure ZeroDivisor where
  field : FleetField
  divisor : Divisor
  deriving DecidableEq, Repr

def ZeroDivisor.message (e : ZeroDivisor) : String :=
  "cannot average '" ++ e.field.name ++ "': no " ++ e.divisor.label ++ " nodes configured"

/-- The sizes of the classes and the profile that uses them. -/
structure Divisors where
  scale : Nat
  side : Nat
  profile : AveragingProfile
  deriving DecidableEq, Repr

namespace Divisors

def size (d : Divisors) : Divisor → Nat
  | .side => d.side
  | .scale => d.scale
  | .nodes => d.side + d.scale
  | .unit => 1

def count (d : Divisors) (field : FleetField) : Except ZeroDivisor Nat :=
  let divisor := d.profile.divisor field
  if d.size divisor = 0 then .error { field, divisor } else .ok (d.size divisor)

def check (d : Divisors) : Except ZeroDivisor Divisors := do
  let _ ← PerField.tryOfFn d.count
  return d

def ofCounts (scale side : Nat) (profile : AveragingProfile) : Except ZeroDivisor Divisors :=
  check { scale, side, profile }

def ofRoster (roster : Roster) (profile : AveragingProfile) : Except ZeroDivisor Divisors :=
  ofCounts roster.scaleCount roster.sideCount profile

/-- One field's sum over its divisor, both rounded to doubles before they are divided. -/
def averageField (d : Divisors) (totals : Totals) (field : FleetField) :
    Except ZeroDivisor Float := do
  let count ← d.count field
  return Float.ofNat (totals.get field) / Float.ofNat count

def average (d : Divisors) (totals : Totals) : Except ZeroDivisor Averages :=
  PerField.tryOfFn (d.averageField totals)

end Divisors

end FleetTelemetry
