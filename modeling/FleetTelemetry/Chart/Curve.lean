import FleetTelemetry.Chart.Content
import FleetTelemetry.Chart.Window

/-!
# Curves

Each content of a chart is one or more measures of the rows in the window: the value of a field
as it is, how fast a total grows from one row to the next, or how much time was spent per event
between two rows. A step over which a measure has no meaning leaves a gap.
-/

namespace FleetTelemetry.Chart

inductive CurveError where
  | store (error : StoreError)
  /-- A row has no such field, or its time lies before the window's first row. -/
  | outOfRange

/-- What a curve shows; `κ` stands for a field, by its name or by its position. -/
inductive Measure (κ : Type) where
  | level (field : κ)
  /-- The growth of a total per second, from row to row. -/
  | rate (field : κ)
  /-- The growth of a total of milliseconds per event, from row to row. -/
  | delay (total events : κ)
  deriving DecidableEq, Repr

structure Point where
  /-- Seconds since the first row of the window. -/
  seconds : UInt64
  value : Float

structure Curve where
  label : String
  points : List Point

def Content.measures : Content → List (String × Measure String)
  | .generated => [("generated", .rate "generated_tx")]
  | .confirmed => [("confirmed", .rate "confirmed_tx")]
  | .depth => [("chain depth", .level "chain_depth")]
  | .delay =>
    [("propose", .delay "propose_latency" "propose_num"),
     ("sign", .delay "sign_latency" "sign_num"),
     ("submit", .delay "submit_latency" "submit_num")]
  | .gas => [("gas", .rate "gas")]

def fieldPosition (header : SeriesHeader) (name : String) : Except CurveError Nat :=
  match header.indexOf? name with
  | some position => .ok position
  | none => .error (.store (.format (.noField name)))

def Measure.positions (header : SeriesHeader) : Measure String → Except CurveError (Measure Nat)
  | .level field => do return .level (← fieldPosition header field)
  | .rate field => do return .rate (← fieldPosition header field)
  | .delay total events => do
    let total ← fieldPosition header total
    let events ← fieldPosition header events
    return .delay total events

def valueAt (row : SeriesRow) (position : Nat) : Except CurveError UInt64 :=
  match row.values[position]? with
  | some value => .ok value
  | none => .error .outOfRange

def growth? (earlier later : UInt64) : Option UInt64 :=
  if earlier ≤ later then some (later - earlier) else none

/-- How much a total grew, unless it stood still or went back. -/
def progress? (earlier later : UInt64) : Option UInt64 :=
  if earlier < later then some (later - earlier) else none

/-- How much a field of two rows grew, unless it went back. -/
def fieldGrowth (earlier later : SeriesRow) (position : Nat) :
    Except CurveError (Option UInt64) := do
  let after ← valueAt later position
  let before ← valueAt earlier position
  return growth? before after

/-- How much a field of two rows grew, unless it stood still or went back. -/
def fieldProgress (earlier later : SeriesRow) (position : Nat) :
    Except CurveError (Option UInt64) := do
  let after ← valueAt later position
  let before ← valueAt earlier position
  return progress? before after

/-- The growth per second of a field from one row to the next. A total that went back was reset,
and rows without time between them have no rate. -/
def rateBetween (field : Nat) (earlier later : SeriesRow) : Except CurveError (Option Float) := do
  match progress? earlier.timestamp later.timestamp with
  | none => return none
  | some seconds =>
    let growth ← fieldGrowth earlier later field
    return growth.map fun growth => growth.toFloat / seconds.toFloat

def millisecondsPerSecond : Float := 1000

/-- The seconds per event from one row to the next. Without new events, or when the time spent
went back, there are none. -/
def delayBetween (total events : Nat) (earlier later : SeriesRow) :
    Except CurveError (Option Float) := do
  match ← fieldProgress earlier later events with
  | none => return none
  | some events =>
    let spent ← fieldGrowth earlier later total
    return spent.map fun spent => spent.toFloat / events.toFloat / millisecondsPerSecond

def pointAt (origin : UInt64) (row : SeriesRow) (value : Float) : Except CurveError Point :=
  if origin ≤ row.timestamp then .ok { seconds := row.timestamp - origin, value }
  else .error .outOfRange

def levelPoints (origin : UInt64) (field : Nat) : List SeriesRow → Except CurveError (List Point)
  | [] => .ok []
  | row :: rest => do
    let value ← valueAt row field
    let point ← pointAt origin row value.toFloat
    let points ← levelPoints origin field rest
    return point :: points

/-- A point at the later of two rows for each step on which there is a value. -/
def stepPoints (origin : UInt64)
    (between : SeriesRow → SeriesRow → Except CurveError (Option Float)) :
    List SeriesRow → Except CurveError (List Point)
  | earlier :: later :: rest => do
    match ← between earlier later with
    | none => stepPoints origin between (later :: rest)
    | some value =>
      let point ← pointAt origin later value
      let points ← stepPoints origin between (later :: rest)
      return point :: points
  | _ => .ok []

def Measure.points (measure : Measure Nat) (rows : List SeriesRow) :
    Except CurveError (List Point) :=
  match rows with
  | [] => .ok []
  | first :: _ =>
    match measure with
    | .level field => levelPoints first.timestamp field rows
    | .rate field => stepPoints first.timestamp (rateBetween field) rows
    | .delay total events => stepPoints first.timestamp (delayBetween total events) rows

def deriveCurve (header : SeriesHeader) (rows : List SeriesRow)
    (labelled : String × Measure String) : Except CurveError Curve := do
  let measure ← labelled.2.positions header
  let points ← measure.points rows
  return { label := labelled.1, points }

def deriveCurves (header : SeriesHeader) (rows : List SeriesRow) :
    List (String × Measure String) → Except CurveError (List Curve)
  | [] => .ok []
  | labelled :: rest => do
    let curve ← deriveCurve header rows labelled
    let curves ← deriveCurves header rows rest
    return curve :: curves

/-- The curves of a content over a window of a series. -/
def derive (data : SeriesData) (content : Content) (start : Option UInt64) (duration : UInt64) :
    Except CurveError (List Curve) :=
  deriveCurves data.header (window data.rows start duration) content.measures

end FleetTelemetry.Chart
