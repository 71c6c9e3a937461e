import FleetTelemetry.Chart.Curve
import FleetTelemetry.Proofs.Chart.Window
import FleetTelemetry.Proofs.Outcomes
import Mathlib.Data.List.Forall2

/-!
# The points of a measure

A level has a point for each row, and a rate or a delay looks at each row with the next one. What
is looked at is a step here, of a row to itself or to the next row. The value over a step depends on
its two rows only, and a measure has points when it can read its fields in them and when no row is
earlier than the first one: then it has a point for each step with a value, in their order.
-/

namespace FleetTelemetry

/-- The value of a field in a row, or zero if the row does not have the field. -/
def SeriesRow.value (row : SeriesRow) (position : Nat) : UInt64 := row.values.getD position 0

namespace Chart

/-- Two rows, of which the second is the later one if they are not the same. -/
abbrev Step := SeriesRow × SeriesRow

/-- The time from which the points of some rows count: that of the first row. -/
def origin (rows : List SeriesRow) : UInt64 := (rows.head?.map (·.timestamp)).getD 0

namespace Measure

def fields {κ : Type} : Measure κ → List κ
  | .level field => [field]
  | .rate field => [field]
  | .delay total events => [total, events]

def steps {κ : Type} (measure : Measure κ) (rows : List SeriesRow) : List Step :=
  match measure with
  | .level _ => rows.map fun row => (row, row)
  | .rate _ => rows.zip rows.tail
  | .delay _ _ => rows.zip rows.tail

/-- The value of a measure over a step. A total that goes back has no growth, and neither a span
without time nor one without events has anything to divide by. -/
def height (measure : Measure Nat) (step : Step) : Option Float :=
  match measure with
  | .level field => some (step.2.value field).toFloat
  | .rate field =>
    if step.1.timestamp < step.2.timestamp ∧ step.1.value field ≤ step.2.value field then
      some ((step.2.value field - step.1.value field).toFloat /
        (step.2.timestamp - step.1.timestamp).toFloat)
    else none
  | .delay total events =>
    if step.1.value events < step.2.value events ∧ step.1.value total ≤ step.2.value total then
      some ((step.2.value total - step.1.value total).toFloat /
        (step.2.value events - step.1.value events).toFloat / 1000)
    else none

/-- The points of some steps with a value, each at the time of the later row. -/
def plot (measure : Measure Nat) (origin : UInt64) (steps : List Step) : List Point :=
  steps.filterMap fun step =>
    (measure.height step).map fun value => { seconds := step.2.timestamp - origin, value }

/-- The rows of a step have the fields that are looked up for its value. -/
def Readable (measure : Measure Nat) (step : Step) : Prop :=
  match measure with
  | .level field => field < step.2.values.length
  | .rate field => step.1.timestamp < step.2.timestamp →
    field < step.1.values.length ∧ field < step.2.values.length
  | .delay total events => (events < step.1.values.length ∧ events < step.2.values.length) ∧
    (step.1.value events < step.2.value events →
      total < step.1.values.length ∧ total < step.2.values.length)

/-- What a measure comes to over a step. -/
def between (measure : Measure Nat) (step : Step) : Except CurveError (Option Float) :=
  match measure with
  | .level field => do return some (← valueAt step.2 field).toFloat
  | .rate field => rateBetween field step.1 step.2
  | .delay total events => delayBetween total events step.1 step.2

end Measure

def Step.Has (step : Step) (fields : List Nat) : Prop :=
  ∀ field ∈ fields, field < step.1.values.length ∧ field < step.2.values.length

/-- A point at the later row of each step over which a measure comes to a value. -/
def pointsOver (origin : UInt64) (measure : Measure Nat) :
    List Step → Except CurveError (List Point)
  | [] => .ok []
  | step :: rest => do
    match ← measure.between step with
    | none => pointsOver origin measure rest
    | some value =>
      let point ← pointAt origin step.2 value
      let points ← pointsOver origin measure rest
      return point :: points

variable {measure : Measure Nat} {rows : List SeriesRow} {row earlier later : SeriesRow}
  {position : Nat} {start : UInt64} {step : Step} {points : List Point}

/-! ## One step -/

private theorem valueAt_eq_ok_iff {value : UInt64} : valueAt row position = .ok value ↔
    position < row.values.length ∧ value = row.value position := by
  rw [valueAt, SeriesRow.value, List.getD_eq_getElem?_getD]
  cases h : row.values[position]? with
  | none =>
    have hlength := List.getElem?_eq_none_iff.mp h
    simp
    omega
  | some found =>
    have hlength := (List.getElem?_eq_some_iff.mp h).1
    simp [hlength, eq_comm]

private theorem bothValues_eq_ok_iff {β : Type} {f : UInt64 → UInt64 → β} {result : β} :
    (do
      let after ← valueAt later position
      let before ← valueAt earlier position
      return f before after : Except CurveError β) = .ok result ↔
      (position < earlier.values.length ∧ position < later.values.length) ∧
        result = f (earlier.value position) (later.value position) := by
  simp only [bind_eq_ok, valueAt_eq_ok_iff, pure, Except.pure, Except.ok.injEq]
  constructor
  · rintro ⟨after, ⟨hlater, rfl⟩, before, ⟨hearlier, rfl⟩, rfl⟩
    exact ⟨⟨hearlier, hlater⟩, rfl⟩
  · rintro ⟨⟨hearlier, hlater⟩, rfl⟩
    exact ⟨_, ⟨hlater, rfl⟩, _, ⟨hearlier, rfl⟩, rfl⟩

private theorem fieldGrowth_eq_ok_iff {growth : Option UInt64} :
    fieldGrowth earlier later position = .ok growth ↔
      (position < earlier.values.length ∧ position < later.values.length) ∧
        growth = growth? (earlier.value position) (later.value position) :=
  bothValues_eq_ok_iff

private theorem fieldProgress_eq_ok_iff {progress : Option UInt64} :
    fieldProgress earlier later position = .ok progress ↔
      (position < earlier.values.length ∧ position < later.values.length) ∧
        progress = progress? (earlier.value position) (later.value position) :=
  bothValues_eq_ok_iff

private theorem Measure.between_eq_ok_iff {value : Option Float} :
    measure.between step = .ok value ↔ measure.Readable step ∧ value = measure.height step := by
  obtain ⟨earlier, later⟩ := step
  cases measure with
  | level field =>
    simp only [between, Readable, height, bind_eq_ok, valueAt_eq_ok_iff, pure, Except.pure,
      Except.ok.injEq]
    constructor
    · rintro ⟨_, ⟨hlater, rfl⟩, rfl⟩
      exact ⟨hlater, rfl⟩
    · rintro ⟨hlater, rfl⟩
      exact ⟨_, ⟨hlater, rfl⟩, rfl⟩
  | rate field =>
    simp only [between, Readable, height, rateBetween, progress?]
    by_cases htime : earlier.timestamp < later.timestamp
    · simp only [htime, if_true, bind_eq_ok, fieldGrowth_eq_ok_iff, growth?, pure, Except.pure,
        Except.ok.injEq, true_and, forall_const]
      constructor
      · rintro ⟨_, ⟨hfields, rfl⟩, rfl⟩
        refine ⟨hfields, ?_⟩
        split <;> rfl
      · rintro ⟨hfields, rfl⟩
        refine ⟨_, ⟨hfields, rfl⟩, ?_⟩
        split <;> rfl
    · simp [htime, pure, Except.pure, eq_comm]
  | delay total events =>
    simp only [between, Readable, height, delayBetween, bind_eq_ok, fieldProgress_eq_ok_iff]
    by_cases hprogress : earlier.value events < later.value events
    · simp only [hprogress, true_and, forall_const]
      constructor
      · rintro ⟨_, ⟨hevents, rfl⟩, hspent⟩
        simp only [progress?, hprogress, if_true, bind_eq_ok, fieldGrowth_eq_ok_iff] at hspent
        obtain ⟨_, ⟨htotal, rfl⟩, hvalue⟩ := hspent
        cases hvalue
        refine ⟨⟨hevents, htotal⟩, ?_⟩
        unfold growth?
        split <;> rfl
      · rintro ⟨⟨hevents, htotal⟩, rfl⟩
        refine ⟨_, ⟨hevents, rfl⟩, ?_⟩
        simp only [progress?, hprogress, if_true, bind_eq_ok, fieldGrowth_eq_ok_iff]
        refine ⟨_, ⟨htotal, rfl⟩, ?_⟩
        unfold growth?
        split <;> rfl
    · simp [progress?, hprogress, pure, Except.pure, eq_comm]

theorem Step.Has.readable (h : step.Has measure.fields) : measure.Readable step := by
  cases measure with
  | level field => exact (h field List.mem_cons_self).2
  | rate field => exact fun _ => h field List.mem_cons_self
  | delay total events =>
    exact ⟨h events (List.mem_cons_of_mem _ List.mem_cons_self),
      fun _ => h total List.mem_cons_self⟩

private theorem pointAt_eq_ok_iff {value : Float} {point : Point} :
    pointAt start row value = .ok point ↔
      start ≤ row.timestamp ∧ point = { seconds := row.timestamp - start, value } := by
  unfold pointAt
  split
  case isTrue h =>
    rw [Except.ok.injEq, eq_comm]
    exact (and_iff_right h).symm
  case isFalse h => simp [h]

/-! ## All steps -/

/-- A point over each step: there are points when the fields are found in every step and no step
with a value ends before the start, and these are the points of the steps with a value. -/
theorem pointsOver_eq_ok_iff {steps : List Step} : pointsOver start measure steps = .ok points ↔
    (∀ step ∈ steps, measure.Readable step ∧
      ((measure.height step).isSome → start ≤ step.2.timestamp)) ∧
    points = measure.plot start steps := by
  induction steps generalizing points with
  | nil =>
    rw [pointsOver, Except.ok.injEq, eq_comm]
    exact (and_iff_right fun _ h => nomatch h).symm
  | cons step steps ih =>
    rw [pointsOver, bind_eq_ok, List.forall_mem_cons]
    simp only [Measure.between_eq_ok_iff, Measure.plot, List.filterMap_cons]
    cases hheight : measure.height step with
    | none =>
      simp only [Option.map_none, Option.isSome_none, Bool.false_eq_true, false_implies, and_true]
      constructor
      · rintro ⟨_, ⟨hreadable, rfl⟩, hrest⟩
        obtain ⟨hsteps, rfl⟩ := ih.mp hrest
        exact ⟨⟨hreadable, hsteps⟩, rfl⟩
      · rintro ⟨⟨hreadable, hsteps⟩, rfl⟩
        exact ⟨_, ⟨hreadable, rfl⟩, ih.mpr ⟨hsteps, rfl⟩⟩
    | some value =>
      simp only [Option.map_some, Option.isSome_some, true_implies]
      constructor
      · rintro ⟨_, ⟨hreadable, rfl⟩, hrest⟩
        obtain ⟨point, hpoint, hrest⟩ := bind_eq_ok.mp hrest
        obtain ⟨later, hlater, hpoints⟩ := bind_eq_ok.mp hrest
        obtain ⟨htime, rfl⟩ := pointAt_eq_ok_iff.mp hpoint
        obtain ⟨hsteps, rfl⟩ := ih.mp hlater
        cases hpoints
        exact ⟨⟨⟨hreadable, htime⟩, hsteps⟩, rfl⟩
      · rintro ⟨⟨⟨hreadable, htime⟩, hsteps⟩, rfl⟩
        refine ⟨_, ⟨hreadable, rfl⟩, bind_eq_ok.mpr ⟨_, pointAt_eq_ok_iff.mpr ⟨htime, rfl⟩, ?_⟩⟩
        exact bind_eq_ok.mpr ⟨_, ih.mpr ⟨hsteps, rfl⟩, rfl⟩

private theorem levelPoints_eq (start : UInt64) (field : Nat) (rows : List SeriesRow) :
    levelPoints start field rows =
      pointsOver start (.level field) ((Measure.level field).steps rows) := by
  induction rows with
  | nil => rfl
  | cons row rows ih =>
    rw [levelPoints, ih]
    change _ = pointsOver start (.level field) ((row, row) :: _)
    rw [pointsOver, Measure.between]
    cases valueAt row field <;> rfl

private theorem stepPoints_eq (start : UInt64) (measure : Measure Nat) (rows : List SeriesRow) :
    stepPoints start (fun earlier later => measure.between (earlier, later)) rows =
      pointsOver start measure (rows.zip rows.tail) := by
  induction rows with
  | nil => rfl
  | cons earlier rows ih =>
    cases rows with
    | nil => rfl
    | cons later rows =>
      rw [stepPoints, ih]
      rfl

private theorem Measure.points_eq (measure : Measure Nat) (rows : List SeriesRow) :
    measure.points rows = pointsOver (origin rows) measure (measure.steps rows) := by
  cases rows with
  | nil => cases measure <;> rfl
  | cons first rest =>
    cases measure with
    | level field => exact levelPoints_eq _ _ _
    | rate field => exact stepPoints_eq _ (.rate field) _
    | delay total events => exact stepPoints_eq _ (.delay total events) _

theorem Measure.points_eq_ok_iff : measure.points rows = .ok points ↔
    (∀ step ∈ measure.steps rows, measure.Readable step ∧
      ((measure.height step).isSome → origin rows ≤ step.2.timestamp)) ∧
    points = measure.plot (origin rows) (measure.steps rows) := by
  rw [points_eq, pointsOver_eq_ok_iff]

/-! ## Rows in order -/

theorem Measure.mem_of_mem_steps (h : step ∈ measure.steps rows) :
    step.1 ∈ rows ∧ step.2 ∈ rows := by
  have hzip (h : step ∈ rows.zip rows.tail) : step.1 ∈ rows ∧ step.2 ∈ rows := by
    obtain ⟨hearlier, hlater⟩ := List.of_mem_zip h
    exact ⟨hearlier, List.mem_of_mem_tail hlater⟩
  cases measure with
  | level field =>
    obtain ⟨row, hrow, rfl⟩ := List.mem_map.mp h
    exact ⟨hrow, hrow⟩
  | rate field => exact hzip h
  | delay total events => exact hzip h

theorem InOrder.origin_le (h : InOrder rows) (hrow : row ∈ rows) : origin rows ≤ row.timestamp := by
  cases rows with
  | nil => cases hrow
  | cons first rest =>
    rcases List.mem_cons.mp hrow with rfl | hrow
    · exact UInt64.le_refl _
    · exact (List.pairwise_cons.mp h).1 row hrow

theorem Measure.points_of_inOrder (h : InOrder rows)
    (hreadable : ∀ step ∈ measure.steps rows, measure.Readable step) :
    measure.points rows = .ok (measure.plot (origin rows) (measure.steps rows)) :=
  points_eq_ok_iff.mpr ⟨fun step hstep => ⟨hreadable step hstep,
    fun _ => h.origin_le (mem_of_mem_steps hstep).2⟩, rfl⟩

/-! ## Curves -/

/-- A curve is labelled as a measure and has the points of that measure in some rows. -/
structure Charts (header : SeriesHeader) (rows : List SeriesRow)
    (labelled : String × Measure String) (curve : Curve) (measure : Measure Nat) : Prop where
  label : curve.label = labelled.1
  positions : labelled.2.positions header = .ok measure
  points : measure.points rows = .ok curve.points

private theorem deriveCurve_eq_ok_iff {header : SeriesHeader} {labelled : String × Measure String}
    {curve : Curve} : deriveCurve header rows labelled = .ok curve ↔
      ∃ measure, Charts header rows labelled curve measure := by
  simp only [deriveCurve, bind_eq_ok]
  constructor
  · rintro ⟨measure, hmeasure, points, hpoints, hcurve⟩
    cases hcurve
    exact ⟨measure, rfl, hmeasure, hpoints⟩
  · rintro ⟨measure, hlabel, hmeasure, hpoints⟩
    refine ⟨measure, hmeasure, _, hpoints, ?_⟩
    rw [← hlabel]
    rfl

theorem deriveCurves_eq_ok_iff {header : SeriesHeader} {named : List (String × Measure String)}
    {curves : List Curve} : deriveCurves header rows named = .ok curves ↔
      List.Forall₂ (fun labelled curve => ∃ measure, Charts header rows labelled curve measure)
        named curves := by
  induction named generalizing curves with
  | nil => simp [deriveCurves, eq_comm]
  | cons labelled named ih =>
    simp only [deriveCurves, bind_eq_ok, deriveCurve_eq_ok_iff, ih, List.forall₂_cons_left_iff]
    constructor
    · rintro ⟨curve, hcurve, curves, hcurves, heq⟩
      cases heq
      exact ⟨curve, curves, hcurve, hcurves, rfl⟩
    · rintro ⟨curve, curves, hcurve, hcurves, rfl⟩
      exact ⟨curve, hcurve, curves, hcurves, rfl⟩

end Chart

end FleetTelemetry
