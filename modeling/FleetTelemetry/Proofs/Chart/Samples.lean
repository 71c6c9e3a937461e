import FleetTelemetry.Proofs.Chart.Points
import FleetTelemetry.Proofs.Series.Retention
import FleetTelemetry.Snapshot.Basic

/-!
# Charts of samples

A chart can be made of snapshots directly: each content has its fields, and each field its figures
at the times of the samples. A store that was made with the fields of the telemetry gives the same
chart, since the columns of its rows are those fields in the order of its header.
-/

namespace FleetTelemetry.Chart

open SeriesData

/-- A snapshot and the time at which it was taken. -/
structure Sample where
  timestamp : UInt64
  snapshot : Snapshot
  deriving DecidableEq, Repr

/-- The row of a sample in a series. -/
def Sample.row (sample : Sample) : SeriesRow := ⟨sample.timestamp, sample.snapshot.seriesValues⟩

/-- The times of some samples increase. -/
def Increasing (samples : List Sample) : Prop :=
  samples.Pairwise fun earlier later => earlier.timestamp < later.timestamp

instance (samples : List Sample) : Decidable (Increasing samples) :=
  inferInstanceAs (Decidable (samples.Pairwise _))

/-! ## The chart of samples -/

def Content.snapshotMeasures : Content → List (String × Measure Snapshot.Field)
  | .generated => [("generated", .rate .generatedTransactions)]
  | .confirmed => [("confirmed", .rate .confirmedTransactions)]
  | .depth => [("chain depth", .level .chainDepth)]
  | .delay =>
    [("propose", .delay .proposeLatency .proposeNum),
     ("sign", .delay .signLatency .signNum),
     ("submit", .delay .submitLatency .submitNum)]
  | .gas => [("gas", .rate .gas)]

/-- The samples from the first moment of a window on and before its end. -/
def sampleWindow (samples : List Sample) (start : Option UInt64) (duration : UInt64) :
    List Sample :=
  match samples with
  | [] => []
  | first :: _ =>
    let start := start.getD first.timestamp
    samples.filter fun sample => start ≤ sample.timestamp &&
      sample.timestamp.toNat < min (start.toNat + duration.toNat) (UInt64.size - 1)

/-- The growth of a field per second between two samples, unless it went back. -/
def sampleRate (field : Snapshot.Field) (earlier later : Sample) : Option Float :=
  if earlier.timestamp < later.timestamp then
    if earlier.snapshot.get field ≤ later.snapshot.get field then
      some ((later.snapshot.get field - earlier.snapshot.get field).toFloat /
        (later.timestamp - earlier.timestamp).toFloat)
    else none
  else none

/-- The seconds per event between two samples, unless there was no event or the total went back. -/
def sampleDelay (total events : Snapshot.Field) (earlier later : Sample) : Option Float :=
  if earlier.snapshot.get events < later.snapshot.get events then
    if earlier.snapshot.get total ≤ later.snapshot.get total then
      some ((later.snapshot.get total - earlier.snapshot.get total).toFloat /
        (later.snapshot.get events - earlier.snapshot.get events).toFloat / 1000)
    else none
  else none

/-- The points at the later of two neighbouring samples between which there is a value. -/
def sampleSteps (origin : UInt64) (between : Sample → Sample → Option Float)
    (samples : List Sample) : List Point :=
  (samples.zip samples.tail).filterMap fun step =>
    (between step.1 step.2).map fun value => { seconds := step.2.timestamp - origin, value }

/-- The points of a measure of some samples. Their times count from the first one. -/
def Measure.samplePoints (measure : Measure Snapshot.Field) (samples : List Sample) :
    List Point :=
  let origin := (samples.head?.map (·.timestamp)).getD 0
  match measure with
  | .level field => samples.map fun sample =>
    { seconds := sample.timestamp - origin, value := (sample.snapshot.get field).toFloat }
  | .rate field => sampleSteps origin (sampleRate field) samples
  | .delay total events => sampleSteps origin (sampleDelay total events) samples

/-- The chart of a content over a window of samples. -/
def sampleChart (content : Content) (start : Option UInt64) (duration : UInt64)
    (samples : List Sample) : List Curve :=
  content.snapshotMeasures.map fun labelled =>
    { label := labelled.1, points := labelled.2.samplePoints (sampleWindow samples start duration) }

/-! ## Columns -/

/-- The positions of a measure are the columns of some fields of snapshots. -/
inductive Measure.Columns : Measure Nat → Measure Snapshot.Field → Prop where
  | level {position : Nat} {field : Snapshot.Field}
      (h : Snapshot.seriesFields[position]? = some field) :
      Columns (.level position) (.level field)
  | rate {position : Nat} {field : Snapshot.Field}
      (h : Snapshot.seriesFields[position]? = some field) : Columns (.rate position) (.rate field)
  | delay {total events : Nat} {totalField eventsField : Snapshot.Field}
      (htotal : Snapshot.seriesFields[total]? = some totalField)
      (hevents : Snapshot.seriesFields[events]? = some eventsField) :
      Columns (.delay total events) (.delay totalField eventsField)

/-- A named measure is found in a header as one of the columns of a measure of snapshots. -/
def LinesUp (header : SeriesHeader) (named : String × Measure String)
    (shown : String × Measure Snapshot.Field) : Prop :=
  named.1 = shown.1 ∧
    ∃ measure : Measure Nat, named.2.positions header = .ok measure ∧ measure.Columns shown.2

section Names

variable {header : SeriesHeader} (h : header.fields = telemetryFields) {label name name' : String}
  {field field' : Snapshot.Field} {position position' : Nat}

include h

private theorem fieldPosition_of_telemetryFields
    (hname : telemetryFields.findIdx? (·.name = name) = some position) :
    fieldPosition header name = .ok position := by
  rw [fieldPosition, SeriesHeader.indexOf?, h, hname]

private theorem linesUp_rate (hname : telemetryFields.findIdx? (·.name = name) = some position)
    (hfield : Snapshot.seriesFields[position]? = some field) :
    LinesUp header (label, .rate name) (label, .rate field) := by
  refine ⟨rfl, .rate position, ?_, .rate hfield⟩
  simp only [Measure.positions, fieldPosition_of_telemetryFields h hname]
  rfl

private theorem linesUp_delay (htotal : telemetryFields.findIdx? (·.name = name) = some position)
    (hevents : telemetryFields.findIdx? (·.name = name') = some position')
    (hfield : Snapshot.seriesFields[position]? = some field)
    (hfield' : Snapshot.seriesFields[position']? = some field') :
    LinesUp header (label, .delay name name') (label, .delay field field') := by
  refine ⟨rfl, .delay position position', ?_, .delay hfield hfield'⟩
  simp only [Measure.positions, fieldPosition_of_telemetryFields h htotal,
    fieldPosition_of_telemetryFields h hevents]
  rfl

private theorem linesUp_of_telemetryFields (content : Content) :
    List.Forall₂ (LinesUp header) content.measures content.snapshotMeasures := by
  cases content with
  | generated => exact .cons (@linesUp_rate header h _ _ _ 0 (by decide) rfl) .nil
  | confirmed => exact .cons (@linesUp_rate header h _ _ _ 1 (by decide) rfl) .nil
  | gas => exact .cons (@linesUp_rate header h _ _ _ 6 (by decide) rfl) .nil
  | depth =>
    have hname : telemetryFields.findIdx? (·.name = "chain_depth") = some 2 := by decide
    refine .cons ⟨rfl, .level 2, ?_, .level rfl⟩ .nil
    simp only [Measure.positions, fieldPosition_of_telemetryFields h hname]
    rfl
  | delay =>
    have hdelay (position position' : Nat) {label name name' : String}
        {field field' : Snapshot.Field} :=
      @linesUp_delay header h label name name' field field' position position'
    exact .cons (hdelay 3 7 (by decide) (by decide) rfl rfl)
      (.cons (hdelay 4 8 (by decide) (by decide) rfl rfl)
        (.cons (hdelay 5 9 (by decide) (by decide) rfl rfl) .nil))

end Names

/-! ## Points -/

section Points

variable {samples : List Sample} {field : Snapshot.Field} {position : Nat}

private theorem value_row (h : Snapshot.seriesFields[position]? = some field) (sample : Sample) :
    position < sample.row.values.length ∧
      sample.row.value position = sample.snapshot.get field := by
  have hvalue : sample.row.values[position]? = some (sample.snapshot.get field) := by
    rw [Sample.row, Snapshot.seriesValues, List.getElem?_map, h]
    rfl
  refine ⟨(List.getElem?_eq_some_iff.mp hvalue).1, ?_⟩
  rw [SeriesRow.value, List.getD_eq_getElem?_getD, hvalue]
  rfl

private theorem zip_tail_map_row (samples : List Sample) :
    (samples.map Sample.row).zip (samples.map Sample.row).tail =
      (samples.zip samples.tail).map (Prod.map Sample.row Sample.row) := by
  rw [← List.map_tail, List.zip_map]

private theorem origin_map_row (samples : List Sample) :
    origin (samples.map Sample.row) = (samples.head?.map (·.timestamp)).getD 0 := by
  cases samples <;> rfl

private theorem Measure.height_rate_row (h : Snapshot.seriesFields[position]? = some field)
    (step : Sample × Sample) :
    (Measure.rate position).height (step.map Sample.row Sample.row) =
      sampleRate field step.1 step.2 := by
  simp only [height, Prod.map, value_row h, ite_and]
  rfl

private theorem Measure.height_delay_row {total events : Nat}
    {totalField eventsField : Snapshot.Field}
    (htotal : Snapshot.seriesFields[total]? = some totalField)
    (hevents : Snapshot.seriesFields[events]? = some eventsField) (step : Sample × Sample) :
    (Measure.delay total events).height (step.map Sample.row Sample.row) =
      sampleDelay totalField eventsField step.1 step.2 := by
  simp only [height, Prod.map, value_row htotal, value_row hevents, ite_and]
  rfl

variable {measure : Measure Nat} {shown : Measure Snapshot.Field}

theorem Measure.Columns.has (h : measure.Columns shown) {step : Step}
    (hstep : step ∈ measure.steps (samples.map Sample.row)) : step.Has measure.fields := by
  obtain ⟨hearlier, hlater⟩ := mem_of_mem_steps hstep
  obtain ⟨earlier, -, hearlier⟩ := List.mem_map.mp hearlier
  obtain ⟨later, -, hlater⟩ := List.mem_map.mp hlater
  rw [Step.Has, ← hearlier, ← hlater]
  cases h with
  | level h => exact List.forall_mem_singleton.mpr ⟨(value_row h _).1, (value_row h _).1⟩
  | rate h => exact List.forall_mem_singleton.mpr ⟨(value_row h _).1, (value_row h _).1⟩
  | delay htotal hevents =>
    exact List.forall_mem_cons.mpr ⟨⟨(value_row htotal _).1, (value_row htotal _).1⟩,
      List.forall_mem_singleton.mpr ⟨(value_row hevents _).1, (value_row hevents _).1⟩⟩

private theorem Measure.Columns.plot_eq (h : measure.Columns shown) (samples : List Sample) :
    measure.plot (origin (samples.map Sample.row)) (measure.steps (samples.map Sample.row)) =
      shown.samplePoints samples := by
  rw [origin_map_row]
  cases h with
  | level h =>
    simp only [plot, steps, List.filterMap_map, samplePoints]
    refine (List.filterMap_congr fun sample _ => ?_).trans (congrFun List.filterMap_eq_map samples)
    simp only [Function.comp, height, Option.map_some, value_row h]
    rfl
  | rate h =>
    simp only [plot, steps, zip_tail_map_row, List.filterMap_map, samplePoints, sampleSteps]
    exact List.filterMap_congr fun step _ => congrArg _ (height_rate_row h step)
  | delay htotal hevents =>
    simp only [plot, steps, zip_tail_map_row, List.filterMap_map, samplePoints, sampleSteps]
    exact List.filterMap_congr fun step _ => congrArg _ (height_delay_row htotal hevents step)

private theorem inOrder_map_row (h : Increasing samples) : InOrder (samples.map Sample.row) :=
  List.pairwise_map.mpr (h.imp fun hlt => UInt64.le_of_lt hlt)

theorem Measure.Columns.points (h : measure.Columns shown) (hsamples : Increasing samples) :
    measure.points (samples.map Sample.row) = .ok (shown.samplePoints samples) := by
  rw [← h.plot_eq samples]
  exact points_of_inOrder (inOrder_map_row hsamples) fun step hstep => (h.has hstep).readable

end Points

private theorem window_map_row {samples : List Sample} (h : Increasing samples)
    (start : Option UInt64)
    (duration : UInt64) :
    window (samples.map Sample.row) start duration =
      (sampleWindow samples start duration).map Sample.row := by
  rw [window_eq_rowsWithin (inOrder_map_row h)]
  cases samples with
  | nil => rfl
  | cons first rest => exact List.filter_map

private theorem deriveCurves_eq {header : SeriesHeader} {samples : List Sample}
    {named : List (String × Measure String)} {shown : List (String × Measure Snapshot.Field)}
    (h : List.Forall₂ (LinesUp header) named shown) (hsamples : Increasing samples) :
    deriveCurves header (samples.map Sample.row) named =
      .ok (shown.map fun labelled =>
        { label := labelled.1, points := labelled.2.samplePoints samples }) := by
  rw [deriveCurves_eq_ok_iff, List.forall₂_map_right_iff]
  refine h.imp ?_
  rintro _ _ ⟨hlabel, measure, hpositions, hcolumns⟩
  exact ⟨measure, hlabel.symm, hpositions, hcolumns.points hsamples⟩

private theorem derive_eq_sampleChart {header : SeriesHeader} (h : header.fields = telemetryFields)
    {samples : List Sample} (hsamples : Increasing samples) (content : Content)
    (start : Option UInt64) (duration : UInt64) :
    derive { header, rows := samples.map Sample.row } content start duration =
      .ok (sampleChart content start duration samples) := by
  have hwindow : Increasing (sampleWindow samples start duration) := by
    cases samples with
    | nil => exact .nil
    | cons first rest => exact hsamples.sublist List.filter_sublist
  rw [derive, window_map_row hsamples]
  exact deriveCurves_eq (linesUp_of_telemetryFields h content) hwindow

/-- A store that was made with the fields of the telemetry charts what was written to it. Whatever
samples are written at increasing times, the chart of any content over any window of the series that
is read back is the one made directly of the newest samples, as many as the store keeps. -/
theorem derive_telemetry_store {files files' : Files} {path : String} {step : Span}
    {capacity : UInt64} {store : SeriesStore}
    (hcreate : SeriesStore.create files path telemetryFields step capacity = .ok (store, files'))
    (samples : List Sample) (hsamples : Increasing samples) :
    ∃ data, SeriesStore.read (store.updateAll files' (samples.map Sample.row)).2 path = .ok data ∧
      ∀ content start duration, derive data content start duration =
        .ok (sampleChart content start duration (newest capacity.toNat samples)) := by
  obtain ⟨rfl, hnew, hrecalls⟩ := SeriesStore.Recalls.create hcreate
  obtain ⟨-, hheader⟩ := SeriesStore.newHeader_eq_ok hnew
  have hfields : store.header.fields = telemetryFields := by rw [hheader]
  have hrows : store.header.rows = capacity := by rw [hheader]
  have hvalues : ∀ row ∈ samples.map Sample.row,
      row.values.length = store.header.fields.length := by
    intro row hrow
    obtain ⟨sample, -, rfl⟩ := List.mem_map.mp hrow
    rw [hfields]
    rfl
  have htimes : ([] ++ samples.map Sample.row).Pairwise fun earlier later : SeriesRow =>
      earlier.timestamp < later.timestamp := List.pairwise_map.mpr hsamples
  obtain ⟨store', files'', hrun, hpath, hkept, hafter⟩ := hrecalls.updateAll hvalues htimes
  have hread := hafter.read_eq
  rw [hpath, hkept, hrows, List.nil_append, newest, ← List.map_drop, List.length_map] at hread
  rw [hrun]
  refine ⟨_, hread, fun content start duration => ?_⟩
  exact derive_eq_sampleChart hfields (hsamples.sublist (List.drop_sublist _ _)) content start
    duration

/-- The gas at three times. A store with room for two rows keeps the last two. -/
def gasSamples : List Sample := [⟨1, { gas := 1 }⟩, ⟨3, { gas := 5 }⟩, ⟨4, { gas := 9 }⟩]

theorem derive_telemetry_store_gas :
    ∃ store files' data,
      SeriesStore.create Files.empty "n.series" telemetryFields (Span.ofSeconds 5) 2 =
        .ok (store, files') ∧
      Increasing gasSamples ∧
      SeriesStore.read (store.updateAll files' (gasSamples.map Sample.row)).2 "n.series" =
        .ok data ∧
      derive data .gas none 100 =
        .ok [⟨"gas", [⟨1, (4 : UInt64).toFloat / (1 : UInt64).toFloat⟩]⟩] := by
  have hcreate : ∃ store files',
      SeriesStore.create Files.empty "n.series" telemetryFields (Span.ofSeconds 5) 2 =
        .ok (store, files') := ⟨_, _, rfl⟩
  obtain ⟨store, files', hcreate⟩ := hcreate
  have hsamples : Increasing gasSamples := by decide
  obtain ⟨data, hread, hderive⟩ := derive_telemetry_store hcreate gasSamples hsamples
  refine ⟨store, files', data, hcreate, hsamples, hread, (hderive .gas none 100).trans ?_⟩
  rfl

end FleetTelemetry.Chart
