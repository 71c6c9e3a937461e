import FleetTelemetry.Proofs.Chart.Points
import FleetTelemetry.Proofs.Series.Compaction

/-!
# Gaps

The rows that are read from a series have a value for each field of its header, so all values of a
measure are found there. When their times increase too, each difference that is taken is exact, none
of those that divide is zero, and the only steps without a point are those over which a total goes
back or nothing happens.
-/

namespace FleetTelemetry.Chart

/-- A difference of words that does not wrap around. -/
def IsDifference (difference larger smaller : UInt64) : Prop :=
  difference.toNat + smaller.toNat = larger.toNat

/-- A point stands for a step: the values are those of the rows, the differences do not wrap around,
what is divided by is not zero, and the point is at the time of the later row. -/
inductive Measure.Draws (origin : UInt64) : Measure Nat → Step → Point → Prop where
  | level {field : Nat} {row : SeriesRow} {value seconds : UInt64}
      (hvalue : row.values[field]? = some value)
      (htime : IsDifference seconds row.timestamp origin) :
      Draws origin (.level field) (row, row) ⟨seconds, value.toFloat⟩
  | rate {field : Nat} {earlier later : SeriesRow} {before after growth span seconds : UInt64}
      (hbefore : earlier.values[field]? = some before)
      (hafter : later.values[field]? = some after)
      (hgrowth : IsDifference growth after before)
      (hspan : IsDifference span later.timestamp earlier.timestamp) (hdivisor : span ≠ 0)
      (htime : IsDifference seconds later.timestamp origin) :
      Draws origin (.rate field) (earlier, later) ⟨seconds, growth.toFloat / span.toFloat⟩
  | delay {total events : Nat} {earlier later : SeriesRow}
      {before after spent first last count seconds : UInt64}
      (hbefore : earlier.values[total]? = some before)
      (hafter : later.values[total]? = some after) (hspent : IsDifference spent after before)
      (hfirst : earlier.values[events]? = some first) (hlast : later.values[events]? = some last)
      (hcount : IsDifference count last first) (hdivisor : count ≠ 0)
      (htime : IsDifference seconds later.timestamp origin) :
      Draws origin (.delay total events) (earlier, later)
        ⟨seconds, spent.toFloat / count.toFloat / 1000⟩

/-- The steps that have a point. A total that goes back leaves a gap, and without new events there
is no delay. -/
def Measure.shown (measure : Measure Nat) (step : Step) : Bool :=
  match measure with
  | .level _ => true
  | .rate field => step.1.value field ≤ step.2.value field
  | .delay total events =>
    step.1.value events < step.2.value events && step.1.value total ≤ step.2.value total

/-- Points show a measure in some rows without other gaps than there must be: there is one for each
step that has one, in their order. There are as many as rows for a level; for a rate, as many as
neighbours less those between which the total goes back; and for a delay, as many as neighbours
between which there are events and the total does not go back. -/
structure Measure.Complete (measure : Measure Nat) (rows : List SeriesRow) (points : List Point) :
    Prop where
  drawn : List.Forall₂ (measure.Draws (origin rows)) ((measure.steps rows).filter measure.shown)
    points
  count : match measure with
    | .level _ => points.length = rows.length
    | .rate field => points.length + (rows.zip rows.tail).countP
        (fun step => step.2.value field < step.1.value field) = rows.length - 1
    | .delay total events => points.length = (rows.zip rows.tail).countP fun step =>
        step.1.value events < step.2.value events && step.1.value total ≤ step.2.value total

variable {rows : List SeriesRow} {row : SeriesRow} {measure : Measure Nat} {start : UInt64}
  {step : Step} {position : Nat}

/-! ## One step -/

private theorem isDifference_sub {larger smaller : UInt64} (h : smaller ≤ larger) :
    IsDifference (larger - smaller) larger smaller := by
  have hle := UInt64.le_iff_toNat_le.mp h
  rw [IsDifference, UInt64.toNat_sub_of_le _ _ h]
  exact Nat.sub_add_cancel hle

private theorem sub_ne_zero {larger smaller : UInt64} (h : smaller < larger) :
    larger - smaller ≠ 0 := by
  intro hzero
  have hdifference := isDifference_sub (UInt64.le_of_lt h)
  rw [hzero, IsDifference] at hdifference
  have hlt := UInt64.lt_iff_toNat_lt.mp h
  simp at hdifference
  omega

private theorem values_getElem?_eq (h : position < row.values.length) :
    row.values[position]? = some (row.value position) := by
  simp [SeriesRow.value, h]

private theorem Measure.height_eq_none (h : measure.shown step = false) :
    measure.height step = none := by
  cases measure with
  | level field => cases h
  | rate field =>
    exact if_neg fun hvalue => of_decide_eq_false h hvalue.2
  | delay total events =>
    refine if_neg fun hvalue => ?_
    simp [shown, hvalue.1, hvalue.2] at h

/-- A step of a measure among rows whose times increase goes forward, or is that of a row alone. -/
def Step.Forward (step : Step) (measure : Measure Nat) : Prop :=
  match measure with
  | .level _ => step.1 = step.2
  | .rate _ => step.1.timestamp < step.2.timestamp
  | .delay _ _ => step.1.timestamp < step.2.timestamp

private theorem Measure.exists_draws (hfields : step.Has measure.fields)
    (hforward : step.Forward measure)
    (hstart : start ≤ step.2.timestamp) (hshown : measure.shown step = true) :
    ∃ value, measure.height step = some value ∧
      measure.Draws start step ⟨step.2.timestamp - start, value⟩ := by
  obtain ⟨earlier, later⟩ := step
  have htime := isDifference_sub hstart
  cases measure with
  | level field =>
    obtain rfl : earlier = later := hforward
    have hvalue := (hfields field List.mem_cons_self).2
    exact ⟨_, rfl, .level (values_getElem?_eq hvalue) htime⟩
  | rate field =>
    have hgrowth : earlier.value field ≤ later.value field := of_decide_eq_true hshown
    obtain ⟨hearlier, hlater⟩ := hfields field List.mem_cons_self
    exact ⟨_, if_pos ⟨hforward, hgrowth⟩, .rate (values_getElem?_eq hearlier)
      (values_getElem?_eq hlater) (isDifference_sub hgrowth)
      (isDifference_sub (UInt64.le_of_lt hforward)) (sub_ne_zero hforward) htime⟩
  | delay total events =>
    simp only [shown, Bool.and_eq_true, decide_eq_true_eq] at hshown
    obtain ⟨hprogress, hgrowth⟩ := hshown
    obtain ⟨hbefore, hafter⟩ := hfields total List.mem_cons_self
    obtain ⟨hfirst, hlast⟩ := hfields events (List.mem_cons_of_mem _ List.mem_cons_self)
    exact ⟨_, if_pos ⟨hprogress, hgrowth⟩, .delay (values_getElem?_eq hbefore)
      (values_getElem?_eq hafter) (isDifference_sub hgrowth) (values_getElem?_eq hfirst)
      (values_getElem?_eq hlast) (isDifference_sub (UInt64.le_of_lt hprogress))
      (sub_ne_zero hprogress) htime⟩

/-! ## All steps -/

private theorem Measure.forall₂_plot {steps : List Step}
    (hfields : ∀ step ∈ steps, step.Has measure.fields)
    (hforward : ∀ step ∈ steps, step.Forward measure)
    (hstart : ∀ step ∈ steps, start ≤ step.2.timestamp) :
    List.Forall₂ (measure.Draws start) (steps.filter measure.shown)
      (measure.plot start steps) := by
  induction steps with
  | nil => exact .nil
  | cons step steps ih =>
    rw [List.forall_mem_cons] at hfields hforward hstart
    have hrest := ih hfields.2 hforward.2 hstart.2
    cases hshown : measure.shown step with
    | false =>
      rw [List.filter_cons_of_neg (by simp [hshown]), plot, List.filterMap_cons,
        height_eq_none hshown]
      exact hrest
    | true =>
      obtain ⟨value, hvalue, hdraws⟩ :=
        exists_draws hfields.1 hforward.1 hstart.1 hshown
      rw [List.filter_cons_of_pos hshown, plot, List.filterMap_cons, hvalue]
      exact .cons hdraws hrest

private theorem forall_mem_zip_tail {R : SeriesRow → SeriesRow → Prop} (h : rows.Pairwise R) :
    ∀ step ∈ rows.zip rows.tail, R step.1 step.2 := by
  induction rows with
  | nil => exact fun _ hstep => nomatch hstep
  | cons first rest ih =>
    obtain ⟨hfirst, hrest⟩ := List.pairwise_cons.mp h
    cases rest with
    | nil => exact fun _ hstep => nomatch hstep
    | cons second rest =>
      exact List.forall_mem_cons.mpr ⟨hfirst second List.mem_cons_self, ih hrest⟩

private theorem Measure.forward_of_mem_steps
    (h : rows.Pairwise fun earlier later => earlier.timestamp < later.timestamp) :
    ∀ step ∈ measure.steps rows, step.Forward measure := by
  cases measure with
  | level field =>
    intro step hstep
    obtain ⟨row, -, rfl⟩ := List.mem_map.mp hstep
    rfl
  | rate field => exact forall_mem_zip_tail h
  | delay total events => exact forall_mem_zip_tail h

private theorem length_zip_tail (rows : List SeriesRow) :
    (rows.zip rows.tail).length = rows.length - 1 := by
  rw [List.length_zip, List.length_tail]
  exact Nat.min_eq_right (Nat.sub_le _ _)

private theorem Measure.exists_complete
    (h : rows.Pairwise fun earlier later => earlier.timestamp < later.timestamp)
    (hfields : ∀ row ∈ rows, ∀ field ∈ measure.fields, field < row.values.length) :
    ∃ points, measure.points rows = .ok points ∧ measure.Complete rows points := by
  have horder : InOrder rows := h.imp UInt64.le_of_lt
  have hsteps : ∀ step ∈ measure.steps rows, step.Has measure.fields := by
    intro step hstep field hfield
    obtain ⟨hearlier, hlater⟩ := mem_of_mem_steps hstep
    exact ⟨hfields _ hearlier field hfield, hfields _ hlater field hfield⟩
  have hdrawn := forall₂_plot hsteps (forward_of_mem_steps h)
    fun step hstep => horder.origin_le (mem_of_mem_steps hstep).2
  have hcount := hdrawn.length_eq
  rw [← List.countP_eq_length_filter] at hcount
  refine ⟨_, points_of_inOrder horder fun step hstep => (hsteps step hstep).readable, hdrawn, ?_⟩
  cases measure with
  | level field =>
    rw [← hcount]
    simp [steps, shown]
  | rate field =>
    -- a pair is shown or the total goes back in it
    rw [← hcount, ← length_zip_tail, List.length_eq_countP_add_countP (shown (.rate field))]
    congr 2
    funext step
    simp [shown]
  | delay total events => exact hcount.symm

/-! ## Curves -/

private theorem exists_fieldPosition {header : SeriesHeader} {name : String}
    (h : ∃ field ∈ header.fields, field.name = name) :
    ∃ position, fieldPosition header name = .ok position ∧ position < header.fields.length := by
  obtain ⟨field, hfield, hname⟩ := h
  cases hfound : header.indexOf? name with
  | none =>
    have hnone := List.findIdx?_eq_none_iff.mp hfound field hfield
    simp [hname] at hnone
  | some position =>
    refine ⟨position, by rw [fieldPosition, hfound], ?_⟩
    exact (List.findIdx?_eq_some_iff_getElem.mp hfound).1

private theorem Measure.exists_positions {header : SeriesHeader} {named : Measure String}
    (h : ∀ name ∈ named.fields, ∃ field ∈ header.fields, field.name = name) :
    ∃ measure, named.positions header = .ok measure ∧
      ∀ field ∈ measure.fields, field < header.fields.length := by
  cases named with
  | level name =>
    obtain ⟨position, hposition, hlt⟩ := exists_fieldPosition (h name List.mem_cons_self)
    refine ⟨.level position, ?_, List.forall_mem_singleton.mpr hlt⟩
    simp only [positions, hposition]
    rfl
  | rate name =>
    obtain ⟨position, hposition, hlt⟩ := exists_fieldPosition (h name List.mem_cons_self)
    refine ⟨.rate position, ?_, List.forall_mem_singleton.mpr hlt⟩
    simp only [positions, hposition]
    rfl
  | delay total events =>
    obtain ⟨position, hposition, hlt⟩ := exists_fieldPosition (h total List.mem_cons_self)
    obtain ⟨position', hposition', hlt'⟩ :=
      exists_fieldPosition (h events (List.mem_cons_of_mem _ List.mem_cons_self))
    refine ⟨.delay position position', ?_, List.forall_mem_cons.mpr
      ⟨hlt, List.forall_mem_singleton.mpr hlt'⟩⟩
    simp only [positions, hposition, hposition']
    rfl

private theorem exists_curves {header : SeriesHeader} {named : List (String × Measure String)}
    (hrows : rows.Pairwise fun earlier later => earlier.timestamp < later.timestamp)
    (hvalues : ∀ row ∈ rows, row.values.length = header.fields.length)
    (hnamed : ∀ labelled ∈ named, ∀ name ∈ labelled.2.fields,
      ∃ field ∈ header.fields, field.name = name) :
    ∃ curves, List.Forall₂ (fun labelled curve => ∃ measure,
      Charts header rows labelled curve measure ∧ measure.Complete rows curve.points)
        named curves := by
  induction named with
  | nil => exact ⟨[], .nil⟩
  | cons labelled named ih =>
    rw [List.forall_mem_cons] at hnamed
    obtain ⟨measure, hmeasure, hfields⟩ := Measure.exists_positions hnamed.1
    obtain ⟨points, hpoints, hcomplete⟩ := Measure.exists_complete hrows
      fun row hrow field hfield => (hvalues row hrow).symm ▸ hfields field hfield
    obtain ⟨curves, hcurves⟩ := ih hnamed.2
    exact ⟨⟨labelled.1, points⟩ :: curves,
      .cons ⟨measure, ⟨rfl, hmeasure, hpoints⟩, hcomplete⟩ hcurves⟩

/-- For every series that is read from a file, if its times increase and its header has the fields
of a content: over every window there are curves of the content, no look-up and no difference on
the way goes wrong, and each curve shows its measure without other gaps than there must be. -/
theorem derive_of_read {files : Files} {path : String} {data : SeriesData}
    (hread : SeriesStore.read files path = .ok data)
    (htimes : data.rows.Pairwise fun earlier later => earlier.timestamp < later.timestamp)
    (content : Content)
    (hfields : ∀ labelled ∈ content.measures, ∀ name ∈ labelled.2.fields,
      ∃ field ∈ data.header.fields, field.name = name)
    (start : Option UInt64) (duration : UInt64) :
    ∃ curves, derive data content start duration = .ok curves ∧
      List.Forall₂ (fun labelled curve => ∃ measure,
        Charts data.header (window data.rows start duration) labelled curve measure ∧
          measure.Complete (window data.rows start duration) curve.points)
        content.measures curves := by
  have hpart := window_isInfix data.rows start duration
  have hvalues : ∀ row ∈ data.rows, row.values.length = data.header.fields.length := by
    unfold SeriesStore.read at hread
    split at hread
    · cases hread
    · exact SeriesData.values_length_of_parse hread
  obtain ⟨curves, hcurves⟩ := exists_curves (htimes.sublist hpart.sublist)
    (fun row hrow => hvalues row (hpart.subset hrow)) hfields
  refine ⟨curves, deriveCurves_eq_ok_iff.mpr (hcurves.imp ?_), hcurves⟩
  rintro _ _ ⟨measure, hcharts, -⟩
  exact ⟨measure, hcharts⟩

def signatures : SeriesData :=
  { header := ⟨1, 2, 9, telemetryFields⟩
    rows := [⟨1, [0, 0, 0, 0, 20, 0, 0, 0, 2, 0]⟩, ⟨4, [0, 0, 0, 0, 20, 0, 0, 0, 2, 0]⟩,
      ⟨5, [0, 0, 0, 0, 50, 0, 0, 0, 5, 0]⟩, ⟨9, [0, 0, 0, 0, 7, 0, 0, 0, 1, 0]⟩] }

/-- Only the second of three steps has a point. -/
theorem derive_of_read_signatures :
    let files : Files :=
      { entries := .ofList [(["n.series"], Entry.file 0)]
        contents := .ofList [(0, signatures.print.toUTF8)]
        next := 1 }
    SeriesStore.read files "n.series" = .ok signatures ∧
      (signatures.rows.Pairwise fun earlier later => earlier.timestamp < later.timestamp) ∧
      ∃ curves, derive signatures .delay none 99 = .ok curves ∧
        curves.map (·.points.length) = [0, 1, 0] := by
  intro files
  have hread : SeriesStore.read files "n.series" = .ok signatures := by
    rw [SeriesStore.read_of_readText (Files.readText_eq_ok rfl rfl)]
    exact SeriesData.parse_print signatures (by decide)
  have htimes : signatures.rows.Pairwise fun earlier later =>
      earlier.timestamp < later.timestamp := by decide
  obtain ⟨curves, hderive, hcurves⟩ := derive_of_read hread htimes .delay (by decide) none 99
  refine ⟨hread, htimes, curves, hderive, ?_⟩
  have hwindow : window signatures.rows none 99 = signatures.rows := by
    rw [window_eq_rowsWithin (htimes.imp UInt64.le_of_lt)]
    decide
  have hcounts : (derive signatures .delay none 99).map
      (fun curves => curves.map (·.points.length)) = .ok [0, 1, 0] := by
    rw [derive, hwindow]
    rfl
  rw [hderive] at hcounts
  exact Except.ok.inj hcounts

end FleetTelemetry.Chart
