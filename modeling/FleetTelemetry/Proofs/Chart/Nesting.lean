import FleetTelemetry.Proofs.Chart.Points

/-!
# Windows inside windows

The value over a step depends on its rows only, so a smaller window shows the same values as a
larger one over the steps that it still has, and those are next to each other. Only the time from
which the points count is another one.
-/

namespace FleetTelemetry.Chart

def Curve.values (curve : Curve) : List Float := curve.points.map (·.value)

def Point.delayed (point : Point) (seconds : UInt64) : Point :=
  { point with seconds := point.seconds + seconds }

def Measure.heights (measure : Measure Nat) (steps : List Step) : List Float :=
  steps.filterMap measure.height

def Step.Within (step : Step) (rows : List SeriesRow) : Prop := step.1 ∈ rows ∧ step.2 ∈ rows

/-- A curve shows a part of another one without gaps. The part is that of the steps within the inner
rows; before and after it the other curve has the values of its other steps. In time the points
differ by as much as the first of the inner rows is later than the first of the outer ones. -/
structure Measure.Cuts (measure : Measure Nat) (inner outer : List SeriesRow) (part whole : Curve) :
    Prop where
  label : part.label = whole.label
  values : part.values = measure.heights (measure.steps inner)
  around : ∃ before after, measure.steps outer = before ++ measure.steps inner ++ after ∧
    (∀ step ∈ before ++ after, ¬ step.Within inner) ∧
    whole.values = measure.heights before ++ part.values ++ measure.heights after ∧
    whole.points = measure.plot (origin outer) before ++
      part.points.map (·.delayed (origin inner - origin outer)) ++
        measure.plot (origin outer) after
  origin : inner ≠ [] → Chart.origin outer ≤ Chart.origin inner

variable {rows before inner after outer : List SeriesRow} {measure : Measure Nat}

/-! ## Rows around a window -/

private theorem InOrder.exists_around (h : InOrder rows) (start : UInt64) (finish : Nat) :
    ∃ before after, rows = before ++
        (rows.filter fun row => start ≤ row.timestamp && row.timestamp.toNat < finish) ++ after ∧
      ∀ row ∈ before ++ after,
        (start ≤ row.timestamp && row.timestamp.toNat < finish : Bool) = false := by
  have hlate : InOrder (rows.filter fun row => !decide (row.timestamp < start)) :=
    h.sublist List.filter_sublist
  have hrows := (h.failsLater_start start).filter_append
  have hstretch := (hlate.failsLater_finish finish).filter_append
  have hinside : ((rows.filter fun row => !decide (row.timestamp < start)).filter
      fun row => row.timestamp.toNat < finish) =
        rows.filter fun row => start ≤ row.timestamp && row.timestamp.toNat < finish := by
    rw [List.filter_filter]
    refine List.filter_congr fun row _ => ?_
    simp only [← decide_not, UInt64.not_lt, Bool.and_comm]
  rw [hinside] at hstretch
  refine ⟨_, _, (List.append_assoc _ _ _).symm ▸ hstretch.symm ▸ hrows.symm, fun row hrow => ?_⟩
  rcases List.mem_append.mp hrow with hrow | hrow
  · have hearly := of_decide_eq_true (List.mem_filter.mp hrow).2
    simp [UInt64.not_le.mpr hearly]
  · have hover := (List.mem_filter.mp hrow).2
    rw [Bool.not_eq_true'] at hover
    simp [hover]

private theorem filter_filter_of_subset {inside wide : SeriesRow → Bool}
    (hsub : rows.filter inside ⊆ rows.filter wide) :
    (rows.filter wide).filter inside = rows.filter inside := by
  rw [List.filter_filter]
  refine List.filter_congr fun row hrow => ?_
  rw [Bool.and_eq_left_iff_imp]
  exact fun hinside => (List.mem_filter.mp (hsub (List.mem_filter.mpr ⟨hrow, hinside⟩))).2

private theorem InOrder.exists_around_of_subset (h : InOrder rows) {start : UInt64} {finish : Nat}
    {wide : SeriesRow → Bool}
    (hsub : (rows.filter fun row => start ≤ row.timestamp && row.timestamp.toNat < finish) ⊆
      rows.filter wide) :
    ∃ before after, rows.filter wide = before ++
        (rows.filter fun row => start ≤ row.timestamp && row.timestamp.toNat < finish) ++ after ∧
      ∀ row ∈ before ++ after,
        row ∉ rows.filter fun row => start ≤ row.timestamp && row.timestamp.toNat < finish := by
  have hwide : InOrder (rows.filter wide) := h.sublist List.filter_sublist
  obtain ⟨before, after, hrows, hout⟩ := hwide.exists_around start finish
  rw [filter_filter_of_subset hsub] at hrows
  refine ⟨before, after, hrows, fun row hrow hin => ?_⟩
  exact Bool.false_ne_true ((hout row hrow).symm.trans (List.mem_filter.mp hin).2)

private theorem exists_around_window (h : InOrder rows) {start start' : Option UInt64}
    {duration duration' : UInt64}
    (hsub : window rows start duration ⊆ window rows start' duration') :
    ∃ before after, window rows start' duration' = before ++ window rows start duration ++ after ∧
      ∀ row ∈ before ++ after, row ∉ window rows start duration := by
  cases rows with
  | nil => exact ⟨[], [], rfl, by simp⟩
  | cons first rest =>
    rw [window_eq_rowsWithin h, window_eq_rowsWithin h] at hsub ⊢
    simp only [rowsWithin] at hsub ⊢
    exact h.exists_around_of_subset hsub

/-! ## Steps around a window -/

private theorem zip_tail_append (before after : List SeriesRow) (row : SeriesRow) :
    (before ++ row :: after).zip (before ++ row :: after).tail =
      before.zip (before ++ [row]).tail ++ (row :: after).zip after := by
  cases before with
  | nil => rfl
  | cons first before =>
    have htail : (first :: before ++ row :: after).tail = (before ++ [row]) ++ after := by simp
    rw [htail, List.zip_append (by simp)]
    rfl

private theorem zip_tail_cons_append (first : SeriesRow) (rest after : List SeriesRow) :
    (first :: (rest ++ after)).zip (rest ++ after) =
      (first :: rest).zip rest ++
        ((first :: rest).getLast (List.cons_ne_nil _ _) :: after).zip after := by
  induction rest generalizing first with
  | nil => rfl
  | cons second rest ih =>
    rw [List.cons_append, List.zip_cons_cons, ih, List.getLast_cons_cons]
    rfl

private theorem exists_neighbours_around (hout : ∀ row ∈ before ++ after, row ∉ inner) :
    ∃ earlier later, (before ++ inner ++ after).zip (before ++ inner ++ after).tail =
        earlier ++ inner.zip inner.tail ++ later ∧
      ∀ step ∈ earlier ++ later, ¬ Step.Within step inner := by
  cases inner with
  | nil =>
    refine ⟨(before ++ [] ++ after).zip (before ++ [] ++ after).tail, [], ?_,
      fun step _ hwithin => nomatch hwithin.1⟩
    simp only [List.append_nil, List.zip_nil_left]
  | cons first rest =>
    -- a pair around the window has its earlier row before it or its later row after it
    refine ⟨before.zip (before ++ [first]).tail,
      ((first :: rest).getLast (List.cons_ne_nil _ _) :: after).zip after, ?_, ?_⟩
    · rw [List.append_assoc, List.cons_append, zip_tail_append, zip_tail_cons_append,
        List.append_assoc]
      rfl
    · rintro ⟨earlier, later⟩ hstep ⟨hearlier, hlater⟩
      rcases List.mem_append.mp hstep with hstep | hstep
      · exact hout _ (List.mem_append_left _ (List.of_mem_zip hstep).1) hearlier
      · exact hout _ (List.mem_append_right _ (List.of_mem_zip hstep).2) hlater

private theorem Measure.exists_steps_around (measure : Measure Nat)
    (hout : ∀ row ∈ before ++ after, row ∉ inner) :
    ∃ earlier later, measure.steps (before ++ inner ++ after) =
        earlier ++ measure.steps inner ++ later ∧
      ∀ step ∈ earlier ++ later, ¬ step.Within inner := by
  cases measure with
  | level field =>
    refine ⟨(Measure.level field).steps before, (Measure.level field).steps after, ?_, ?_⟩
    · simp only [steps, List.map_append]
    · intro step hstep hwithin
      simp only [steps, ← List.map_append] at hstep
      obtain ⟨row, hrow, rfl⟩ := List.mem_map.mp hstep
      exact hout row hrow hwithin.1
  | rate field => exact exists_neighbours_around hout
  | delay total events => exact exists_neighbours_around hout

/-! ## Points around a window -/

private theorem Measure.map_value_plot (measure : Measure Nat) (origin : UInt64)
    (steps : List Step) :
    (measure.plot origin steps).map (·.value) = measure.heights steps := by
  rw [plot, heights, List.map_filterMap]
  refine List.filterMap_congr fun step _ => ?_
  rw [Option.map_map]
  exact Option.map_id'

private theorem Measure.map_delayed_plot (measure : Measure Nat) (origin seconds : UInt64)
    (steps : List Step) :
    (measure.plot origin steps).map (·.delayed seconds) =
      measure.plot (origin - seconds) steps := by
  rw [plot, plot, List.map_filterMap]
  refine List.filterMap_congr fun step _ => ?_
  rw [Option.map_map]
  congr 1
  funext value
  simp only [Function.comp, Point.delayed, Point.mk.injEq, and_true]
  grind

private theorem Measure.plot_append (measure : Measure Nat) (origin : UInt64)
    (steps steps' : List Step) :
    measure.plot origin (steps ++ steps') =
      measure.plot origin steps ++ measure.plot origin steps' :=
  List.filterMap_append

private theorem origin_le_of_subset (h : InOrder outer) (hsub : inner ⊆ outer)
    (hinner : inner ≠ []) :
    origin outer ≤ origin inner := by
  cases inner with
  | nil => exact absurd rfl hinner
  | cons first rest => exact h.origin_le (hsub List.mem_cons_self)

/-! ## Curves -/

private theorem Charts.exists_part {header : SeriesHeader} {labelled : String × Measure String}
    {whole : Curve} (hwhole : Charts header (before ++ inner ++ after) labelled whole measure)
    (horder : InOrder (before ++ inner ++ after)) (hout : ∀ row ∈ before ++ after, row ∉ inner) :
    ∃ part, Charts header inner labelled part measure ∧
      measure.Cuts inner (before ++ inner ++ after) part whole := by
  obtain ⟨earlier, later, hsteps, hwithin⟩ := measure.exists_steps_around hout
  obtain ⟨hreadable, hpoints⟩ := Measure.points_eq_ok_iff.mp hwhole.points
  have hsub : inner ⊆ before ++ inner ++ after := by simp
  have hinner : InOrder inner :=
    horder.sublist ((List.sublist_append_right before inner).trans (List.sublist_append_left _ _))
  have hpart : measure.points inner =
      .ok (measure.plot (origin inner) (measure.steps inner)) := by
    refine Measure.points_of_inOrder hinner fun step hstep => (hreadable step ?_).1
    rw [hsteps]
    exact List.mem_append_left _ (List.mem_append_right _ hstep)
  refine ⟨⟨labelled.1, measure.plot (origin inner) (measure.steps inner)⟩,
    ⟨rfl, hwhole.positions, hpart⟩, hwhole.label.symm, measure.map_value_plot _ _,
    ⟨earlier, later, hsteps, hwithin, ?_, ?_⟩, origin_le_of_subset horder hsub⟩
  · rw [Curve.values, hpoints, Measure.map_value_plot, hsteps, Measure.heights,
      List.filterMap_append, List.filterMap_append, Curve.values, Measure.map_value_plot]
    rfl
  · rw [hpoints, Measure.map_delayed_plot, hsteps, Measure.plot_append, Measure.plot_append]
    -- the points of the part are as much too early as its origin is later
    congr 3
    grind

private theorem exists_parts {header : SeriesHeader} {named : List (String × Measure String)}
    {whole : List Curve}
    (hwhole : List.Forall₂ (fun labelled curve => ∃ measure,
      Charts header (before ++ inner ++ after) labelled curve measure) named whole)
    (horder : InOrder (before ++ inner ++ after)) (hout : ∀ row ∈ before ++ after, row ∉ inner) :
    ∃ part, List.Forall₂ (fun labelled curve => ∃ measure,
        Charts header inner labelled curve measure) named part ∧
      part.length = whole.length ∧
      List.Forall₂ (fun labelled curves => ∃ measure,
        labelled.2.positions header = .ok measure ∧ curves.2.label = labelled.1 ∧
          measure.Cuts inner (before ++ inner ++ after) curves.1 curves.2)
        named (part.zip whole) := by
  induction hwhole with
  | nil => exact ⟨[], .nil, rfl, .nil⟩
  | cons hcurve _ ih =>
    obtain ⟨measure, hmeasure⟩ := hcurve
    obtain ⟨part, hpart, hcuts⟩ := hmeasure.exists_part horder hout
    obtain ⟨parts, hparts, hlength, hrest⟩ := ih
    refine ⟨part :: parts, .cons ⟨measure, hpart⟩ hparts, congrArg (· + 1) hlength, ?_⟩
    exact .cons ⟨measure, hmeasure.positions, hmeasure.label, hcuts⟩ hrest

/-- For every series with times that never decrease, every content and any two windows, one with
rows of the other only: if there are curves in the outer window then there are in the inner one.
Both have one curve for each measure of the content, in the same order, and each curve of the inner
window is a part of the one of its measure, without gaps and with nothing else left out. -/
theorem derive_of_subset {data : SeriesData} (horder : InOrder data.rows) (content : Content)
    {start start' : Option UInt64} {duration duration' : UInt64} {whole : List Curve}
    (hsub : window data.rows start duration ⊆ window data.rows start' duration')
    (hwhole : derive data content start' duration' = .ok whole) :
    ∃ part, derive data content start duration = .ok part ∧ part.length = whole.length ∧
      List.Forall₂ (fun labelled curves => ∃ measure,
        labelled.2.positions data.header = .ok measure ∧ curves.2.label = labelled.1 ∧
          measure.Cuts (window data.rows start duration) (window data.rows start' duration')
            curves.1 curves.2) content.measures (part.zip whole) := by
  obtain ⟨before, after, houter, hout⟩ := exists_around_window horder hsub
  have houterOrder : InOrder (window data.rows start' duration') :=
    horder.sublist (window_isInfix _ _ _).sublist
  unfold derive at hwhole ⊢
  rw [houter] at hwhole houterOrder ⊢
  obtain ⟨part, hpart, hcuts⟩ :=
    exists_parts (deriveCurves_eq_ok_iff.mp hwhole) houterOrder hout
  exact ⟨part, deriveCurves_eq_ok_iff.mpr hpart, hcuts⟩

/-- A total that grows, also without time, and is set back before it grows again. -/
def setBack : SeriesData :=
  { header := ⟨1, 2, 9, [⟨"gas", .counter⟩]⟩
    rows := [⟨5, [1]⟩, ⟨7, [4]⟩, ⟨7, [6]⟩, ⟨9, [2]⟩, ⟨12, [8]⟩] }

/-- A window that starts at the two rows of one time leaves out the first rate. -/
theorem derive_of_subset_setBack :
    InOrder setBack.rows ∧ window setBack.rows (some 7) 5 ⊆ window setBack.rows none 99 ∧
      ∃ whole part, derive setBack .gas none 99 = .ok whole ∧
        derive setBack .gas (some 7) 5 = .ok part ∧ part.length = whole.length ∧
        List.Forall₂ (fun labelled curves => ∃ measure,
          labelled.2.positions setBack.header = .ok measure ∧ curves.2.label = labelled.1 ∧
            measure.Cuts (window setBack.rows (some 7) 5) (window setBack.rows none 99)
              curves.1 curves.2) Content.gas.measures (part.zip whole) := by
  have horder : InOrder setBack.rows := by decide
  have houter : window setBack.rows none 99 = setBack.rows := by
    rw [window_eq_rowsWithin horder]
    decide
  have hsub : window setBack.rows (some 7) 5 ⊆ window setBack.rows none 99 := by
    rw [houter]
    exact (window_isInfix _ _ _).subset
  have hwhole : ∃ whole, derive setBack .gas none 99 = .ok whole := by
    rw [derive, houter]
    exact ⟨_, rfl⟩
  obtain ⟨whole, hwhole⟩ := hwhole
  obtain ⟨part, hpart, hcuts⟩ := derive_of_subset horder .gas hsub hwhole
  exact ⟨horder, hsub, whole, part, hwhole, hpart, hcuts⟩

end FleetTelemetry.Chart
