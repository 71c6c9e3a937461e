import FleetTelemetry.Collection.StartUp
import FleetTelemetry.Proofs.Outcomes
import FleetTelemetry.Proofs.Roster.Parsing

/-!
# Checked settings

The checks on settings are made once, before anything is read or made. Settings that pass them have
a time between polls, room for a row, and columns that the records of their roster have, so that
what is told later about a roster or a series is never told about them.
-/

namespace FleetTelemetry

/-! ## What the checks ask for -/

namespace Settings

structure Sound (settings : Settings) : Prop where
  interval : ∃ interval, settings.pollInterval = .ok interval ∧
    minimumInterval.nanoseconds ≤ interval.nanoseconds
  rows : settings.rows ≠ 0
  columns : ∀ column, settings.roster.column column < settings.roster.arity

variable {settings : Settings} {layout : RosterLayout}

private theorem mem_checkedColumns (column : RosterColumn) : column ∈ checkedColumns := by
  cases column <;> decide

theorem checkLayout_eq_ok_iff :
    checkLayout layout = .ok () ↔ ∀ column, layout.column column < layout.arity := by
  unfold checkLayout
  constructor
  · intro h
    split at h
    · cases h
    · split at h
      · cases h
      · next hnone =>
        intro column
        have hcolumn := List.find?_eq_none.mp hnone column (mem_checkedColumns column)
        simpa using hcolumn
  · intro h
    have harity : layout.arity ≠ 0 := fun hzero => by
      have hname := h .name
      omega
    have hnone :
        checkedColumns.find? (fun column => layout.arity ≤ layout.column column) = none := by
      rw [List.find?_eq_none]
      intro column _
      simpa using h column
    rw [if_neg harity, hnone]

theorem check_eq_ok_iff : settings.check = .ok () ↔ settings.Sound := by
  unfold check
  cases hinterval : settings.pollInterval with
  | error cause =>
    refine ⟨nofun, fun h => ?_⟩
    obtain ⟨interval, hok, -⟩ := h.interval
    cases hinterval.symm.trans hok
  | ok interval =>
    simp only [bind, Except.bind]
    constructor
    · intro h
      split at h
      · cases h
      · next hlong =>
        split at h
        · cases h
        · next hrows =>
          exact ⟨⟨interval, hinterval, Nat.le_of_not_lt hlong⟩, hrows, checkLayout_eq_ok_iff.mp h⟩
    · intro h
      obtain ⟨_, hok, hlong⟩ := h.interval
      cases hinterval.symm.trans hok
      rw [if_neg (Nat.not_lt.mpr hlong), if_neg h.rows]
      exact checkLayout_eq_ok_iff.mpr h.columns

end Settings

/-! ## Rosters -/

namespace Roster

/-- What can be wrong on a line of a roster whose columns are all there. -/
inductive LineFault : RosterError → Prop where
  | arity (line expected found : Nat) : LineFault (.record line (.arity expected found))
  | emptyName (line : Nat) : LineFault (.record line .emptyName)
  | emptyHost (line : Nat) (node : String) : LineFault (.record line (.emptyHost node))
  | invalidPort (line : Nat) (text : String) : LineFault (.record line (.invalidPort text))
  | duplicate (line : Nat) (name : String) : LineFault (.duplicate line name)

private theorem FirstFault.lineFault {layout : RosterLayout} {lines : List (List Char × Nat)}
    {fault : RosterError} (hcolumns : ∀ column, layout.column column < layout.arity)
    (h : FirstFault layout lines fault) : LineFault fault := by
  obtain ⟨line, check, hfault, hfirst⟩ := h
  cases hfault with
  | duplicate => exact .duplicate _ _
  | record hmem hcause =>
    cases hcause with
    | arity => exact .arity _ _ _
    | emptyName => exact .emptyName _
    | emptyHost => exact .emptyHost _ _
    | invalidPort => exact .invalidPort _ _
    | @outOfRange column hnone =>
      have hshort := Nat.lt_of_le_of_lt (column?_eq_none_iff.mp hnone) (hcolumns column)
      have harity := HasFault.record hmem (.arity (Nat.ne_of_lt hshort))
      rcases hfirst _ _ _ harity with hline | ⟨-, hrank⟩
      · exact absurd hline (Nat.lt_irrefl line)
      · cases column <;> exact absurd hrank (by decide)

end Roster

/-! ## Series -/

/-- A store with room for a row is not made when its file cannot be, or when the time between
updates is too long for its header. -/
theorem SeriesStore.create_eq_error {files : Files} {path : String} {fields : List SeriesField}
    {step : Span} {capacity : UInt64} {e : StoreError} (hcapacity : capacity ≠ 0)
    (h : create files path fields step capacity = .error e) :
    (∃ fault, files.create path = .error fault ∧ e = .files fault) ∨
      numberBound ≤ 2 * max 1 step.seconds ∧ e = .overflow := by
  simp only [create, newHeader, if_neg hcapacity] at h
  by_cases hlong : numberBound ≤ 2 * max 1 step.seconds
  · rw [if_pos hlong] at h
    cases h
    exact .inr ⟨hlong, rfl⟩
  · rw [if_neg hlong] at h
    cases hcreate : files.create path with
    | error fault =>
      rw [hcreate] at h
      cases h
      exact .inl ⟨fault, rfl, rfl⟩
    | ok created =>
      rw [hcreate] at h
      cases h

/-! ## Timers -/

namespace Collection

variable {settings : Settings} {files files' : Files} {collection : Collection}

private theorem pollInterval_of_make {plan : CollectionPlan}
    (h : CollectionPlan.make settings files = .ok plan) :
    settings.pollInterval = .ok plan.interval := by
  unfold CollectionPlan.make at h
  split at h
  · cases h
  · next hinterval =>
    split at h
    · cases h
    · split at h
      · cases h
      · split at h
        · cases h
        · cases h
          exact hinterval

private theorem plan_of_ofPlan {plan : CollectionPlan}
    (h : ofPlan settings plan files = (.ok collection, files')) : collection.plan = plan := by
  unfold ofPlan at h
  split at h
  · cases h
  · split at h
    · cases h
    · split at h
      · cases h
        rfl
      · cases h

private theorem pollInterval_of_start (h : start settings files = (.ok collection, files')) :
    settings.pollInterval = .ok collection.plan.interval := by
  unfold start at h
  split at h
  · cases h
  · next hmake =>
    rw [plan_of_ofPlan h]
    exact pollInterval_of_make hmake

private theorem period_pollers (collection : Collection) (source : Endpoint → Source)
    (uptime : Nat) :
    ∀ task ∈ (collection.world source uptime).pollers,
      task.period = collection.plan.interval.nanoseconds := by
  intro task htask
  obtain ⟨endpoint, -, rfl⟩ := List.mem_map.mp htask
  rfl

end Collection

namespace Settings

/-- Settings that pass their checks rule out errors that come later. Their time between polls can be
read and is at least a second, and it is the time between the ticks of every task of a collection
that starts with them. A series with their number of rows is refused only for its file or for its
time between updates. No line of a roster is refused for a column that it does not have, whatever
the text of the roster. -/
theorem checks_rule_out_later_errors {settings : Settings} (h : settings.check = .ok ()) :
    (∃ interval, settings.pollInterval = .ok interval ∧ 1000000000 ≤ interval.nanoseconds ∧
      ∀ files collection files' source uptime,
        Collection.start settings files = (.ok collection, files') →
        (∀ task ∈ (collection.world source uptime).pollers,
          task.period = interval.nanoseconds) ∧
        ∀ task ∈ (collection.world source uptime).aggregator,
          task.period = interval.nanoseconds) ∧
    (∀ files path fields step e,
      SeriesStore.create files path fields step settings.rows = .error e →
      (∃ fault, files.create path = .error fault ∧ e = .files fault) ∨
        SeriesStore.numberBound ≤ 2 * max 1 step.seconds ∧ e = .overflow) ∧
    ∀ text e, Roster.parse settings.roster text = .error e → Roster.LineFault e := by
  have hsound := check_eq_ok_iff.mp h
  refine ⟨?_, ?_, ?_⟩
  · obtain ⟨interval, hinterval, hlong⟩ := hsound.interval
    refine ⟨interval, hinterval, hlong, ?_⟩
    intro files collection files' source uptime hstart
    cases hinterval.symm.trans (Collection.pollInterval_of_start hstart)
    refine ⟨collection.period_pollers source uptime, fun task htask => ?_⟩
    cases htask
    rfl
  · intro files path fields step e hcreate
    exact SeriesStore.create_eq_error hsound.rows hcreate
  · intro text e hparse
    exact (Roster.parse_eq_error_iff.mp hparse).lineFault hsound.columns

/-- Settings whose records have their columns in another order, the name also for a host. -/
def shuffledSettings : Settings where
  interval := "1m"
  rows := 1
  roster := { arity := 3, name := 2, host := 2, port := 0, marker := 1 }

/-- A line that is too short for the column of the name is refused for its length. -/
theorem checks_rule_out_later_errors_shuffled :
    shuffledSettings.check = .ok () ∧
      (∃ interval, shuffledSettings.pollInterval = .ok interval ∧
        1000000000 ≤ interval.nanoseconds) ∧
      (∀ e, SeriesStore.create Files.empty "n.series" telemetryFields (Span.ofSeconds 60)
        shuffledSettings.rows = .error e → e ≠ .format .noCapacity) ∧
      Roster.parse shuffledSettings.roster "7001,0,a\n7002,1\n" = .error (.record 2 (.arity 3 2)) ∧
      Roster.LineFault (.record 2 (.arity 3 2)) := by
  have hcheck : shuffledSettings.check = .ok () := by rfl
  have hparse : Roster.parse shuffledSettings.roster "7001,0,a\n7002,1\n" =
      .error (.record 2 (.arity 3 2)) := by rfl
  obtain ⟨⟨interval, hinterval, hlong, -⟩, hcreate, hroster⟩ := checks_rule_out_later_errors hcheck
  refine ⟨hcheck, ⟨interval, hinterval, hlong⟩, ?_, hparse, hroster _ _ hparse⟩
  intro e he
  rcases hcreate _ _ _ _ _ he with ⟨fault, -, rfl⟩ | ⟨-, rfl⟩ <;> nofun

end Settings

end FleetTelemetry
