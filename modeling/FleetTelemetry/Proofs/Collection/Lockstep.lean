import FleetTelemetry.Proofs.Collection.Calls
import FleetTelemetry.Proofs.Text.Columns

/-!
# Logs in lockstep

All logs of a fleet have the same number of rows: one for each tick after some node's second
report. Row by row they have the same time, and each shows the last sample of its node at that
tick. Reports of names outside the roster count for the warm-up and for nothing else.
-/

namespace FleetTelemetry.Aggregator

open Text

/-- A new aggregator with one log for each node of its roster. -/
def launch (roster : Roster) (divisors : Divisors) (writer : String → NodeLog)
    (panel : DashboardPanel) (interval : Span) : Aggregator :=
  { roster, divisors, logs := .ofNodes roster.names writer, panel, interval }

/-- The call is a tick or the report of a node of the roster. -/
def Call.concerns (roster : Roster) : Call → Bool
  | .apply report => report.node ∈ roster.names
  | .tick .. => true

private theorem filter_eq_drop {α : Type} {p : α → Bool} {xs : List α}
    (h : xs.Pairwise fun x y => p x = true → p y = true) :
    xs.filter p = xs.drop (xs.length - (xs.filter p).length) := by
  induction xs with
  | nil => rfl
  | cons x xs ih =>
    obtain ⟨hx, hxs⟩ := List.pairwise_cons.mp h
    by_cases hp : p x = true
    · have hall : xs.filter p = xs := List.filter_eq_self.mpr fun y hy => hx y hy hp
      rw [List.filter_cons_of_pos hp, hall]
      simp
    · have hle : (xs.filter p).length ≤ xs.length := List.length_filter_le _ _
      have hsub : (x :: xs).length - (xs.filter p).length =
          (xs.length - (xs.filter p).length) + 1 := by
        rw [List.length_cons]
        omega
      rw [List.filter_cons_of_neg hp, hsub, List.drop_succ_cons]
      exact ih hxs

private theorem filter_warm_eq_drop (before : List Report) (calls : List Call) :
    ((ticksAfter before calls).filter fun tick => Warm tick.before) =
      (ticksAfter before calls).drop ((ticksAfter before calls).length -
        ((ticksAfter before calls).filter fun tick => Warm tick.before).length) := by
  apply filter_eq_drop
  refine (pairwise_ticksAfter before calls).imp ?_
  intro tick later hprefix hwarm
  simp only [decide_eq_true_eq] at hwarm ⊢
  exact warm_of_isPrefix hprefix hwarm

private theorem length_warmTicks_append {earlier : List Call} (later : List Call)
    (h : warmTicks earlier ≠ []) :
    (warmTicks (earlier ++ later)).length =
      (warmTicks earlier).length + (later.filter Call.isTick).length := by
  obtain ⟨tick, htick⟩ := List.exists_mem_of_ne_nil _ h
  obtain ⟨hmem, hwarm⟩ := List.mem_filter.mp htick
  have hwarm : Warm tick.before := by simpa using hwarm
  have hall : ((ticksAfter (reportsIn earlier) later).filter fun tick => Warm tick.before) =
      ticksAfter (reportsIn earlier) later := by
    apply List.filter_eq_self.mpr
    intro next hnext
    have hpair := pairwise_ticksAfter [] (earlier ++ later)
    rw [ticksAfter_append, List.nil_append] at hpair
    have hprefix := (List.pairwise_append.mp hpair).2.2 tick hmem next hnext
    simpa using warm_of_isPrefix hprefix hwarm
  unfold warmTicks
  rw [ticksAfter_append, List.nil_append, List.filter_append, hall, List.length_append,
    length_ticksAfter]

private theorem ticksAfter_filter_concerns (roster : Roster) (before : List Report)
    (calls : List Call) :
    ticksAfter (before.filter fun report => report.node ∈ roster.names)
        (calls.filter (Call.concerns roster)) =
      (ticksAfter before calls).map fun tick =>
        { tick with before := tick.before.filter fun report => report.node ∈ roster.names } := by
  have hconcerns : Call.concerns roster =
      Call.keeps fun report => decide (report.node ∈ roster.names) := by
    funext call
    cases call <;> rfl
  rw [hconcerns]
  exact ticksAfter_filter_keeps _ before calls

private theorem snapshotsOf_filter_roster {roster : Roster} {node : String}
    (h : node ∈ roster.names)
    (reports : List Report) :
    snapshotsOf (reports.filter fun report => report.node ∈ roster.names) node =
      snapshotsOf reports node :=
  snapshotsOf_filter fun report _ hnode => by simp [hnode, h]

theorem steady_launch {roster : Roster} {divisors : Divisors} {writer : String → NodeLog}
    (panel : DashboardPanel) (interval : Span) (hd : divisors.Checked)
    (hw : ∀ node ∈ roster.names, (writer node).Unfailing) :
    (launch roster divisors writer panel interval).Steady [] := by
  refine ⟨FleetState.Tracks.empty, hd, ?_⟩
  intro node log hlog
  unfold launch at hlog
  rw [NodeLogs.getElem?_ofNodes] at hlog
  split at hlog
  case isTrue hmem =>
    cases hlog
    exact hw node hmem
  case isFalse => cases hlog

private theorem rowsOf_launch {roster : Roster} {divisors : Divisors} {writer : String → NodeLog}
    (panel : DashboardPanel) (interval : Span) (calls : List Call) (hd : divisors.Checked)
    (hw : ∀ node ∈ roster.names, (writer node).Unfailing)
    (hr : ∀ node ∈ roster.names, (writer node).rows = #[]) (node : String) :
    ((launch roster divisors writer panel interval).performAll calls).rowsOf node =
      if node ∈ roster.names then some ((warmTicks calls).map (·.row node)) else none := by
  rw [(steady_launch panel interval hd hw).rowsOf_performAll calls node]
  unfold rowsOf launch
  rw [NodeLogs.getElem?_ofNodes]
  by_cases hmem : node ∈ roster.names
  · simp [hmem, hr node hmem, warmTicks]
  · simp [hmem]

private theorem warm_of_filter {reports : List Report} {p : Report → Bool}
    (h : Warm (reports.filter p)) :
    Warm reports := by
  obtain ⟨node, hnode⟩ := h
  refine ⟨node, Nat.le_trans hnode ?_⟩
  unfold snapshotsOf
  rw [List.length_map, List.length_map]
  exact ((List.filter_sublist (p := p)).filter _).length_le

/-- Leaving out the reports of names outside the roster takes the first rows of a log away, those
of ticks that were warm through these reports alone, and changes no other row. -/
theorem map_row_filter_concerns {roster : Roster} {node : String} (h : node ∈ roster.names)
    (calls : List Call) :
    (warmTicks (calls.filter (Call.concerns roster))).map (·.row node) =
      ((warmTicks calls).map (·.row node)).drop
        ((warmTicks calls).length - (warmTicks (calls.filter (Call.concerns roster))).length) := by
  have hticks := ticksAfter_filter_concerns roster [] calls
  rw [List.filter_nil] at hticks
  have hlength : (ticksAfter [] (calls.filter (Call.concerns roster))).length =
      (ticksAfter [] calls).length := by
    rw [hticks, List.length_map]
  have hfewer : (warmTicks (calls.filter (Call.concerns roster))).length ≤
      (warmTicks calls).length := by
    unfold warmTicks
    rw [hticks, List.filter_map, List.length_map, ← List.countP_eq_length_filter,
      ← List.countP_eq_length_filter]
    apply List.countP_mono_left
    intro tick _ htick
    simp only [Function.comp_apply, decide_eq_true_eq] at htick ⊢
    exact warm_of_filter htick
  have hle : (warmTicks calls).length ≤ (ticksAfter [] calls).length := List.length_filter_le _ _
  have hall : warmTicks calls = (ticksAfter [] calls).drop
      ((ticksAfter [] calls).length - (warmTicks calls).length) := filter_warm_eq_drop [] calls
  have hinside : warmTicks (calls.filter (Call.concerns roster)) =
      (ticksAfter [] (calls.filter (Call.concerns roster))).drop ((ticksAfter [] calls).length -
        (warmTicks (calls.filter (Call.concerns roster))).length) := by
    rw [← hlength]
    exact filter_warm_eq_drop [] (calls.filter (Call.concerns roster))
  have hrow (tick : TickPoint) : TickPoint.row
      { tick with before := tick.before.filter fun report => report.node ∈ roster.names } node =
        tick.row node := by
    simp only [TickPoint.row, TickPoint.lastSample, snapshotsOf_filter_roster h]
  have hcount : (ticksAfter [] calls).length - (warmTicks calls).length +
      ((warmTicks calls).length - (warmTicks (calls.filter (Call.concerns roster))).length) =
        (ticksAfter [] calls).length -
          (warmTicks (calls.filter (Call.concerns roster))).length := by
    omega
  calc
    (warmTicks (calls.filter (Call.concerns roster))).map (·.row node) =
        ((ticksAfter [] calls).drop ((ticksAfter [] calls).length -
          (warmTicks (calls.filter (Call.concerns roster))).length)).map (·.row node) := by
      refine (congrArg (List.map (·.row node)) hinside).trans ?_
      rw [hticks, ← List.map_drop, List.map_map]
      exact List.map_congr_left fun tick _ => hrow tick
    _ = (((ticksAfter [] calls).drop ((ticksAfter [] calls).length -
          (warmTicks calls).length)).drop ((warmTicks calls).length -
            (warmTicks (calls.filter (Call.concerns roster))).length)).map (·.row node) := by
      rw [List.drop_drop, hcount]
    _ = ((warmTicks calls).map (·.row node)).drop ((warmTicks calls).length -
          (warmTicks (calls.filter (Call.concerns roster))).length) := by
      rw [← hall, List.map_drop]

/-- All logs of a fleet are written in lockstep. Each has one row per tick after some node's second
report, with that tick's time and the last sample of its node. The reports of names outside the
roster write no row but through the warm-up: without them the first rows are missing, those of
ticks that were warm through them alone. -/
theorem logs_in_lockstep (roster : Roster) (divisors : Divisors) (writer : String → NodeLog)
    (panel : DashboardPanel) (interval : Span) (calls : List Call) (hd : divisors.Checked)
    (hw : ∀ node ∈ roster.names, (writer node).Unfailing)
    (hr : ∀ node ∈ roster.names, (writer node).rows = #[]) :
    let start := launch roster divisors writer panel interval
    let final := start.performAll calls
    let inside := calls.filter (Call.concerns roster)
    (∀ node, (final.rowsOf node).isSome = true ↔ node ∈ roster.names) ∧
    (∀ node ∈ roster.names, ∃ rows, final.rowsOf node = some rows ∧
      rows.length = (warmTicks calls).length ∧
      ∀ (k : Nat) (tick : TickPoint), (warmTicks calls)[k]? = some tick →
        ∃ row, rows[k]? = some row ∧ row.timestamp = tick.timestamp ∧
          row.text = decimalString tick.timestamp.toNat ++ "," ++
            (tick.lastSample node).sampleRow) ∧
    (∀ earlier later, calls = earlier ++ later → warmTicks earlier ≠ [] →
      (warmTicks calls).length =
        (warmTicks earlier).length + (later.filter Call.isTick).length) ∧
    (∀ node, (start.performAll inside).rowsOf node =
      (final.rowsOf node).map (·.drop ((warmTicks calls).length - (warmTicks inside).length))) := by
  intro start final inside
  have hfinal := rowsOf_launch panel interval calls hd hw hr
  have hinside := rowsOf_launch panel interval inside hd hw hr
  refine ⟨?_, ?_, ?_, ?_⟩
  · intro node
    rw [hfinal node]
    by_cases hmem : node ∈ roster.names <;> simp [hmem]
  · intro node hnode
    refine ⟨(warmTicks calls).map (·.row node), ?_, by simp, ?_⟩
    · rw [hfinal node, if_pos hnode]
    · intro k tick htick
      refine ⟨tick.row node, by simp [htick], rfl, ?_⟩
      exact Snapshot.csvRow_eq _ _
  · rintro earlier later rfl hne
    exact length_warmTicks_append later hne
  · intro node
    rw [hfinal node, hinside node]
    by_cases hmem : node ∈ roster.names
    · rw [if_pos hmem, if_pos hmem, Option.map_some, map_row_filter_concerns hmem]
    · rw [if_neg hmem, if_neg hmem, Option.map_none]

/-- A fleet of one scale node and one side node. -/
def pairRoster : Roster :=
  { nodes := (∅ : Std.ExtTreeMap String Endpoint).insertMany
      [("a", ⟨"a", .scale, "http://h:1/s"⟩), ("c", ⟨"c", .side, "http://h:2/s"⟩)]
    scaleCount := 1
    sideCount := 1 }

/-- The divisors of a fleet of one scale node and one side node. -/
def pairDivisors : Divisors := ⟨1, 1, .full⟩

private theorem mem_names_pairRoster (node : String) :
    node ∈ pairRoster.names ↔ node = "a" ∨ node = "c" := by
  unfold Roster.names pairRoster
  rw [Std.ExtTreeMap.mem_keys]
  simp [Std.ExtTreeMap.mem_insertMany_list]

/-- A fleet in which one node reports twice, another once and an unknown one in between. -/
def pairCalls : List Call :=
  [.tick ⟨0⟩ 10, .apply ⟨"a", { gas := 1 }⟩, .apply ⟨"x", {}⟩, .tick ⟨0⟩ 11,
    .apply ⟨"a", { gas := 2 }⟩, .tick ⟨0⟩ 12, .apply ⟨"c", { gas := 3 }⟩, .tick ⟨0⟩ 13]

theorem logs_in_lockstep_pair :
    pairDivisors.Checked ∧
    ∃ rows, ((launch pairRoster pairDivisors (fun _ => {}) { outcomeAt := fun _ => .crashed }
      ⟨0⟩).performAll pairCalls).rowsOf "c" = some rows ∧ rows.length = 2 := by
  have hcounts : Divisors.ofCounts 1 1 .full = .ok pairDivisors := rfl
  have hd := Divisors.checked_of_ofCounts hcounts
  obtain ⟨-, hrows, -⟩ := logs_in_lockstep pairRoster pairDivisors (fun _ => {})
    { outcomeAt := fun _ => .crashed } ⟨0⟩ pairCalls hd (fun _ _ _ => rfl) (fun _ _ => rfl)
  obtain ⟨rows, hc, hlength, -⟩ := hrows "c" ((mem_names_pairRoster "c").mpr (.inr rfl))
  exact ⟨hd, rows, hc, hlength.trans (by decide)⟩

/-- Two reports of a name outside the roster warm the fleet: the tick after them writes a row that
is not written without them. -/
theorem outside_reports_write_rows :
    "x" ∉ pairRoster.names ∧
    ((launch pairRoster pairDivisors (fun _ => {}) {} ⟨0⟩).performAll
      [.apply ⟨"x", {}⟩, .apply ⟨"x", {}⟩, .tick ⟨0⟩ 7]).rowsOf "a" = some [⟨7, {}⟩] ∧
    ((launch pairRoster pairDivisors (fun _ => {}) {} ⟨0⟩).performAll
      [.tick ⟨0⟩ 7]).rowsOf "a" = some [] := by
  have ha : "a" ∈ pairRoster.names := (mem_names_pairRoster "a").mpr (.inl rfl)
  have hrows (calls : List Call) := @rowsOf_launch pairRoster pairDivisors (fun _ => {}) {} ⟨0⟩
    calls rfl (fun _ _ _ => rfl) (fun _ _ => rfl) "a"
  refine ⟨?_, ?_, ?_⟩
  · rw [mem_names_pairRoster]
    decide
  · rw [hrows, if_pos ha]
    decide
  · rw [hrows, if_pos ha]
    decide

end FleetTelemetry.Aggregator
