import FleetTelemetry.Proofs.Fleet.History

/-!
# Interleaved reports

The state after some reports depends on what each node has reported and not on how the reports of
different nodes were mixed: a node's last snapshot is its current one, and its last but one is its
previous one.
-/

namespace FleetTelemetry

theorem snapshotsOf_eq_nil_iff {reports : List Report} {node : String} :
    snapshotsOf reports node = [] ↔ ∀ report ∈ reports, report.node ≠ node := by
  simp [snapshotsOf, List.filter_eq_nil_iff]

namespace FleetState

/-- The state after some reports, when nothing was known before. -/
def ofReports (reports : List Report) : FleetState := reports.foldl apply empty

theorem Tracks.foldl {state : FleetState} {before : List Report} (h : state.Tracks before)
    (reports : List Report) :
    (reports.foldl FleetState.apply state).Tracks (before ++ reports) := by
  induction reports generalizing state before with
  | nil => simpa using h
  | cons report reports ih =>
    have hrest := ih (h.apply report)
    rwa [List.append_assoc, List.singleton_append] at hrest

private theorem tracks_ofReports (reports : List Report) : (ofReports reports).Tracks reports :=
  Tracks.empty.foldl reports

section

variable {state state' : FleetState} {reports reports' : List Report}

private theorem Tracks.current_eq_none_iff (h : state.Tracks reports) (node : String) :
    state.current[node]? = none ↔ ∀ report ∈ reports, report.node ≠ node := by
  rw [h.current, List.getLast?_eq_none_iff, snapshotsOf_eq_nil_iff]

private theorem Tracks.previous_eq_none_iff (h : state.Tracks reports) (node : String) :
    state.previous[node]? = none ↔ (snapshotsOf reports node).length < 2 := by
  rw [h.previous, List.getLast?_eq_none_iff, ← List.length_eq_zero_iff, List.length_dropLast]
  omega

private theorem Tracks.mem_current (h : state.Tracks reports) {node : String}
    (hnode : node ∈ state.previous) : node ∈ state.current := by
  refine Classical.byContradiction fun hnot => ?_
  have hcurrent := Std.ExtTreeMap.getElem?_eq_none hnot
  rw [h.current, List.getLast?_eq_none_iff] at hcurrent
  have hprevious : state.previous[node]? = none := by
    rw [h.previous_eq_none_iff, hcurrent]
    decide
  rw [Std.ExtTreeMap.getElem?_eq_some_getElem hnode] at hprevious
  cases hprevious

theorem Tracks.ext (h : state.Tracks reports) (h' : state'.Tracks reports')
    (hsame : ∀ node, snapshotsOf reports node = snapshotsOf reports' node) : state = state' := by
  have hcurrent : state.current = state'.current := by
    apply Std.ExtTreeMap.ext_getElem?
    intro node
    rw [h.current, h'.current, hsame]
  have hprevious : state.previous = state'.previous := by
    apply Std.ExtTreeMap.ext_getElem?
    intro node
    rw [h.previous, h'.previous, hsame]
  cases state
  cases state'
  cases hcurrent
  cases hprevious
  rfl

end

/-- After any reports the current snapshot of every node is its last and the previous one its last
but one, so a node that has a previous snapshot has a current one, and the state is warm when some
node has reported at least twice. Reports that bring the same snapshots of every node in the same
order lead to the same state, however those of different nodes are mixed. -/
theorem ofReports_determined_by_nodes (reports : List Report) :
    let state := ofReports reports
    (∀ node : String, state.current[node]? = (snapshotsOf reports node).getLast? ∧
      (state.current[node]? = none ↔ ∀ report ∈ reports, report.node ≠ node)) ∧
    (∀ node : String, state.previous[node]? = (snapshotsOf reports node).dropLast.getLast? ∧
      (state.previous[node]? = none ↔ (snapshotsOf reports node).length < 2)) ∧
    (∀ node : String, node ∈ state.previous → node ∈ state.current) ∧
    (state.isWarm = true ↔ ∃ node, 2 ≤ (snapshotsOf reports node).length) ∧
    ∀ mixed : List Report, (∀ node, snapshotsOf mixed node = snapshotsOf reports node) →
      ofReports mixed = state := by
  intro state
  have h : state.Tracks reports := tracks_ofReports reports
  refine ⟨?_, ?_, ?_, ?_, ?_⟩
  · intro node
    exact ⟨h.current node, h.current_eq_none_iff node⟩
  · intro node
    exact ⟨h.previous node, h.previous_eq_none_iff node⟩
  · intro node hnode
    exact h.mem_current hnode
  · exact h.isWarm_iff
  · intro mixed hsame
    exact (tracks_ofReports mixed).ext h hsame

/-- Three reports of one node and two of another, in two orders. -/
theorem ofReports_determined_by_nodes_mixed :
    ofReports [⟨"a", { gas := 1 }⟩, ⟨"a", { gas := 2 }⟩, ⟨"a", { gas := 3 }⟩, ⟨"c", { gas := 4 }⟩,
        ⟨"c", { gas := 5 }⟩] =
      ofReports [⟨"c", { gas := 4 }⟩, ⟨"a", { gas := 1 }⟩, ⟨"a", { gas := 2 }⟩,
        ⟨"c", { gas := 5 }⟩, ⟨"a", { gas := 3 }⟩] := by
  obtain ⟨-, -, -, -, hmixed⟩ := ofReports_determined_by_nodes [⟨"c", { gas := 4 }⟩,
    ⟨"a", { gas := 1 }⟩, ⟨"a", { gas := 2 }⟩, ⟨"c", { gas := 5 }⟩, ⟨"a", { gas := 3 }⟩]
  apply hmixed
  intro node
  by_cases ha : "a" = node
  · subst ha
    decide
  · by_cases hc : "c" = node
    · subst hc
      decide
    · simp [snapshotsOf, ha, hc]

end FleetState

end FleetTelemetry
