import Mathlib.Algebra.GroupWithZero.Nat
import FleetTelemetry.Fleet.State

/-!
# The state of a fleet and the reports behind it

A state keeps the last snapshot of every node and the last but one, whatever the order in which the
reports of different nodes come. It is warm exactly when some node has reported twice.
-/

namespace FleetTelemetry

/-- The snapshots that a node has reported, oldest first. -/
def snapshotsOf (reports : List Report) (node : String) : List Snapshot :=
  (reports.filter (·.node = node)).map (·.snapshot)

@[simp] theorem snapshotsOf_nil (node : String) : snapshotsOf [] node = [] := rfl

theorem snapshotsOf_append (before after : List Report) (node : String) :
    snapshotsOf (before ++ after) node = snapshotsOf before node ++ snapshotsOf after node := by
  simp [snapshotsOf]

theorem snapshotsOf_concat_self (reports : List Report) (report : Report) :
    snapshotsOf (reports ++ [report]) report.node =
      snapshotsOf reports report.node ++ [report.snapshot] := by
  simp [snapshotsOf]

theorem snapshotsOf_concat_ne (reports : List Report) (report : Report) {node : String}
    (h : report.node ≠ node) :
    snapshotsOf (reports ++ [report]) node = snapshotsOf reports node := by
  simp [snapshotsOf, h]

theorem snapshotsOf_filter {p : Report → Bool} {reports : List Report} {node : String}
    (h : ∀ report ∈ reports, report.node = node → p report = true) :
    snapshotsOf (reports.filter p) node = snapshotsOf reports node := by
  unfold snapshotsOf
  rw [List.filter_filter]
  congr 1
  apply List.filter_congr
  intro report hreport
  by_cases hnode : report.node = node
  · simp [hnode, h report hreport hnode]
  · simp [hnode]

theorem sum_length_snapshotsOf_le {nodes : List String} (hnodes : nodes.Nodup)
    (reports : List Report) :
    (nodes.map fun node => (snapshotsOf reports node).length).sum ≤ reports.length := by
  induction nodes generalizing reports with
  | nil => simp
  | cons node nodes ih =>
    obtain ⟨hnotmem, hnodes⟩ := List.nodup_cons.mp hnodes
    let others := reports.filter fun report => !decide (report.node = node)
    have hothers : ∀ other ∈ nodes, (snapshotsOf reports other).length =
        (snapshotsOf others other).length := by
      intro other hother
      have hne : other ≠ node := fun h => hnotmem (h ▸ hother)
      simp only [snapshotsOf, others, List.filter_filter, List.length_map]
      refine congrArg List.length (List.filter_congr fun report _ => ?_)
      by_cases h : report.node = other
      · simp [h, hne]
      · simp [h]
    have hsplit : (snapshotsOf reports node).length + others.length = reports.length := by
      have hcount := List.length_eq_countP_add_countP
        (fun report : Report => decide (report.node = node)) (l := reports)
      simp only [List.countP_eq_length_filter, decide_eq_true_eq] at hcount
      simp [snapshotsOf, others, hcount]
    have hrest := ih hnodes others
    rw [List.map_cons, List.sum_cons, List.map_congr_left hothers]
    omega

/-- Some node has reported at least twice. -/
def Warm (reports : List Report) : Prop :=
  ∃ node, 2 ≤ (snapshotsOf reports node).length

private theorem warm_iff_exists_mem (reports : List Report) :
    Warm reports ↔ ∃ report ∈ reports, 2 ≤ (snapshotsOf reports report.node).length := by
  constructor
  · rintro ⟨node, h⟩
    have hne : snapshotsOf reports node ≠ [] := by
      intro hnil
      simp [hnil] at h
    obtain ⟨s, hs⟩ := List.exists_mem_of_ne_nil _ hne
    obtain ⟨report, hmem, -⟩ := List.mem_map.mp hs
    obtain ⟨hreport, hnode⟩ := List.mem_filter.mp hmem
    have hnode : report.node = node := by simpa using hnode
    exact ⟨report, hreport, hnode ▸ h⟩
  · rintro ⟨report, -, h⟩
    exact ⟨report.node, h⟩

instance (reports : List Report) : Decidable (Warm reports) :=
  decidable_of_iff _ (warm_iff_exists_mem reports).symm

theorem Warm.append {before : List Report} (h : Warm before) (after : List Report) :
    Warm (before ++ after) := by
  obtain ⟨node, hnode⟩ := h
  refine ⟨node, ?_⟩
  rw [snapshotsOf_append, List.length_append]
  omega

private theorem isEmpty_eq_false_iff_exists (m : SnapshotMap) :
    m.isEmpty = false ↔ ∃ node : String, m[node]? ≠ none := by
  rw [Std.ExtTreeMap.isEmpty_eq_false_iff]
  constructor
  · intro hne
    refine Classical.byContradiction fun hno => hne ?_
    apply Std.ExtTreeMap.ext_getElem?
    intro node
    have hnone : m[node]? = none := Classical.byContradiction fun h => hno ⟨node, h⟩
    simp [hnone]
  · rintro ⟨node, h⟩ rfl
    simp at h

namespace FleetState

/-- The state knows the last two snapshots of every node among some reports. -/
structure Tracks (state : FleetState) (reports : List Report) : Prop where
  current : ∀ node : String, state.current[node]? = (snapshotsOf reports node).getLast?
  previous : ∀ node : String, state.previous[node]? = (snapshotsOf reports node).dropLast.getLast?

theorem Tracks.empty : Tracks {} [] := by
  constructor <;> intro node <;> simp

theorem Tracks.apply {state : FleetState} {reports : List Report} (h : state.Tracks reports)
    (report : Report) : (state.apply report).Tracks (reports ++ [report]) := by
  have hcurrent := h.current report.node
  constructor
  · intro node
    by_cases hnode : report.node = node
    · subst hnode
      rw [snapshotsOf_concat_self]
      simp [FleetState.apply]
    · rw [snapshotsOf_concat_ne _ _ hnode, ← h.current node]
      simp [FleetState.apply, Std.ExtTreeMap.getElem?_insert, hnode]
  · intro node
    by_cases hnode : report.node = node
    · subst hnode
      rw [snapshotsOf_concat_self, List.dropLast_concat, ← hcurrent]
      cases hold : state.current[report.node]? with
      | none =>
        have hnil : snapshotsOf reports report.node = [] := by
          rw [hold] at hcurrent
          exact List.getLast?_eq_none_iff.mp hcurrent.symm
        simp [FleetState.apply, hold, h.previous, hnil]
      | some old => simp [FleetState.apply, hold]
    · rw [snapshotsOf_concat_ne _ _ hnode, ← h.previous node]
      cases hold : state.current[report.node]? with
      | none => simp [FleetState.apply, hold]
      | some old => simp [FleetState.apply, hold, Std.ExtTreeMap.getElem?_insert, hnode]

theorem Tracks.isWarm_iff {state : FleetState} {reports : List Report} (h : state.Tracks reports) :
    state.isWarm = true ↔ Warm reports := by
  have hprevious : state.previous.isEmpty = false ↔ Warm reports := by
    rw [isEmpty_eq_false_iff_exists]
    constructor
    · rintro ⟨node, hnode⟩
      refine ⟨node, ?_⟩
      rw [h.previous] at hnode
      have hne : (snapshotsOf reports node).dropLast ≠ [] := fun e => hnode (by simp [e])
      have hlength := List.length_pos_iff.mpr hne
      rw [List.length_dropLast] at hlength
      omega
    · rintro ⟨node, hnode⟩
      refine ⟨node, ?_⟩
      rw [h.previous]
      intro hnone
      have hlength := congrArg List.length (List.getLast?_eq_none_iff.mp hnone)
      simp only [List.length_dropLast, List.length_nil] at hlength
      omega
  have hcurrent : Warm reports → state.current.isEmpty = false := by
    rintro ⟨node, hnode⟩
    rw [isEmpty_eq_false_iff_exists]
    refine ⟨node, ?_⟩
    rw [h.current]
    intro hnone
    have hnil := List.getLast?_eq_none_iff.mp hnone
    simp [hnil] at hnode
  unfold FleetState.isWarm
  constructor
  · intro hwarm
    rw [Bool.and_eq_true] at hwarm
    exact hprevious.mp (by simpa using hwarm.2)
  · intro hwarm
    rw [hcurrent hwarm, hprevious.mpr hwarm]
    rfl

end FleetState

end FleetTelemetry
