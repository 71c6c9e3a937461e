import FleetTelemetry.Fleet.Frame
import FleetTelemetry.Proofs.Fleet.Interleavings
import FleetTelemetry.Proofs.Fleet.Sums
import FleetTelemetry.Proofs.Outcomes
import FleetTelemetry.Proofs.Text.ByteOrder
import Mathlib.Algebra.BigOperators.Group.Finset.Basic

/-!
# Frames and the reports behind them

The state of a fleet has one entry for each node that has reported. So the sums of a frame go over
the nodes, each counted once with its last snapshot or its last but one, and the rows of a frame
are those of the nodes in the order of their names.
-/

namespace FleetTelemetry

open Text

def reporters (reports : List Report) : Finset String := (reports.map (·.node)).toFinset

/-- The nodes that have reported twice or more often. -/
def repeaters (reports : List Report) : Finset String :=
  (reporters reports).filter fun node => 2 ≤ (snapshotsOf reports node).length

/-- A node's last snapshot; zeros if there is none. -/
def lastOf (reports : List Report) (node : String) : Snapshot :=
  (snapshotsOf reports node).getLast?.getD {}

/-- A node's last snapshot but one; zeros if there is none. -/
def lastButOneOf (reports : List Report) (node : String) : Snapshot :=
  (snapshotsOf reports node).dropLast.getLast?.getD {}

section Reports

variable {reports : List Report} {node : String}

theorem mem_reporters : node ∈ reporters reports ↔ ∃ report ∈ reports, report.node = node := by
  simp [reporters]

theorem mem_reporters_iff_ne_nil : node ∈ reporters reports ↔ snapshotsOf reports node ≠ [] := by
  rw [mem_reporters, ne_eq, snapshotsOf_eq_nil_iff]
  simp

private theorem mem_repeaters :
    node ∈ repeaters reports ↔ 2 ≤ (snapshotsOf reports node).length := by
  rw [repeaters, Finset.mem_filter, mem_reporters_iff_ne_nil]
  refine and_iff_right_of_imp fun h hnil => ?_
  rw [hnil] at h
  exact absurd h (by decide)

theorem getLast?_of_mem_reporters (h : node ∈ reporters reports) :
    (snapshotsOf reports node).getLast? = some (lastOf reports node) := by
  have hlast := List.getLast?_eq_some_getLast (mem_reporters_iff_ne_nil.mp h)
  rw [lastOf, hlast]
  rfl

end Reports

/-! ## Sums over a map -/

theorem map_snd_toList_eq_values {α : Type} (map : Std.ExtTreeMap String α) :
    map.toList.map Prod.snd = map.values := by
  obtain ⟨⟨inner⟩⟩ := map
  induction inner using Quotient.inductionOn with
  | h tree =>
    show (Std.DTreeMap.Internal.Impl.Const.toList tree.inner).map Prod.snd = tree.inner.values
    rw [Std.DTreeMap.Internal.Impl.values_eq_map_snd,
      Std.DTreeMap.Internal.Impl.Const.toList_eq_toListModel_map, List.map_map]
    rfl

private theorem values_eq_map_keys {α : Type} [Inhabited α] (map : Std.ExtTreeMap String α) :
    map.values = map.keys.map fun key => map[key]?.getD default := by
  rw [← map_snd_toList_eq_values, ← Std.ExtTreeMap.map_fst_toList_eq_keys, List.map_map]
  apply List.map_congr_left
  intro entry hentry
  have hget := Std.ExtTreeMap.mem_toList_iff_getElem?_eq_some.mp hentry
  simp [hget]

private theorem Totals.get_sum_values (map : SnapshotMap) (field : FleetField) :
    (Totals.sum map.values).get field =
      ∑ node ∈ map.keys.toFinset, ((map[node]?.getD {}).get field.source).toNat := by
  rw [get_sum, values_eq_map_keys, List.map_map, List.sum_toFinset _ Std.ExtTreeMap.nodup_keys]
  rfl

namespace FleetState

variable {state : FleetState} {reports : List Report}

theorem Tracks.toFinset_keys_current (h : state.Tracks reports) :
    state.current.keys.toFinset = reporters reports := by
  ext node
  rw [List.mem_toFinset, Std.ExtTreeMap.mem_keys, ← Std.ExtTreeMap.isSome_getElem?_iff_mem,
    h.current, mem_reporters_iff_ne_nil, List.getLast?_isSome]

private theorem Tracks.toFinset_keys_previous (h : state.Tracks reports) :
    state.previous.keys.toFinset = repeaters reports := by
  ext node
  rw [List.mem_toFinset, Std.ExtTreeMap.mem_keys, ← Std.ExtTreeMap.isSome_getElem?_iff_mem,
    h.previous, mem_repeaters, List.getLast?_isSome, ← List.length_pos_iff, List.length_dropLast]
  omega

theorem Tracks.get_sum_current (h : state.Tracks reports) (field : FleetField) :
    (Totals.sum state.current.values).get field =
      ∑ node ∈ reporters reports, ((lastOf reports node).get field.source).toNat := by
  rw [Totals.get_sum_values, h.toFinset_keys_current]
  exact Finset.sum_congr rfl fun node _ => by rw [h.current, lastOf]

theorem Tracks.get_sum_previous (h : state.Tracks reports) (field : FleetField) :
    (Totals.sum state.previous.values).get field =
      ∑ node ∈ repeaters reports, ((lastButOneOf reports node).get field.source).toNat := by
  rw [Totals.get_sum_values, h.toFinset_keys_previous]
  exact Finset.sum_congr rfl fun node _ => by rw [h.previous, lastButOneOf]

end FleetState

/-! ## Frames -/

namespace Frame

variable {divisors : Divisors} {roster : Roster} {state : FleetState} {elapsed : Span}
  {frame : Frame} {reports : List Report}

theorem ofState_eq_ok_imp (h : ofState divisors roster state elapsed = .ok frame) :
    frame.current = Totals.sum state.current.values ∧
      frame.previous = Totals.sum state.previous.values ∧
      frame.nodes = state.current.toList.map fun entry =>
        NodeRow.ofSnapshot roster entry.1 entry.2 := by
  obtain ⟨_, -, h⟩ := bind_eq_ok.mp h
  obtain ⟨_, -, h⟩ := bind_eq_ok.mp h
  cases h
  exact ⟨rfl, rfl, rfl⟩

theorem names_nodes (h : ofState divisors roster state elapsed = .ok frame) :
    frame.nodes.map (·.name) = state.current.keys := by
  rw [(ofState_eq_ok_imp h).2.2, List.map_map, ← Std.ExtTreeMap.map_fst_toList_eq_keys]
  rfl

theorem mem_nodes_iff (h : ofState divisors roster state elapsed = .ok frame)
    (htracks : state.Tracks reports) (row : NodeRow) :
    row ∈ frame.nodes ↔
      row.name ∈ reporters reports ∧
        row = NodeRow.ofSnapshot roster row.name (lastOf reports row.name) := by
  rw [(ofState_eq_ok_imp h).2.2, List.mem_map]
  constructor
  · rintro ⟨⟨node, last⟩, hentry, rfl⟩
    have hget := Std.ExtTreeMap.mem_toList_iff_getElem?_eq_some.mp hentry
    rw [htracks.current] at hget
    have hmem : node ∈ reporters reports := by
      rw [mem_reporters_iff_ne_nil, ← List.getLast?_isSome, hget]
      rfl
    refine ⟨hmem, ?_⟩
    rw [getLast?_of_mem_reporters hmem, Option.some.injEq] at hget
    rw [← hget]
    rfl
  · rintro ⟨hmem, hrow⟩
    refine ⟨(row.name, lastOf reports row.name), ?_, hrow.symm⟩
    rw [Std.ExtTreeMap.mem_toList_iff_getElem?_eq_some, htracks.current]
    exact getLast?_of_mem_reporters hmem

end Frame

end FleetTelemetry
