import FleetTelemetry.Proofs.Fleet.Frames
import FleetTelemetry.Proofs.Text.ByteOrder
import FleetTelemetry.Roster.Basic

/-!
# What a roster holds

A roster is known by the endpoints that were added to it: they are found under their names and
listed in the order of the bytes of these, and the sizes of the two classes are how many there are
of each.
-/

namespace FleetTelemetry.Roster

open Text

structure Holds (roster : Roster) (endpoints : List Endpoint) : Prop where
  get?_iff : ∀ name e, roster.get? name = some e ↔ e ∈ endpoints ∧ e.name = name
  scaleCount : roster.scaleCount = endpoints.countP fun e => e.nodeClass = .scale
  sideCount : roster.sideCount = endpoints.countP fun e => e.nodeClass = .side

section

variable {roster larger : Roster} {endpoints : List Endpoint} {e : Endpoint}

theorem holds_empty : Holds empty [] where
  get?_iff name e := by simp [empty, get?]
  scaleCount := rfl
  sideCount := rfl

theorem Holds.ext (h : Holds roster endpoints) (h' : Holds larger endpoints) : roster = larger := by
  have hnodes : roster.nodes = larger.nodes := by
    apply Std.ExtTreeMap.ext_getElem?
    intro name
    apply Option.ext
    intro e
    exact (h.get?_iff name e).trans (h'.get?_iff name e).symm
  have hscale := h.scaleCount.trans h'.scaleCount.symm
  have hside := h.sideCount.trans h'.sideCount.symm
  cases roster
  cases larger
  cases hnodes
  cases hscale
  cases hside
  rfl

theorem Holds.mem_nodes_iff (h : Holds roster endpoints) (name : String) :
    name ∈ roster.nodes ↔ name ∈ endpoints.map (·.name) := by
  rw [Std.ExtTreeMap.mem_iff_isSome_getElem?, Option.isSome_iff_exists, List.mem_map]
  exact exists_congr fun e => h.get?_iff name e

theorem Holds.add?_of_mem (h : Holds roster endpoints) (hname : e.name ∈ endpoints.map (·.name)) :
    roster.add? e = none :=
  if_pos ((h.mem_nodes_iff e.name).mpr hname)

theorem Holds.add?_of_not_mem (h : Holds roster endpoints)
    (hname : e.name ∉ endpoints.map (·.name)) :
    ∃ larger, roster.add? e = some larger ∧ Holds larger (endpoints ++ [e]) := by
  have hfree : e.name ∉ roster.nodes := fun hmem => hname ((h.mem_nodes_iff e.name).mp hmem)
  have hget (name : String) (e' : Endpoint) : (roster.nodes.insert e.name e)[name]? = some e' ↔
      e' ∈ endpoints ++ [e] ∧ e'.name = name := by
    have hold := h.get?_iff name e'
    rw [get?] at hold
    rw [List.mem_append, List.mem_singleton, Std.ExtTreeMap.getElem?_insert]
    by_cases heq : e.name = name
    · subst heq
      have hnone : ¬ (e' ∈ endpoints ∧ e'.name = e.name) := fun hother =>
        hname (List.mem_map.mpr ⟨e', hother⟩)
      simp only [Std.ReflOrd.compare_self, if_true, Option.some.injEq]
      constructor
      · rintro rfl
        exact ⟨.inr rfl, rfl⟩
      · rintro ⟨hmem | rfl, hsame⟩
        · exact absurd ⟨hmem, hsame⟩ hnone
        · rfl
    · have hne : ¬ compare e.name name = .eq := fun hcompare =>
        heq (Std.LawfulEqOrd.eq_of_compare hcompare)
      rw [if_neg hne, hold]
      constructor
      · rintro ⟨hmem, hsame⟩
        exact ⟨.inl hmem, hsame⟩
      · rintro ⟨hmem | rfl, hsame⟩
        · exact ⟨hmem, hsame⟩
        · exact absurd hsame heq
  unfold add?
  rw [if_neg hfree]
  cases hclass : e.nodeClass with
  | scale =>
    refine ⟨_, rfl, hget, ?_, ?_⟩
    · simp [h.scaleCount, hclass]
    · simp [h.sideCount, hclass]
  | side =>
    refine ⟨_, rfl, hget, ?_, ?_⟩
    · simp [h.scaleCount, hclass]
    · simp [h.sideCount, hclass]

/-! ## What a roster lists -/

theorem Holds.map_name_endpoints (h : Holds roster endpoints) :
    roster.endpoints.map (·.name) = roster.names := by
  have hvalues : roster.endpoints = roster.nodes.toList.map Prod.snd :=
    (map_snd_toList_eq_values _).symm
  have hkeys : roster.names = roster.nodes.toList.map Prod.fst :=
    Std.ExtTreeMap.map_fst_toList_eq_keys.symm
  rw [hvalues, hkeys, List.map_map]
  apply List.map_congr_left
  intro entry hentry
  have hget := Std.ExtTreeMap.mem_toList_iff_getElem?_eq_some.mp hentry
  exact ((h.get?_iff entry.1 entry.2).mp hget).2

theorem Holds.mem_endpoints_iff (h : Holds roster endpoints) :
    e ∈ roster.endpoints ↔ e ∈ endpoints := by
  rw [Roster.endpoints, ← map_snd_toList_eq_values, List.mem_map]
  constructor
  · rintro ⟨entry, hentry, rfl⟩
    have hget := Std.ExtTreeMap.mem_toList_iff_getElem?_eq_some.mp hentry
    exact ((h.get?_iff entry.1 entry.2).mp hget).1
  · intro hmem
    have hget := (h.get?_iff e.name e).mpr ⟨hmem, rfl⟩
    exact ⟨(e.name, e), Std.ExtTreeMap.mem_toList_iff_getElem?_eq_some.mpr hget, rfl⟩

theorem Holds.endpoints_perm (h : Holds roster endpoints)
    (hnames : (endpoints.map (·.name)).Nodup) : roster.endpoints.Perm endpoints := by
  -- Both lists have no endpoint twice, since neither has a name twice.
  have hlisted : roster.endpoints.Nodup := by
    have hkeys : (roster.endpoints.map (·.name)).Nodup := by
      rw [h.map_name_endpoints]
      exact Std.ExtTreeMap.nodup_keys
    exact hkeys.of_map _
  rw [List.perm_ext_iff_of_nodup hlisted (hnames.of_map _)]
  exact fun e => h.mem_endpoints_iff

theorem Holds.size_eq (h : Holds roster endpoints) (hnames : (endpoints.map (·.name)).Nodup) :
    roster.size = endpoints.length := by
  rw [← (h.endpoints_perm hnames).length_eq, ← @List.length_map _ _ _ (·.name),
    h.map_name_endpoints]
  exact Std.ExtTreeMap.length_keys.symm

theorem Holds.isEmpty_iff (h : Holds roster endpoints)
    (hnames : (endpoints.map (·.name)).Nodup) : roster.isEmpty = true ↔ endpoints = [] := by
  rw [← List.length_eq_zero_iff, ← h.size_eq hnames, isEmpty, size,
    Std.ExtTreeMap.isEmpty_eq_size_beq_zero, beq_iff_eq]

theorem Holds.scaleCount_add_sideCount (h : Holds roster endpoints)
    (hnames : (endpoints.map (·.name)).Nodup) :
    roster.scaleCount + roster.sideCount = roster.size := by
  have hside : endpoints.countP (fun e => e.nodeClass = .side) =
      endpoints.countP fun e => ¬ decide (e.nodeClass = .scale) = true := by
    apply List.countP_congr
    intro e _
    cases e.nodeClass <;> simp
  rw [h.size_eq hnames, h.scaleCount, h.sideCount, hside]
  exact (List.length_eq_countP_add_countP _).symm

end

end FleetTelemetry.Roster
