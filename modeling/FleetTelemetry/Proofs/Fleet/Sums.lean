import FleetTelemetry.Fleet.Totals
import Mathlib.Algebra.BigOperators.Group.List.Basic
import Mathlib.Algebra.GroupWithZero.Nat
import Mathlib.Algebra.Order.BigOperators.Group.List
import Mathlib.Algebra.Order.Group.Nat
import Mathlib.Data.List.Forall2
import Mathlib.Data.List.Induction

/-!
# Exact sums

The totals of a fleet are kept in words of 128 bits, which hold the sum of 2 ^ 64 words of 64 bits.
Up to that many snapshots no addition on the way goes past them, so the totals are the mathematical
sums of the seven fields: in any order, part by part, and whatever the other fields are.
-/

namespace FleetTelemetry

/-- Two snapshots that differ in their tokens, block ids and event counts alone. -/
inductive Snapshot.Relabelled (s : Snapshot) : Snapshot → Prop where
  | intro (token : Bool)
    (proposeBlock signBlock submitBlock proposeNum signNum submitNum : UInt64) :
    Relabelled s
      { s with token, proposeBlock, signBlock, submitBlock, proposeNum, signNum, submitNum }

private theorem Snapshot.Relabelled.get_source {s s' : Snapshot} (h : s.Relabelled s')
    (field : FleetField) : s'.get field.source = s.get field.source := by
  cases h
  cases field <;> rfl

namespace PerField

theorem ext_get {α : Type} {a b : PerField α} (h : ∀ field, a.get field = b.get field) : a = b := by
  cases a
  cases b
  congr 1
  exacts [h .generated, h .confirmed, h .chainDepth, h .proposeLatency, h .signLatency,
    h .submitLatency, h .gas]

end PerField

namespace Totals

variable {snapshots front back others : List Snapshot}

/-! ## Totals as sums -/

private theorem get_foldl_add (snapshots : List Snapshot) (totals : Totals) (field : FleetField) :
    (snapshots.foldl add totals).get field =
      totals.get field + (snapshots.map fun snapshot => (snapshot.get field.source).toNat).sum := by
  induction snapshots generalizing totals with
  | nil => rfl
  | cons snapshot snapshots ih =>
    rw [List.foldl_cons, ih, add, PerField.get_ofFn, List.map_cons, List.sum_cons, Nat.add_assoc]

theorem get_sum (snapshots : List Snapshot) (field : FleetField) :
    (sum snapshots).get field =
      (snapshots.map fun snapshot => (snapshot.get field.source).toNat).sum := by
  rw [sum, get_foldl_add, zero, PerField.get_ofFn, Nat.zero_add]

/-! ## Words of 128 bits -/

/-- One step of the sum in words of 128 bits. There is no outcome when a word is too short for its
new total. -/
def addWords? (totals : Totals) (snapshot : Snapshot) : Option Totals :=
  if ∀ field ∈ FleetField.all, (totals.add snapshot).get field < 2 ^ 128 then
    some (totals.add snapshot)
  else
    none

/-- The sum in words of 128 bits. -/
def sumWords? (snapshots : List Snapshot) : Option Totals := snapshots.foldlM addWords? zero

private theorem get_sum_lt (h : snapshots.length ≤ 2 ^ 64) (field : FleetField) :
    (sum snapshots).get field < 2 ^ 128 := by
  rw [get_sum]
  have hwords : ∀ n ∈ snapshots.map (fun snapshot => (snapshot.get field.source).toNat),
      n ≤ 2 ^ 64 - 1 := by
    intro n hn
    obtain ⟨snapshot, -, rfl⟩ := List.mem_map.mp hn
    exact Nat.le_sub_one_of_lt (snapshot.get field.source).toNat_lt
  calc (snapshots.map fun snapshot => (snapshot.get field.source).toNat).sum
      ≤ snapshots.length * (2 ^ 64 - 1) := by
        simpa using List.sum_le_card_nsmul _ _ hwords
    _ ≤ 2 ^ 64 * (2 ^ 64 - 1) := Nat.mul_le_mul_right _ h
    _ < 2 ^ 128 := by decide

private theorem sumWords?_eq_some (h : snapshots.length ≤ 2 ^ 64) :
    sumWords? snapshots = some (sum snapshots) := by
  induction snapshots using List.reverseRecOn with
  | nil => rfl
  | append_singleton front snapshot ih =>
    have hfront : front.length ≤ 2 ^ 64 := by
      rw [List.length_append] at h
      omega
    have hstep : ∀ field ∈ FleetField.all, ((sum front).add snapshot).get field < 2 ^ 128 := by
      intro field _
      rw [← sum_concat]
      exact get_sum_lt h field
    have hrun : front.foldlM addWords? zero = some (sum front) := ih hfront
    rw [sumWords?, List.foldlM_append, hrun, Option.bind_eq_bind, Option.bind_some,
      List.foldlM_cons, addWords?, if_pos hstep, sum_concat]
    rfl

/-! ## Snapshots that have the same sums -/

private theorem sum_perm (h : others.Perm snapshots) : sum others = sum snapshots := by
  refine PerField.ext_get fun field => ?_
  rw [get_sum, get_sum]
  exact (h.map _).sum_eq

private theorem get_sum_append (front back : List Snapshot) (field : FleetField) :
    (sum (front ++ back)).get field = (sum front).get field + (sum back).get field := by
  simp only [get_sum, List.map_append, List.sum_append]

private theorem sum_relabelled (h : List.Forall₂ Snapshot.Relabelled snapshots others) :
    sum others = sum snapshots := by
  refine PerField.ext_get fun field => ?_
  rw [get_sum, get_sum]
  congr 1
  induction h with
  | nil => rfl
  | cons hfirst _ ih => rw [List.map_cons, List.map_cons, hfirst.get_source field, ih]

/-- The sums of up to 2 ^ 64 snapshots. At every prefix the words of 128 bits hold the exact totals.
Each of these is the sum of its own field, and access by field gives the same figure. The order of
the snapshots does not matter, nor do their tokens, block ids and event counts, and the sums of two
parts add up. -/
theorem sum_exact (snapshots : List Snapshot) (hlength : snapshots.length ≤ 2 ^ 64) :
    (∀ front, front <+: snapshots → sumWords? front = some (sum front)) ∧
    sum snapshots =
      { generated := (snapshots.map fun s => s.generatedTransactions.toNat).sum
        confirmed := (snapshots.map fun s => s.confirmedTransactions.toNat).sum
        chainDepth := (snapshots.map fun s => s.chainDepth.toNat).sum
        proposeLatency := (snapshots.map fun s => s.proposeLatency.toNat).sum
        signLatency := (snapshots.map fun s => s.signLatency.toNat).sum
        submitLatency := (snapshots.map fun s => s.submitLatency.toNat).sum
        gas := (snapshots.map fun s => s.gas.toNat).sum } ∧
    (∀ field, (sum snapshots).get field =
      (snapshots.map fun s => (s.get field.source).toNat).sum) ∧
    (∀ others, others.Perm snapshots → sumWords? others = some (sum snapshots)) ∧
    (∀ front back, front ++ back = snapshots → ∀ field,
      (sum snapshots).get field = (sum front).get field + (sum back).get field) ∧
    ∀ others, List.Forall₂ Snapshot.Relabelled snapshots others →
      sumWords? others = some (sum snapshots) := by
  refine ⟨?_, ?_, get_sum snapshots, ?_, ?_, ?_⟩
  · intro front hfront
    exact sumWords?_eq_some (hfront.length_le.trans hlength)
  · refine PerField.ext_get fun field => ?_
    rw [get_sum]
    cases field <;> rfl
  · intro others hperm
    rw [← sum_perm hperm]
    exact sumWords?_eq_some (hperm.length_eq.trans_le hlength)
  · rintro front back rfl field
    exact get_sum_append front back field
  · intro others hrelabelled
    rw [← sum_relabelled hrelabelled]
    exact sumWords?_eq_some (hrelabelled.length_eq.symm.trans_le hlength)

/-- A fleet of 2 ^ 64 nodes. All but the last one have the largest chain depth and gas. -/
def crowd : List Snapshot :=
  List.replicate 18446744073709551615
    { chainDepth := 18446744073709551615, gas := 18446744073709551615 } ++ [{ gas := 1 }]

/-- The same nodes backwards, and all of them with the token, have the same sums. -/
theorem sum_exact_crowd :
    crowd.length ≤ 2 ^ 64 ∧ crowd.reverse.Perm crowd ∧
      List.Forall₂ Snapshot.Relabelled crowd (crowd.map fun s => { s with token := true }) ∧
      sumWords? crowd = some (sum crowd) ∧ sumWords? crowd.reverse = some (sum crowd) ∧
      sumWords? (crowd.map fun s => { s with token := true }) = some (sum crowd) ∧
      (sum crowd).get .gas = 18446744073709551615 * 18446744073709551615 + 1 := by
  have hlength : crowd.length ≤ 2 ^ 64 := by
    rw [crowd, List.length_append, List.length_replicate, List.length_singleton]
    decide
  have hrelabelled :
      List.Forall₂ Snapshot.Relabelled crowd (crowd.map fun s => { s with token := true }) :=
    List.forall₂_map_right_iff.mpr (List.forall₂_same.mpr fun s _ =>
      .intro true s.proposeBlock s.signBlock s.submitBlock s.proposeNum s.signNum s.submitNum)
  obtain ⟨hfronts, -, hfields, hperm, -, hothers⟩ := sum_exact crowd hlength
  refine ⟨hlength, crowd.reverse_perm, hrelabelled, hfronts crowd List.prefix_rfl,
    hperm _ crowd.reverse_perm, hothers _ hrelabelled, ?_⟩
  rw [hfields]
  simp only [crowd, List.map_append, List.sum_append, List.map_replicate, List.sum_replicate_nat,
    List.map_singleton, List.sum_singleton]
  decide

end Totals

end FleetTelemetry
