import FleetTelemetry.Proofs.Json.Values
import Mathlib.Data.List.Nodup

/-!
# Members of an object

An object that has been read is its members one after another. As a map it has each of their keys;
a member whose key comes back later does not count.
-/

namespace FleetTelemetry.Json

open Reader

section Reading

variable {α : Type} {item : Reader α} {s rest : Bytes}

/-- The rest of an object gives members up to its closing brace. -/
inductive ObjectRest (item : Reader α) : Bool → Bytes → List (String × α) → Bytes → Prop where
  | blank {first : Bool} {b : UInt8} {s rest : Bytes} {pairs : List (String × α)}
      (hblank : isBlankByte b = true) (h : ObjectRest item first s pairs rest) :
      ObjectRest item first (b :: s) pairs rest
  | close {first : Bool} {b : UInt8} {s rest : Bytes} (hblank : isBlankByte b = false)
      (hstart : outcome (memberStart first b) s = .ok (false, rest)) :
      ObjectRest item first (b :: s) [] rest
  | member {first : Bool} {b : UInt8} {s s₁ s₂ s₃ s₄ rest : Bytes} {key : String} {a : α}
      {pairs : List (String × α)} (hblank : isBlankByte b = false)
      (hstart : outcome (memberStart first b) s = .ok (true, s₁))
      (hkey : outcome string s₁ = .ok (key, s₂)) (hcolon : outcome colon s₂ = .ok ((), s₃))
      (hitem : outcome item s₃ = .ok (a, s₄)) (h : ObjectRest item false s₄ pairs rest) :
      ObjectRest item first (b :: s) ((key, a) :: pairs) rest

private theorem objectRest_of_pairsFrom (n : Nat) {reversed all : List (String × α)}
    (hn : s.length ≤ n) (h : outcome (pairsFrom item reversed) s = .ok (all, rest)) :
    ∃ pairs, all = reversed.reverse ++ pairs ∧
      ObjectRest item reversed.isEmpty s pairs rest := by
  -- a round takes one byte at least, so the length of what is left goes down
  induction n generalizing reversed s with
  | zero =>
    obtain rfl := List.eq_nil_of_length_eq_zero (Nat.le_zero.mp hn)
    rw [pairsFrom, outcome_loop_nil] at h
    cases h
  | succ n ih =>
    cases s with
    | nil =>
      rw [pairsFrom, outcome_loop_nil] at h
      cases h
    | cons b s =>
      have hs : s.length ≤ n := Nat.le_of_succ_le_succ hn
      rw [pairsFrom, outcome_loop_cons, pairRound] at h
      obtain ⟨⟨round, mid⟩, hround, h⟩ := bind_eq_ok.mp h
      split at hround
      case isTrue hblank =>
        rw [outcome_pure] at hround
        cases hround
        obtain ⟨pairs, hall, hrest⟩ := ih hs h
        exact ⟨pairs, hall, .blank hblank hrest⟩
      case isFalse hblank =>
        rw [Bool.not_eq_true] at hblank
        obtain ⟨more, s₁, hstart, hround⟩ := outcome_bind_eq_ok.mp hround
        cases more with
        | false =>
          rw [if_neg (by decide), outcome_pure] at hround
          cases hround
          cases h
          exact ⟨[], (List.append_nil _).symm, .close hblank hstart⟩
        | true =>
          rw [if_pos rfl] at hround
          obtain ⟨key, s₂, hkey, hround⟩ := outcome_bind_eq_ok.mp hround
          obtain ⟨⟨⟩, s₃, hcolon, hround⟩ := outcome_bind_eq_ok.mp hround
          obtain ⟨a, s₄, hitem, hround⟩ := outcome_bind_eq_ok.mp hround
          rw [outcome_pure] at hround
          cases hround
          have hle : mid.length ≤ n := by
            have h₁ := outcome_length_le hstart
            have h₂ := outcome_length_le hkey
            have h₃ := outcome_length_le hcolon
            have h₄ := outcome_length_le hitem
            omega
          obtain ⟨pairs, hall, hrest⟩ := ih hle h
          refine ⟨(key, a) :: pairs, ?_, .member hblank hstart hkey hcolon hitem hrest⟩
          rw [hall, List.reverse_cons, List.append_assoc, List.singleton_append]

theorem objectRest_of_members {pairs : List (String × α)}
    (h : outcome (members item) s = .ok (pairs, rest)) : ObjectRest item true s pairs rest := by
  obtain ⟨others, hpairs, hrest⟩ :=
    @objectRest_of_pairsFrom α item s rest s.length [] pairs (Nat.le_refl _) h
  obtain rfl : pairs = others := hpairs
  exact hrest

end Reading

section Maps

variable {pairs : List (String × Value)} {key : String} {v : Value}

theorem Members.mem_ofList : key ∈ ofList pairs ↔ key ∈ pairs.map Prod.fst := by
  rw [← Std.ExtTreeMap.isSome_getElem?_iff_mem, getElem?_ofList, Option.isSome_map,
    List.find?_isSome]
  simp [List.mem_map]

theorem Members.getElem?_ofList_eq_some_iff (hkeys : (pairs.map Prod.fst).Nodup) :
    (ofList pairs)[key]? = some v ↔ (key, v) ∈ pairs := by
  rw [getElem?_ofList, Option.map_eq_some_iff]
  constructor
  · rintro ⟨pair, hpair, rfl⟩
    have hkey : pair.1 = key := by simpa using List.find?_some hpair
    rw [← hkey]
    exact List.mem_reverse.mp (List.mem_of_find?_eq_some hpair)
  · intro h
    have hsome : (pairs.reverse.find? (·.1 = key)).isSome = true := by
      rw [List.find?_isSome]
      exact ⟨(key, v), List.mem_reverse.mpr h, by simp⟩
    obtain ⟨pair, hpair⟩ := Option.isSome_iff_exists.mp hsome
    have hkey : pair.1 = key := by simpa using List.find?_some hpair
    have hpairs : pair ∈ pairs := List.mem_reverse.mp (List.mem_of_find?_eq_some hpair)
    exact ⟨pair, hpair, congrArg Prod.snd (List.inj_on_of_nodup_map hkeys hpairs h hkey)⟩

theorem Members.getElem?_ofList_eq_some_iff_last :
    (ofList pairs)[key]? = some v ↔
      ∃ before after, pairs = before ++ (key, v) :: after ∧ key ∉ after.map Prod.fst := by
  rw [getElem?_ofList, Option.map_eq_some_iff]
  constructor
  · rintro ⟨pair, hfound, rfl⟩
    obtain ⟨hkey, after, before, hsplit, hafter⟩ := List.find?_eq_some_iff_append.mp hfound
    obtain rfl : pair.1 = key := by simpa using hkey
    refine ⟨before.reverse, after.reverse, ?_, ?_⟩
    · rw [← List.reverse_reverse pairs, hsplit]
      simp
    · intro hagain
      obtain ⟨other, hother, hname⟩ := List.mem_map.mp hagain
      simpa [hname] using hafter other (List.mem_reverse.mp hother)
  · rintro ⟨before, after, rfl, hlast⟩
    refine ⟨(key, v), List.find?_eq_some_iff_append.mpr ⟨by simp, after.reverse, before.reverse,
      by simp, fun other hother => ?_⟩, rfl⟩
    have hne : other.1 ≠ key := by
      rintro rfl
      exact hlast (List.mem_map_of_mem (List.mem_reverse.mp hother))
    simpa using hne

theorem Members.ofList_cons_of_mem (h : key ∈ pairs.map Prod.fst) :
    ofList ((key, v) :: pairs) = ofList pairs := by
  apply Std.ExtTreeMap.ext_getElem?
  intro other
  rw [getElem?_ofList, getElem?_ofList, List.reverse_cons, List.find?_append]
  by_cases hother : key = other
  · have hfound : (pairs.reverse.find? (·.1 = other)).isSome = true := by
      obtain ⟨pair, hpair, rfl⟩ := List.mem_map.mp h
      rw [List.find?_isSome]
      exact ⟨pair, List.mem_reverse.mpr hpair, by simpa using hother⟩
    rw [Option.or_of_isSome hfound]
  · simp [hother]

end Maps

end FleetTelemetry.Json
