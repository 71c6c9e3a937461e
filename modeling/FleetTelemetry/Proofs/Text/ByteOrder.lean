import FleetTelemetry.Proofs.Text.Encoding
import Std.Data.ExtTreeMap

/-!
# Byte order

Texts are ordered character by character. Their bytes come in the same order, since a character
with a greater number has greater bytes, so the keys of a map of texts are in the order of their
bytes.
-/

namespace FleetTelemetry.Text

/-- The bytes of one text come before those of another. -/
def ByteLess (s t : String) : Prop := s.toUTF8.toList < t.toUTF8.toList

private theorem ofNat_lt {m n : Nat} (hn : n < 256) (h : m < n) :
    UInt8.ofNat m < UInt8.ofNat n := by
  rw [UInt8.lt_iff_toNat_lt, UInt8.toNat_ofNat', UInt8.toNat_ofNat', Nat.mod_eq_of_lt hn,
    Nat.mod_eq_of_lt (Nat.lt_trans h hn)]
  exact h

private theorem cons_lt_cons {m n : Nat} {s t : List UInt8} (hn : n < 256)
    (h : m < n ∨ m = n ∧ s < t) : UInt8.ofNat m :: s < UInt8.ofNat n :: t := by
  rw [List.cons_lt_cons_iff]
  rcases h with h | ⟨rfl, h⟩
  · exact .inl (ofNat_lt hn h)
  · exact .inr ⟨rfl, h⟩

section Numbers

variable {m n : Nat} {s t : List UInt8}

private theorem last_lt (hsame : m / 64 = n / 64) (h : m < n) :
    UInt8.ofNat (m % 64 + 128) :: s < UInt8.ofNat (n % 64 + 128) :: t :=
  cons_lt_cons (by omega) (.inl (by omega))

private theorem lastTwo_lt (hsame : m / 4096 = n / 4096) (h : m < n) :
    UInt8.ofNat (m / 64 % 64 + 128) :: UInt8.ofNat (m % 64 + 128) :: s <
      UInt8.ofNat (n / 64 % 64 + 128) :: UInt8.ofNat (n % 64 + 128) :: t := by
  apply cons_lt_cons (by omega)
  rcases Nat.lt_or_ge (m / 64) (n / 64) with hlt | hge
  · exact .inl (by omega)
  · exact .inr ⟨by omega, last_lt (by omega) h⟩

private theorem lastThree_lt (hsame : m / 262144 = n / 262144) (h : m < n) :
    UInt8.ofNat (m / 4096 % 64 + 128) :: UInt8.ofNat (m / 64 % 64 + 128) ::
        UInt8.ofNat (m % 64 + 128) :: s <
      UInt8.ofNat (n / 4096 % 64 + 128) :: UInt8.ofNat (n / 64 % 64 + 128) ::
        UInt8.ofNat (n % 64 + 128) :: t := by
  apply cons_lt_cons (by omega)
  rcases Nat.lt_or_ge (m / 4096) (n / 4096) with hlt | hge
  · exact .inl (by omega)
  · exact .inr ⟨by omega, lastTwo_lt (by omega) h⟩

end Numbers

private theorem utf8EncodeChar_append_lt {c d : Char} (h : c < d) (s t : List UInt8) :
    String.utf8EncodeChar c ++ s < String.utf8EncodeChar d ++ t := by
  have hlt : c.val.toNat < d.val.toNat := h
  have hmax : d.val.toNat < 0x110000 := by
    rcases d.valid with hd | ⟨-, hd⟩ <;> omega
  unfold String.utf8EncodeChar
  generalize c.val.toNat = m at hlt
  generalize d.val.toNat = n at hlt hmax
  -- codes of different lengths differ in their first byte, others where their numbers do
  by_cases hn : n ≤ 0x7f
  · rw [if_pos hn, if_pos (by omega)]
    exact cons_lt_cons (by omega) (.inl hlt)
  rw [if_neg hn]
  by_cases hm : m ≤ 0x7f
  · rw [if_pos hm]
    split
    · exact cons_lt_cons (by omega) (.inl (by omega))
    · split <;> exact cons_lt_cons (by omega) (.inl (by omega))
  rw [if_neg hm]
  by_cases hn : n ≤ 0x7ff
  · rw [if_pos hn, if_pos (by omega)]
    apply cons_lt_cons (by omega)
    rcases Nat.lt_or_ge (m / 64) (n / 64) with hlt | hge
    · exact .inl (by omega)
    · exact .inr ⟨by omega, last_lt (by omega) hlt⟩
  rw [if_neg hn]
  by_cases hm : m ≤ 0x7ff
  · rw [if_pos hm]
    split <;> exact cons_lt_cons (by omega) (.inl (by omega))
  rw [if_neg hm]
  by_cases hn : n ≤ 0xffff
  · rw [if_pos hn, if_pos (by omega)]
    apply cons_lt_cons (by omega)
    rcases Nat.lt_or_ge (m / 4096) (n / 4096) with hlt | hge
    · exact .inl (by omega)
    · exact .inr ⟨by omega, lastTwo_lt (by omega) hlt⟩
  rw [if_neg hn]
  by_cases hm : m ≤ 0xffff
  · rw [if_pos hm]
    exact cons_lt_cons (by omega) (.inl (by omega))
  rw [if_neg hm]
  apply cons_lt_cons (by omega)
  rcases Nat.lt_or_ge (m / 262144) (n / 262144) with hlt | hge
  · exact .inl (by omega)
  · exact .inr ⟨by omega, lastThree_lt (by omega) hlt⟩

private theorem encode_lt {s t : List Char} (h : s < t) : encode s < encode t := by
  induction s generalizing t with
  | nil =>
    cases t with
    | nil => exact absurd h (List.lt_irrefl [])
    | cons d t =>
      obtain ⟨b, bytes, hbytes⟩ := List.exists_cons_of_ne_nil (@String.utf8EncodeChar_ne_nil d)
      rw [encode_nil, encode_cons, hbytes]
      exact List.nil_lt_cons _ _
  | cons c s ih =>
    cases t with
    | nil => exact absurd h (List.not_lt_nil _)
    | cons d t =>
      rw [encode_cons, encode_cons]
      rcases List.cons_lt_cons_iff.mp h with hlt | ⟨rfl, hlt⟩
      · exact utf8EncodeChar_append_lt hlt _ _
      · exact List.append_left_lt (ih hlt)

theorem byteLess_of_lt {s t : String} (h : s < t) : ByteLess s t := by
  have hbytes : encode s.toList < encode t.toList := encode_lt h
  rwa [← toList_toUTF8_ofList, ← toList_toUTF8_ofList, String.ofList_toList,
    String.ofList_toList] at hbytes

theorem pairwise_byteLess_keys {α : Type} (map : Std.ExtTreeMap String α) :
    map.keys.Pairwise ByteLess := by
  have hkeys : map.keys.Pairwise fun s t => compare s t = .lt := Std.ExtTreeMap.ordered_keys
  exact hkeys.imp fun hlt => byteLess_of_lt (compareOfLessAndEq_eq_lt.mp hlt)

theorem keys_eq_of_mem_iff {α β : Type} {map : Std.ExtTreeMap String α}
    {map' : Std.ExtTreeMap String β} (h : ∀ key, key ∈ map ↔ key ∈ map') :
    map.keys = map'.keys := by
  have hperm : map.keys.Perm map'.keys := by
    rw [List.perm_ext_iff_of_nodup Std.ExtTreeMap.nodup_keys Std.ExtTreeMap.nodup_keys]
    intro key
    rw [Std.ExtTreeMap.mem_keys, Std.ExtTreeMap.mem_keys, h]
  refine hperm.eq_of_pairwise (fun s t _ _ hst hts => ?_) (pairwise_byteLess_keys map)
    (pairwise_byteLess_keys map')
  exact absurd hts (List.lt_asymm hst)

end FleetTelemetry.Text
