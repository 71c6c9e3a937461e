import FleetTelemetry.Json.Value
import FleetTelemetry.Proofs.Json.Outcome

/-!
# Readers of one kind at any value

The first character of a value says of which kind it is. So where the reader of any value reads
one, the readers of natural numbers and of truth values do what can be done with that value in
memory: they take it if it is of their kind, and otherwise they refuse it for what it is.
-/

namespace FleetTelemetry.Json

open Reader

/-- How a value that begins with some character is read, after the blanks before it. -/
inductive ReadsValue (depth : Nat) (t : Bytes) : Option Char → Value → Bytes → Prop where
  | null {rest : Bytes} (h : outcome (word ['u', 'l', 'l']) t.tail = .ok ((), rest)) :
      ReadsValue depth t (some 'n') .null rest
  | true {rest : Bytes} (h : outcome (word ['r', 'u', 'e']) t.tail = .ok ((), rest)) :
      ReadsValue depth t (some 't') (.boolean true) rest
  | false {rest : Bytes} (h : outcome (word ['a', 'l', 's', 'e']) t.tail = .ok ((), rest)) :
      ReadsValue depth t (some 'f') (.boolean false) rest
  | string {text : String} {rest : Bytes} (h : outcome string t.tail = .ok (text, rest)) :
      ReadsValue depth t (some '"') (.string text) rest
  | negative {n : Number} {rest : Bytes}
      (h : outcome (unsignedNumber Bool.true) t.tail = .ok (n, rest)) :
      ReadsValue depth t (some '-') (.number n) rest
  | natural {c : Char} {n : Number} {rest : Bytes} (hdigit : Text.isDigit c = Bool.true)
      (h : outcome (unsignedNumber Bool.false) t = .ok (n, rest)) :
      ReadsValue depth t (some c) (.number n) rest
  | list {values : List Value} {rest : Bytes} (inner : Nat) (hdepth : depth = inner + 1)
      (h : outcome (items (value inner)) t.tail = .ok (values, rest)) :
      ReadsValue depth t (some '[') (.list values) rest
  | object {pairs : List (String × Value)} {rest : Bytes} (inner : Nat) (hdepth : depth = inner + 1)
      (h : outcome (members (value inner)) t.tail = .ok (pairs, rest)) :
      ReadsValue depth t (some '\x7b') (.object pairs) rest

variable {depth : Nat} {s t rest : Bytes} {v : Value}

private theorem readsValue_of_value (h : outcome (value depth) s = .ok (v, rest)) :
    ReadsValue depth (s.dropWhile isBlankByte)
      ((s.dropWhile isBlankByte).head?.map toChar) v rest := by
  rw [value.eq_def, outcome_bind_of_ok (outcome_token s)] at h
  generalize s.dropWhile isBlankByte = t at h ⊢
  generalize t.head?.map toChar = c at h ⊢
  split at h
  case h_1 => cases h
  case h_2 =>
    obtain ⟨_, _, hword, h⟩ := outcome_drop_bind_eq_ok.mp h
    cases h
    exact .null hword
  case h_3 =>
    obtain ⟨_, _, hword, h⟩ := outcome_drop_bind_eq_ok.mp h
    cases h
    exact .true hword
  case h_4 =>
    obtain ⟨_, _, hword, h⟩ := outcome_drop_bind_eq_ok.mp h
    cases h
    exact .false hword
  case h_5 =>
    obtain ⟨_, _, hstring, h⟩ := outcome_drop_bind_eq_ok.mp h
    cases h
    exact .string hstring
  case h_6 =>
    obtain ⟨_, _, hnumber, h⟩ := outcome_drop_bind_eq_ok.mp h
    cases h
    exact .negative hnumber
  case h_7 =>
    split at h
    · cases h
    · obtain ⟨values, _, hitems, h⟩ := outcome_drop_bind_eq_ok.mp h
      cases h
      exact .list _ rfl hitems
  case h_8 =>
    split at h
    · cases h
    · obtain ⟨pairs, _, hmembers, h⟩ := outcome_drop_bind_eq_ok.mp h
      cases h
      exact .object _ rfl hmembers
  case h_9 =>
    split at h
    case isTrue hdigit =>
      obtain ⟨n, mid, hnumber, h⟩ := outcome_bind_eq_ok.mp h
      cases h
      exact .natural hdigit hnumber
    case isFalse => cases h

theorem value_eq_object_iff {pairs : List (String × Value)} :
    outcome (value (depth + 1)) s = .ok (.object pairs, rest) ↔
      (s.dropWhile isBlankByte).head?.map toChar = some '\x7b' ∧
        outcome (members (value depth)) (s.dropWhile isBlankByte).tail = .ok (pairs, rest) := by
  constructor
  · intro h
    have hread := readsValue_of_value h
    generalize s.dropWhile isBlankByte = t at hread ⊢
    generalize t.head?.map toChar = c at hread ⊢
    cases hread with
    | object inner hdepth h =>
      obtain rfl := Nat.succ.inj hdepth
      exact ⟨rfl, h⟩
  · rintro ⟨hbrace, hmembers⟩
    rw [value.eq_def, outcome_bind_of_ok (outcome_token s), hbrace]
    exact outcome_drop_bind_eq_ok.mpr ⟨pairs, rest, hmembers, rfl⟩

theorem ReadsValue.unexpected {α : Type} (h : ReadsValue depth t (t.head?.map toChar) v rest)
    (expected : String) :
    outcome (Json.unexpected expected : Reader α) t = .error (.invalidType v.kind expected) := by
  rw [Json.unexpected, outcome_bind_of_ok (outcome_look t)]
  generalize t.head?.map toChar = c at h ⊢
  cases h with
  | null h | true h | false h | string h | negative h =>
    exact (outcome_bind_of_ok (outcome_drop t) _).trans (outcome_bind_of_ok h _)
  | list | object => rfl
  | natural hdigit h =>
    split
    case h_8 c _ _ _ _ _ _ _ hc =>
      cases hc
      rw [if_pos hdigit]
      exact outcome_bind_of_ok h _
    case h_9 hc => cases hc
    -- a digit is none of the characters that begin another kind of value
    all_goals
      rename_i hc
      cases hc
      cases hdigit

theorem outcome_unexpected_ne {α : Type} (expected : String) (t : Bytes) (taken : α × Bytes) :
    outcome (unexpected expected) t ≠ .ok taken := by
  intro h
  rw [unexpected] at h
  obtain ⟨_, _, -, h⟩ := outcome_bind_eq_ok.mp h
  split at h
  case h_1 | h_2 | h_3 | h_4 | h_5 =>
    obtain ⟨_, _, -, h⟩ := outcome_drop_bind_eq_ok.mp h
    cases h
  case h_6 | h_7 | h_9 => cases h
  case h_8 =>
    split at h
    · obtain ⟨_, _, -, h⟩ := outcome_bind_eq_ok.mp h
      cases h
    · cases h

theorem natural_of_value (h : outcome (value depth) s = .ok (v, rest)) (expected : String) :
    outcome (natural expected) s = (v.natural? expected).map fun n => (n, rest) := by
  have hread := readsValue_of_value h
  have hunexpected := hread.unexpected (α := UInt64) expected
  rw [natural, outcome_bind_of_ok (outcome_token s)]
  generalize s.dropWhile isBlankByte = t at hread hunexpected ⊢
  generalize t.head?.map toChar = c at hread ⊢
  cases hread with
  | null | true | false | string | list | object => exact hunexpected
  | negative hnumber =>
    refine (outcome_bind_of_ok (outcome_drop t) _).trans ?_
    rw [outcome_bind_of_ok hnumber]
    exact outcome_ofExcept _ rest
  | natural hdigit hnumber =>
    split
    case h_1 hc => cases hc
    case h_2 hc =>
      cases hc
      cases hdigit
    case h_3 hc =>
      cases hc
      rw [if_pos hdigit, outcome_bind_of_ok hnumber]
      exact outcome_ofExcept _ rest

theorem boolean_of_value (h : outcome (value depth) s = .ok (v, rest)) (expected : String) :
    outcome (boolean expected) s = (v.boolean? expected).map fun b => (b, rest) := by
  have hread := readsValue_of_value h
  have hunexpected := hread.unexpected (α := Bool) expected
  rw [boolean, outcome_bind_of_ok (outcome_token s)]
  generalize s.dropWhile isBlankByte = t at hread hunexpected ⊢
  generalize t.head?.map toChar = c at hread ⊢
  cases hread with
  | null | string | negative | list | object => exact hunexpected
  | true hword | false hword =>
    exact (outcome_bind_of_ok (outcome_drop t) _).trans (outcome_bind_of_ok hword _)
  | natural hdigit hnumber =>
    split
    case h_1 hc => cases hc
    case h_2 hc | h_3 hc =>
      cases hc
      cases hdigit
    case h_4 => exact hunexpected

theorem natural?_eq_ok {expected : String} {n : UInt64} (h : v.natural? expected = .ok n) :
    v = .number (.natural n) := by
  cases v with
  | number number =>
    cases number with
    | natural =>
      cases h
      rfl
    | negative | real => cases h
  | null | boolean | string | list | object => cases h

theorem boolean?_eq_ok {expected : String} {b : Bool} (h : v.boolean? expected = .ok b) :
    v = .boolean b := by
  cases v with
  | boolean =>
    cases h
    rfl
  | null | number | string | list | object => cases h

end FleetTelemetry.Json
