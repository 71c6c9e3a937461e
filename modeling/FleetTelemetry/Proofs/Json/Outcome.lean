import FleetTelemetry.Json.Reader
import FleetTelemetry.Proofs.Outcomes

/-!
# Outcomes of readers

The outcome of a reader on an input is the value that it takes and the rest that it leaves, or its
fault. Outcomes of readers that are put together are made of the outcomes of their parts; a loop
takes its rounds one at a time.
-/

namespace FleetTelemetry.Json.Reader

variable {α β σ : Type} {s rest : Bytes}

/-- What a reader takes off an input and what it leaves of it, or its fault. -/
def outcome (reader : Reader α) (s : Bytes) : Except Fault (α × Bytes) :=
  (reader s).map fun taken => (taken.value, taken.rest)

theorem outcome_eq_ok_iff {reader : Reader α} {a : α} :
    outcome reader s = .ok (a, rest) ↔ ∃ h, reader s = .ok ⟨a, rest, h⟩ := by
  unfold outcome
  cases reader s with
  | error fault => simp [Except.map]
  | ok taken =>
    obtain ⟨value, left, hle⟩ := taken
    simp only [Except.map, Except.ok.injEq, Prod.mk.injEq, Taken.mk.injEq]
    exact ⟨fun ⟨hvalue, hrest⟩ => ⟨hrest ▸ hle, hvalue, hrest⟩, fun ⟨_, h⟩ => h⟩

theorem outcome_length_le {reader : Reader α} {a : α} (h : outcome reader s = .ok (a, rest)) :
    rest.length ≤ s.length :=
  (outcome_eq_ok_iff.mp h).1

theorem outcome_pure (a : α) (s : Bytes) : outcome (pure a) s = .ok (a, s) := rfl

theorem outcome_ofExcept (x : Except Fault α) (s : Bytes) :
    outcome (ofExcept x) s = x.map fun a => (a, s) := by
  cases x <;> rfl

theorem outcome_look (s : Bytes) : outcome look s = .ok (s.head?.map toChar, s) := rfl

theorem outcome_drop (s : Bytes) : outcome drop s = .ok ((), s.tail) := rfl

theorem outcome_token (s : Bytes) :
    outcome token s = .ok ((s.dropWhile isBlankByte).head?.map toChar, s.dropWhile isBlankByte) :=
  rfl

theorem outcome_bind (x : Reader α) (f : α → Reader β) (s : Bytes) :
    outcome (x >>= f) s = outcome x s >>= fun first => outcome (f first.1) first.2 := by
  unfold outcome
  rw [bind_apply]
  cases x s with
  | error fault => rfl
  | ok first =>
    simp only [Except.map, bind, Except.bind]
    cases f first.value first.rest <;> rfl

theorem outcome_bind_of_ok {x : Reader α} {a : α} (h : outcome x s = .ok (a, rest))
    (f : α → Reader β) : outcome (x >>= f) s = outcome (f a) rest := by
  rw [outcome_bind, h]
  rfl

theorem outcome_bind_eq_ok {x : Reader α} {f : α → Reader β} {b : β} :
    outcome (x >>= f) s = .ok (b, rest) ↔
      ∃ a mid, outcome x s = .ok (a, mid) ∧ outcome (f a) mid = .ok (b, rest) := by
  rw [outcome_bind, bind_eq_ok]
  exact ⟨fun ⟨first, hx, hf⟩ => ⟨first.1, first.2, hx, hf⟩,
    fun ⟨a, mid, hx, hf⟩ => ⟨(a, mid), hx, hf⟩⟩

theorem outcome_drop_bind_eq_ok {x : Reader α} {f : α → Reader β} {b : β} :
    outcome (drop >>= fun _ => x >>= f) s = .ok (b, rest) ↔
      ∃ a mid, outcome x s.tail = .ok (a, mid) ∧ outcome (f a) mid = .ok (b, rest) := by
  rw [outcome_bind_of_ok (outcome_drop s), outcome_bind_eq_ok]

/-! ## Loops -/

variable {ended : σ → Fault} {body : σ → UInt8 → Reader (σ ⊕ α)}

private theorem outcome_rounds (n : Nat) (state : σ) (s : Bytes) (hn : s.length ≤ n)
    {start start' : Bytes} (hs : s.length ≤ start.length) (hs' : s.length ≤ start'.length) :
    (rounds ended body state s hs).map (fun taken => (taken.value, taken.rest)) =
      (rounds ended body state s hs').map fun taken => (taken.value, taken.rest) := by
  induction n generalizing state s with
  | zero =>
    obtain rfl := List.eq_nil_of_length_eq_zero (Nat.le_zero.mp hn)
    rw [rounds, rounds]
    rfl
  | succ n ih =>
    cases s with
    | nil =>
      rw [rounds, rounds]
      rfl
    | cons b s =>
      rw [rounds, rounds]
      cases body state b s with
      | error fault => rfl
      | ok taken =>
        obtain ⟨value, left, hleft⟩ := taken
        cases value with
        | inr a => rfl
        | inl state' => exact ih state' left (Nat.le_trans hleft (Nat.le_of_succ_le_succ hn)) _ _

variable (ended body)

theorem outcome_loop_nil (state : σ) :
    outcome (loop ended body state) [] = .error (ended state) := by
  rw [outcome, loop, rounds]
  rfl

theorem outcome_loop_cons (state : σ) (b : UInt8) (s : Bytes) :
    outcome (loop ended body state) (b :: s) =
      outcome (body state b) s >>= fun round =>
        match round.1 with
        | .inl state' => outcome (loop ended body state') round.2
        | .inr a => .ok (a, round.2) := by
  unfold outcome loop
  rw [rounds]
  cases body state b s with
  | error fault => rfl
  | ok taken =>
    obtain ⟨value, left, hleft⟩ := taken
    cases value with
    | inr a => rfl
    | inl state' => exact outcome_rounds left.length state' left (Nat.le_refl _) _ _

variable {ended body}

/-- The rounds of a loop from a state on an input up to the answer. -/
inductive Rounds (body : σ → UInt8 → Reader (σ ⊕ α)) : σ → Bytes → α → Bytes → Prop where
  | answer {state : σ} {b : UInt8} {s rest : Bytes} {a : α}
      (h : outcome (body state b) s = .ok (.inr a, rest)) : Rounds body state (b :: s) a rest
  | round {state state' : σ} {b : UInt8} {s mid rest : Bytes} {a : α}
      (h : outcome (body state b) s = .ok (.inl state', mid))
      (hmore : Rounds body state' mid a rest) : Rounds body state (b :: s) a rest

private theorem rounds_of_outcome_loop (n : Nat) {state : σ} {a : α} (hn : s.length ≤ n)
    (h : outcome (loop ended body state) s = .ok (a, rest)) : Rounds body state s a rest := by
  -- a round takes one byte at least, so the length of what is left goes down
  induction n generalizing state s with
  | zero =>
    obtain rfl := List.eq_nil_of_length_eq_zero (Nat.le_zero.mp hn)
    rw [outcome_loop_nil] at h
    cases h
  | succ n ih =>
    cases s with
    | nil =>
      rw [outcome_loop_nil] at h
      cases h
    | cons b s =>
      rw [outcome_loop_cons] at h
      obtain ⟨⟨round, mid⟩, hround, h⟩ := bind_eq_ok.mp h
      cases round with
      | inr a =>
        cases h
        exact .answer hround
      | inl state' =>
        have hmid := outcome_length_le hround
        exact .round hround (ih (Nat.le_trans hmid (Nat.le_of_succ_le_succ hn)) h)

theorem outcome_loop_eq_ok_iff {state : σ} {a : α} :
    outcome (loop ended body state) s = .ok (a, rest) ↔ Rounds body state s a rest := by
  refine ⟨rounds_of_outcome_loop s.length (Nat.le_refl _), fun h => ?_⟩
  induction h with
  | answer h =>
    rw [outcome_loop_cons, h]
    rfl
  | round h _ ih =>
    rw [outcome_loop_cons, h]
    exact ih

theorem outcome_loop_dropWhile
    (hblank : ∀ state b, isBlankByte b = true → body state b = pure (.inl state)) (state : σ)
    (s : Bytes) :
    outcome (loop ended body state) s =
      outcome (loop ended body state) (s.dropWhile isBlankByte) := by
  induction s with
  | nil => rfl
  | cons b s ih =>
    by_cases hb : isBlankByte b = true
    · rw [List.dropWhile_cons_of_pos hb, outcome_loop_cons, hblank state b hb]
      exact ih
    · rw [List.dropWhile_cons_of_neg hb]

theorem isBlankByte_of_dropWhile {b : UInt8} {t : Bytes}
    (hdrop : s.dropWhile isBlankByte = b :: t) : isBlankByte b = false := by
  have hfirst := List.head?_dropWhile_not isBlankByte s
  rwa [hdrop] at hfirst

/-! ## Whole inputs -/

theorem run_eq_ok_iff {reader : Reader α} {a : α} :
    run reader s = .ok a ↔
      ∃ rest, outcome reader s = .ok (a, rest) ∧ rest.all isBlankByte = true := by
  unfold run outcome
  cases reader s with
  | error fault => exact ⟨nofun, nofun⟩
  | ok taken =>
    simp only [Except.map, Except.ok.injEq, Prod.mk.injEq]
    constructor
    · intro h
      split at h
      case isTrue hblank =>
        cases h
        exact ⟨taken.rest, ⟨rfl, rfl⟩, hblank⟩
      case isFalse => cases h
    · rintro ⟨left, ⟨rfl, rfl⟩, hblank⟩
      rw [if_pos hblank]

theorem run_eq_error {reader : Reader α} {fault : Fault} (h : outcome reader s = .error fault) :
    run reader s = .error fault := by
  unfold outcome at h
  rw [run]
  cases hread : reader s with
  | error other =>
    rw [hread] at h
    cases h
    rfl
  | ok taken =>
    rw [hread] at h
    cases h

end FleetTelemetry.Json.Reader
