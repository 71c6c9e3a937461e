import FleetTelemetry.Proofs.Json.Outcome
import FleetTelemetry.Proofs.Text.Lines

/-!
# What a reader reads

A reader reads a value off an input when it takes that value and leaves the rest. Readers that are
put together read what their parts read, one after another, and a loop reads what its rounds read.
-/

namespace FleetTelemetry.Json

/-- A reader takes a value off an input and leaves a rest. -/
def Reads {α : Type} (reader : Reader α) (s : Bytes) (a : α) (rest : Bytes) : Prop :=
  ∃ h, reader s = .ok ⟨a, rest, h⟩

theorem reads_iff_outcome {α : Type} {reader : Reader α} {s rest : Bytes} {a : α} :
    Reads reader s a rest ↔ reader.outcome s = .ok (a, rest) :=
  Reader.outcome_eq_ok_iff.symm

namespace Reads

open Reader

variable {α β σ : Type} {s rest rest' : Bytes}

theorem pure (a : α) (s : Bytes) : Reads (Pure.pure a : Reader α) s a s :=
  ⟨Nat.le_refl _, rfl⟩

theorem bind {x : Reader α} {f : α → Reader β} {a : α} {b : β} (hx : Reads x s a rest)
    (hf : Reads (f a) rest b rest') : Reads (x >>= f) s b rest' := by
  rw [reads_iff_outcome] at hx hf ⊢
  rw [outcome_bind_of_ok hx]
  exact hf

theorem ofExcept_ok (a : α) (s : Bytes) : Reads (ofExcept (.ok a)) s a s :=
  pure a s

theorem look (b : UInt8) (s : Bytes) : Reads Reader.look (b :: s) (some (toChar b)) (b :: s) :=
  ⟨Nat.le_refl _, rfl⟩

theorem drop (b : UInt8) (s : Bytes) : Reads Reader.drop (b :: s) () s :=
  ⟨by simp, rfl⟩

theorem next (b : UInt8) (s : Bytes) : Reads Reader.next (b :: s) (some b) s :=
  ⟨by simp, rfl⟩

theorem token {b : UInt8} (hb : isBlankByte b = false) (s : Bytes) :
    Reads Reader.token (b :: s) (some (toChar b)) (b :: s) := by
  have hdrop : (b :: s).dropWhile isBlankByte = b :: s := List.dropWhile_cons_of_neg (by simp [hb])
  refine ⟨Nat.le_refl _, ?_⟩
  simp [Reader.token, hdrop]

theorem takeWhile {p : UInt8 → Bool} {taken : Bytes} (htaken : ∀ b ∈ taken, p b = true)
    (hrest : ∀ b ∈ rest.head?, p b = false) :
    Reads (Reader.takeWhile p) (taken ++ rest) taken rest := by
  obtain ⟨htake, hdrop⟩ := Text.takeWhile_dropWhile_append htaken hrest
  refine ⟨by simp, ?_⟩
  simp [Reader.takeWhile, htake, hdrop]

theorem loop_answer {ended : σ → Fault} {body : σ → UInt8 → Reader (σ ⊕ α)} {state : σ} {b : UInt8}
    {a : α} (h : Reads (body state b) s (.inr a) rest) :
    Reads (loop ended body state) (b :: s) a rest := by
  rw [reads_iff_outcome] at h ⊢
  rw [outcome_loop_cons, h]
  rfl

theorem loop_round {ended : σ → Fault} {body : σ → UInt8 → Reader (σ ⊕ α)} {state state' : σ}
    {b : UInt8} {a : α} (h : Reads (body state b) s (.inl state') rest)
    (hloop : Reads (loop ended body state') rest a rest') :
    Reads (loop ended body state) (b :: s) a rest' := by
  rw [reads_iff_outcome] at h hloop ⊢
  rw [outcome_loop_cons, h]
  exact hloop

theorem run_eq_ok {reader : Reader α} {a : α} (h : Reads reader s a []) : run reader s = .ok a :=
  run_eq_ok_iff.mpr ⟨[], reads_iff_outcome.mp h, rfl⟩

end Reads

end FleetTelemetry.Json
