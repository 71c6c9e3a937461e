import FleetTelemetry.Json.Fault

/-!
# Readers of bytes

A reader takes a value off the front of a list of bytes or fails. What it leaves is never longer
than what it was given, which is part of its type; a loop takes one byte in every round, so it
ends.
-/

namespace FleetTelemetry.Json

abbrev Bytes := List UInt8

/-- What a reader returns on the input `s`: a value and the bytes that it left. -/
structure Taken (α : Type) (s : Bytes) where
  value : α
  rest : Bytes
  length_le : rest.length ≤ s.length

def Reader (α : Type) : Type :=
  (s : Bytes) → Except Fault (Taken α s)

namespace Reader

protected def pure {α : Type} (a : α) : Reader α := fun s =>
  .ok ⟨a, s, Nat.le_refl _⟩

/-- Reads with one reader and then with a second one that the first value chooses. -/
protected def bind {α β : Type} (x : Reader α) (f : α → Reader β) : Reader β := fun s =>
  match x s with
  | .error fault => .error fault
  | .ok first =>
    match f first.value first.rest with
    | .error fault => .error fault
    | .ok second =>
      .ok ⟨second.value, second.rest, Nat.le_trans second.length_le first.length_le⟩

instance : Monad Reader where
  pure := Reader.pure
  bind := Reader.bind

def fail {α : Type} (fault : Fault) : Reader α := fun _ => .error fault

def ofExcept {α : Type} : Except Fault α → Reader α
  | .ok a => pure a
  | .error fault => fail fault

def toChar (b : UInt8) : Char := Char.ofNat b.toNat

def look : Reader (Option Char) := fun s =>
  .ok ⟨s.head?.map toChar, s, Nat.le_refl _⟩

def drop : Reader Unit := fun s =>
  .ok ⟨(), s.tail, by simp⟩

def next : Reader (Option UInt8) := fun s =>
  .ok ⟨s.head?, s.tail, by simp⟩

def takeWhile (p : UInt8 → Bool) : Reader Bytes := fun s =>
  .ok ⟨s.takeWhile p, s.dropWhile p, (List.dropWhile_suffix p).length_le⟩

def isBlankByte (b : UInt8) : Bool :=
  b = 0x20 || b = 0x09 || b = 0x0A || b = 0x0D

def token : Reader (Option Char) := fun s =>
  let rest := s.dropWhile isBlankByte
  .ok ⟨rest.head?.map toChar, rest, (List.dropWhile_suffix _).length_le⟩

private theorem length_le_start {b : UInt8} {rest s start : Bytes} (hrest : rest.length ≤ s.length)
    (h : (b :: s).length ≤ start.length) : rest.length ≤ start.length :=
  Nat.le_trans hrest (Nat.le_of_succ_le h)

def rounds {σ α : Type} (ended : σ → Fault) (body : σ → UInt8 → Reader (σ ⊕ α)) {start : Bytes} :
    (state : σ) → (s : Bytes) → s.length ≤ start.length → Except Fault (Taken α start)
  | state, [], _ => .error (ended state)
  | state, b :: s, h =>
    match body state b s with
    | .error fault => .error fault
    | .ok ⟨.inr a, rest, hrest⟩ => .ok ⟨a, rest, length_le_start hrest h⟩
    | .ok ⟨.inl state', rest, hrest⟩ => rounds ended body state' rest (length_le_start hrest h)
termination_by _ s => s.length
decreasing_by exact Nat.lt_succ_of_le hrest

/-- Repeats a body on a state until it gives an answer. Every round takes one byte and hands it to
the body; an input that ends before the answer is a fault. -/
def loop {σ α : Type} (ended : σ → Fault) (body : σ → UInt8 → Reader (σ ⊕ α)) (state : σ) :
    Reader α := fun s =>
  rounds ended body state s (Nat.le_refl _)

/-- Reads a whole input: after the value only blanks may follow. -/
def run {α : Type} (reader : Reader α) (s : Bytes) : Except Fault α :=
  match reader s with
  | .error fault => .error fault
  | .ok taken =>
    if taken.rest.all isBlankByte then .ok taken.value else .error .trailingCharacters

@[simp] theorem bind_apply {α β : Type} (x : Reader α) (f : α → Reader β) (s : Bytes) :
    (x >>= f) s =
      match x s with
      | .error fault => .error fault
      | .ok first =>
        match f first.value first.rest with
        | .error fault => .error fault
        | .ok second =>
          .ok ⟨second.value, second.rest, Nat.le_trans second.length_le first.length_le⟩ :=
  rfl

@[simp] theorem pure_apply {α : Type} (a : α) (s : Bytes) :
    (pure a : Reader α) s = .ok ⟨a, s, Nat.le_refl _⟩ :=
  rfl

end Reader

end FleetTelemetry.Json
