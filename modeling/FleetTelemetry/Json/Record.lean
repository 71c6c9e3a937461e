import FleetTelemetry.Json.Skip
import FleetTelemetry.Json.Value

/-!
# Records

A record is read from an object by the names of its fields or from a list by their order. Other
members of the object are skipped; a field may not occur twice.
-/

namespace FleetTelemetry.Json

open Reader

/-- A field of a record under construction: its name and the reader that fills it in. -/
structure RecordField (σ : Type) where
  name : String
  fill : σ → Reader σ

/-- A record under construction and the names of the fields that have been read. -/
structure Filling (σ : Type) where
  record : σ
  seen : List String

def recordMember {σ : Type} (fields : List (RecordField σ)) (filling : Filling σ) :
    Reader (Filling σ) := do
  let key ← string
  match fields.find? (·.name = key) with
  | some field => do
    if filling.seen.contains key then fail (.duplicateField key)
    colon
    let record ← field.fill filling.record
    pure ⟨record, key :: filling.seen⟩
  | none => do
    colon
    skipValue
    pure filling

/-- Reads the members of a record after the opening brace. The flag tells that none was read. -/
def recordMembers {σ : Type} (fields : List (RecordField σ)) (init : σ) : Reader (Filling σ) :=
  loop (fun _ => .endInObject) (fun (state : Bool × Filling σ) b =>
    if isBlankByte b then pure (.inl state)
    else do
      if ← memberStart state.1 b then
        let filling ← recordMember fields state.2
        pure (.inl (false, filling))
      else
        pure (.inr state.2)) (true, ⟨init, []⟩)

/-- Reads the fields of a record in order from the items of a list, as many as there are. -/
def recordItems {σ : Type} : List (RecordField σ) → Bool → Filling σ → Reader (Filling σ)
  | [], _, filling => do
    closeList
    pure filling
  | field :: fields, first, filling => do
    if ← itemFollows first then
      let record ← field.fill filling.record
      recordItems fields false ⟨record, field.name :: filling.seen⟩
    else
      closeList
      pure filling

/-- Reads a record from an object or a list. What was read is then checked for completeness; the
flag tells a list. -/
def record {σ : Type} (expected : String) (fields : List (RecordField σ)) (init : σ)
    (complete : Filling σ → Bool → Except Fault σ) : Reader σ := do
  match ← token with
  | none => fail .endInValue
  | some '[' => do
    drop
    let filling ← recordItems fields true ⟨init, []⟩
    ofExcept (complete filling true)
  | some '\x7b' => do
    drop
    let filling ← recordMembers fields init
    ofExcept (complete filling false)
  | some _ => unexpected expected

end FleetTelemetry.Json
