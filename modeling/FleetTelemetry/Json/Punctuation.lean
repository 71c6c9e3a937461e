import FleetTelemetry.Json.Scalar

/-!
# Lists and objects

The marks between the items of a list and the members of an object. A comma must be followed by
another item, and the key of a member must be a string.
-/

namespace FleetTelemetry.Json

open Reader

def itemAfterComma : Reader Unit := do
  match ← token with
  | none => fail .endInValue
  | some ']' => fail .trailingComma
  | some _ => pure ()

/-- Tells whether another item follows in a list, and takes the comma before it. The closing
bracket stays. -/
def itemFollows (first : Bool) : Reader Bool := do
  match ← token with
  | none => fail .endInList
  | some ']' => pure false
  | some c =>
    if first then pure true
    else if c = ',' then do
      drop
      itemAfterComma
      pure true
    else fail .expectedCommaOrBracket

def closeList : Reader Unit := do
  match ← token with
  | none => fail .endInList
  | some ']' => drop
  | some ',' => do
    drop
    match ← token with
    | some ']' => fail .trailingComma
    | _ => fail .trailingCharacters
  | some _ => fail .trailingCharacters

def colon : Reader Unit := do
  match ← token with
  | none => fail .endInObject
  | some ':' => drop
  | some _ => fail .expectedColon

/-- Goes on in an object after the byte `b`: tells a further member, whose opening quote it takes,
from the closing brace. -/
def memberStart (first : Bool) (b : UInt8) : Reader Bool :=
  let c := toChar b
  if c = '\x7d' then pure false
  else if first then
    if c = '"' then pure true else fail .keyNotString
  else if c = ',' then do
    match ← token with
    | none => fail .endInValue
    | some '"' => do
      drop
      pure true
    | some '\x7d' => fail .trailingComma
    | some _ => fail .keyNotString
  else fail .expectedCommaOrBrace

def items {α : Type} (item : Reader α) : Reader (List α) := do
  if ← itemFollows true then
    let a ← item
    loop (fun _ => .endInList) (fun (reversed : List α) b =>
      let c := toChar b
      if isBlankByte b then pure (.inl reversed)
      else if c = ']' then pure (.inr reversed.reverse)
      else if c = ',' then do
        itemAfterComma
        let a ← item
        pure (.inl (a :: reversed))
      else fail .expectedCommaOrBracket) [a]
  else
    drop
    pure []

def members {α : Type} (value : Reader α) : Reader (List (String × α)) :=
  loop (fun _ => .endInObject) (fun (reversed : List (String × α)) b =>
    if isBlankByte b then pure (.inl reversed)
    else do
      if ← memberStart reversed.isEmpty b then
        let key ← string
        colon
        let a ← value
        pure (.inl ((key, a) :: reversed))
      else
        pure (.inr reversed.reverse)) []

end FleetTelemetry.Json
