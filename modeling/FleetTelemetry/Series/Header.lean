import FleetTelemetry.Json.Printer
import FleetTelemetry.Json.Record

/-!
# Series headers

The first line of a series file says what is in it: the time between updates, how many rows are
kept, and the name and kind of each field. It is written as a JSON object with its members in a
fixed order and read from any object or list that has them all.
-/

namespace FleetTelemetry

open Json

inductive FieldKind where
  | counter
  | gauge
  deriving DecidableEq, Repr

def FieldKind.label : FieldKind → String
  | .counter => "COUNTER"
  | .gauge => "GAUGE"

def FieldKind.ofLabel? (s : String) : Option FieldKind :=
  [FieldKind.counter, FieldKind.gauge].find? (·.label = s)

structure SeriesField where
  name : String
  kind : FieldKind
  deriving DecidableEq, Repr

/-- What the first line of a series file says. -/
structure SeriesHeader where
  /-- Expected seconds between updates. -/
  step : UInt64
  /-- Seconds after which a missing update is a gap. -/
  heartbeat : UInt64
  rows : UInt64
  fields : List SeriesField
  deriving DecidableEq, Repr

def telemetryFields : List SeriesField :=
  [⟨"generated_tx", .counter⟩, ⟨"confirmed_tx", .counter⟩, ⟨"chain_depth", .gauge⟩,
   ⟨"propose_latency", .counter⟩, ⟨"sign_latency", .counter⟩, ⟨"submit_latency", .counter⟩,
   ⟨"gas", .counter⟩, ⟨"propose_num", .gauge⟩, ⟨"sign_num", .gauge⟩, ⟨"submit_num", .gauge⟩]

namespace SeriesHeader

def indexOf? (header : SeriesHeader) (name : String) : Option Nat :=
  header.fields.findIdx? (·.name = name)

def printField (field : SeriesField) : List Char :=
  printObject [("name", printString field.name), ("kind", printString field.kind.label)]

def print (header : SeriesHeader) : List Char :=
  printObject
    [("step", printNatural header.step.toNat),
     ("heartbeat", printNatural header.heartbeat.toNat),
     ("rows", printNatural header.rows.toNat),
     ("fields", printList (header.fields.map printField))]

def kindChoice : String :=
  codeText FieldKind.counter.label ++ " or " ++ codeText FieldKind.gauge.label

def kindName : Reader FieldKind := do
  let name ← string
  match FieldKind.ofLabel? name with
  | some kind => pure kind
  | none => Reader.fail (.unknownVariant name kindChoice)

def noContent : Reader Unit := do
  match ← Reader.token with
  | none => Reader.fail .endInValue
  | some 'n' => do
    Reader.drop
    word ['u', 'l', 'l']
  | some _ => unexpected "unit"

/-- Reads a kind after an opening brace: its name as a key with nothing for a value. -/
def kindObject : Reader FieldKind := do
  match ← Reader.token with
  | none => Reader.fail .endInValue
  | some '"' => do
    Reader.drop
    let kind ← kindName
    colon
    noContent
    match ← Reader.token with
    | none => Reader.fail .endInObject
    | some '\x7d' => do
      Reader.drop
      pure kind
    | some _ => Reader.fail .expectedValue
  | some _ => unexpected "variant identifier"

/-- Reads a kind: its name, or an object with its name as the only key. -/
def kindReader : Reader FieldKind := do
  match ← Reader.token with
  | none => Reader.fail .endInValue
  | some '"' => do
    Reader.drop
    kindName
  | some '\x7b' => do
    Reader.drop
    kindObject
  | some _ => Reader.fail .expectedValue

/-- Checks that all fields of a record were read: in a list the first ones are there, in an object
none is missing. -/
def requireAll {σ : Type} (record : String) (names : List String) (filling : Filling σ)
    (isList : Bool) : Except Fault σ :=
  match names.find? fun name => !filling.seen.contains name with
  | none => .ok filling.record
  | some name =>
    if isList then
      .error (.invalidLength filling.seen.length
        (record ++ " with " ++ Text.decimalString names.length ++ " elements"))
    else
      .error (.missingField name)

def fieldRecord : String := "struct FieldSpec"

def fieldReader : Reader SeriesField :=
  record fieldRecord
    [{ name := "name"
       fill := fun field => do
        let name ← stringValue "a string"
        pure { field with name } },
     { name := "kind"
       fill := fun field => do
        let kind ← kindReader
        pure { field with kind } }]
    ⟨"", .counter⟩ (requireAll fieldRecord ["name", "kind"])

def fieldsReader : Reader (List SeriesField) := do
  match ← Reader.token with
  | none => Reader.fail .endInValue
  | some '[' => do
    Reader.drop
    items fieldReader
  | some _ => unexpected "a sequence"

def headerRecord : String := "struct SeriesHeader"

def reader : Reader SeriesHeader :=
  record headerRecord
    [{ name := "step"
       fill := fun header => do
        let step ← natural "u64"
        pure { header with step } },
     { name := "heartbeat"
       fill := fun header => do
        let heartbeat ← natural "u64"
        pure { header with heartbeat } },
     { name := "rows"
       fill := fun header => do
        let rows ← natural "usize"
        pure { header with rows } },
     { name := "fields"
       fill := fun header => do
        let fields ← fieldsReader
        pure { header with fields } }]
    ⟨0, 0, 0, []⟩ (requireAll headerRecord ["step", "heartbeat", "rows", "fields"])

def parse (line : List Char) : Except Fault SeriesHeader :=
  Reader.run reader (String.ofList line).toUTF8.toList

end SeriesHeader

end FleetTelemetry
