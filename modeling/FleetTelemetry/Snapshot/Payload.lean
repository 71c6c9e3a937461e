import FleetTelemetry.Json.Printer
import FleetTelemetry.Json.Record
import FleetTelemetry.Snapshot.Basic

/-!
# Snapshot payloads

A node sends a snapshot as a JSON object. Lenient decoding takes the fields that it knows as they
come and skips the rest. Strict decoding first reads the whole object as a map, demands exactly
the known keys and then the right kinds of values, each in a fixed order, so its verdict depends
on the map alone.
-/

namespace FleetTelemetry

open Json

/-- How strictly payloads are decoded. -/
inductive SchemaMode where
  /-- Unknown keys are ignored and missing keys read as zero. -/
  | lenient
  /-- Every key must be there and no other key may be. -/
  | strict
  deriving DecidableEq, Repr, Inhabited

/-- Why a payload is no snapshot. -/
inductive PayloadError where
  | json (fault : Fault)
  | unknownField (name : String)
  | missingField (name : String)

def PayloadError.message : PayloadError → String
  | .json fault => fault.message
  | .unknownField name => "unknown field '" ++ name ++ "'"
  | .missingField name => "missing field '" ++ name ++ "'"

namespace Snapshot

def numberKind : String := "u64"

def tokenKind : String := "a boolean"

def recordKind : String := "struct Snapshot"

def mapKind : String := "a map"

def Field.reader (field : Field) : RecordField Snapshot :=
  { name := field.name
    fill := fun s =>
      match field with
      | .token => do
        let b ← Json.boolean tokenKind
        pure { s with token := b }
      | _ => do
        let n ← Json.natural numberKind
        pure (s.setNumber n field) }

/-- Reads a snapshot from an object or, by position, from a list. -/
def reader : Reader Snapshot :=
  record recordKind (Field.all.map Field.reader) {} fun filling _ => .ok filling.record

def decodeLenient (body : Bytes) : Except Fault Snapshot :=
  Reader.run reader body

def mapReader : Reader Members := do
  match ← Reader.token with
  | none => Reader.fail .endInValue
  | some '\x7b' => do
    Reader.drop
    let members ← members (value (maxNesting - 1))
    pure (Members.ofList members)
  | some _ => unexpected mapKind

def setValue (s : Snapshot) (field : Field) (v : Value) : Except Fault Snapshot :=
  match field with
  | .token => (v.boolean? tokenKind).map fun b => { s with token := b }
  | _ => (v.natural? numberKind).map fun n => s.setNumber n field

def ofEntries : Snapshot → List (String × Value) → Except Fault Snapshot
  | s, [] => .ok s
  | s, (key, v) :: entries =>
    match Field.ofName? key with
    | none => ofEntries s entries
    | some field =>
      match s.setValue field v with
      | .error fault => .error fault
      | .ok s' => ofEntries s' entries

/-- Decides about a map: unknown keys first, then missing ones, then the values. -/
def ofMembers (map : Members) : Except PayloadError Snapshot :=
  match map.keys.find? fun key => (Field.ofName? key).isNone with
  | some key => .error (.unknownField key)
  | none =>
    match Field.all.find? fun field => !map.contains field.name with
    | some field => .error (.missingField field.name)
    | none =>
      match ofEntries {} map.toList with
      | .ok s => .ok s
      | .error fault => .error (.json fault)

def decodeStrict (body : Bytes) : Except PayloadError Snapshot :=
  match Reader.run mapReader body with
  | .ok map => ofMembers map
  | .error fault => .error (.json fault)

def decode (mode : SchemaMode) (body : Bytes) : Except PayloadError Snapshot :=
  match mode with
  | .strict => decodeStrict body
  | .lenient =>
    match decodeLenient body with
    | .ok s => .ok s
    | .error fault => .error (.json fault)

def printField (s : Snapshot) (field : Field) : List Char :=
  match field with
  | .token => printBoolean s.token
  | _ => printNatural (s.get field).toNat

/-- The payload of a snapshot: every field in order, without blanks. -/
def payload (s : Snapshot) : String :=
  String.ofList (printObject (Field.all.map fun field => (field.name, s.printField field)))

end Snapshot

end FleetTelemetry
