import FleetTelemetry.Json.Punctuation
import Std.Data.ExtTreeMap

/-!
# JSON values

A value in memory, and the reader of any value. Objects keep their members in the order in which
they stand, repeated keys included; as a map an object has the last member of each key.
-/

namespace FleetTelemetry.Json

open Reader

inductive Value where
  | null
  | boolean (value : Bool)
  | number (value : Number)
  | string (value : String)
  | list (values : List Value)
  | object (members : List (String × Value))

def Value.kind : Value → Kind
  | .null => .null
  | .boolean value => .boolean value
  | .number value => value.kind
  | .string value => .string value
  | .list _ => .sequence
  | .object _ => .map

/-- Members by key in increasing order of the keys; of repeated keys the last one counts. -/
abbrev Members := Std.ExtTreeMap String Value

def Members.ofList (members : List (String × Value)) : Members :=
  members.foldl (fun map member => map.insert member.1 member.2) ∅

def maxNesting : Nat := 127

def value (depth : Nat) : Reader Value := do
  match ← token with
  | none => fail .endInValue
  | some 'n' => do
    drop
    word ['u', 'l', 'l']
    pure .null
  | some 't' => do
    drop
    word ['r', 'u', 'e']
    pure (.boolean true)
  | some 'f' => do
    drop
    word ['a', 'l', 's', 'e']
    pure (.boolean false)
  | some '"' => do
    drop
    let s ← string
    pure (.string s)
  | some '-' => do
    drop
    let n ← unsignedNumber true
    pure (.number n)
  | some '[' =>
    match depth with
    | 0 => fail .nestedTooDeep
    | depth + 1 => do
      drop
      let values ← items (value depth)
      pure (.list values)
  | some '\x7b' =>
    match depth with
    | 0 => fail .nestedTooDeep
    | depth + 1 => do
      drop
      let members ← members (value depth)
      pure (.object members)
  | some c =>
    if Text.isDigit c then do
      let n ← unsignedNumber false
      pure (.number n)
    else
      fail .expectedValue

def Value.parse (bytes : Bytes) : Except Fault Value :=
  run (value maxNesting) bytes

/-- Fails with what stands here instead of something expected. Words, numbers and strings are
read for it, and may fail on their own. -/
def unexpected {α : Type} (expected : String) : Reader α := do
  match ← look with
  | some 'n' => do
    drop
    word ['u', 'l', 'l']
    fail (.invalidType .null expected)
  | some 't' => do
    drop
    word ['r', 'u', 'e']
    fail (.invalidType (.boolean true) expected)
  | some 'f' => do
    drop
    word ['a', 'l', 's', 'e']
    fail (.invalidType (.boolean false) expected)
  | some '"' => do
    drop
    let s ← string
    fail (.invalidType (.string s) expected)
  | some '-' => do
    drop
    let n ← unsignedNumber true
    fail (.invalidType n.kind expected)
  | some '[' => fail (.invalidType .sequence expected)
  | some '\x7b' => fail (.invalidType .map expected)
  | some c =>
    if Text.isDigit c then do
      let n ← unsignedNumber false
      fail (.invalidType n.kind expected)
    else
      fail .expectedValue
  | none => fail .expectedValue

def Number.natural? (expected : String) : Number → Except Fault UInt64
  | .natural n => .ok n
  | .negative magnitude => .error (.invalidValue (.integer (-(magnitude : Int))) expected)
  | .real x => .error (.invalidType (.real x) expected)

def Value.natural? (expected : String) : Value → Except Fault UInt64
  | .number n => n.natural? expected
  | v => .error (.invalidType v.kind expected)

def Value.boolean? (expected : String) : Value → Except Fault Bool
  | .boolean b => .ok b
  | v => .error (.invalidType v.kind expected)

def natural (expected : String) : Reader UInt64 := do
  match ← token with
  | none => fail .endInValue
  | some '-' => do
    drop
    let n ← unsignedNumber true
    ofExcept (n.natural? expected)
  | some c =>
    if Text.isDigit c then do
      let n ← unsignedNumber false
      ofExcept (n.natural? expected)
    else
      unexpected expected

def boolean (expected : String) : Reader Bool := do
  match ← token with
  | none => fail .endInValue
  | some 't' => do
    drop
    word ['r', 'u', 'e']
    pure true
  | some 'f' => do
    drop
    word ['a', 'l', 's', 'e']
    pure false
  | some _ => unexpected expected

def stringValue (expected : String) : Reader String := do
  match ← token with
  | none => fail .endInValue
  | some '"' => do
    drop
    string
  | some _ => unexpected expected

end FleetTelemetry.Json
