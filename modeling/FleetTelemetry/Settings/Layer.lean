import FleetTelemetry.Text.Numeral
import FleetTelemetry.Toml.Value

/-!
# Layers of settings

Settings come in layers, and a later layer replaces what an earlier one says. Tables are joined
entry by entry; anything else takes the place of what was there. The keys of a layer are places:
names with dots between them and positions in brackets. A key that is no place is a plain name.
-/

namespace FleetTelemetry.Settings

open Text
open Toml (Value Entries)

inductive Step where
  | key (name : String)
  /-- A position in a list; negative ones count from its end. -/
  | position (index : Int)
  deriving DecidableEq, Repr

structure Place where
  root : String
  steps : List Step := []
  deriving DecidableEq, Repr

namespace Place

def isNameChar (c : Char) : Bool :=
  c.isAlphanum || c = '_' || c = '-'

def name? (s : List Char) : Option (String × List Char) :=
  match s.takeWhile isNameChar with
  | [] => none
  | taken => some (String.ofList taken, s.dropWhile isNameChar)

def isGap (c : Char) : Bool :=
  c = ' ' || c = '\t'

def isPosition (n : Int) : Bool :=
  Int64.minValue.toInt ≤ n && n ≤ Int64.maxValue.toInt

def positionValue? (s : List Char) : Option Int :=
  let signed :=
    match s with
    | '-' :: digits => (digits? digits).map fun n => -(n : Int)
    | digits => (digits? digits).map fun n => (n : Int)
  signed.filter isPosition

def position? (s : List Char) : Option (Int × List Char) := do
  let s := s.dropWhile isGap
  let index ← positionValue? (s.takeWhile fun c => isDigit c || c = '-')
  match (s.dropWhile fun c => isDigit c || c = '-').dropWhile isGap with
  | ']' :: rest => some (index, rest)
  | _ => none

def step? (s : List Char) : Option (Step × List Char) :=
  match s with
  | '.' :: rest => (name? rest).map fun taken => (.key taken.1, taken.2)
  | '[' :: rest => (position? rest).map fun taken => (.position taken.1, taken.2)
  | _ => none

/-- Reads steps up to the end of a key; there are at most `count` of them. -/
def steps? : Nat → List Char → Option (List Step)
  | _, [] => some []
  | 0, _ => none
  | count + 1, s => do
    let (step, rest) ← step? s
    let steps ← steps? count rest
    some (step :: steps)

def read? (s : List Char) : Option Place := do
  let (root, rest) ← name? s
  let steps ← steps? rest.length rest
  some { root, steps }

def ofKey (key : String) : Place :=
  (read? key.toList).getD { root := key }

end Place

def entriesOf : Value → Entries
  | .table _ entries => entries
  | _ => []

def itemsOf : Value → List Value
  | .list _ items => items
  | _ => []

def nothing : Value := .table .inline []

def tableOf (entries : Entries) : Value := .table .inline entries

mutual

def laidOver (old new : Value) : Value :=
  match new with
  | .table _ entries => tableOf (laidOverEntries (entriesOf old) entries)
  | .truth value => .truth value
  | .whole value => .whole value
  | .real value => .real value
  | .text value => .text value
  | .list growing items => .list growing items

def laidOverEntries (old : Entries) : Entries → Entries
  | [] => old
  | (name, value) :: rest =>
    laidOverEntries (old.put name (laidOver ((old.find? name).getD nothing) value)) rest

end

/-- The items of a list that is long enough for a position, and the position counted from its
start. -/
def reach (items : List Value) (index : Int) : List Value × Nat :=
  if 0 ≤ index then
    let position := index.toNat
    (items ++ List.replicate (position + 1 - items.length) nothing, position)
  else
    let back := (-index).toNat
    if back ≤ items.length then (items, items.length - back)
    else (List.replicate (back - items.length) nothing ++ items, 0)

/-- Puts a value over what lies some steps inside another one, and makes the steps where they are
missing. -/
def laidOverAt (old : Value) : List Step → Value → Value
  | [], new => laidOver old new
  | .key name :: rest, new =>
    let entries := entriesOf old
    tableOf (entries.put name (laidOverAt ((entries.find? name).getD nothing) rest new))
  | .position index :: rest, new =>
    let (items, position) := reach (itemsOf old) index
    .list false (items.set position (laidOverAt (items.getD position nothing) rest new))

def laidOverPlace (settings : Entries) (place : Place) (value : Value) : Entries :=
  settings.put place.root
    (laidOverAt ((settings.find? place.root).getD nothing) place.steps value)

def withLayer (settings layer : Entries) : Entries :=
  layer.foldl (fun settings entry => laidOverPlace settings (Place.ofKey entry.1) entry.2) settings

end FleetTelemetry.Settings
