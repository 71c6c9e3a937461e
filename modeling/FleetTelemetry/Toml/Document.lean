import FleetTelemetry.Toml.Scalar

/-!
# TOML documents

A document is a sequence of statements, one per line: a key with its value, the header of a table,
or the header of a further table in a list. No key gets two values and no table is opened twice;
a value that stands between braces or brackets is complete.
-/

namespace FleetTelemetry.Toml

open Reader

def isKeyChar (c : Char) : Bool :=
  c.isAlphanum || c = '_' || c = '-'

def keyPart : Reader String := do
  match ← look with
  | some '"' => do
    expect ['"']
    quotedText
  | some '\'' => do
    expect ['\'']
    plainText
  | _ => do
    let name ← takeSome isKeyChar
    return String.ofList name

def key : Reader (String × List String) := do
  let first ← keyPart
  gap
  let others ← rounds (fun (reversed : List String) => do
    if (← look) = some '.' then
      let _ ← next
      gap
      let part ← keyPart
      gap
      return .inl (part :: reversed)
    else
      return .inr reversed.reverse) []
  return (first, others)

namespace Entries

/-- Gives a key a value that it did not have. Tables on the way are made, or were made by dotted
keys or headers below them. -/
def define (entries : Entries) (name : String) (rest : List String) (value : Value) :
    Option Entries :=
  match rest with
  | [] => if (entries.find? name).isSome then none else some (entries.put name value)
  | part :: rest =>
    match entries.find? name with
    | none => do
      let inner ← define [] part rest value
      some (entries.put name (.table .dotted inner))
    | some (.table origin inner) =>
      if origin = .dotted ∨ origin = .passed then do
        let inner ← define inner part rest value
        some (entries.put name (.table origin inner))
      else none
    | some _ => none

/-- Changes the entries of the table at a place, seen from some other table. On the way, tables
that are not there are made, and of a list of tables the last one is meant. -/
def change (entries : Entries) (place : List String) (f : Entries → Option Entries) :
    Option Entries :=
  match place with
  | [] => f entries
  | name :: rest =>
    match entries.find? name with
    | none => do
      let inner ← change [] rest f
      some (entries.put name (.table .passed inner))
    | some (.table origin inner) =>
      if origin = .inline then none
      else do
        let inner ← change inner rest f
        some (entries.put name (.table origin inner))
    | some (.list true items) =>
      match items.getLast? with
      | some (.table origin inner) => do
        let inner ← change inner rest f
        some (entries.put name (.list true (items.dropLast ++ [.table origin inner])))
      | _ => none
    | some _ => none

def openTable (entries : Entries) (name : String) : Option Entries :=
  match entries.find? name with
  | none => some (entries.put name (.table .header []))
  | some (.table .passed inner) => some (entries.put name (.table .header inner))
  | some _ => none

def openItem (entries : Entries) (name : String) : Option Entries :=
  match entries.find? name with
  | none => some (entries.put name (.list true [.table .header []]))
  | some (.list true items) => some (entries.put name (.list true (items ++ [.table .header []])))
  | some _ => none

end Entries

/-- Reads the items of a list after its opening bracket. A comma stands between two items and may
stand behind the last one. -/
def listItems (item : Reader Value) : Reader Value :=
  rounds (fun (state : List Value × Bool) => do
    let (reversed, wantsComma) := state
    wideGap
    match ← look with
    | some ']' => do
      let _ ← next
      return .inr (.list false reversed.reverse)
    | some ',' => do
      if !wantsComma then failure
      let _ ← next
      return .inl (reversed, false)
    | _ => do
      if wantsComma then failure
      let value ← item
      return .inl (value :: reversed, true)) ([], false)

def assignment (item : Reader Value) (entries : Entries) : Reader Entries := do
  let (name, rest) ← key
  expect ['=']
  gap
  let value ← item
  (entries.define name rest value : Option Entries)

/-- Reads the entries of a table after its opening brace. A comma stands between two entries and
may stand behind the last one. -/
def inlineEntries (item : Reader Value) : Reader Value :=
  rounds (fun (state : Entries × Bool) => do
    let (entries, wantsComma) := state
    wideGap
    match ← look with
    | some '\x7d' => do
      let _ ← next
      return .inr (.table .inline entries)
    | some ',' => do
      if !wantsComma then failure
      let _ ← next
      return .inl (entries, false)
    | _ => do
      if wantsComma then failure
      let entries ← assignment item entries
      return .inl (entries, true)) ([], false)

def maxNesting : Nat := 80

def value (depth : Nat) : Reader Value := do
  match ← look with
  | some '"' => return .text (← doubleQuoted)
  | some '\'' => return .text (← singleQuoted)
  | some '[' =>
    match depth with
    | 0 => failure
    | depth + 1 => do
      let _ ← next
      listItems (value depth)
  | some '\x7b' =>
    match depth with
    | 0 => failure
    | depth + 1 => do
      let _ ← next
      inlineEntries (value depth)
  | _ => scalar

structure Document where
  entries : Entries := []
  place : List String := []

namespace Document

def header : Reader (List String × String) := do
  gap
  let (first, others) ← key
  match (first :: others).reverse with
  | [] => failure
  | last :: parents => return (parents.reverse, last)

def headerStatement (document : Document) : Reader Document := do
  expect ['[']
  if ← skip ['['] then
    let (parents, last) ← header
    expect [']', ']']
    let entries ← (document.entries.change parents (·.openItem last) : Option Entries)
    return { entries, place := parents ++ [last] }
  else
    let (parents, last) ← header
    expect [']']
    let entries ← (document.entries.change parents (·.openTable last) : Option Entries)
    return { entries, place := parents ++ [last] }

def keyStatement (document : Document) : Reader Document := do
  let (name, rest) ← key
  expect ['=']
  gap
  let value ← value maxNesting
  let entries ←
    (document.entries.change document.place (·.define name rest value) : Option Entries)
  return { document with entries }

def statements : Reader Document :=
  rounds (fun (document : Document) => do
    gap
    match ← look with
    | none => return .inr document
    | some '\n' | some '\r' | some '#' => do
      lineEnd
      return .inl document
    | some '[' => do
      let document ← headerStatement document
      lineEnd
      return .inl document
    | some _ => do
      let document ← keyStatement document
      lineEnd
      return .inl document) {}

def dropMark : List Char → List Char
  | '\uFEFF' :: rest => rest
  | s => s

end Document

def parse? (text : String) : Option Entries :=
  (Reader.run Document.statements (Document.dropMark text.toList)).map (·.entries)

end FleetTelemetry.Toml
