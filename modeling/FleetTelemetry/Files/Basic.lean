import FleetTelemetry.Files.Fault
import FleetTelemetry.Files.Path
import Std.Data.ExtTreeMap

/-!
# Files

The files that the library reads and writes, as a value. A name leads to a directory or to the
number of a content, so a writer that holds the number keeps writing when the name is removed or
taken by another content.
-/

namespace FleetTelemetry

abbrev Location := List String

inductive Entry where
  | file (number : Nat)
  | directory
  deriving DecidableEq, Repr

/-- Directories, files and contents. -/
structure Files where
  entries : Std.ExtTreeMap Location Entry := ∅
  contents : Std.ExtTreeMap Nat ByteArray := ∅
  /-- No content has this number or a higher one. -/
  next : Nat := 0
  base : Location := []

namespace Files

def empty : Files := {}

/-- What lies at a location. The root is always a directory. -/
def entry? (files : Files) (here : Location) : Option Entry :=
  if here = [] then some .directory else files.entries[here]?

/-- Follows names from a location. Only a directory can be followed further. -/
def walk (files : Files) : Location → List String → Except FileFault Location
  | here, [] => .ok here
  | here, name :: names =>
    match files.entry? here with
    | none => .error .notFound
    | some (.file _) => .error .notDirectory
    | some .directory =>
      if name = "" ∨ name = "." then files.walk here names
      else if name = ".." then files.walk here.dropLast names
      else files.walk (here ++ [name]) names

def origin (files : Files) (path : String) : Location :=
  if Path.isAbsolute path then [] else files.base

/-- The location of a path. Its last name need not exist. -/
def locate (files : Files) (path : String) : Except FileFault Location :=
  if path = "" then .error .notFound else files.walk (files.origin path) (Path.names path)

def lookup (files : Files) (path : String) : Except FileFault Entry := do
  match files.entry? (← files.locate path) with
  | none => .error .notFound
  | some entry => .ok entry

def isDirectory (files : Files) (path : String) : Bool :=
  match files.lookup path with
  | .ok .directory => true
  | _ => false

def content (files : Files) (number : Nat) : ByteArray :=
  files.contents[number]?.getD .empty

def setContent (files : Files) (number : Nat) (bytes : ByteArray) : Files :=
  { files with contents := files.contents.insert number bytes }

def openFile (files : Files) (path : String) : Except FileFault Nat := do
  match ← files.lookup path with
  | .file number => .ok number
  | .directory => .error .isDirectory

def read (files : Files) (path : String) : Except FileFault ByteArray := do
  let number ← files.openFile path
  return files.content number

def readText (files : Files) (path : String) : Except FileFault String := do
  match String.fromUTF8? (← files.read path) with
  | some text => .ok text
  | none => .error .notText

/-- Empties a file, or makes an empty one; returns the number of its content. -/
def create (files : Files) (path : String) : Except FileFault (Nat × Files) := do
  let here ← files.locate path
  match files.entry? here with
  | some .directory => .error .isDirectory
  | some (.file number) => .ok (number, files.setContent number .empty)
  | none =>
    .ok (files.next,
      { files with
        entries := files.entries.insert here (.file files.next)
        contents := files.contents.insert files.next .empty
        next := files.next + 1 })

def appendBytes (files : Files) (number : Nat) (bytes : ByteArray) : Files :=
  files.setContent number (files.content number ++ bytes)

def append (files : Files) (number : Nat) (text : String) : Files :=
  files.appendBytes number text.toUTF8

def write (files : Files) (path text : String) : Except FileFault Files := do
  let (number, files) ← files.create path
  return files.append number text

def createDirectory (files : Files) (path : String) : Except FileFault Files := do
  let here ← files.locate path
  match files.entry? here with
  | some _ => .error .exists
  | none => .ok { files with entries := files.entries.insert here .directory }

def makeWay (files : Files) : Location → List String → Except FileFault Files
  | _, [] => .ok files
  | here, name :: names =>
    if name = "" ∨ name = "." then files.makeWay here names
    else if name = ".." then files.makeWay here.dropLast names
    else
      let there := here ++ [name]
      match files.entry? there with
      | some .directory => files.makeWay there names
      | some (.file _) => .error (if names = [] then .exists else .notDirectory)
      | none =>
        ({ files with entries := files.entries.insert there .directory } : Files).makeWay there names

/-- Makes a directory and the directories above it, as far as they are not there. -/
def createDirectories (files : Files) (path : String) : Except FileFault Files :=
  files.makeWay (files.origin path) (Path.names path)

def rename (files : Files) (source target : String) : Except FileFault Files := do
  let here ← files.locate source
  let there ← files.locate target
  match files.entry? here, files.entry? there with
  | none, _ => .error .notFound
  | some _, some .directory => .error .isDirectory
  | some entry, _ => .ok { files with entries := (files.entries.erase here).insert there entry }

def remove (files : Files) (path : String) : Except FileFault Files := do
  let here ← files.locate path
  match files.entry? here with
  | none => .error .notFound
  | some .directory => .error .isDirectory
  | some (.file _) => .ok { files with entries := files.entries.erase here }

def removeDirectory (files : Files) (path : String) : Except FileFault Files := do
  let here ← files.locate path
  match files.entry? here with
  | none => .error .notFound
  | some (.file _) => .error .notDirectory
  | some .directory =>
    if files.entries.any fun other _ => other ≠ here && here.isPrefixOf other then
      .error (.refused "Directory not empty (os error 39)")
    else
      .ok { files with entries := files.entries.erase here }

/-- Every file with its bytes and every directory without any, in the order of locations. -/
def listing (files : Files) : List (Location × Option ByteArray) :=
  files.entries.toList.map fun entry =>
    match entry.2 with
    | .file number => (entry.1, some (files.content number))
    | .directory => (entry.1, none)

end Files

end FleetTelemetry
