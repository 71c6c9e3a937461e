import FleetTelemetry.Files.Basic
import FleetTelemetry.Settings.Basic
import FleetTelemetry.Settings.Conversion
import FleetTelemetry.Settings.Layer
import FleetTelemetry.Toml.Document

/-!
# Loading settings

Settings come from a file, over which the environment is laid, over which the words of the command
line are laid. What no layer names has its default.
-/

namespace FleetTelemetry

open Toml (Value Entries)

structure Overrides where
  interval : Option String := none
  rows : Option UInt64 := none
  nodesFile : Option String := none
  dataDirectory : Option String := none
  logDirectory : Option String := none
  plain : Bool := false
  strict : Bool := false
  logLevel : Option String := none
  deriving DecidableEq, Repr

namespace Settings

/-! ## Layers -/

def fileExtension : String := "toml"

/-- Finds a settings file: the file at a path, which must have the extension, or the file that has
the extension behind the path. -/
def findFile (files : Files) (path : String) : Option String :=
  match files.openFile path with
  | .ok _ => if Path.extension? path = some fileExtension then some path else none
  | .error _ =>
    let completed := path ++ "." ++ fileExtension
    match files.openFile completed with
    | .ok _ => some completed
    | .error _ => none

def fileLayer (files : Files) (path : String) : Option Entries := do
  let found ← findFile files path
  let text ← (files.readText found).toOption
  Toml.parse? text

def environmentMark : List Char := "telematics_".toList

def dotted : List Char → List Char
  | '_' :: '_' :: rest => '.' :: dotted rest
  | c :: rest => c :: dotted rest
  | [] => []

def environmentKey? (name : String) : Option String :=
  let name := name.toList.map Char.toLower
  if environmentMark.isPrefixOf name then
    some (String.ofList (dotted (name.drop environmentMark.length)))
  else none

/-- The layer of an environment. All its values are texts. -/
def environmentLayer (environment : List (String × String)) : Entries :=
  environment.filterMap fun (name, value) =>
    (environmentKey? name).map fun key => (key, .text value)

def signed (n : UInt64) : Int :=
  n.toInt64.toInt

def overridesLayer (overrides : Overrides) : Entries :=
  let text (key : String) (value : Option String) : Entries :=
    (value.map fun value => (key, Value.text value)).toList
  text "interval" overrides.interval ++
    (overrides.rows.map fun rows => ("duration", Value.whole (signed rows))).toList ++
    text "nodes_file" overrides.nodesFile ++
    text "data_dir" overrides.dataDirectory ++
    text "log_dir" overrides.logDirectory ++
    text "log_level" overrides.logLevel ++
    (if overrides.plain then [("plain", .truth true)] else []) ++
    (if overrides.strict then [("schema", .text "strict")] else [])

def layers (files : Files) (path : Option String) (environment : List (String × String))
    (overrides : Overrides) : Option Entries := do
  let lowest ←
    match path with
    | none => some []
    | some path => fileLayer files path
  let settings := withLayer [] lowest
  let settings := withLayer settings (environmentLayer environment)
  some (withLayer settings (overridesLayer overrides))

/-! ## Decoding -/

def entry {α : Type} (entries : Entries) (key : String) (convert : Value → Option α)
    (default : α) : Option α :=
  match entries.find? key with
  | none => some default
  | some value => convert value

def item {α : Type} (items : List Value) (position : Nat) (convert : Value → Option α)
    (default : α) : Option α :=
  match items[position]? with
  | none => some default
  | some value => convert value

def schemaChoices : List (String × SchemaMode) := [("lenient", .lenient), ("strict", .strict)]

def averagingChoices : List (String × AveragingProfile) :=
  [("full", .full), ("reduced", .reduced), ("reduced-scale", .reducedScale)]

def count? (value : Value) : Option Nat :=
  (number? value).map UInt64.toNat

/-- The layout of a roster: a table, or a list of its values in a fixed order. -/
def layout? : Value → Option RosterLayout
  | .table _ entries => do
    let default : RosterLayout := {}
    let arity ← entry entries "arity" count? default.arity
    let name ← entry entries "name" count? default.name
    let host ← entry entries "host" count? default.host
    let port ← entry entries "port" count? default.port
    let marker ← entry entries "class" count? default.marker
    let snapshotPath ← entry entries "snapshot_path" text? default.snapshotPath
    some { arity, name, host, port, marker, snapshotPath }
  | .list _ items => do
    let default : RosterLayout := {}
    let arity ← item items 0 count? default.arity
    let name ← item items 1 count? default.name
    let host ← item items 2 count? default.host
    let port ← item items 3 count? default.port
    let marker ← item items 4 count? default.marker
    let snapshotPath ← item items 5 text? default.snapshotPath
    some { arity, name, host, port, marker, snapshotPath }
  | _ => none

/-- Settings as a table gives them. Keys that mean nothing are passed over. -/
def decode? (entries : Entries) : Option Settings := do
  let default : Settings := {}
  let optional (value : Value) := (text? value).map some
  let interval ← entry entries "interval" text? default.interval
  let rows ← entry entries "duration" number? default.rows
  let nodesFile ← entry entries "nodes_file" text? default.nodesFile
  let dataDirectory ← entry entries "data_dir" text? default.dataDirectory
  let logDirectory ← entry entries "log_dir" text? default.logDirectory
  let snapshotPath ← entry entries "snapshot_path" optional default.snapshotPath
  let schema ← entry entries "schema" (choice? schemaChoices) default.schema
  let averaging ← entry entries "averaging" (choice? averagingChoices) default.averaging
  let plain ← entry entries "plain" truth? default.plain
  let logLevel ← entry entries "log_level" text? default.logLevel
  let logFile ← entry entries "log_file" optional default.logFile
  let roster ← entry entries "roster" layout? default.roster
  some { interval, rows, nodesFile, dataDirectory, logDirectory, snapshotPath, schema, averaging,
         plain, logLevel, logFile, roster }

def withSnapshotPath (settings : Settings) : Settings :=
  match settings.snapshotPath with
  | none => settings
  | some path => { settings with roster := { settings.roster with snapshotPath := path } }

def load (files : Files) (path : Option String) (environment : List (String × String))
    (overrides : Overrides) : Except SettingsError Settings :=
  match layers files path environment overrides with
  | none => .error .unreadable
  | some entries =>
    match decode? entries with
    | none => .error .unusable
    | some settings => do
      let settings := settings.withSnapshotPath
      settings.check
      return settings

end Settings

end FleetTelemetry
