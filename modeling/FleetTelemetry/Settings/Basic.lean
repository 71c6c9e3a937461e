import FleetTelemetry.Diagnostics.Failure
import FleetTelemetry.Files.Path
import FleetTelemetry.Fleet.Averaging
import FleetTelemetry.Roster.Record
import FleetTelemetry.Snapshot.Payload
import FleetTelemetry.Time.Reading

/-!
# Settings

What a collection run is told from outside, and the checks on it. Settings that pass the checks
have a time between polls of at least a second, keep at least one row, and name columns that a
record of their roster has.
-/

namespace FleetTelemetry

open Text Diagnostics

/-- What a run is told. -/
structure Settings where
  interval : String := "1"
  rows : UInt64 := 3600
  nodesFile : String := "./nodes.txt"
  dataDirectory : String := "./seriesData"
  logDirectory : String := "./logData"
  /-- The path of snapshots on the nodes, if it is not the one of the roster layout. -/
  snapshotPath : Option String := none
  schema : SchemaMode := .lenient
  averaging : AveragingProfile := .full
  plain : Bool := false
  logLevel : String := "info"
  /-- Where diagnostics go, if not below the directory of the logs. -/
  logFile : Option String := none
  roster : RosterLayout := {}
  deriving DecidableEq, Repr

inductive SettingsError where
  | unreadable
  | unusable
  | interval (text : String) (cause : SpanError)
  | belowMinimum (interval : Span)
  | noRows
  | noColumns
  | columnOutside (column : RosterColumn) (position arity : Nat)
  | overflow
  deriving DecidableEq, Repr

namespace Settings

/-- The shortest time between polls: rows of a series are told apart by their second. -/
def minimumInterval : Span := .ofSeconds 1

def pollInterval (settings : Settings) : Except SettingsError Span :=
  match Span.read settings.interval with
  | .span interval => .ok interval
  | .error cause => .error (.interval settings.interval cause)
  | .overflow => .error .overflow

def logPath (settings : Settings) : String :=
  settings.logFile.getD (Path.join settings.logDirectory "telematics.log")

def checkedColumns : List RosterColumn := [.name, .host, .port, .marker]

def checkLayout (layout : RosterLayout) : Except SettingsError Unit :=
  if layout.arity = 0 then .error .noColumns
  else
    match checkedColumns.find? fun column => layout.arity ≤ layout.column column with
    | some column => .error (.columnOutside column (layout.column column) layout.arity)
    | none => .ok ()

def check (settings : Settings) : Except SettingsError Unit := do
  let interval ← settings.pollInterval
  if interval.nanoseconds < minimumInterval.nanoseconds then .error (.belowMinimum interval)
  if settings.rows = 0 then .error .noRows
  checkLayout settings.roster

end Settings

/-- The end of a command without settings. What a layer has wrong is not told. -/
def SettingsError.abort : SettingsError → Abort
  | .unreadable => .failed { headline := "failed to load configuration" }
  | .unusable => .failed { headline := "invalid configuration" }
  | .interval text cause =>
    .failed { headline := "invalid interval '" ++ text ++ "'", causes := [cause.message] }
  | .belowMinimum span =>
    .failed
      { headline :=
          "interval " ++ span.text ++ " is below the minimum of " ++
            Settings.minimumInterval.text }
  | .noRows => .failed { headline := "duration must be at least one row" }
  | .noColumns => .failed { headline := "roster arity must be positive" }
  | .columnOutside column position arity =>
    .failed
      { headline :=
          "roster column '" ++ column.label ++ "' at index " ++ decimalString position ++
            " is outside arity " ++ decimalString arity }
  | .overflow => .broken

end FleetTelemetry
