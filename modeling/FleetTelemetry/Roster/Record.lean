import FleetTelemetry.Roster.Basic
import FleetTelemetry.Text.Blank
import FleetTelemetry.Text.Numeral
import FleetTelemetry.Text.Split

/-!
# Roster records

One line of a roster is a record: fields between commas, with blanks around each of them. A layout
says how many fields there are and which of them matter. The checks on a record have a fixed
order, and the first one that fails is the cause.
-/

namespace FleetTelemetry

open Text

inductive RosterColumn where
  | name
  | host
  | port
  | marker
  deriving DecidableEq, Repr

def RosterColumn.label : RosterColumn → String
  | .name => "name"
  | .host => "host"
  | .port => "port"
  | .marker => "class"

/-- How the records of a roster are laid out. -/
structure RosterLayout where
  arity : Nat := 6
  name : Nat := 0
  host : Nat := 2
  port : Nat := 4
  marker : Nat := 5
  snapshotPath : String := "/telematics/snapshot"
  deriving DecidableEq, Repr, Inhabited

def RosterLayout.column (layout : RosterLayout) : RosterColumn → Nat
  | .name => layout.name
  | .host => layout.host
  | .port => layout.port
  | .marker => layout.marker

inductive RecordError where
  | arity (expected found : Nat)
  | columnOutOfRange (column : RosterColumn) (position : Nat)
  | emptyName
  | emptyHost (node : String)
  | invalidPort (text : String)
  deriving DecidableEq, Repr

def RecordError.message : RecordError → String
  | .arity expected found =>
    "expected " ++ decimalString expected ++ " fields, found " ++ decimalString found
  | .columnOutOfRange column position =>
    column.label ++ " column " ++ decimalString position ++ " is out of range"
  | .emptyName => "empty node name"
  | .emptyHost node => "empty host for node '" ++ node ++ "'"
  | .invalidPort text => "invalid port '" ++ text ++ "'"

namespace Roster

def portBound : Nat := UInt16.size

def address (host : List Char) (port : Nat) (path : String) : String :=
  "http://" ++ String.ofList host ++ ":" ++ decimalString port ++ path

def fields (record : List Char) : List (List Char) :=
  (pieces ',' record).map trimChars

def field (layout : RosterLayout) (fields : List (List Char)) (column : RosterColumn) :
    Except RecordError (List Char) :=
  match fields[layout.column column]? with
  | some text => .ok text
  | none => .error (.columnOutOfRange column (layout.column column))

def readRecord (layout : RosterLayout) (record : List Char) : Except RecordError Endpoint := do
  let fields := fields record
  if fields.length ≠ layout.arity then .error (.arity layout.arity fields.length)
  let name ← field layout fields .name
  if name = [] then .error .emptyName
  let host ← field layout fields .host
  if host = [] then .error (.emptyHost (String.ofList name))
  let portText ← field layout fields .port
  match below? portBound portText with
  | none => .error (.invalidPort (String.ofList portText))
  | some port =>
    let marker ← field layout fields .marker
    return {
      name := String.ofList name
      nodeClass := NodeClass.ofMarker (String.ofList marker)
      url := address host port layout.snapshotPath }

end Roster

end FleetTelemetry
