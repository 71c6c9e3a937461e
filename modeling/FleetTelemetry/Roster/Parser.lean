import FleetTelemetry.Diagnostics.Failure
import FleetTelemetry.Files.Basic
import FleetTelemetry.Roster.Record

/-!
# Reading rosters

A roster text has one record per line. Empty lines and lines that start with a number sign carry
no record but count as lines. The first line with a fault decides, and a taken name is the last
fault that a line can have.
-/

namespace FleetTelemetry

open Text Diagnostics

inductive RosterError where
  | unreadable (path : String) (fault : FileFault)
  | record (line : Nat) (cause : RecordError)
  | duplicate (line : Nat) (name : String)
  deriving DecidableEq, Repr

def RosterError.message : RosterError → String
  | .unreadable path fault => "cannot read roster " ++ path ++ ": " ++ fault.message
  | .record line cause => "roster line " ++ decimalString line ++ ": " ++ cause.message
  | .duplicate line name =>
    "roster line " ++ decimalString line ++ ": duplicate node '" ++ name ++ "'"

/-- A roster error as the end of a command. A fault of files is told in the wording of the error and
once more as its cause. -/
def RosterError.abort (error : RosterError) : Abort :=
  match error with
  | .unreadable _ fault => .failed { headline := error.message, causes := [fault.message] }
  | _ => .failed { headline := error.message }

namespace Roster

def addLine (roster : Roster) (line : Nat) (endpoint : Endpoint) : Except RosterError Roster :=
  match roster.add? endpoint with
  | some larger => .ok larger
  | none => .error (.duplicate line endpoint.name)

/-- Tells the lines that carry a record from empty lines and comments. -/
def isSignificant (line : List Char) : Bool :=
  line.head? ≠ none && line.head? ≠ some '#'

/-- Reads lines into a roster; the first one has the number `line`. -/
def readLines (layout : RosterLayout) : Nat → List (List Char) → Roster → Except RosterError Roster
  | _, [], roster => .ok roster
  | line, text :: rest, roster =>
    let record := trimChars text
    if isSignificant record then
      match readRecord layout record with
      | .error cause => .error (.record line cause)
      | .ok endpoint =>
        match roster.addLine line endpoint with
        | .error fault => .error fault
        | .ok larger => readLines layout (line + 1) rest larger
    else
      readLines layout (line + 1) rest roster

def parse (layout : RosterLayout) (text : String) : Except RosterError Roster :=
  readLines layout 1 (lines text.toList) empty

/-- Adds endpoints to a roster; the first one has the number `position`. -/
def addAll : Nat → List Endpoint → Roster → Except RosterError Roster
  | _, [], roster => .ok roster
  | position, endpoint :: rest, roster =>
    match roster.addLine position endpoint with
    | .error fault => .error fault
    | .ok larger => addAll (position + 1) rest larger

/-- The roster of some endpoints. A taken name is reported at its position, counted from one. -/
def ofEndpoints (endpoints : List Endpoint) : Except RosterError Roster :=
  addAll 1 endpoints empty

def load (layout : RosterLayout) (files : Files) (path : String) : Except RosterError Roster :=
  match files.readText path with
  | .ok text => parse layout text
  | .error fault => .error (.unreadable path fault)

end Roster

end FleetTelemetry
