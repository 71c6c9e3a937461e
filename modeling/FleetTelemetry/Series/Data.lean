import FleetTelemetry.Diagnostics.Failure
import FleetTelemetry.Files.Fault
import FleetTelemetry.Series.Header
import FleetTelemetry.Text.Blank
import FleetTelemetry.Text.Columns
import FleetTelemetry.Text.Split

/-!
# Series texts

A series text is a header line and a line of numerals per row: the time and then a value for each
field. Empty lines are no rows but count as lines. Of the rows only the newest ones are kept, as
many as the header says.
-/

namespace FleetTelemetry

open Text Diagnostics

structure SeriesRow where
  timestamp : UInt64
  values : List UInt64
  deriving DecidableEq, Repr

/-- A header and the rows that are kept, oldest first. -/
structure SeriesData where
  header : SeriesHeader
  rows : List SeriesRow
  deriving DecidableEq, Repr

inductive SeriesFormatError where
  | noCapacity
  | missingHeader
  | badHeader (fault : Json.Fault)
  | badRow (line : Nat)
  | noField (name : String)
  | refused (reason : String)

def SeriesFormatError.message : SeriesFormatError → String
  | .noCapacity => "row capacity must be positive"
  | .missingHeader => "missing header"
  | .badHeader fault => "bad header: " ++ fault.message
  | .badRow line => "bad row at line " ++ decimalString line
  | .noField name => "store has no field '" ++ name ++ "'"
  | .refused reason => reason

inductive StoreError where
  | files (fault : FileFault)
  | format (cause : SeriesFormatError)
  | arity (expected found : Nat)
  | stale (timestamp last : UInt64)
  | overflow

def StoreError.message : StoreError → String
  | .files fault => "series store I/O error: " ++ fault.message
  | .format cause => "malformed series store: " ++ cause.message
  | .arity expected found =>
    "expected " ++ decimalString expected ++ " values, got " ++ decimalString found
  | .stale timestamp last =>
    "update at " ++ decimalString timestamp.toNat ++ " is not after last update at " ++
      decimalString last.toNat
  | .overflow => "a number does not fit in 64 bits"

/-- A store error as the end of a command. A fault of files is told in the wording of the error and
once more as its cause. -/
def StoreError.abort (error : StoreError) : Abort :=
  match error with
  | .files fault => .failed { headline := error.message, causes := [fault.message] }
  | .overflow => .broken
  | _ => .failed { headline := error.message }

namespace SeriesRow

def line (row : SeriesRow) : List Char :=
  commaLine (decimal row.timestamp.toNat :: row.values.map fun value => decimal value.toNat)

def readNumerals? : List (List Char) → Option (List UInt64)
  | [] => some []
  | text :: rest =>
    match word? (trimChars text), readNumerals? rest with
    | some value, some values => some (value :: values)
    | _, _ => none

def parse (arity lineNumber : Nat) (text : List Char) : Except StoreError SeriesRow :=
  match readNumerals? (pieces ',' text) with
  | some (timestamp :: values) =>
    if values.length = arity then .ok { timestamp, values }
    else .error (.arity arity values.length)
  | _ => .error (.format (.badRow lineNumber))

/-- Reads the lines after the header; the first one has the number `lineNumber`. -/
def parseLines (arity : Nat) : Nat → List (List Char) → Except StoreError (List SeriesRow)
  | _, [] => .ok []
  | lineNumber, text :: rest =>
    if text = [] then parseLines arity (lineNumber + 1) rest
    else
      match parse arity lineNumber text with
      | .error e => .error e
      | .ok row =>
        match parseLines arity (lineNumber + 1) rest with
        | .error e => .error e
        | .ok rows => .ok (row :: rows)

end SeriesRow

namespace SeriesData

/-- The newest rows, as many as the capacity. -/
def newest {α : Type} (capacity : Nat) (rows : List α) : List α :=
  rows.drop (rows.length - capacity)

def print (data : SeriesData) : String :=
  String.ofList (data.header.print ++ '\n' :: data.rows.flatMap SeriesRow.line)

def parse (text : String) : Except StoreError SeriesData :=
  match lines text.toList with
  | [] => .error (.format .missingHeader)
  | first :: rest =>
    match SeriesHeader.parse first with
    | .error fault => .error (.format (.badHeader fault))
    | .ok header =>
      match SeriesRow.parseLines header.fields.length 2 rest with
      | .error e => .error e
      | .ok rows => .ok { header, rows := newest header.rows.toNat rows }

end SeriesData

end FleetTelemetry
