import FleetTelemetry.Files.Fault
import FleetTelemetry.Fleet.State

/-!
# Node logs

Every node has a log with one row per aggregation, also while the node is silent, so that the rows
of all logs belong together line by line. The writer of a log may fail or crash; then the logs of
this and of all later nodes, in the order of names, get no row.
-/

namespace FleetTelemetry

structure LogRow where
  timestamp : UInt64
  sample : Snapshot
  deriving DecidableEq, Repr

def LogRow.text (row : LogRow) : String := row.sample.csvRow row.timestamp

/-- The row of a node at one moment; a node that never reported has a sample of zeros. -/
def LogRow.ofNode (timestamp : UInt64) (current : SnapshotMap) (node : String) : LogRow :=
  { timestamp, sample := current[node]?.getD {} }

/-- What the writer of a log does when it is to append a row. -/
inductive AppendOutcome where
  | appended
  | failed (fault : FileFault)
  | crashed
  deriving DecidableEq, Repr

/-- One node's log: its rows, and what its writer does at each attempt to append one. -/
structure NodeLog where
  rows : Array LogRow := #[]
  attempts : Nat := 0
  outcomeAt : Nat → AppendOutcome := fun _ => .appended

/-- Attempts to append a row: it is appended as a whole or not at all. -/
def NodeLog.append (log : NodeLog) (row : LogRow) : AppendOutcome × NodeLog :=
  let log' := { log with attempts := log.attempts + 1 }
  match log.outcomeAt log.attempts with
  | .appended => (.appended, { log' with rows := log.rows.push row })
  | outcome => (outcome, log')

def NodeLog.limited (limit : Nat) : NodeLog :=
  { outcomeAt := fun attempt => if attempt < limit then .appended else .failed .diskFull }

structure LogError where
  node : String
  fault : FileFault
  deriving DecidableEq, Repr

def LogError.message (e : LogError) : String :=
  "failed to write log for node '" ++ e.node ++ "': " ++ e.fault.message

inductive WriteOutcome where
  | written
  | failed (e : LogError)
  | crashed
  deriving DecidableEq, Repr

abbrev NodeLogs := Std.ExtTreeMap String NodeLog

namespace NodeLogs

def ofNodes (nodes : List String) (log : String → NodeLog) : NodeLogs :=
  nodes.foldl (fun logs node => logs.insert node (log node)) ∅

/-- Appends a row to the log of each of some nodes until a writer does not. -/
def appendRows (row : String → LogRow) : List String → NodeLogs → WriteOutcome × NodeLogs
  | [], logs => (.written, logs)
  | node :: rest, logs =>
    match (logs[node]?.getD {}).append (row node) with
    | (.appended, log) => appendRows row rest (logs.insert node log)
    | (.failed fault, log) => (.failed { node, fault }, logs.insert node log)
    | (.crashed, log) => (.crashed, logs.insert node log)

def writeTick (logs : NodeLogs) (timestamp : UInt64) (current : SnapshotMap) :
    WriteOutcome × NodeLogs :=
  appendRows (LogRow.ofNode timestamp current) logs.keys logs

end NodeLogs

end FleetTelemetry
