import FleetTelemetry.Collection.Logs
import FleetTelemetry.Files.Basic

/-!
# Log files

The logs of a fleet as files of one directory, a file per node. Making them empties the files that
are there; files of other nodes stay.
-/

namespace FleetTelemetry

abbrev LogFiles := Std.ExtTreeMap String Nat

namespace LogFiles

def logPath (directory node : String) : String :=
  Path.join directory (node ++ ".txt")

/-- Makes an empty log for each of some nodes. A failure leaves the files that were made. -/
def createEach (directory : String) : List String → LogFiles → Files →
    Except FileFault LogFiles × Files
  | [], logs, files => (.ok logs, files)
  | node :: rest, logs, files =>
    match files.create (logPath directory node) with
    | .error fault => (.error fault, files)
    | .ok (content, files) => createEach directory rest (logs.insert node content) files

def create (files : Files) (directory : String) (nodes : List String) :
    Except FileFault LogFiles × Files :=
  match files.createDirectories directory with
  | .error fault => (.error fault, files)
  | .ok files => createEach directory nodes ∅ files

def writeTick (logs : LogFiles) (files : Files) (timestamp : UInt64) (current : SnapshotMap) :
    Files :=
  logs.foldl (fun files node content =>
    files.append content (LogRow.ofNode timestamp current node).text) files

end LogFiles

end FleetTelemetry
