/-!
# Faults of files

Why an operation on a file, a directory or a stream fails. Files are read whole as text, so bytes
that are no text are a fault of the same kind.
-/

namespace FleetTelemetry

/-- A failure below the level of any format. -/
inductive FileFault where
  | notFound
  | exists
  | notDirectory
  | isDirectory
  | notText
  | refused (reason : String)
  deriving DecidableEq, Repr

def FileFault.message : FileFault → String
  | .notFound => "No such file or directory (os error 2)"
  | .exists => "File exists (os error 17)"
  | .notDirectory => "Not a directory (os error 20)"
  | .isDirectory => "Is a directory (os error 21)"
  | .notText => "stream did not contain valid UTF-8"
  | .refused reason => reason

def FileFault.diskFull : FileFault := .refused "disk full"

def FileFault.noTerminal : FileFault := .refused "No such device or address (os error 6)"

end FleetTelemetry
