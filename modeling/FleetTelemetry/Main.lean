import FleetTelemetry.Command.Reach
import FleetTelemetry.Dashboard.Plain

/-!
# The program

Reads the files and variables at which a command looks, runs the command on them and writes back
the files that it changed. There is no network here: every node is one that refuses connections.
There is no full screen either, so a collection needs the plain dashboard.
-/

namespace FleetTelemetry.Main

open Command Diagnostics

def rootPath (place : Location) : String := "/" ++ "/".intercalate place

def readEntry (path : String) : IO (Except FileFault (Option ByteArray)) := do
  try
    return .ok (some (← IO.FS.readBinFile path))
  catch
    | .inappropriateType _ code _ => return if code = 21 then .ok none else .error .notDirectory
    | _ => return .error .notFound

def addPlace (files : Files) (place : Location) : IO Files := do
  let mut files := files
  for count in List.range (place.length + 1) do
    let here := place.take count
    if (files.entry? here).isNone then
      match ← readEntry (rootPath here) with
      | .ok none => files := { files with entries := files.entries.insert here .directory }
      | .ok (some bytes) =>
        files :=
          { files with
            entries := files.entries.insert here (.file files.next)
            contents := files.contents.insert files.next bytes
            next := files.next + 1 }
      | .error _ => pure ()
  return files

def plainNames (path : String) : List String :=
  (Path.names path).filter fun name => name ≠ "" && name ≠ "."

def addPaths (around : Surroundings) (words : List String) : IO Surroundings := do
  let mut files := around.files
  for path in paths around words do
    files ← addPlace files (files.origin path ++ plainNames path)
  return { around with files }

def surroundings (words : List String) : IO Surroundings := do
  let base := plainNames (← IO.currentDir).toString
  let mut environment := []
  for name in variableNames do
    if let some value ← IO.getEnv name then
      environment := environment ++ [(name, value)]
  let files ← addPlace { base } base
  let mut around : Surroundings := { files, environment, uptime := ← IO.monoNanosNow }
  for _ in List.range readingRounds do
    around ← addPaths around words
  return around

def save (before after : Files) : IO Unit := do
  for (place, content) in after.listing do
    match content with
    | none => if (before.entry? place).isNone then IO.FS.createDirAll (rootPath place)
    | some bytes =>
      let old :=
        match before.entry? place with
        | some (.file number) => some (before.content number)
        | _ => none
      if old.map (·.data) ≠ some bytes.data then IO.FS.writeBinFile (rootPath place) bytes

def finish (before : Files) (ending : Ending) : IO UInt32 := do
  save before ending.files
  for event in ending.told do
    IO.eprintln event.line
  IO.print ending.output
  if let some report := ending.report then
    IO.eprintln report
  return ending.exitCode.toUInt32

def lookInterval : UInt32 := 50

/-- Lets a collection run until its aggregator ends. -/
partial def watch (start : Nat) (shown : Nat) (saved : Files) (running : Running) : IO UInt32 := do
  let running := running.continueUntil ((← IO.monoNanosNow) - start)
  save saved running.files
  let frames := (running.world.aggregator.map (·.aggregator.panel.shown)).getD #[]
  for frame in frames.toList.drop shown do
    IO.print (Dashboard.plainText (.ofFrame frame))
  if running.world.result.isSome then
    let ending := running.stop false
    finish running.files { ending with told := [] }
  else
    IO.sleep lookInterval
    watch start frames.size running.files running

def run (words : List String) : IO UInt32 := do
  let around ← surroundings words
  match Command.run around words with
  | .running running => watch (← IO.monoNanosNow) 0 around.files running
  | .ended ending =>
    if Line.read words matches .wrong then IO.eprint programHelp
    let isLog := Line.read words matches .log _
    finish around.files (if isLog then { ending with told := [] } else ending)

end FleetTelemetry.Main

def main (words : List String) : IO UInt32 :=
  FleetTelemetry.Main.run words
