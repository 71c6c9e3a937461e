import FleetTelemetry.Chart.Plot
import FleetTelemetry.Collection.StartUp
import FleetTelemetry.Command.Line
import FleetTelemetry.Diagnostics.Filter

/-!
# Running commands

A command line is run on the files and the environment around it. A chart ends by itself; a
collection either fails before its first task begins, or runs until it is stopped.
-/

namespace FleetTelemetry.Command

open Diagnostics

/-- What is around a program. -/
structure Surroundings where
  files : Files
  environment : List (String × String) := []
  hasTerminal : Bool := false
  /-- The nanoseconds that the system's clock has counted. -/
  uptime : Nat := 0

structure Ending where
  exitCode : Nat
  output : String := ""
  report : Option String := none
  told : List Event := []
  files : Files

def filterVariable : String := "RUST_LOG"

def chooseFilter (around : Surroundings) (level : String) : Except Abort Filter :=
  match Filter.choose? (around.environment.lookup filterVariable) level with
  | some filter => .ok filter
  | none => .error (.failed { headline := "invalid log level: " ++ level })

def aborted (files : Files) (told : List Event) : Abort → Ending
  | .failed failure => { exitCode := 1, report := some failure.report, told, files }
  | .broken => { exitCode := 101, told, files }

/-! ## Charts -/

def PlotOptions.request (options : PlotOptions) : Chart.PlotRequest :=
  { series := SeriesStore.seriesPath options.dataDirectory options.node
    node := options.node
    content := options.content
    start := options.start
    duration := options.duration
    output := options.output }

def runPlot (around : Surroundings) (options : PlotOptions) : Ending :=
  match chooseFilter around options.logLevel with
  | .error abort => aborted around.files [] abort
  | .ok filter =>
    let (result, events) := options.request.run around.files
    let told := events.filter filter.passes
    match result with
    | .error abort => aborted around.files told abort
    | .ok (_, files) => { exitCode := 0, output := "Wrote " ++ options.output ++ "\n", told, files }

/-! ## Collections -/

/-- A file of diagnostics, open for events that pass a filter. -/
structure Journal where
  filter : Filter
  content : Nat

namespace Journal

def passing (journal : Journal) (events : List Event) : List Event :=
  events.filter journal.filter.passes

def write (journal : Journal) (files : Files) (events : List Event) : Files :=
  files.append journal.content
    (String.join ((journal.passing events).map fun event => event.line ++ "\n"))

def makeDirectory (files : Files) (path : String) : Except Abort Files :=
  match Path.parent? path with
  | none => .ok files
  | some directory =>
    match files.createDirectories directory with
    | .ok files => .ok files
    | .error fault =>
      .error (.failed { headline := "cannot create " ++ directory, causes := [fault.message] })

def create (filter : Filter) (files : Files) (path : String) : Except Abort Journal × Files :=
  match makeDirectory files path with
  | .error abort => (.error abort, files)
  | .ok files =>
    match files.create path with
    | .ok (content, files) => (.ok { filter, content }, files)
    | .error fault =>
      (.error (.failed
        { headline := "cannot open log file " ++ path, causes := [fault.message] }), files)

end Journal

def startingEvent (settings : Settings) : Event :=
  { level := .info
    origin := .program
    message := "starting telematics"
    values := [("version", Text.quoted version), ("nodes_file", settings.nodesFile)] }

def interruptedEvent : Event :=
  { level := .info, origin := .program, message := "received Ctrl-C, shutting down" }

structure Running where
  settings : Settings
  journal : Journal
  collection : Collection
  world : World
  files : Files
  told : List Event

inductive Started where
  | ended (ending : Ending)
  | running (run : Running)

def startWith (around : Surroundings) (settings : Settings) (journal : Journal) (files : Files) :
    Started :=
  let begun := [startingEvent settings]
  let files := journal.write files begun
  let told := journal.passing begun
  if !settings.plain && !around.hasTerminal then
    .ended (aborted files told (.failed { headline := FileFault.noTerminal.message }))
  else
    match Collection.start settings files with
    | (.error e, files) => .ended (aborted files told e.abort)
    | (.ok collection, files) =>
      let before := [collection.startingEvent]
      .running
        { settings
          journal
          collection
          world := collection.world Collection.refusingSource around.uptime
          files := journal.write files before
          told := told ++ journal.passing before }

def startLog (around : Surroundings) (options : LogOptions) : Started :=
  match Settings.load around.files options.config around.environment options.overrides with
  | .error e => .ended (aborted around.files [] e.abort)
  | .ok settings =>
    match chooseFilter around settings.logLevel with
    | .error abort => .ended (aborted around.files [] abort)
    | .ok filter =>
      match Journal.create filter around.files settings.logPath with
      | (.error abort, files) => .ended (aborted files [] abort)
      | (.ok journal, files) => startWith around settings journal files

namespace Running

def continueUntil (run : Running) (time : Nat) : Running :=
  let world := run.world.runUntil time
  let events := world.journal.toList.drop run.world.journal.size
  { run with
    world
    files := run.journal.write run.files events
    told := run.told ++ run.journal.passing events }

/-- Ends a collection. An interrupt is told; a quit key is not. -/
def stop (run : Running) (interrupted : Bool) : Ending :=
  let world := Collection.stop run.world
  let outcome := Collection.outcome world
  let events :=
    (if interrupted then [interruptedEvent] else []) ++
      world.journal.toList.drop run.world.journal.size ++
      (match outcome with
      | .ok () => [Collection.stoppedEvent]
      | .error _ => [])
  let files := run.journal.write run.files events
  let told := run.told ++ run.journal.passing events
  match outcome with
  | .ok () => { exitCode := 0, told, files }
  | .error abort => aborted files told abort

end Running

def run (around : Surroundings) (words : List String) : Started :=
  match Line.read words with
  | .log options => startLog around options
  | .plot options => .ended (runPlot around options)
  | .tell text => .ended { exitCode := 0, output := text, files := around.files }
  | .wrong => .ended { exitCode := 2, files := around.files }

end FleetTelemetry.Command
