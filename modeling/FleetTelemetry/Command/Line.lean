import FleetTelemetry.Chart.Content
import FleetTelemetry.Command.Flag
import FleetTelemetry.Diagnostics.Event
import FleetTelemetry.Settings.Load
import FleetTelemetry.Text.Numeral

/-!
# Command lines

The first word names a command and the others are its flags. One command collects telemetry, the
other one charts what was collected.
-/

namespace FleetTelemetry.Command

open Text

def version : String := "0.1.0"

structure LogOptions where
  config : Option String := none
  overrides : Overrides := {}
  deriving DecidableEq, Repr

structure PlotOptions where
  node : String := "node_1"
  content : Chart.Content := .generated
  dataDirectory : String := "./seriesData"
  output : String := "output.svg"
  start : Option UInt64 := none
  duration : UInt64 := 600
  logLevel : String := "warn"
  deriving DecidableEq, Repr

def path? (value : String) : Option String :=
  if value = "" then none else some value

def number? (value : String) : Option UInt64 := word? value.toList

def override (f : String → Overrides → Option Overrides) (value : String)
    (options : LogOptions) : Option LogOptions :=
  (f value options.overrides).map fun overrides => { options with overrides }

def logFlags : List (Flag LogOptions) :=
  [{ long := "config", short := some 'c', valueName := some "CONFIG"
     summary := "TOML configuration file"
     set := fun value options => (path? value).map fun path => { options with config := some path } },
   { long := "interval", short := some 'i', valueName := some "INTERVAL"
     summary := "Polling interval (e.g. \"1\", \"2s\", \"1m\")"
     set := override fun value o => some { o with interval := some value } },
   { long := "duration", short := some 'd', valueName := some "DURATION"
     summary := "Rows retained per node series"
     set := override fun value o => (number? value).map fun rows => { o with rows := some rows } },
   { long := "nodes-file", short := some 'n', valueName := some "NODES_FILE"
     summary := "Roster file (name,id,host,p2p_port,api_port,scale_id)"
     set := override fun value o => (path? value).map fun path => { o with nodesFile := some path } },
   { long := "data-dir", valueName := some "DATA_DIR"
     summary := "Directory for per-node series stores"
     set := override fun value o =>
      (path? value).map fun path => { o with dataDirectory := some path } },
   { long := "log-dir", valueName := some "LOG_DIR"
     summary := "Directory for per-node CSV logs"
     set := override fun value o =>
      (path? value).map fun path => { o with logDirectory := some path } },
   { long := "plain"
     summary := "Plain text dashboard instead of the full-screen one"
     set := override fun _ o => some { o with plain := true } },
   { long := "strict"
     summary := "Reject snapshots with missing or unknown fields"
     set := override fun _ o => some { o with strict := true } },
   { long := "log-level", valueName := some "LOG_LEVEL"
     summary := "Logging verbosity (trace, debug, info, warn, error)"
     set := override fun value o => some { o with logLevel := some value } }]

def plotFlags : List (Flag PlotOptions) :=
  let default : PlotOptions := {}
  [{ long := "node", valueName := some "NODE"
     summary := "Node to chart"
     default := some default.node
     set := fun value o => some { o with node := value } },
   { long := "content", short := some 'c', valueName := some "CONTENT"
     summary := "What to chart: txrate, confirm, depth, delay or gas"
     default := some default.content.name
     set := fun value o =>
      (Chart.Content.parse value).toOption.map fun content => { o with content } },
   { long := "data-dir", valueName := some "DATA_DIR"
     summary := "Directory holding the series stores"
     default := some default.dataDirectory
     set := fun value o => (path? value).map fun path => { o with dataDirectory := path } },
   { long := "output", short := some 'o', valueName := some "OUTPUT"
     summary := "SVG file to write"
     default := some default.output
     set := fun value o => (path? value).map fun path => { o with output := path } },
   { long := "start", valueName := some "START"
     summary := "Window start in unix seconds (default: first stored sample)"
     set := fun value o => (number? value).map fun start => { o with start := some start } },
   { long := "duration", valueName := some "DURATION"
     summary := "Window length in seconds"
     default := some (decimalString default.duration.toNat)
     set := fun value o => (number? value).map fun duration => { o with duration } },
   { long := "log-level", valueName := some "LOG_LEVEL"
     summary := "Logging verbosity (trace, debug, info, warn, error)"
     default := some default.logLevel
     set := fun value o => some { o with logLevel := value } }]

inductive Line where
  | log (options : LogOptions)
  | plot (options : PlotOptions)
  | tell (text : String)
  | wrong
  deriving DecidableEq, Repr

def logSummary : String := "Poll every node, log its samples and show the live dashboard"

def plotSummary : String := "Chart one node's stored samples as an SVG"

def usageOf (command : String) : String :=
  Diagnostics.programName ++ " " ++ command ++ " [OPTIONS]"

def logHelp : String := Flag.help logSummary (usageOf "log") logFlags

def plotHelp : String := Flag.help plotSummary (usageOf "plot") plotFlags

def programHelp : String :=
  "Collects, aggregates and displays telemetry from a fleet of nodes\n\nUsage: " ++
    Diagnostics.programName ++ " <COMMAND>\n\nCommands:\n" ++
    Flag.columns
      [("log", logSummary), ("plot", plotSummary),
       ("help", "Print this message or the help of the given subcommand(s)")] ++
    "\nOptions:\n" ++
    Flag.columns [("-h, --help", "Print help"), ("-V, --version", "Print version")]

def versionText : String := Diagnostics.programName ++ " " ++ version ++ "\n"

namespace Line

def ofOptions {α : Type} (line : α → Line) (help : String) : Except Stop α → Line
  | .ok options => line options
  | .error .help => .tell help
  | .error .version => .tell versionText
  | .error .wrong => .wrong

def helpOn : List String → Line
  | [] => .tell programHelp
  | ["log"] => .tell logHelp
  | ["plot"] => .tell plotHelp
  | ["help"] => .tell programHelp
  | _ => .wrong

def ofFlag (word : String) : Line :=
  match word.toList with
  | '-' :: 'h' :: _ => .tell programHelp
  | '-' :: 'V' :: _ => .tell versionText
  | _ =>
    if word = "--help" then .tell programHelp
    else if word = "--version" then .tell versionText
    else .wrong

def read : List String → Line
  | [] => .wrong
  | "log" :: words => ofOptions .log logHelp (Flag.readAll logFlags words {})
  | "plot" :: words => ofOptions .plot plotHelp (Flag.readAll plotFlags words {})
  | "help" :: words => helpOn words
  | word :: _ => ofFlag word

end Line

end FleetTelemetry.Command
