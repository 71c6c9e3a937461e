import FleetTelemetry.Command.Run

/-!
# What a command looks at

A command sees no more of the files and the environment than it needs. Which paths those are depends
in part on what lies at the first of them: settings name the roster, and the roster names the nodes
whose files are made.
-/

namespace FleetTelemetry.Command

def settingVariables : List String :=
  ["INTERVAL", "DURATION", "NODES_FILE", "DATA_DIR", "LOG_DIR", "SNAPSHOT_PATH", "SCHEMA",
   "AVERAGING", "PLAIN", "LOG_LEVEL", "LOG_FILE", "ROSTER", "ROSTER__ARITY", "ROSTER__NAME",
   "ROSTER__HOST", "ROSTER__PORT", "ROSTER__CLASS", "ROSTER__SNAPSHOT_PATH"].map
    fun name => String.ofList (Settings.environmentMark.map Char.toUpper) ++ name

def variableNames : List String := filterVariable :: settingVariables

def nodePaths (settings : Settings) (nodes : List String) : List String :=
  nodes.flatMap fun node =>
    [SeriesStore.seriesPath settings.dataDirectory node,
     LogFiles.logPath settings.logDirectory node]

def settingsPaths (around : Surroundings) (settings : Settings) : List String :=
  let nodes :=
    match CollectionPlan.make settings around.files with
    | .ok plan => plan.roster.names
    | .error _ => []
  [settings.nodesFile, settings.logPath, settings.dataDirectory, settings.logDirectory] ++
    nodePaths settings nodes

/-- The paths at which a command looks, as far as the files that are known tell them. -/
def paths (around : Surroundings) (words : List String) : List String :=
  match Line.read words with
  | .plot options => [options.request.series, options.output]
  | .log options =>
    let config :=
      match options.config with
      | some path => [path, path ++ "." ++ Settings.fileExtension]
      | none => []
    match Settings.load around.files options.config around.environment options.overrides with
    | .ok settings => config ++ settingsPaths around settings
    | .error _ => config
  | _ => []

/-- After so many rounds of reading the paths at which a command looks, all of them are known: the
settings, the roster, and the files of its nodes. -/
def readingRounds : Nat := 3

end FleetTelemetry.Command
