import FleetTelemetry.Collection.LogFiles
import FleetTelemetry.Collection.Schedule
import FleetTelemetry.Roster.Parser
import FleetTelemetry.Series.Store
import FleetTelemetry.Settings.Basic

/-!
# Starting a collection

Before the first task begins, everything is made ready that can fail: the time between polls, the
roster, the divisors, and then the directories and files. A start that fails before the first
directory leaves the files as they were.
-/

namespace FleetTelemetry

open Text Diagnostics

inductive StartError where
  | interval (cause : SettingsError)
  | roster (path : String) (cause : RosterError)
  | noNodes (path : String)
  | zeroDivisor (cause : ZeroDivisor)
  | dataDirectory (path : String) (fault : FileFault)
  | logs (directory : String) (fault : FileFault)
  | store (path : String) (cause : StoreError)

def StartError.abort : StartError → Abort
  | .interval cause => cause.abort
  | .roster path cause => cause.abort.within ("failed to load roster " ++ path)
  | .noNodes path => .failed { headline := "roster " ++ path ++ " lists no nodes" }
  | .zeroDivisor cause => .failed { headline := cause.message }
  | .dataDirectory path fault =>
    .failed { headline := "cannot create data directory " ++ path, causes := [fault.message] }
  | .logs directory fault =>
    .failed { headline := "cannot create node logs in " ++ directory, causes := [fault.message] }
  | .store path cause => cause.abort.within ("cannot create series store " ++ path)

/-- What is known before any file is made. -/
structure CollectionPlan where
  interval : Span
  roster : Roster
  divisors : Divisors

/-- A collection that is ready to run. -/
structure Collection where
  plan : CollectionPlan
  logs : LogFiles
  stores : List (String × SeriesStore)

namespace CollectionPlan

def make (settings : Settings) (files : Files) : Except StartError CollectionPlan :=
  match settings.pollInterval with
  | .error cause => .error (.interval cause)
  | .ok interval =>
    match Roster.load settings.roster files settings.nodesFile with
    | .error cause => .error (.roster settings.nodesFile cause)
    | .ok roster =>
      if roster.isEmpty then .error (.noNodes settings.nodesFile)
      else
        match Divisors.ofRoster roster settings.averaging with
        | .error cause => .error (.zeroDivisor cause)
        | .ok divisors => .ok { interval, roster, divisors }

end CollectionPlan

namespace Collection

/-- Makes the series of some nodes, one after another. A failure leaves the files that were
made. -/
def makeStores (settings : Settings) (interval : Span) : List String → Files →
    Except StartError (List (String × SeriesStore)) × Files
  | [], files => (.ok [], files)
  | node :: rest, files =>
    let path := SeriesStore.seriesPath settings.dataDirectory node
    match SeriesStore.create files path telemetryFields interval settings.rows with
    | .error cause => (.error (.store path cause), files)
    | .ok (store, files) =>
      match makeStores settings interval rest files with
      | (.ok stores, files) => (.ok ((node, store) :: stores), files)
      | (.error e, files) => (.error e, files)

def ofPlan (settings : Settings) (plan : CollectionPlan) (files : Files) :
    Except StartError Collection × Files :=
  match files.createDirectories settings.dataDirectory with
  | .error fault => (.error (.dataDirectory settings.dataDirectory fault), files)
  | .ok files =>
    match LogFiles.create files settings.logDirectory plan.roster.names with
    | (.error fault, files) => (.error (.logs settings.logDirectory fault), files)
    | (.ok logs, files) =>
      match makeStores settings plan.interval plan.roster.names files with
      | (.ok stores, files) => (.ok { plan, logs, stores }, files)
      | (.error e, files) => (.error e, files)

def start (settings : Settings) (files : Files) : Except StartError Collection × Files :=
  match CollectionPlan.make settings files with
  | .error e => (.error e, files)
  | .ok plan => ofPlan settings plan files

/-- The tasks of a collection whose nodes answer as `source` says, when the system's clock has
counted `uptime` nanoseconds. -/
def world (collection : Collection) (source : Endpoint → Source) (uptime : Nat := 0) : World :=
  let plan := collection.plan
  { clockEnd := clockRange - uptime
    pollers := plan.roster.endpoints.map fun endpoint =>
      { poller := { node := endpoint.name, source := source endpoint, interval := plan.interval } }
    aggregator := some
      { aggregator :=
          { roster := plan.roster
            divisors := plan.divisors
            logs := .ofNodes plan.roster.names fun _ => {}
            interval := plan.interval } } }

def refusingSource (endpoint : Endpoint) : Source :=
  { description := Http.description endpoint.url
    outcome := fun _ => Http.refused
    delay := fun _ => 0 }

def event (message : String) (values : List (String × String)) : Event :=
  { level := .info, origin := .collector, message, values }

def startingEvent (collection : Collection) : Event :=
  let plan := collection.plan
  event "starting collection"
    [numberValue "nodes" plan.roster.size, numberValue "scale" plan.roster.scaleCount,
     numberValue "side" plan.roster.sideCount, intervalValue plan.interval]

def stoppedEvent : Event := event "collection stopped" []

/-- How a run came out: a run that was not stopped has an end without success. -/
def outcome (w : World) : Except Abort Unit :=
  match w.result with
  | some (.error e) => .error (e.abort.within "aggregation stopped")
  | _ => .ok ()

def events (collection : Collection) (w : World) : List Event :=
  let ending :=
    match outcome w with
    | .ok () => [stoppedEvent]
    | .error _ => []
  collection.startingEvent :: w.journal.toList ++ ending

/-- Moves that a stopped run needs at most: ten for each task. -/
def stopBound (w : World) : Nat := 10 * (w.pollers.length + 2)

def stop (w : World) : World :=
  let w := w.happen (.signal true)
  w.runToEnd (stopBound w)

end Collection

end FleetTelemetry
