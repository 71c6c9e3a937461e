import FleetTelemetry.Files.Basic
import FleetTelemetry.Series.Data
import FleetTelemetry.Time.Span

/-!
# Series stores

A store appends one row per update to a series file. When the file holds twice as many rows as are
to be kept, it is compacted: the rows to keep are written to a second file, which then takes the
place of the first. A compaction that fails leaves the file as it is and is tried again after the
next update.
-/

namespace FleetTelemetry

/-- A series file that is being written. -/
structure SeriesStore where
  path : String
  header : SeriesHeader
  /-- The content to which rows are appended. -/
  content : Nat
  lastUpdate : Option UInt64
  stored : Nat

namespace SeriesStore

def fileExtension : String := "series"

def seriesPath (directory node : String) : String :=
  Path.join directory (node ++ "." ++ fileExtension)

/-- Where a compaction writes before it renames. -/
def compactionPath (path : String) : String :=
  Path.withExtension path (fileExtension ++ ".tmp")

def numberBound : Nat := UInt64.size

/-- The header of a new store: whole seconds between updates but at least one, and twice as many
until an update is missed. -/
def newHeader (fields : List SeriesField) (step : Span) (rows : UInt64) :
    Except StoreError SeriesHeader :=
  let seconds := max 1 step.seconds
  if rows = 0 then .error (.format .noCapacity)
  else if numberBound ≤ 2 * seconds then .error .overflow
  else
    .ok { step := UInt64.ofNat seconds, heartbeat := UInt64.ofNat (2 * seconds), rows, fields }

/-- Makes a store, over any file that was there. -/
def create (files : Files) (path : String) (fields : List SeriesField) (step : Span)
    (rows : UInt64) : Except StoreError (SeriesStore × Files) :=
  match newHeader fields step rows with
  | .error e => .error e
  | .ok header =>
    match files.create path with
    | .error fault => .error (.files fault)
    | .ok (content, files) =>
      .ok ({ path, header, content, lastUpdate := none, stored := 0 },
        files.append content (SeriesData.print { header, rows := [] }))

def read (files : Files) (path : String) : Except StoreError SeriesData :=
  match files.readText path with
  | .error fault => .error (.files fault)
  | .ok text => SeriesData.parse text

/-- Puts a series in the place of the file at a path, by way of a second file. Returns the content
that the path then has. -/
def replaceFile (files : Files) (path : String) (data : SeriesData) :
    Except FileFault (Nat × Files) := do
  let second := compactionPath path
  let files ← files.write second data.print
  let files ← files.rename second path
  let content ← files.openFile path
  return (content, files)

def compact (store : SeriesStore) (files : Files) : Except StoreError (SeriesStore × Files) :=
  match read files store.path with
  | .error e => .error e
  | .ok data =>
    match replaceFile files store.path data with
    | .error fault => .error (.files fault)
    | .ok (content, files) => .ok ({ store with content, stored := data.rows.length }, files)

def checkUpdate (store : SeriesStore) (timestamp : UInt64) (values : List UInt64) :
    Except StoreError Unit :=
  if values.length ≠ store.header.fields.length then
    .error (.arity store.header.fields.length values.length)
  else
    match store.lastUpdate with
    | none => .ok ()
    | some last => if timestamp ≤ last then .error (.stale timestamp last) else .ok ()

def appendRow (store : SeriesStore) (files : Files) (row : SeriesRow) : SeriesStore × Files :=
  ({ store with lastUpdate := some row.timestamp, stored := store.stored + 1 },
    files.append store.content (String.ofList row.line))

/-- Adds an update to a store. The row is kept also when the compaction after it fails. -/
def update (store : SeriesStore) (files : Files) (timestamp : UInt64) (values : List UInt64) :
    Except StoreError Unit × SeriesStore × Files :=
  match store.checkUpdate timestamp values with
  | .error e => (.error e, store, files)
  | .ok () =>
    let (store, files) := store.appendRow files { timestamp, values }
    let limit := 2 * store.header.rows.toNat
    if numberBound ≤ limit then (.error .overflow, store, files)
    else if store.stored < limit then (.ok (), store, files)
    else
      match store.compact files with
      | .error e => (.error e, store, files)
      | .ok (store, files) => (.ok (), store, files)

end SeriesStore

end FleetTelemetry
