import FleetTelemetry.Proofs.Series.Storage

/-!
# Compactions without their second file

A compaction needs a second file, and may be refused it. For that the steps of an update are written
with the way in which files are created as a parameter. Whatever is refused, the row of an update
that passes its checks is in the file of its store.
-/

namespace FleetTelemetry.SeriesStore

open SeriesData

abbrev Creation := Files → String → Except FileFault (Nat × Files)

def writeVia (create : Creation) (files : Files) (path text : String) : Except FileFault Files := do
  let (number, files) ← create files path
  return files.append number text

def replaceFileVia (create : Creation) (files : Files) (path : String) (data : SeriesData) :
    Except FileFault (Nat × Files) := do
  let second := compactionPath path
  let files ← writeVia create files second data.print
  let files ← files.rename second path
  let content ← files.openFile path
  return (content, files)

def compactVia (create : Creation) (store : SeriesStore) (files : Files) :
    Except StoreError (SeriesStore × Files) :=
  match read files store.path with
  | .error e => .error e
  | .ok data =>
    match replaceFileVia create files store.path data with
    | .error fault => .error (.files fault)
    | .ok (content, files) => .ok ({ store with content, stored := data.rows.length }, files)

/-- An update that creates the second file of its compaction, if it comes to one, in a given way. -/
def updateVia (create : Creation) (store : SeriesStore) (files : Files) (timestamp : UInt64)
    (values : List UInt64) : Except StoreError Unit × SeriesStore × Files :=
  match store.checkUpdate timestamp values with
  | .error e => (.error e, store, files)
  | .ok () =>
    let (store, files) := store.appendRow files { timestamp, values }
    let limit := 2 * store.header.rows.toNat
    if numberBound ≤ limit then (.error .overflow, store, files)
    else if store.stored < limit then (.ok (), store, files)
    else
      match compactVia create store files with
      | .error e => (.error e, store, files)
      | .ok (store, files) => (.ok (), store, files)

private theorem writeVia_create : writeVia Files.create = Files.write := rfl

private theorem replaceFileVia_create : replaceFileVia Files.create = replaceFile := by
  funext files path data
  rw [replaceFileVia, replaceFile, writeVia_create]

private theorem compactVia_create : compactVia Files.create = compact := by
  funext store files
  cases hread : read files store.path with
  | error e => simp only [compactVia, compact, hread]
  | ok data =>
    cases hreplace : replaceFile files store.path data <;>
      simp only [compactVia, compact, replaceFileVia_create, hread, hreplace]

private theorem updateVia_create : updateVia Files.create = update := by
  funext store files timestamp values
  rewrite [updateVia, update, compactVia_create]
  cases store.checkUpdate timestamp values <;> rfl

/-- An update whose compaction, if it comes to one, is refused its second file with a fault. -/
def updateUnless (refusal : Option FileFault) :
    SeriesStore → Files → UInt64 → List UInt64 → Except StoreError Unit × SeriesStore × Files :=
  match refusal with
  | none => update
  | some fault => updateVia fun _ _ => .error fault

/-- Files are created as usual unless that is refused with a fault. -/
def creating : Option FileFault → Creation
  | none => Files.create
  | some fault => fun _ _ => .error fault

private theorem updateUnless_eq (refusal : Option FileFault) :
    updateUnless refusal = updateVia (creating refusal) := by
  cases refusal with
  | none => exact updateVia_create.symm
  | some fault => rfl

theorem updateUnless_of_checkUpdate {refusal : Option FileFault} {store : SeriesStore}
    {files : Files} {timestamp : UInt64} {values : List UInt64} {e : StoreError}
    (h : store.checkUpdate timestamp values = .error e) :
    updateUnless refusal store files timestamp values = (.error e, store, files) := by
  rw [updateUnless_eq, updateVia, h]

private theorem update_of_isDirectory {store : SeriesStore} {files : Files}
    (h : files.isDirectory (compactionPath store.path) = true) (row : SeriesRow) :
    store.update files row.timestamp row.values =
      updateUnless (some .isDirectory) store files row.timestamp row.values := by
  obtain ⟨store₁, files₁, happend, hpath, -, -, hfiles⟩ := exists_appendRow store files row
  have hsame := files.sameDirectories_append store.content (String.ofList row.line)
  have hdirectory : files₁.isDirectory (compactionPath store₁.path) = true := by
    rw [hfiles, hpath, hsame.isDirectory_eq, h]
  have hcreate := Files.create_of_isDirectory hdirectory
  have hcompact : compactVia Files.create store₁ files₁ =
      compactVia (fun _ _ => .error .isDirectory) store₁ files₁ := by
    simp only [compactVia, replaceFileVia, writeVia, hcreate, bind, Except.bind]
  rw [← updateVia_create]
  simp only [updateUnless, updateVia, happend, hcompact]

/-- The fault with which the second file of a compaction is refused, if it is: a given one, or that
of a directory in its place. -/
def secondFault (refusal : Option FileFault) (files : Files) (path : String) : Option FileFault :=
  match refusal with
  | some fault => some fault
  | none => if files.isDirectory (compactionPath path) then some .isDirectory else none

private theorem secondFault_eq_none_iff {refusal : Option FileFault} {files : Files}
    {path : String} :
    secondFault refusal files path = none ↔
      refusal = none ∧ files.isDirectory (compactionPath path) = false := by
  cases refusal with
  | none => simp [secondFault]
  | some fault => simp [secondFault]

private theorem updateUnless_secondFault (refusal : Option FileFault) (store : SeriesStore)
    (files : Files)
    (row : SeriesRow) :
    updateUnless (secondFault refusal files store.path) store files row.timestamp row.values =
      updateUnless refusal store files row.timestamp row.values := by
  cases refusal with
  | some fault => rfl
  | none =>
    rw [secondFault]
    cases hdirectory : files.isDirectory (compactionPath store.path) with
    | true => exact (update_of_isDirectory hdirectory row).symm
    | false => rfl

/-- What comes of an update whose row was appended, by the number of rows that the store then
counts: what it returns, and the files and the rows in the file of the store afterwards. -/
inductive Outcome (capacity counted : Nat) (files : Files) (rows : List SeriesRow) :
    Option FileFault → Except StoreError Unit → Files → List SeriesRow → Prop where
  | overflow {fault? : Option FileFault} (h : numberBound ≤ 2 * capacity) :
      Outcome capacity counted files rows fault? (.error .overflow) files rows
  | early {fault? : Option FileFault} (h : counted < 2 * capacity) :
      Outcome capacity counted files rows fault? (.ok ()) files rows
  | failed {fault : FileFault} (hbound : 2 * capacity < numberBound) (h : 2 * capacity ≤ counted) :
      Outcome capacity counted files rows (some fault) (.error (.files fault)) files rows
  | compacted {files' : Files} (hbound : 2 * capacity < numberBound) (h : 2 * capacity ≤ counted) :
      Outcome capacity counted files rows none (.ok ()) files' (newest capacity rows)

/-- What every update that passes its checks leaves, whatever it returns. -/
structure Updated (store : SeriesStore) (files : Files) (rows : List SeriesRow) (row : SeriesRow)
    (store' : SeriesStore) (files' : Files) (rows' : List SeriesRow) : Prop where
  path_eq : store'.path = store.path
  header_eq : store'.header = store.header
  lastUpdate_eq : store'.lastUpdate = some row.timestamp
  same : files.SameDirectories files'
  holds : Holds store' files' rows'
  stored_eq : store.stored = rows.length → store'.stored = rows'.length

variable {store store' : SeriesStore} {files files' : Files} {rows rows' : List SeriesRow}
  {row : SeriesRow}

theorem Updated.lastUpdate_eq_getLast? (h : Updated store files rows row store' files' rows')
    (kept : List SeriesRow) :
    store'.lastUpdate = (kept ++ [row]).getLast?.map (·.timestamp) := by
  rw [h.lastUpdate_eq, List.getLast?_concat]
  rfl

private theorem Holds.updated_appendRow (h : Holds store files rows)
    (hrow : row.values.length = store.header.fields.length) :
    Updated store files rows row (store.appendRow files row).1 (store.appendRow files row).2
      (rows ++ [row]) where
  path_eq := rfl
  header_eq := rfl
  lastUpdate_eq := rfl
  same := files.sameDirectories_append store.content _
  holds := h.appendRow hrow
  stored_eq := by
    intro hstored
    rw [List.length_append, ← hstored]
    rfl

private theorem Holds.compactVia_refused (h : Holds store files rows) (fault : FileFault) :
    compactVia (creating (some fault)) store files = .error (.files fault) := by
  simp only [compactVia, h.read_eq]
  rfl

theorem Holds.replaceable (h : Holds store files rows)
    (hsecond : files.isDirectory (compactionPath store.path) = false) :
    Replaceable files store.path := by
  obtain ⟨here, hhere, hentry⟩ := Files.openFile_eq_ok.mp h.opens
  exact replaceable_of_isDirectory hhere (by simp [hentry]) hsecond

private theorem Replaceable.secondFault_eq_none {path : String} (h : Replaceable files path) :
    secondFault none files path = none := by
  obtain ⟨-, there, -, -, hthere, hentry⟩ := h
  refine secondFault_eq_none_iff.mpr ⟨rfl, Bool.eq_false_iff.mpr fun hdirectory => ?_⟩
  obtain ⟨there', hthere', hentry'⟩ := Files.isDirectory_eq_true_iff.mp hdirectory
  cases hthere.symm.trans hthere'
  exact hentry hentry'

theorem Updated.exists_compact (h : Updated store files rows row store' files' rows')
    (hsecond : files.isDirectory (compactionPath store.path) = false) :
    ∃ store'' files'', store'.compact files' = .ok (store'', files'') ∧
      Updated store files rows row store'' files'' (newest store.header.rows.toNat rows') := by
  have hreplaceable : Replaceable files' store'.path := by
    apply h.holds.replaceable
    rw [h.path_eq, h.same.isDirectory_eq, hsecond]
  obtain ⟨store'', files'', hcompact, hpath, hheader, hlast, hstored, hsame, hholds⟩ :=
    h.holds.exists_compact hreplaceable
  rw [h.header_eq] at hstored hholds
  exact ⟨store'', files'', hcompact, hpath.trans h.path_eq, hheader.trans h.header_eq,
    hlast.trans h.lastUpdate_eq, h.same.trans hsame, hholds, fun _ => hstored⟩

theorem Holds.updateUnless_spec (h : Holds store files rows)
    (hrow : row.values.length = store.header.fields.length)
    (hcheck : store.checkUpdate row.timestamp row.values = .ok ()) (refusal : Option FileFault) :
    ∃ result store' files' rows',
      updateUnless refusal store files row.timestamp row.values = (result, store', files') ∧
      Updated store files rows row store' files' rows' ∧
      Outcome store.header.rows.toNat (store.stored + 1)
        (files.append store.content (String.ofList row.line)) (rows ++ [row])
        (secondFault refusal files store.path) result files' rows' := by
  have happended := h.updated_appendRow hrow
  obtain ⟨store₁, files₁, happend, -, hheader, hmore, hfiles⟩ := exists_appendRow store files row
  rw [happend] at happended
  rw [← updateUnless_secondFault, updateUnless_eq, updateVia, hcheck]
  simp only [happend, ← hfiles, hheader, hmore]
  by_cases hbound : numberBound ≤ 2 * store.header.rows.toNat
  · rw [if_pos hbound]
    exact ⟨_, store₁, files₁, _, rfl, happended, .overflow hbound⟩
  rw [if_neg hbound]
  by_cases hroom : store.stored + 1 < 2 * store.header.rows.toNat
  · rw [if_pos hroom]
    exact ⟨_, store₁, files₁, _, rfl, happended, .early hroom⟩
  rw [if_neg hroom]
  have hfull := Nat.le_of_not_lt hroom
  have hless := Nat.lt_of_not_le hbound
  cases hfault : secondFault refusal files store.path with
  | some fault =>
    rw [happended.holds.compactVia_refused fault]
    exact ⟨_, store₁, files₁, _, rfl, happended, .failed hless hfull⟩
  | none =>
    have hsecond := (secondFault_eq_none_iff.mp hfault).2
    obtain ⟨store', files', hcompact, hcompacted⟩ := happended.exists_compact hsecond
    refine ⟨.ok (), store', files', _, ?_, hcompacted, .compacted hless hfull⟩
    rw [creating, compactVia_create, hcompact]

namespace Outcome

variable {capacity counted : Nat} {appended : List SeriesRow} {fault? : Option FileFault}
  {result : Except StoreError Unit}

theorem newest_eq (h : Outcome capacity counted files appended fault? result files' rows) :
    newest capacity rows = newest capacity appended := by
  cases h with
  | compacted => exact newest_newest capacity appended
  | _ => rfl

/-- With twice the capacity in 64 bits an update fails only for want of the second file. -/
theorem of_lt (h : Outcome capacity counted files appended fault? result files' rows)
    (hbound : 2 * capacity < numberBound) :
    result = .ok () ∨ ∃ fault, fault? = some fault ∧ result = .error (.files fault) := by
  cases h with
  | overflow h => exact absurd hbound (Nat.not_lt.mpr h)
  | failed => exact .inr ⟨_, rfl, rfl⟩
  | _ => exact .inl rfl

theorem length_lt (h : Outcome capacity counted files appended none (.ok ()) files' rows)
    (hpositive : 0 < capacity) (hcounted : counted = appended.length) :
    rows.length < 2 * capacity := by
  cases h with
  | early h => rwa [← hcounted]
  | compacted =>
    have hlength := length_newest capacity appended
    omega

end Outcome

/-- Where the file can be replaced, an update that passes its checks succeeds, and the file can be
replaced after it. -/
theorem OnDisk.exists_update (h : OnDisk store files rows)
    (hbound : 2 * store.header.rows.toNat < numberBound)
    (hrow : row.values.length = store.header.fields.length)
    (hcheck : store.checkUpdate row.timestamp row.values = .ok ()) :
    ∃ store' files' rows', store.update files row.timestamp row.values = (.ok (), store', files') ∧
      Updated store files rows row store' files' rows' ∧ OnDisk store' files' rows' ∧
      Outcome store.header.rows.toNat (store.stored + 1)
        (files.append store.content (String.ofList row.line)) (rows ++ [row]) none (.ok ()) files'
        rows' := by
  obtain ⟨result, store', files', rows', hupdate, hafter, houtcome⟩ :=
    h.holds.updateUnless_spec hrow hcheck none
  rw [h.replaceable.secondFault_eq_none] at houtcome
  obtain rfl : result = .ok () := by simpa using houtcome.of_lt hbound
  have hreplaceable := h.replaceable.of_sameDirectories hafter.same
  rw [← hafter.path_eq] at hreplaceable
  exact ⟨store', files', rows', hupdate, hafter,
    ⟨hreplaceable, hafter.holds.opens, hafter.holds.content_eq, hafter.stored_eq h.stored_eq,
      hafter.holds.values_length⟩, houtcome⟩

end FleetTelemetry.SeriesStore
