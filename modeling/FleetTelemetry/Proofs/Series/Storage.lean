import FleetTelemetry.Proofs.Files.Writing
import FleetTelemetry.Proofs.Outcomes
import FleetTelemetry.Proofs.Series.Data
import FleetTelemetry.Series.Store

/-!
# Stores and their files

The file of a store holds the store's header and some rows, as many as the store counts. Appending
a row and compacting the file keep it so, and reading gives the newest of the rows.
-/

namespace FleetTelemetry.SeriesStore

open SeriesData

/-- The file at a path can be replaced: no directory is in its place or in that of the second
file. -/
def Replaceable (files : Files) (path : String) : Prop :=
  ∃ here there, files.locate path = .ok here ∧ files.entry? here ≠ some .directory ∧
    files.locate (compactionPath path) = .ok there ∧ files.entry? there ≠ some .directory

/-- The file of a store is where its path leads and holds the store's header and some rows. -/
structure Holds (store : SeriesStore) (files : Files) (rows : List SeriesRow) : Prop where
  opens : files.openFile store.path = .ok store.content
  content_eq : files.content store.content = (print { header := store.header, rows }).toUTF8
  values_length : ∀ row ∈ rows, row.values.length = store.header.fields.length

/-- A store whose file holds some rows. -/
structure OnDisk (store : SeriesStore) (files : Files) (rows : List SeriesRow) : Prop where
  replaceable : Replaceable files store.path
  opens : files.openFile store.path = .ok store.content
  content_eq : files.content store.content = (print { header := store.header, rows }).toUTF8
  stored_eq : store.stored = rows.length
  values_length : ∀ row ∈ rows, row.values.length = store.header.fields.length

variable {store store' : SeriesStore} {files files' : Files} {path : String}
  {rows : List SeriesRow}

theorem exists_appendRow (store : SeriesStore) (files : Files) (row : SeriesRow) :
    ∃ store' files', store.appendRow files row = (store', files') ∧ store'.path = store.path ∧
      store'.header = store.header ∧ store'.stored = store.stored + 1 ∧
      files' = files.append store.content (String.ofList row.line) :=
  ⟨_, _, rfl, rfl, rfl, rfl, rfl⟩

theorem Replaceable.of_sameDirectories (h : Replaceable files path)
    (hsame : files.SameDirectories files') : Replaceable files' path := by
  obtain ⟨here, there, hhere, hentry, hthere, hsecond⟩ := h
  refine ⟨here, there, hsame.locate_eq_ok hhere, ?_, hsame.locate_eq_ok hthere, ?_⟩
  · rwa [Ne, hsame.directory_iff]
  · rwa [Ne, hsame.directory_iff]

private theorem exists_replaceFile (h : Replaceable files path) (data : SeriesData) :
    ∃ number files', replaceFile files path data = .ok (number, files') ∧
      files.SameDirectories files' ∧ files'.openFile path = .ok number ∧
      files'.content number = data.print.toUTF8 := by
  obtain ⟨here, there, hhere, hentry, hthere, hsecond⟩ := id h
  obtain ⟨number, second, hwrite, hwritten⟩ := Files.exists_write hthere hsecond data.print
  have hnow : second.entry? here ≠ some .directory := by
    rwa [Ne, hwritten.same.directory_iff]
  obtain ⟨files', hrename, hrenamed⟩ := Files.exists_rename (hwritten.same.locate_eq_ok hthere)
    (hwritten.same.locate_eq_ok hhere) hwritten.entry_eq hnow
  have hsame := hwritten.same.trans hrenamed.same
  have hopen := Files.openFile_eq_ok.mpr ⟨here, hsame.locate_eq_ok hhere, hrenamed.entry_eq⟩
  refine ⟨number, files', ?_, hsame, hopen, ?_⟩
  · simp only [replaceFile, hwrite, hrename, hopen, bind, Except.bind]
    rfl
  · rw [hrenamed.content_eq, hwritten.content_eq]

private theorem replaceable_of_replaceFile {number content : Nat} {data : SeriesData}
    (hopen : files.openFile path = .ok number)
    (h : replaceFile files path data = .ok (content, files')) : Replaceable files path := by
  obtain ⟨here, hhere, hentry⟩ := Files.openFile_eq_ok.mp hopen
  obtain ⟨second, hwrite, -⟩ := bind_eq_ok.mp h
  obtain ⟨⟨_, created⟩, hcreate, -⟩ := bind_eq_ok.mp hwrite
  obtain ⟨there, hthere, hsecond⟩ := Files.locate_of_create hcreate
  exact ⟨here, there, hhere, by simp [hentry], hthere, hsecond⟩

/-- Where a file can be, only a directory in the place of the second file keeps it from being
replaced. -/
theorem replaceable_of_isDirectory {here : Location} (hhere : files.locate path = .ok here)
    (hentry : files.entry? here ≠ some .directory)
    (hsecond : files.isDirectory (compactionPath path) = false) : Replaceable files path := by
  have hextension : '/' ∉ (fileExtension ++ ".tmp").toList := by decide
  obtain ⟨there, hthere⟩ := Files.exists_locate_withExtension hextension hhere
  exact ⟨here, there, hhere, hentry, hthere, Files.ne_directory_of_isDirectory hsecond hthere⟩

theorem exists_openFile_of_read {data : SeriesData} (h : read files path = .ok data) :
    ∃ number, files.openFile path = .ok number := by
  unfold read at h
  split at h
  · cases h
  · next text htext => exact Files.exists_openFile_of_readText htext

theorem exists_compact_of_read {data : SeriesData} (hread : read files store.path = .ok data)
    (h : Replaceable files store.path) :
    ∃ number files', store.compact files =
        .ok ({ store with content := number, stored := data.rows.length }, files') ∧
      files.SameDirectories files' ∧ files'.openFile store.path = .ok number ∧
      files'.content number = data.print.toUTF8 := by
  obtain ⟨number, files', hreplace, hafter⟩ := exists_replaceFile h data
  refine ⟨number, files', ?_, hafter⟩
  simp only [compact, hread, hreplace]

theorem replaceable_of_compact (h : store.compact files = .ok (store', files')) :
    Replaceable files store.path := by
  unfold compact at h
  cases hread : read files store.path with
  | error e => simp [hread] at h
  | ok data =>
    simp only [hread] at h
    cases hreplace : replaceFile files store.path data with
    | error fault => simp [hreplace] at h
    | ok replaced =>
      obtain ⟨number, hopen⟩ := exists_openFile_of_read hread
      exact replaceable_of_replaceFile hopen hreplace

namespace Holds

theorem read_eq (h : Holds store files rows) :
    read files store.path =
      .ok { header := store.header, rows := newest store.header.rows.toNat rows } := by
  have htext := Files.readText_eq_ok h.opens h.content_eq
  have hparse := parse_print { header := store.header, rows } h.values_length
  simp only [read, htext, hparse]

theorem appendRow (h : Holds store files rows) {row : SeriesRow}
    (hrow : row.values.length = store.header.fields.length) :
    Holds (store.appendRow files row).1 (store.appendRow files row).2 (rows ++ [row]) where
  opens := Files.openFile_append h.opens _ _
  content_eq := by
    show (files.append store.content (String.ofList row.line)).content store.content =
      (print { header := store.header, rows := rows ++ [row] }).toUTF8
    rw [Files.content_append, h.content_eq, print_append]
    simp
  values_length := by
    intro other hother
    cases List.mem_append.mp hother with
    | inl hold => exact h.values_length other hold
    | inr hnew =>
      obtain rfl := List.mem_singleton.mp hnew
      exact hrow

theorem exists_compact (h : Holds store files rows) (hreplaceable : Replaceable files store.path) :
    ∃ store' files', store.compact files = .ok (store', files') ∧
      store'.path = store.path ∧ store'.header = store.header ∧
      store'.lastUpdate = store.lastUpdate ∧
      store'.stored = (newest store.header.rows.toNat rows).length ∧
      files.SameDirectories files' ∧
      Holds store' files' (newest store.header.rows.toNat rows) := by
  obtain ⟨number, files', hcompact, hsame, hopen, hcontent⟩ :=
    exists_compact_of_read h.read_eq hreplaceable
  refine ⟨_, files', hcompact, rfl, rfl, rfl, rfl, hsame, hopen, hcontent, ?_⟩
  intro row hrow
  exact h.values_length row ((newest_suffix _ rows).subset hrow)

end Holds

theorem OnDisk.holds (h : OnDisk store files rows) : Holds store files rows :=
  ⟨h.opens, h.content_eq, h.values_length⟩

theorem holds_create {fields : List SeriesField} {step : Span} {capacity : UInt64}
    (h : create files path fields step capacity = .ok (store, files')) :
    store.path = path ∧ store.lastUpdate = none ∧ store.stored = 0 ∧
      newHeader fields step capacity = .ok store.header ∧ files.SameDirectories files' ∧
      (∃ here, files.locate path = .ok here ∧ files.entry? here ≠ some .directory) ∧
      Holds store files' [] := by
  unfold create at h
  cases hheader : newHeader fields step capacity with
  | error e => simp [hheader] at h
  | ok header =>
    cases hcreate : files.create path with
    | error fault => simp [hheader, hcreate] at h
    | ok created =>
      obtain ⟨content, after⟩ := created
      simp only [hheader, hcreate, Except.ok.injEq, Prod.mk.injEq] at h
      obtain ⟨rfl, rfl⟩ := h
      obtain ⟨here, hhere, hentry⟩ := Files.locate_of_create hcreate
      obtain ⟨number, files', hagain, hwritten⟩ := Files.exists_create hhere hentry
      rw [hcreate] at hagain
      obtain ⟨rfl, rfl⟩ := Prod.mk.inj (Except.ok.inj hagain)
      have hprinted := hwritten.append (print { header, rows := [] })
      have hopen := Files.openFile_eq_ok.mpr
        ⟨here, hprinted.same.locate_eq_ok hhere, hprinted.entry_eq⟩
      refine ⟨rfl, rfl, rfl, rfl, hprinted.same, ⟨here, hhere, hentry⟩, hopen, ?_, by simp⟩
      rw [hprinted.content_eq, ByteArray.empty_append]

theorem onDisk_create {fields : List SeriesField} {step : Span} {capacity : UInt64}
    (h : create files path fields step capacity = .ok (store, files'))
    (hsecond : files.isDirectory (compactionPath path) = false) :
    store.path = path ∧ store.lastUpdate = none ∧
      newHeader fields step capacity = .ok store.header ∧ OnDisk store files' [] := by
  obtain ⟨rfl, hnone, hstored, hheader, hsame, ⟨here, hhere, hentry⟩, hholds⟩ := holds_create h
  have hreplaceable := replaceable_of_isDirectory hhere hentry hsecond
  exact ⟨rfl, hnone, hheader, hreplaceable.of_sameDirectories hsame, hholds.opens,
    hholds.content_eq, hstored, hholds.values_length⟩

end FleetTelemetry.SeriesStore
