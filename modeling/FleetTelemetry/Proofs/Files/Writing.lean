import FleetTelemetry.Proofs.Files.Places
import FleetTelemetry.Proofs.Outcomes
import FleetTelemetry.Proofs.Text.Encoding

/-!
# Writing and replacing files

A path that leads to no directory can be written, and the file there can be replaced by another.
Neither makes or removes a directory.
-/

namespace FleetTelemetry.Files

variable {files files' files'' : Files} {path : String} {here there : Location} {number : Nat}

/-- The files after a content with some bytes was put at a location. -/
structure Written (files files' : Files) (there : Location) (number : Nat) (bytes : ByteArray) :
    Prop where
  same : SameDirectories files files'
  entry_eq : files'.entry? there = some (.file number)
  content_eq : files'.content number = bytes

private theorem entry_eq_of_ne_nil (h : here ≠ []) : files.entry? here = files.entries[here]? :=
  if_neg h

private theorem content_setContent (files : Files) (number : Nat) (bytes : ByteArray) :
    (files.setContent number bytes).content number = bytes := by
  simp [setContent, content]

private theorem sameDirectories_setContent (files : Files) (number : Nat) (bytes : ByteArray) :
    SameDirectories files (files.setContent number bytes) where
  base_eq := rfl
  directory_iff := fun _ => Iff.rfl

theorem sameDirectories_append (files : Files) (number : Nat) (text : String) :
    SameDirectories files (files.append number text) :=
  sameDirectories_setContent files number _

theorem content_append (files : Files) (number : Nat) (text : String) :
    (files.append number text).content number = files.content number ++ text.toUTF8 :=
  content_setContent files number _

theorem Written.append {bytes : ByteArray} (h : Written files files' there number bytes)
    (text : String) :
    Written files (files'.append number text) there number (bytes ++ text.toUTF8) where
  same := h.same.trans (sameDirectories_append files' number text)
  entry_eq := h.entry_eq
  content_eq := by rw [content_append, h.content_eq]

private theorem sameDirectories_insert {entries : Std.ExtTreeMap Location Entry}
    (hentry : files.entry? there ≠ some .directory) (hbase : files'.base = files.base)
    (hentries : files'.entries = entries.insert there (.file number))
    (hothers : ∀ here, here ≠ there → here ≠ [] →
      (entries[here]? = some Entry.directory ↔ files.entries[here]? = some Entry.directory)) :
    SameDirectories files files' ∧ files'.entry? there = some (.file number) := by
  have hthere : there ≠ [] := by
    intro h
    exact hentry (by rw [h]; rfl)
  have hnew : files'.entry? there = some (.file number) := by
    rw [entry_eq_of_ne_nil hthere, hentries, Std.ExtTreeMap.getElem?_insert_self]
  refine ⟨⟨hbase, ?_⟩, hnew⟩
  intro here
  by_cases hroot : here = []
  · subst hroot
    exact iff_of_true rfl rfl
  · by_cases heq : here = there
    · rw [heq, hnew]
      simp [hentry]
    · have hother : files'.entry? here = entries[here]? := by
        rw [entry_eq_of_ne_nil hroot, hentries, Std.ExtTreeMap.getElem?_insert]
        simp [Ne.symm heq]
      rw [hother, entry_eq_of_ne_nil hroot]
      exact hothers here heq hroot

theorem exists_create (hlocate : files.locate path = .ok there)
    (hentry : files.entry? there ≠ some .directory) :
    ∃ number files', files.create path = .ok (number, files') ∧
      Written files files' there number .empty := by
  cases hold : files.entry? there with
  | none =>
    let created : Files :=
      { files with
        entries := files.entries.insert there (.file files.next)
        contents := files.contents.insert files.next .empty
        next := files.next + 1 }
    have hcreate : files.create path = .ok (files.next, created) := by
      simp only [create, hlocate, hold, bind, Except.bind]
      rfl
    have hbase : created.base = files.base := rfl
    have hempty : created.content files.next = .empty := by
      simp [created, content]
    obtain ⟨hsame, hnew⟩ := sameDirectories_insert hentry hbase rfl fun _ _ _ => Iff.rfl
    exact ⟨files.next, created, hcreate, hsame, hnew, hempty⟩
  | some entry =>
    cases entry with
    | directory => exact absurd hold hentry
    | file number =>
      refine ⟨number, files.setContent number .empty, ?_, ?_⟩
      · simp only [create, hlocate, hold, bind, Except.bind]
      · exact ⟨sameDirectories_setContent files number _, hold, content_setContent files number _⟩

theorem locate_of_create (h : files.create path = .ok (number, files')) :
    ∃ there, files.locate path = .ok there ∧ files.entry? there ≠ some .directory := by
  simp only [create, bind, Except.bind] at h
  cases hlocate : files.locate path with
  | error fault => simp [hlocate] at h
  | ok there =>
    refine ⟨there, rfl, ?_⟩
    intro hentry
    simp [hlocate, hentry] at h

theorem exists_write (hlocate : files.locate path = .ok there)
    (hentry : files.entry? there ≠ some .directory) (text : String) :
    ∃ number files', files.write path text = .ok files' ∧
      Written files files' there number text.toUTF8 := by
  obtain ⟨number, files', hcreate, hwritten⟩ := exists_create hlocate hentry
  refine ⟨number, files'.append number text, ?_, ?_⟩
  · simp only [write, hcreate, bind, Except.bind]
    rfl
  · have happend := hwritten.append text
    rwa [ByteArray.empty_append] at happend

theorem exists_rename {source target : String} (hsource : files.locate source = .ok here)
    (htarget : files.locate target = .ok there) (hfile : files.entry? here = some (.file number))
    (hentry : files.entry? there ≠ some .directory) :
    ∃ files', files.rename source target = .ok files' ∧
      Written files files' there number (files.content number) := by
  let renamed : Files :=
    { files with entries := (files.entries.erase here).insert there (.file number) }
  have hrename : files.rename source target = .ok renamed := by
    simp only [rename, hsource, htarget, hfile, bind, Except.bind]
    rfl
  have hothers : ∀ other, other ≠ there → other ≠ [] →
      ((files.entries.erase here)[other]? = some .directory ↔
        files.entries[other]? = some .directory) := by
    intro other hother hroot
    rw [Std.ExtTreeMap.getElem?_erase]
    by_cases heq : here = other
    · subst heq
      have hold : files.entries[here]? = some (.file number) := by
        rwa [entry_eq_of_ne_nil hroot] at hfile
      simp [hold]
    · simp [heq]
  have hbase : renamed.base = files.base := rfl
  obtain ⟨hsame, hnew⟩ := sameDirectories_insert hentry hbase rfl hothers
  exact ⟨renamed, hrename, hsame, hnew, rfl⟩

theorem openFile_eq_ok :
    files.openFile path = .ok number ↔
      ∃ there, files.locate path = .ok there ∧ files.entry? there = some (.file number) := by
  simp only [openFile, lookup, bind, Except.bind]
  cases hlocate : files.locate path with
  | error fault => simp
  | ok there =>
    cases hentry : files.entry? there with
    | none => simp [hentry]
    | some entry => cases entry <;> simp [hentry]

theorem openFile_append (h : files.openFile path = .ok number) (other : Nat) (text : String) :
    (files.append other text).openFile path = .ok number := by
  obtain ⟨there, hlocate, hentry⟩ := openFile_eq_ok.mp h
  have hsame := sameDirectories_append files other text
  exact openFile_eq_ok.mpr ⟨there, hsame.locate_eq_ok hlocate, hentry⟩

theorem content_append_of_ne {other : Nat} (h : number ≠ other) (text : String) :
    (files.append other text).content number = files.content number := by
  simp [append, appendBytes, setContent, content, Std.ExtTreeMap.getElem?_insert, h.symm]

theorem read_eq_ok {bytes : ByteArray} (hopen : files.openFile path = .ok number)
    (hcontent : files.content number = bytes) : files.read path = .ok bytes := by
  simp only [read, hopen, hcontent, bind, Except.bind, pure, Except.pure]

theorem readText_eq_ok {text : String} (hopen : files.openFile path = .ok number)
    (hcontent : files.content number = text.toUTF8) : files.readText path = .ok text := by
  simp only [readText, read_eq_ok hopen hcontent, Text.fromUTF8?_toUTF8, bind, Except.bind]

theorem isDirectory_eq_true_iff : files.isDirectory path = true ↔
    ∃ there, files.locate path = .ok there ∧ files.entry? there = some .directory := by
  simp only [isDirectory, lookup, bind, Except.bind]
  cases hlocate : files.locate path with
  | error fault => simp
  | ok there =>
    cases hentry : files.entry? there with
    | none => simp [hentry]
    | some entry => cases entry <;> simp [hentry]

theorem create_of_isDirectory (h : files.isDirectory path = true) :
    files.create path = .error .isDirectory := by
  obtain ⟨there, hlocate, hentry⟩ := isDirectory_eq_true_iff.mp h
  simp only [create, hlocate, hentry, bind, Except.bind]

private theorem isDirectory_of_sameDirectories (h : SameDirectories files files')
    (hdirectory : files.isDirectory path = true) : files'.isDirectory path = true := by
  obtain ⟨there, hlocate, hentry⟩ := isDirectory_eq_true_iff.mp hdirectory
  exact isDirectory_eq_true_iff.mpr
    ⟨there, h.locate_eq_ok hlocate, (h.directory_iff there).mpr hentry⟩

theorem SameDirectories.isDirectory_eq (h : SameDirectories files files') (path : String) :
    files'.isDirectory path = files.isDirectory path :=
  Bool.eq_iff_iff.mpr
    ⟨isDirectory_of_sameDirectories h.symm, isDirectory_of_sameDirectories h⟩

theorem exists_openFile_of_readText {text : String} (h : files.readText path = .ok text) :
    ∃ number, files.openFile path = .ok number := by
  obtain ⟨bytes, hread, -⟩ := bind_eq_ok.mp h
  obtain ⟨number, hopen, -⟩ := bind_eq_ok.mp hread
  exact ⟨number, hopen⟩

theorem ne_directory_of_isDirectory (h : files.isDirectory path = false)
    (hlocate : files.locate path = .ok there) : files.entry? there ≠ some .directory := by
  intro hentry
  rw [isDirectory_eq_true_iff.mpr ⟨there, hlocate, hentry⟩] at h
  cases h

end FleetTelemetry.Files
