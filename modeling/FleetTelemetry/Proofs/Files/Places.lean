import FleetTelemetry.Files.Basic

/-!
# Where paths lead

Where a path leads depends on the directories alone, so it stays the same while files are written,
renamed and replaced. A path with another extension leads into the same directory.
-/

namespace FleetTelemetry

open Text

namespace Path

/-- The part of a path up to its last slash is empty or ends in a slash. -/
private def IsFront (front : List Char) : Prop :=
  front = [] ∨ ∃ directory, front = directory ++ ['/']

private theorem exists_front (text : List Char) :
    ∃ front, IsFront front ∧ text = front ++ (reversedName text).reverse := by
  have hsplit := List.takeWhile_append_dropWhile (p := (· ≠ '/')) (l := text.reverse)
  refine ⟨(text.reverse.dropWhile (· ≠ '/')).reverse, ?_, ?_⟩
  · have hhead := List.head?_dropWhile_not (· ≠ '/') text.reverse
    cases hdrop : text.reverse.dropWhile (· ≠ '/') with
    | nil => exact .inl rfl
    | cons c rest =>
      rw [hdrop] at hhead
      have hslash : c = '/' := by simpa using hhead
      refine .inr ⟨rest.reverse, ?_⟩
      rw [hslash, List.reverse_cons]
  · rw [reversedName, ← List.reverse_append, hsplit, List.reverse_reverse]

private theorem not_mem_reversedName (text : List Char) : '/' ∉ reversedName text := by
  intro h
  have hall := List.all_takeWhile (p := (· ≠ '/')) (l := text.reverse)
  have hslash := List.all_eq_true.mp hall '/' h
  simp at hslash

private theorem exists_withExtension (path : String) {extension : String}
    (hextension : '/' ∉ extension.toList) :
    ∃ front name name', IsFront front ∧ '/' ∉ name ∧ '/' ∉ name' ∧
      path.toList = front ++ name ∧ (withExtension path extension).toList = front ++ name' := by
  obtain ⟨front, hfront, htext⟩ := exists_front path.toList
  have hname : '/' ∉ (reversedName path.toList).reverse := by
    rw [List.mem_reverse]
    exact not_mem_reversedName path.toList
  generalize hlast : (reversedName path.toList).reverse = name at htext hname
  have hlength : (reversedName path.toList).length = name.length := by
    rw [← hlast, List.length_reverse]
  have hkept : ∃ kept, '/' ∉ kept ∧
      (withExtension path extension).toList = front ++ (kept ++ '.' :: extension.toList) := by
    unfold withExtension
    simp only [String.toList_ofList]
    split
    case isTrue => exact ⟨name, hname, by rw [htext, List.append_assoc]⟩
    case isFalse hstem =>
      generalize hshorter : (reversedName path.toList).dropWhile (· ≠ '.') = stem at hstem
      have hstem_le : stem.length ≤ name.length := by
        rw [← hshorter, ← hlength]
        exact (List.dropWhile_suffix _).length_le
      have htake : path.toList.take (path.toList.length - (name.length - stem.length + 1)) =
          front ++ name.take (name.length - (name.length - stem.length + 1)) := by
        rw [htext, List.length_append, List.take_append, List.take_of_length_le (by omega)]
        congr 2
        omega
      refine ⟨name.take (name.length - (name.length - stem.length + 1)), ?_, ?_⟩
      · exact fun h => hname (List.mem_of_mem_take h)
      · rw [hlength, htake, List.append_assoc]
  obtain ⟨kept, hslash, hpath⟩ := hkept
  refine ⟨front, name, kept ++ '.' :: extension.toList, hfront, hname, ?_, htext, hpath⟩
  simp [hslash, hextension]

theorem pieces_slash (directory rest : List Char) :
    pieces '/' (directory ++ '/' :: rest) = pieces '/' directory ++ pieces '/' rest := by
  induction directory with
  | nil => simp [pieces]
  | cons c directory ih =>
    by_cases hc : c = '/'
    · simp [pieces, hc, ih]
    · cases hpieces : pieces '/' directory with
      | nil => exact absurd hpieces (pieces_ne_nil '/' directory)
      | cons piece others => simp [pieces, hc, ih, hpieces]

private theorem exists_pieces {front : List Char} (hfront : IsFront front) :
    ∃ way, ∀ name, '/' ∉ name → pieces '/' (front ++ name) = way ++ [name] := by
  cases hfront with
  | inl hnil =>
    refine ⟨[], ?_⟩
    intro name hname
    rw [hnil, List.nil_append, List.nil_append, pieces_of_not_mem hname]
  | inr hslash =>
    obtain ⟨directory, rfl⟩ := hslash
    refine ⟨pieces '/' directory, ?_⟩
    intro name hname
    rw [List.append_assoc, List.singleton_append, pieces_slash, pieces_of_not_mem hname]

private theorem head?_front {front name : List Char} (hfront : IsFront front) (hname : '/' ∉ name) :
    (front ++ name).head? = some '/' ↔ front.head? = some '/' := by
  cases front with
  | nil =>
    have hhead : name.head? ≠ some '/' := fun h => hname (List.mem_of_head? h)
    simp [hhead]
  | cons c front => simp

private theorem names_withExtension (path : String) {extension : String}
    (hextension : '/' ∉ extension.toList) :
    ∃ way name name', names path = way ++ [name] ∧
      names (withExtension path extension) = way ++ [name'] := by
  obtain ⟨front, name, name', hfront, hname, hname', hpath, hpath'⟩ :=
    exists_withExtension path hextension
  obtain ⟨way, hway⟩ := exists_pieces hfront
  refine ⟨way.map String.ofList, String.ofList name, String.ofList name', ?_, ?_⟩
  · rw [names, hpath, hway name hname, List.map_append]
    rfl
  · rw [names, hpath', hway name' hname', List.map_append]
    rfl

private theorem isAbsolute_withExtension (path : String) {extension : String}
    (hextension : '/' ∉ extension.toList) :
    isAbsolute (withExtension path extension) = isAbsolute path := by
  obtain ⟨front, name, name', hfront, hname, hname', hpath, hpath'⟩ :=
    exists_withExtension path hextension
  simp only [isAbsolute, hpath, hpath', head?_front hfront hname, head?_front hfront hname']

private theorem withExtension_ne_empty (path extension : String) :
    withExtension path extension ≠ "" := by
  intro h
  have hchars : (withExtension path extension).toList = [] := by rw [h]; rfl
  simp [withExtension] at hchars

end Path

namespace Files

variable {files files' files'' : Files} {path : String} {here : Location}

/-- Two states of the files with the same directories, in which paths start at the same place. -/
structure SameDirectories (files files' : Files) : Prop where
  base_eq : files'.base = files.base
  directory_iff : ∀ here,
    files'.entry? here = some .directory ↔ files.entry? here = some .directory

theorem SameDirectories.trans (h : SameDirectories files files')
    (h' : SameDirectories files' files'') : SameDirectories files files'' where
  base_eq := h'.base_eq.trans h.base_eq
  directory_iff := fun here => (h'.directory_iff here).trans (h.directory_iff here)

theorem SameDirectories.symm (h : SameDirectories files files') : SameDirectories files' files where
  base_eq := h.base_eq.symm
  directory_iff := fun here => (h.directory_iff here).symm

theorem walk_cons_eq_ok {name : String} {names : List String} {there : Location} :
    files.walk here (name :: names) = .ok there ↔
      files.entry? here = some .directory ∧
        files.walk (if name = "" ∨ name = "." then here else
          if name = ".." then here.dropLast else here ++ [name]) names = .ok there := by
  rw [walk]
  cases hentry : files.entry? here with
  | none => simp
  | some entry =>
    cases entry with
    | file number => simp
    | directory =>
      simp only [true_and]
      split
      · rfl
      · split <;> rfl

private theorem SameDirectories.walk_eq_ok (h : SameDirectories files files') {names : List String}
    {there : Location} (hwalk : files.walk here names = .ok there) :
    files'.walk here names = .ok there := by
  induction names generalizing here with
  | nil => exact hwalk
  | cons name names ih =>
    obtain ⟨hdirectory, hrest⟩ := walk_cons_eq_ok.mp hwalk
    exact walk_cons_eq_ok.mpr ⟨(h.directory_iff here).mpr hdirectory, ih hrest⟩

theorem SameDirectories.locate_eq_ok (h : SameDirectories files files') {there : Location}
    (hlocate : files.locate path = .ok there) : files'.locate path = .ok there := by
  unfold locate at hlocate ⊢
  split at hlocate
  case isTrue => cases hlocate
  case isFalse hpath =>
    have horigin : files'.origin path = files.origin path := by
      rw [origin, origin, h.base_eq]
    rw [if_neg hpath, horigin]
    exact h.walk_eq_ok hlocate

private theorem exists_walk {way : List String} {name name' : String} {there : Location}
    (h : files.walk here (way ++ [name]) = .ok there) :
    ∃ there', files.walk here (way ++ [name']) = .ok there' := by
  induction way generalizing here with
  | nil =>
    -- the last name is not looked up, only the directory in which it stands
    obtain ⟨hdirectory, -⟩ := walk_cons_eq_ok.mp h
    exact ⟨_, walk_cons_eq_ok.mpr ⟨hdirectory, rfl⟩⟩
  | cons first way ih =>
    obtain ⟨hdirectory, hrest⟩ := walk_cons_eq_ok.mp h
    obtain ⟨there', hthere⟩ := ih hrest
    exact ⟨there', walk_cons_eq_ok.mpr ⟨hdirectory, hthere⟩⟩

theorem exists_locate_withExtension {extension : String} (hextension : '/' ∉ extension.toList)
    (h : files.locate path = .ok here) :
    ∃ there, files.locate (Path.withExtension path extension) = .ok there := by
  obtain ⟨way, name, name', hnames, hnames'⟩ := Path.names_withExtension path hextension
  unfold locate at h
  split at h
  case isTrue => cases h
  case isFalse =>
    rw [hnames] at h
    obtain ⟨there, hthere⟩ := exists_walk h
    refine ⟨there, ?_⟩
    rw [locate, if_neg (Path.withExtension_ne_empty path extension), hnames', origin,
      Path.isAbsolute_withExtension path hextension]
    exact hthere

end Files

end FleetTelemetry
