import FleetTelemetry.Proofs.Files.Places

/-!
# Where joined paths lead

The place of a path is where its names lead while there is a directory at each step. A path that is
joined to a directory leads on from the place of the directory, unless it is absolute. Its last name
may be given an ending, and then its place lies directly in the place that the names before lead to.
-/

namespace FleetTelemetry

open Text

namespace Path

def follow : Location → List String → Location
  | here, [] => here
  | here, name :: names =>
    if name = "" ∨ name = "." then follow here names
    else if name = ".." then follow here.dropLast names
    else follow (here ++ [name]) names

/-- Where a path leads, if relative paths lead on from a base. -/
def place (base : Location) (path : String) : Location :=
  follow (if isAbsolute path then [] else base) (names path)

/-- The name at the end of a path. -/
def lastName (path : String) : String := (names path).getLastD ""

/-- Where the last name of a path lies when the path is joined to a directory. -/
def home (here : Location) (path : String) : Location :=
  follow (if isAbsolute path then [] else here) (names path).dropLast

variable {here : Location} {path ending : String}

private theorem follow_append (here : Location) (before after : List String) :
    follow here (before ++ after) = follow (follow here before) after := by
  induction before generalizing here with
  | nil => rfl
  | cons name before ih =>
    simp only [List.cons_append, follow]
    split
    · exact ih here
    · split
      · exact ih _
      · exact ih _

private theorem follow_singleton {name : String} (h : 2 < name.length) :
    follow here [name] = here ++ [name] := by
  have hplain : ∀ short : String, short.length ≤ 2 → name ≠ short := by
    rintro short hshort rfl
    omega
  simp [follow, hplain "" (by decide), hplain "." (by decide), hplain ".." (by decide)]

/-! ## Joining -/

private theorem names_slash (before after : List Char) :
    names (String.ofList (before ++ '/' :: after)) =
      names (String.ofList before) ++ names (String.ofList after) := by
  simp [names, pieces_slash]

private theorem follow_names_join (here : Location) (directory : String)
    (h : isAbsolute path = false) :
    follow here (names (join directory path)) =
      follow (follow here (names directory)) (names path) := by
  rw [← follow_append]
  unfold join
  rw [h, if_neg Bool.false_ne_true]
  rcases List.eq_nil_or_concat directory.toList with hnil | ⟨front, last, hlast⟩
  · have hempty : directory = "" := String.toList_inj.mp hnil
    subst hempty
    have hjoin : "" ++ path = path := by simp
    simp [hjoin, names, pieces, follow]
  · by_cases hslash : last = '/'
    · have hdirectory : directory = String.ofList (front ++ '/' :: []) := by
        rw [← hslash, ← List.concat_eq_append, ← hlast, String.ofList_toList]
      have hjoin : directory ++ path = String.ofList (front ++ '/' :: path.toList) := by
        apply String.toList_inj.mp
        simp [hdirectory]
      have hempty : names (String.ofList []) = [""] := rfl
      rw [if_pos (by simp [hlast, hslash]), hjoin, names_slash, String.ofList_toList, hdirectory,
        names_slash, hempty]
      simp [follow_append, follow]
    · have hjoin : directory ++ "/" ++ path =
          String.ofList (directory.toList ++ '/' :: path.toList) := by
        apply String.toList_inj.mp
        simp
      rw [if_neg (by simp [hlast, hslash]), hjoin, names_slash, String.ofList_toList,
        String.ofList_toList]

private theorem isAbsolute_join (directory : String) (h : isAbsolute path = false) :
    isAbsolute (join directory path) = isAbsolute directory := by
  unfold join
  rw [h, if_neg Bool.false_ne_true]
  cases hchars : directory.toList with
  | nil => simpa [isAbsolute, hchars] using h
  | cons c rest => split <;> simp [isAbsolute, hchars]

private theorem place_join (base : Location) (directory : String) (path : String) :
    place base (join directory path) =
      follow (if isAbsolute path then [] else place base directory) (names path) := by
  cases h : isAbsolute path with
  | true => simp [place, join, h]
  | false => simp [place, isAbsolute_join directory h, follow_names_join _ directory h]

/-! ## Endings -/

private theorem pieces_append {sep : Char} {after : List Char} (h : sep ∉ after)
    (before : List Char) : ∃ way last, pieces sep before = way ++ [last] ∧
      pieces sep (before ++ after) = way ++ [last ++ after] := by
  induction before with
  | nil => exact ⟨[], [], rfl, pieces_of_not_mem h⟩
  | cons c before ih =>
    obtain ⟨way, last, hbefore, hboth⟩ := ih
    by_cases hc : c = sep
    · exact ⟨[] :: way, last, by simp [pieces, hc, hbefore], by simp [pieces, hc, hboth]⟩
    · cases way with
      | nil => exact ⟨[], c :: last, by simp [pieces, hc, hbefore], by simp [pieces, hc, hboth]⟩
      | cons first way =>
        exact ⟨(c :: first) :: way, last, by simp [pieces, hc, hbefore], by
          simp [pieces, hc, hboth]⟩

private theorem names_append (path : String) (h : '/' ∉ ending.toList) :
    names (path ++ ending) = (names path).dropLast ++ [lastName path ++ ending] := by
  obtain ⟨way, last, hpath, hboth⟩ := pieces_append h path.toList
  have hlast : String.ofList last ++ ending = String.ofList (last ++ ending.toList) := by
    apply String.toList_inj.mp
    simp
  have hnames : names path = way.map String.ofList ++ [String.ofList last] := by
    rw [names, hpath, List.map_append, List.map_singleton]
  have hend : lastName path = String.ofList last := by
    rw [lastName, hnames, List.getLastD_concat]
  rw [hnames, hend, hlast, List.dropLast_concat, names, String.toList_append, hboth,
    List.map_append, List.map_singleton]

private theorem isAbsolute_append (path : String) (h : '/' ∉ ending.toList) :
    isAbsolute (path ++ ending) = isAbsolute path := by
  unfold isAbsolute
  cases hpath : path.toList with
  | nil =>
    have hhead : ending.toList.head? ≠ some '/' := fun hslash => h (List.mem_of_head? hslash)
    simp [hpath, hhead]
  | cons c rest => simp [hpath]

theorem place_join_append (base : Location) (directory path : String)
    (hslash : '/' ∉ ending.toList) (hlong : 2 < ending.length) :
    place base (join directory (path ++ ending)) =
      home (place base directory) path ++ [lastName path ++ ending] := by
  have hlast : 2 < (lastName path ++ ending).length := by
    rw [String.length_append]
    omega
  rw [place_join, isAbsolute_append path hslash, names_append path hslash, follow_append,
    follow_singleton hlast]
  rfl

private theorem names_of_not_mem (h : '/' ∉ path.toList) : names path = [path] := by
  rw [names, pieces_of_not_mem h, List.map_singleton, String.ofList_toList]

theorem home_of_not_mem (here : Location) (h : '/' ∉ path.toList) : home here path = here := by
  have hrelative : isAbsolute path = false := by
    have hhead : path.toList.head? ≠ some '/' := fun hslash => h (List.mem_of_head? hslash)
    simp [isAbsolute, hhead]
  simp [home, names_of_not_mem h, hrelative, follow]

theorem lastName_of_not_mem (h : '/' ∉ path.toList) : lastName path = path := by
  rw [lastName, names_of_not_mem h]
  rfl

end Path

namespace Files

variable {files : Files} {path : String} {here there : Location}

private theorem walk_eq_follow {names : List String} (h : files.walk here names = .ok there) :
    there = Path.follow here names := by
  induction names generalizing here with
  | nil => exact (Except.ok.inj h).symm
  | cons name names ih =>
    obtain ⟨-, hrest⟩ := walk_cons_eq_ok.mp h
    rw [ih hrest, Path.follow]
    split
    · rfl
    · split <;> rfl

theorem locate_eq_place (h : files.locate path = .ok there) :
    there = Path.place files.base path := by
  unfold locate at h
  split at h
  case isTrue => cases h
  case isFalse => exact walk_eq_follow h

end Files

end FleetTelemetry
