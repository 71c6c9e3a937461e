import FleetTelemetry.Collection.LogFiles
import FleetTelemetry.Proofs.Files.Joining
import FleetTelemetry.Proofs.Outcomes
import FleetTelemetry.Roster.Parser
import FleetTelemetry.Series.Store

/-!
# Where the files of nodes lie

The series and the log of a node are named after it. If a name has no slash, its files lie directly
in the directories for them and are those of no other such name. A roster takes names with slashes
too, and the files of these lie wherever the slashes lead.
-/

open FleetTelemetry.Path

namespace FleetTelemetry

/-- One of the two paths that a node has below a directory, with the ending of the file's name. -/
inductive NodePath (directory : String) : (String → String) → String → Prop where
  | series : NodePath directory (SeriesStore.seriesPath directory) ".series"
  | log : NodePath directory (LogFiles.logPath directory) ".txt"

namespace NodePath

variable {directory ending : String} {pathOf : String → String}

private theorem eq_join (h : NodePath directory pathOf ending) (node : String) :
    pathOf node = join directory (node ++ ending) := by
  cases h with
  | log => rfl
  | series =>
    have hending : node ++ "." ++ SeriesStore.fileExtension = node ++ ".series" := by
      rw [String.append_assoc]
      rfl
    rw [SeriesStore.seriesPath, hending]

private theorem not_mem_ending (h : NodePath directory pathOf ending) : '/' ∉ ending.toList := by
  cases h <;> decide

private theorem length_ending (h : NodePath directory pathOf ending) : 2 < ending.length := by
  cases h <;> decide

private theorem place_eq (h : NodePath directory pathOf ending) (base : Location) (node : String) :
    place base (pathOf node) = home (place base directory) node ++ [lastName node ++ ending] := by
  rw [h.eq_join, place_join_append base directory node h.not_mem_ending h.length_ending]

private theorem place_of_plain (h : NodePath directory pathOf ending) (base : Location)
    {node : String}
    (hnode : '/' ∉ node.toList) :
    place base (pathOf node) = place base directory ++ [node ++ ending] := by
  rw [h.place_eq, home_of_not_mem _ hnode, lastName_of_not_mem hnode]

private theorem place_eq_place_iff (h : NodePath directory pathOf ending) (base : Location)
    (node node' : String) : place base (pathOf node) = place base (pathOf node') ↔
      home (place base directory) node = home (place base directory) node' ∧
        lastName node = lastName node' := by
  rw [h.place_eq, h.place_eq, ← List.concat_eq_append, ← List.concat_eq_append, List.concat_inj,
    String.append_left_inj]

end NodePath

/-- Where the files of nodes lie, for every directory and all names. A name without slashes has its
series and its log directly in the directory, and different names of this kind have different paths
to different places. Of all names exactly those have their files directly in the directory whose
slashes lead from it back to it, and those share a file that lead to one place and end in one name.
Whatever files there are, a path that leads anywhere leads to its place. -/
theorem plain_names_have_own_files (base : Location) (directory : String)
    (pathOf : String → String) (ending : String) (h : NodePath directory pathOf ending) :
    let here := place base directory
    (∀ node, '/' ∉ node.toList → place base (pathOf node) = here ++ [node ++ ending]) ∧
    (∀ node node', '/' ∉ node.toList → '/' ∉ node'.toList → node ≠ node' →
      pathOf node ≠ pathOf node' ∧ place base (pathOf node) ≠ place base (pathOf node')) ∧
    (∀ node, (∃ name, place base (pathOf node) = here ++ [name]) ↔ home here node = here) ∧
    (∀ node node', place base (pathOf node) = place base (pathOf node') ↔
      home here node = home here node' ∧ lastName node = lastName node') ∧
    ∀ (files : Files) (node : String) (there : Location), files.base = base →
      files.locate (pathOf node) = .ok there → there = place base (pathOf node) := by
  intro here
  refine ⟨fun node => h.place_of_plain base, ?_, ?_, h.place_eq_place_iff base, ?_⟩
  · intro node node' hnode hnode' hne
    have hplaces : place base (pathOf node) ≠ place base (pathOf node') := by
      rw [ne_eq, h.place_eq_place_iff, lastName_of_not_mem hnode, lastName_of_not_mem hnode']
      exact fun hsame => hne hsame.2
    exact ⟨fun hpaths => hplaces (congrArg (place base) hpaths), hplaces⟩
  · intro node
    rw [h.place_eq]
    constructor
    · rintro ⟨name, hname⟩
      exact (List.append_inj' hname rfl).1
    · intro hhome
      exact ⟨lastName node ++ ending, by rw [hhome]⟩
  · rintro files node there rfl hlocate
    exact Files.locate_eq_place hlocate

theorem plain_names_have_own_files_nearby :
    let pathOf := SeriesStore.seriesPath "data/../more/"
    place ["home"] (pathOf "a.b") = ["home", "more", "a.b.series"] ∧
      pathOf "a.b" ≠ pathOf "a b" := by
  intro pathOf
  obtain ⟨hplace, hother, -⟩ := plain_names_have_own_files ["home"] "data/../more/" pathOf ".series"
    .series
  exact ⟨(hplace "a.b" (by decide)).trans (by decide),
    (hother "a.b" "a b" (by decide) (by decide) (by decide)).1⟩

/-- A roster of three nodes whose names are paths. -/
def pathNames : String := "/abs,1,h,1,2,1\na,2,h,1,3,0\n./a,3,h,1,4,0\n"

/-- A roster may have a node whose files do not lie in their directories at all, and two nodes that
share their files. -/
theorem names_with_slashes_stray :
    (∃ roster, Roster.parse {} pathNames = .ok roster ∧ roster.names = ["./a", "/abs", "a"]) ∧
    ∀ pathOf ending, NodePath "data" pathOf ending →
      pathOf "/abs" = "/abs" ++ ending ∧
      (∀ base name, place base (pathOf "/abs") ≠ place base "data" ++ [name]) ∧
      ∀ base, place base (pathOf "./a") = place base (pathOf "a") := by
  refine ⟨?_, fun pathOf ending h => ⟨?_, fun base name hsame => ?_, fun base => ?_⟩⟩
  · exact exists_of_toOption_map (x := Roster.parse {} pathNames) rfl
  · cases h <;> rfl
  · rw [h.place_eq] at hsame
    have hhome := (List.append_inj' hsame rfl).1
    have hdirectory : place base "data" = base ++ ["data"] := rfl
    rw [hdirectory] at hhome
    have habsolute : home (base ++ ["data"]) "/abs" = [] := rfl
    rw [habsolute] at hhome
    simp at hhome
  · rw [h.place_eq_place_iff]
    exact ⟨rfl, rfl⟩

end FleetTelemetry
