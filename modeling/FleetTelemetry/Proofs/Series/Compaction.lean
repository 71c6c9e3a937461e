import FleetTelemetry.Proofs.Series.Lines
import FleetTelemetry.Proofs.Series.Storage

/-!
# Compacted files

A compaction writes what it has read in one fixed form. Whatever form the file had before, it is
read as before, and another compaction finds nothing to change.
-/

namespace FleetTelemetry

open Text SeriesRow

namespace SeriesData

variable {text : String} {data : SeriesData}

private theorem header_of_parse (h : parse text = .ok data) :
    (lines text.toList).head?.map SeriesHeader.parse = some (.ok data.header) := by
  unfold parse at h
  split at h
  · cases h
  · next first texts hlines =>
    split at h
    · cases h
    · next header hheader =>
      split at h
      · cases h
      · cases h
        rw [hlines, List.head?_cons, Option.map_some, hheader]

private theorem length_rows_of_parse (h : parse text = .ok data) :
    data.rows.length ≤ data.header.rows.toNat := by
  obtain ⟨-, rows, -, hrows⟩ := (parse_eq_ok_iff (header_of_parse h)).mp h
  rw [hrows, length_newest]
  exact Nat.min_le_left _ _

theorem values_length_of_parse (h : parse text = .ok data) :
    ∀ row ∈ data.rows, row.values.length = data.header.fields.length := by
  obtain ⟨-, rows, hdenotes, hrows⟩ := (parse_eq_ok_iff (header_of_parse h)).mp h
  intro row hrow
  rw [hrows] at hrow
  exact arity_of_forall₂ hdenotes row ((newest_suffix _ rows).subset hrow)

private theorem parse_print_of_parse (h : parse text = .ok data) : parse data.print = .ok data := by
  have hrows := newest_of_length_le (length_rows_of_parse h)
  rw [parse_print data (values_length_of_parse h), hrows]

end SeriesData

namespace SeriesStore

variable {store store' : SeriesStore} {files files' : Files} {data : SeriesData}

private theorem compact_spec (hread : read files store.path = .ok data)
    (hcompact : store.compact files = .ok (store', files')) :
    store'.path = store.path ∧ store'.stored = data.rows.length ∧
      Replaceable files' store.path ∧ files'.read store.path = .ok data.print.toUTF8 ∧
      read files' store.path = .ok data := by
  have hreplaceable := replaceable_of_compact hcompact
  obtain ⟨number, files₁, hagain, hsame, hopen, hcontent⟩ :=
    exists_compact_of_read hread hreplaceable
  rw [hagain] at hcompact
  cases hcompact
  refine ⟨rfl, rfl, hreplaceable.of_sameDirectories hsame, Files.read_eq_ok hopen hcontent, ?_⟩
  rw [read_of_readText (Files.readText_eq_ok hopen hcontent)]
  unfold read at hread
  split at hread
  · cases hread
  · exact SeriesData.parse_print_of_parse hread

/-- For every file that is read as some series, however it was written: a compaction succeeds unless
a directory is in the place of the second file. The file that it leaves is read as the same series,
and a second compaction succeeds too and leaves the same bytes. -/
theorem compaction_is_invisible (hread : read files store.path = .ok data) :
    (files.isDirectory (compactionPath store.path) = false →
      ∃ store' files', store.compact files = .ok (store', files')) ∧
    ∀ store' files', store.compact files = .ok (store', files') →
      read files' store.path = .ok data ∧
      files'.read store.path = .ok data.print.toUTF8 ∧
      ∃ store'' files'', store'.compact files' = .ok (store'', files'') ∧
        files''.read store.path = .ok data.print.toUTF8 := by
  constructor
  · intro hsecond
    obtain ⟨number, hopen⟩ := exists_openFile_of_read hread
    obtain ⟨here, hhere, hentry⟩ := Files.openFile_eq_ok.mp hopen
    have hreplaceable := replaceable_of_isDirectory hhere (by simp [hentry]) hsecond
    obtain ⟨number, files', hcompact, -⟩ := exists_compact_of_read hread hreplaceable
    exact ⟨_, files', hcompact⟩
  · intro store' files' hcompact
    obtain ⟨hpath, -, hreplaceable, hbytes, hread'⟩ := compact_spec hread hcompact
    refine ⟨hread', hbytes, ?_⟩
    rw [← hpath] at hread' hreplaceable ⊢
    obtain ⟨number, files'', hagain, -⟩ := exists_compact_of_read hread' hreplaceable
    obtain ⟨-, -, -, hbytes'', -⟩ := compact_spec hread' hagain
    exact ⟨_, files'', hagain, hbytes''⟩

/-- A file with its header as a list, lines closed in two ways, an empty line, more rows than it has
room for, times out of order, and numerals with blanks, zeros and a plus sign. -/
def untidyText : String :=
  "[5,10,2,[[\"tx\",\"COUNTER\"]]]\r\n9,1\n\n 7 , 007\r\n3,+1"

def untidyFiles : Files where
  entries := .ofList [(["n.series"], Entry.file 0)]
  contents := .ofList [(0, untidyText.toUTF8)]
  next := 1

def untidyStore : SeriesStore where
  path := "n.series"
  header := ⟨5, 10, 2, [⟨"tx", .counter⟩]⟩
  content := 0
  lastUpdate := none
  stored := 3

theorem compaction_is_invisible_untidy :
    let data : SeriesData := { header := untidyStore.header, rows := [⟨7, [7]⟩, ⟨3, [1]⟩] }
    read untidyFiles untidyStore.path = .ok data ∧
      untidyFiles.isDirectory (compactionPath untidyStore.path) = false ∧
      ∃ store' files', untidyStore.compact untidyFiles = .ok (store', files') ∧
        read files' untidyStore.path = .ok data ∧
        ∃ store'' files'', store'.compact files' = .ok (store'', files'') ∧
          files''.read untidyStore.path = files'.read untidyStore.path := by
  intro data
  have hread : read untidyFiles untidyStore.path = .ok data := by
    have hparse : (SeriesData.parse untidyText).toOption.map id = some data := by decide +kernel
    obtain ⟨_, hparse, rfl⟩ := exists_of_toOption_map hparse
    rw [read_of_readText (Files.readText_eq_ok rfl rfl)]
    exact hparse
  have hsecond : untidyFiles.isDirectory (compactionPath untidyStore.path) = false := by rfl
  obtain ⟨hsucceeds, hafter⟩ := compaction_is_invisible hread
  obtain ⟨store', files', hcompact⟩ := hsucceeds hsecond
  obtain ⟨hread', hbytes, store'', files'', hagain, hbytes'⟩ := hafter store' files' hcompact
  exact ⟨hread, hsecond, store', files', hcompact, hread', store'', files'', hagain,
    hbytes'.trans hbytes.symm⟩

end SeriesStore

end FleetTelemetry
