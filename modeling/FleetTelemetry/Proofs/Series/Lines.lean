import FleetTelemetry.Proofs.Files.Writing
import FleetTelemetry.Proofs.Outcomes
import FleetTelemetry.Proofs.Series.Data
import FleetTelemetry.Series.Store
import Mathlib.Data.List.Forall2

/-!
# The lines of a series file

After the header every line that is not empty has to be a row: the time and a value for each field,
as numerals of 64 bits between commas, with blanks around them. A file of such lines is read as the
last of its rows. Any other file is refused for its first line that is no row, whether the row of
that line would have been kept or not.
-/

namespace FleetTelemetry

open Text

namespace SeriesRow

def IsWord (column : List Char) : Prop :=
  ∃ value : UInt64, IsPaddedNumeral column value.toNat

/-- A line with numerals for the time and for as many values as there are fields. -/
structure IsRow (arity : Nat) (line : List Char) : Prop where
  words : ∀ column ∈ pieces ',' line, IsWord column
  length : (pieces ',' line).length = arity + 1

/-- The numbers between the commas of a line are the time and the values of a row. -/
structure Denotes (arity : Nat) (line : List Char) (row : SeriesRow) : Prop where
  columns : List.Forall₂ (fun column (value : UInt64) => IsPaddedNumeral column value.toNat)
    (pieces ',' line) (row.timestamp :: row.values)
  arity : row.values.length = arity

/-- What is wrong with a line: one of its columns is no numeral, or else there are too many or too
few of them. -/
inductive HasFault (arity : Nat) (line : List Char) (number : Nat) : StoreError → Prop where
  | badRow {column : List Char} (hmem : column ∈ pieces ',' line) (h : ¬ IsWord column) :
      HasFault arity line number (.format (.badRow number))
  | arity (hwords : ∀ column ∈ pieces ',' line, IsWord column)
      (h : (pieces ',' line).length ≠ arity + 1) :
      HasFault arity line number (.arity arity ((pieces ',' line).length - 1))

/-- The fault of the first line that is no row. -/
def FirstFault (arity : Nat) (lines : List (List Char × Nat)) (e : StoreError) : Prop :=
  ∃ before line number after, lines = before ++ (line, number) :: after ∧
    (∀ earlier ∈ before, IsRow arity earlier.1) ∧ HasFault arity line number e

section

variable {arity number : Nat} {line : List Char} {texts : List (List Char)}
  {lines : List (List Char × Nat)} {row : SeriesRow} {e : StoreError}

/-! ## One line -/

private theorem word?_trimChars_eq_some_iff {column : List Char} {value : UInt64} :
    word? (trimChars column) = some value ↔ IsPaddedNumeral column value.toNat :=
  word?_eq_some_iff.trans isNumeral_trimChars_iff

private theorem readNumerals?_eq_some_iff {values : List UInt64} :
    readNumerals? texts = some values ↔
    List.Forall₂ (fun column (value : UInt64) => IsPaddedNumeral column value.toNat) texts
      values := by
  induction texts generalizing values with
  | nil => simp [readNumerals?, eq_comm]
  | cons text texts ih =>
    rw [readNumerals?, List.forall₂_cons_left_iff]
    constructor
    · intro h
      split at h
      · next value values' hvalue hvalues =>
        cases h
        exact ⟨value, values', word?_trimChars_eq_some_iff.mp hvalue, ih.mp hvalues, rfl⟩
      · cases h
    · rintro ⟨value, values', hvalue, hvalues, rfl⟩
      rw [word?_trimChars_eq_some_iff.mpr hvalue, ih.mpr hvalues]

private theorem exists_readNumerals?_iff :
    (∃ values, readNumerals? texts = some values) ↔ ∀ column ∈ texts, IsWord column := by
  induction texts with
  | nil => simp [readNumerals?]
  | cons text texts ih =>
    rw [List.forall_mem_cons, ← ih]
    simp only [readNumerals?_eq_some_iff, List.forall₂_cons_left_iff]
    constructor
    · rintro ⟨_, value, values, hvalue, hvalues, -⟩
      exact ⟨⟨value, hvalue⟩, values, hvalues⟩
    · rintro ⟨⟨value, hvalue⟩, values, hvalues⟩
      exact ⟨value :: values, value, values, hvalue, hvalues, rfl⟩

private theorem exists_columns (hwords : ∀ column ∈ pieces ',' line, IsWord column) :
    ∃ row : SeriesRow, readNumerals? (pieces ',' line) = some (row.timestamp :: row.values) ∧
      (pieces ',' line).length = row.values.length + 1 := by
  obtain ⟨values, hvalues⟩ := exists_readNumerals?_iff.mpr hwords
  have hlength := (readNumerals?_eq_some_iff.mp hvalues).length_eq
  cases values with
  | nil => exact absurd (List.length_eq_zero_iff.mp hlength) (pieces_ne_nil ',' line)
  | cons timestamp values => exact ⟨⟨timestamp, values⟩, hvalues, hlength⟩

private theorem isRow_iff : IsRow arity line ↔ ∃ row, Denotes arity line row := by
  constructor
  · intro h
    obtain ⟨row, hcolumns, hlength⟩ := exists_columns h.words
    refine ⟨row, readNumerals?_eq_some_iff.mp hcolumns, ?_⟩
    rw [h.length] at hlength
    omega
  · rintro ⟨row, hcolumns, harity⟩
    refine ⟨exists_readNumerals?_iff.mp ⟨_, readNumerals?_eq_some_iff.mpr hcolumns⟩, ?_⟩
    rw [hcolumns.length_eq, List.length_cons, harity]

theorem parse_eq_ok_iff : parse arity number line = .ok row ↔ Denotes arity line row := by
  unfold parse
  split
  · next timestamp values hcolumns =>
    constructor
    · intro h
      split at h
      · next harity =>
        cases h
        exact ⟨readNumerals?_eq_some_iff.mp hcolumns, harity⟩
      · cases h
    · rintro ⟨hrow, harity⟩
      rw [readNumerals?_eq_some_iff.mpr hrow] at hcolumns
      cases hcolumns
      rw [if_pos harity]
  · next hnone =>
    refine ⟨nofun, fun h => ?_⟩
    exact absurd (readNumerals?_eq_some_iff.mpr h.columns) (hnone row.timestamp row.values)

private theorem isRow_iff_parse (number : Nat) :
    IsRow arity line ↔ ∃ row, parse arity number line = .ok row := by
  simp only [isRow_iff, parse_eq_ok_iff]

private theorem not_isRow_of_hasFault (h : HasFault arity line number e) : ¬ IsRow arity line := by
  intro hrow
  cases h with
  | badRow hmem h => exact h (hrow.words _ hmem)
  | arity _ h => exact h hrow.length

theorem parse_eq_error_iff : parse arity number line = .error e ↔ HasFault arity line number e := by
  by_cases hwords : ∀ column ∈ pieces ',' line, IsWord column
  · obtain ⟨row, hcolumns, hlength⟩ := exists_columns hwords
    simp only [parse, hcolumns]
    constructor
    · intro h
      split at h
      · cases h
      · next hne =>
        cases h
        have hfault : HasFault arity line number (.arity arity ((pieces ',' line).length - 1)) :=
          .arity hwords (by omega)
        rwa [hlength, Nat.add_sub_cancel] at hfault
    · intro h
      cases h with
      | badRow hmem h => exact absurd (hwords _ hmem) h
      | arity _ h =>
        rw [if_neg (by omega), hlength, Nat.add_sub_cancel]
  · have hnone : readNumerals? (pieces ',' line) = none := by
      rw [Option.eq_none_iff_forall_ne_some]
      intro values hvalues
      exact hwords (exists_readNumerals?_iff.mp ⟨values, hvalues⟩)
    obtain ⟨column, hmem, hcolumn⟩ : ∃ column ∈ pieces ',' line, ¬ IsWord column := by
      simpa using hwords
    simp only [parse, hnone]
    constructor
    · intro h
      cases h
      exact .badRow hmem hcolumn
    · intro h
      cases h with
      | badRow => rfl
      | arity h => exact absurd h hwords

/-! ## All lines -/

/-- The lines that are not empty, with their numbers; the first line has the number `first`. -/
def numbered (first : Nat) (texts : List (List Char)) : List (List Char × Nat) :=
  (texts.zipIdx first).filter fun line => line.1 ≠ []

private theorem numbered_cons (first : Nat) (text : List Char) : numbered first (text :: texts) =
    if text = [] then numbered (first + 1) texts
    else (text, first) :: numbered (first + 1) texts := by
  rw [numbered, List.zipIdx_cons, List.filter_cons]
  by_cases h : text = [] <;> simp [h, numbered]

private theorem parseLines_eq_ok_iff {first : Nat} {rows : List SeriesRow} :
    parseLines arity first texts = .ok rows ↔
      List.Forall₂ (fun line row => Denotes arity line.1 row) (numbered first texts) rows := by
  induction texts generalizing first rows with
  | nil => simp [parseLines, numbered, eq_comm]
  | cons text texts ih =>
    rw [parseLines, numbered_cons]
    by_cases hempty : text = []
    · rw [if_pos hempty, if_pos hempty, ih]
    · rw [if_neg hempty, if_neg hempty, List.forall₂_cons_left_iff]
      constructor
      · intro h
        split at h
        · cases h
        · next row hrow =>
          split at h
          · cases h
          · next rows' hrows =>
            cases h
            exact ⟨row, rows', parse_eq_ok_iff.mp hrow, ih.mp hrows, rfl⟩
      · rintro ⟨row, rows', hrow, hrows, rfl⟩
        rw [parse_eq_ok_iff.mpr hrow, ih.mpr hrows]

theorem arity_of_forall₂ {rows : List SeriesRow}
    (h : List.Forall₂ (fun line row => Denotes arity line.1 row) lines rows) :
    ∀ row ∈ rows, row.values.length = arity := by
  induction h with
  | nil => simp
  | cons hrow _ ih => exact List.forall_mem_cons.mpr ⟨hrow.arity, ih⟩

private theorem firstFault_cons : FirstFault arity ((line, number) :: lines) e ↔
    HasFault arity line number e ∨ IsRow arity line ∧ FirstFault arity lines e := by
  constructor
  · rintro ⟨before, line', number', after, heq, hbefore, hfault⟩
    cases before with
    | nil =>
      cases heq
      exact .inl hfault
    | cons earlier before =>
      cases heq
      have hmore := fun other hother => hbefore other (List.mem_cons_of_mem _ hother)
      exact .inr ⟨hbefore _ List.mem_cons_self, before, line', number', after, rfl, hmore, hfault⟩
  · rintro (hfault | ⟨hrow, before, line', number', after, rfl, hbefore, hfault⟩)
    · exact ⟨[], line, number, lines, rfl, by simp, hfault⟩
    · refine ⟨(line, number) :: before, line', number', after, rfl, ?_, hfault⟩
      exact List.forall_mem_cons.mpr ⟨hrow, hbefore⟩

private theorem not_firstFault_nil : ¬ FirstFault arity [] e := by
  rintro ⟨before, line, number, after, heq, -⟩
  simp at heq

private theorem parseLines_eq_error_iff {first : Nat} :
    parseLines arity first texts = .error e ↔ FirstFault arity (numbered first texts) e := by
  induction texts generalizing first with
  | nil => exact ⟨nofun, fun h => absurd h not_firstFault_nil⟩
  | cons text texts ih =>
    rw [parseLines, numbered_cons]
    by_cases hempty : text = []
    · rw [if_pos hempty, if_pos hempty, ih]
    · rw [if_neg hempty, if_neg hempty, firstFault_cons, ← ih, ← parse_eq_error_iff,
        isRow_iff_parse first]
      cases hline : parse arity first text with
      | error e' => simp
      | ok row =>
        cases hrest : parseLines arity (first + 1) texts with
        | error e' => simp
        | ok rows => simp

end

end SeriesRow

open SeriesRow

/-- The lines of a series text after its header that are not empty, with their numbers among all
lines, counted from one. -/
def rowLines (text : String) : List (List Char × Nat) :=
  ((lines text.toList).zipIdx 1).tail.filter fun line => line.1 ≠ []

namespace SeriesData

variable {text : String} {header : SeriesHeader} {data : SeriesData} {e : StoreError}

private theorem parse_of_header
    (hheader : (lines text.toList).head?.map SeriesHeader.parse = some (.ok header)) :
    ∃ texts, rowLines text = numbered 2 texts ∧
      parse text = (parseLines header.fields.length 2 texts).map fun rows =>
        { header, rows := newest header.rows.toNat rows } := by
  obtain ⟨first, hfirst, hparse⟩ := Option.map_eq_some_iff.mp hheader
  obtain ⟨texts, hlines⟩ := List.head?_eq_some_iff.mp hfirst
  refine ⟨texts, ?_, ?_⟩
  · rw [rowLines, hlines, List.tail_zipIdx]
    rfl
  · simp only [parse, hlines, hparse]
    cases parseLines header.fields.length 2 texts <;> rfl

theorem parse_eq_ok_iff
    (hheader : (lines text.toList).head?.map SeriesHeader.parse = some (.ok header)) :
    parse text = .ok data ↔ data.header = header ∧ ∃ rows,
      List.Forall₂ (fun line row => Denotes header.fields.length line.1 row) (rowLines text) rows ∧
      data.rows = newest header.rows.toNat rows := by
  obtain ⟨texts, hlines, hparse⟩ := parse_of_header hheader
  simp only [hlines, hparse, ← parseLines_eq_ok_iff]
  constructor
  · intro h
    obtain ⟨rows, hrows, rfl⟩ := map_eq_ok.mp h
    exact ⟨rfl, rows, hrows, rfl⟩
  · rintro ⟨rfl, rows, hrows, hdata⟩
    rw [hrows, Except.map, ← hdata]

theorem parse_eq_error_iff
    (hheader : (lines text.toList).head?.map SeriesHeader.parse = some (.ok header)) :
    parse text = .error e ↔ FirstFault header.fields.length (rowLines text) e := by
  obtain ⟨texts, hlines, hparse⟩ := parse_of_header hheader
  rw [hlines, hparse, ← parseLines_eq_error_iff]
  cases parseLines header.fields.length 2 texts with
  | error e' => simp [Except.map]
  | ok rows => simp [Except.map]

theorem exists_parse_iff
    (hheader : (lines text.toList).head?.map SeriesHeader.parse = some (.ok header)) :
    (∃ data, parse text = .ok data) ↔
      ∀ line ∈ rowLines text, IsRow header.fields.length line.1 := by
  constructor
  · rintro ⟨data, hdata⟩
    obtain ⟨-, rows, hrows, -⟩ := (parse_eq_ok_iff hheader).mp hdata
    have hboth := hrows.imp fun line row h => And.intro (isRow_iff.mpr ⟨row, h⟩) h
    exact ((List.forall₂_and_left _ _).mp hboth).1
  · intro hall
    cases hparse : parse text with
    | ok data => exact ⟨data, rfl⟩
    | error e =>
      obtain ⟨before, line, number, after, heq, -, hfault⟩ := (parse_eq_error_iff hheader).mp hparse
      have hmem : (line, number) ∈ rowLines text := by simp [heq]
      exact absurd (hall _ hmem) (not_isRow_of_hasFault hfault)

end SeriesData

namespace SeriesStore

theorem read_of_readText {files : Files} {path text : String}
    (h : files.readText path = .ok text) : read files path = SeriesData.parse text := by
  simp only [read, h]

/-- For every file with a header in its first line: the file is read exactly when each line after
the header that is not empty has numerals for the time and for each field. What is read is then the
header and the rows of the last such lines, as many as the header says, in their order. Otherwise
the error is the fault of the first line that is no row, under its number among all lines of the
file: a column that is no numeral or, when there is none, a wrong number of values. -/
theorem reads_exactly_row_lines {files : Files} {path text : String} {header : SeriesHeader}
    (htext : files.readText path = .ok text)
    (hheader : (lines text.toList).head?.map SeriesHeader.parse = some (.ok header)) :
    ((∃ data, read files path = .ok data) ↔
      ∀ line ∈ rowLines text, IsRow header.fields.length line.1) ∧
    (∀ data, read files path = .ok data ↔ data.header = header ∧ ∃ rows,
      List.Forall₂ (fun line row => Denotes header.fields.length line.1 row)
        (rowLines text) rows ∧
      data.rows <:+ rows ∧ data.rows.length = min header.rows.toNat rows.length) ∧
    (∀ e, read files path = .error e ↔ FirstFault header.fields.length (rowLines text) e) ∧
    ∀ number, (SeriesFormatError.badRow number).message =
      "bad row at line " ++ decimalString number := by
  rw [read_of_readText htext]
  refine ⟨SeriesData.exists_parse_iff hheader, fun data => ?_,
    fun e => SeriesData.parse_eq_error_iff hheader, fun number => rfl⟩
  simp only [SeriesData.parse_eq_ok_iff hheader, SeriesData.eq_newest_iff]

def singleHeader : SeriesHeader := ⟨5, 10, 1, [⟨"tx", .counter⟩]⟩

/-- A file in which a row has one value too many and a later line, after an empty one, has a column
that is no numeral. -/
def faultyText : String :=
  String.ofList (singleHeader.print ++ "\n1,2,3\n\n4,x\n 5 ,+06\r\n".toList)

/-- The earlier line is told, though its row would not have been kept. -/
theorem reads_exactly_row_lines_faulty :
    let files : Files :=
      { entries := .ofList [(["n.series"], Entry.file 0)]
        contents := .ofList [(0, faultyText.toUTF8)]
        next := 1 }
    files.readText "n.series" = .ok faultyText ∧
      (lines faultyText.toList).head?.map SeriesHeader.parse = some (.ok singleHeader) ∧
      read files "n.series" = .error (.arity 1 2) := by
  intro files
  have htext : files.readText "n.series" = .ok faultyText := Files.readText_eq_ok rfl rfl
  have hcut : lines faultyText.toList = [singleHeader.print, "1,2,3".toList, [], "4,x".toList,
      " 5 ,+06".toList] := by
    rw [faultyText, String.toList_ofList]
    rfl
  have hheader : (lines faultyText.toList).head?.map SeriesHeader.parse =
      some (.ok singleHeader) := by
    rw [hcut, List.head?_cons, Option.map_some, SeriesHeader.parse_print]
  have hlines : rowLines faultyText =
      [("1,2,3".toList, 2), ("4,x".toList, 4), (" 5 ,+06".toList, 5)] := by
    rw [rowLines, hcut]
    rfl
  obtain ⟨-, -, herror, -⟩ := reads_exactly_row_lines htext hheader
  refine ⟨htext, hheader, (herror _).mpr ⟨[], _, _, _, hlines, by simp, ?_⟩⟩
  have hfault : HasFault 1 "1,2,3".toList 2 (.arity 1 2) := parse_eq_error_iff.mp rfl
  exact hfault

end SeriesStore

end FleetTelemetry
