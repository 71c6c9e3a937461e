import FleetTelemetry.Proofs.Series.Header
import FleetTelemetry.Proofs.Text.Columns
import FleetTelemetry.Series.Data

/-!
# Printed series

A series text is read back as its header and the newest of its rows. A row that is appended to the
text is appended to what is read.
-/

namespace FleetTelemetry

open Json Text

namespace SeriesRow

/-- The line of a row without its line feed. -/
def text (row : SeriesRow) : List Char :=
  [','].intercalate (decimal row.timestamp.toNat :: row.values.map fun value => decimal value.toNat)

theorem printable_text (row : SeriesRow) : Printable row.text :=
  printable_intercalate_numerals (row.timestamp :: row.values)

private theorem text_ne_nil (row : SeriesRow) : row.text ≠ [] := by
  rw [text, intercalate_comma]
  simp [decimal_ne_nil]

theorem text_inj {row row' : SeriesRow} : row.text = row'.text ↔ row = row' := by
  refine ⟨fun h => ?_, congrArg text⟩
  have hlines : commaLine (numerals (row.timestamp :: row.values)) =
      commaLine (numerals (row'.timestamp :: row'.values)) := congrArg (· ++ ['\n']) h
  have hvalues := commaLine_numerals_inj.mp hlines
  cases row
  cases row'
  simpa using hvalues

private theorem pieces_text (row : SeriesRow) :
    pieces ',' row.text = numerals (row.timestamp :: row.values) :=
  pieces_intercalate_numerals row.timestamp row.values

private theorem readNumerals?_numerals (values : List UInt64) :
    readNumerals? (numerals values) = some values := by
  induction values with
  | nil => rfl
  | cons value values ih =>
    rw [numerals] at ih ⊢
    rw [List.map_cons, readNumerals?, trimChars_decimal, word?_decimal, ih]

private theorem parse_text (row : SeriesRow) (lineNumber : Nat) :
    parse row.values.length lineNumber row.text = .ok row := by
  rw [parse, pieces_text, readNumerals?_numerals (row.timestamp :: row.values)]
  exact if_pos rfl

private theorem parseLines_texts {arity : Nat} {rows : List SeriesRow}
    (h : ∀ row ∈ rows, row.values.length = arity) (lineNumber : Nat) :
    parseLines arity lineNumber (rows.map text) = .ok rows := by
  induction rows generalizing lineNumber with
  | nil => rfl
  | cons row rows ih =>
    have hrow : parse arity lineNumber row.text = .ok row := by
      rw [← h row List.mem_cons_self]
      exact parse_text row lineNumber
    have hothers : ∀ other ∈ rows, other.values.length = arity :=
      fun other hother => h other (List.mem_cons_of_mem row hother)
    have hmore := ih hothers (lineNumber + 1)
    rw [List.map_cons, parseLines, if_neg (text_ne_nil row), hrow, hmore]

end SeriesRow

namespace SeriesData

theorem lines_print (data : SeriesData) :
    lines data.print.toList = data.header.print :: data.rows.map SeriesRow.text := by
  have htexts : data.print.toList =
      (data.header.print :: data.rows.map SeriesRow.text).flatMap fun text => text ++ ['\n'] := by
    have hlines : data.rows.flatMap SeriesRow.line =
        data.rows.flatMap fun row => row.text ++ ['\n'] := rfl
    simp [print, List.flatMap_map, hlines]
  have hprintable : ∀ text ∈ data.header.print :: data.rows.map SeriesRow.text,
      Printable text := by
    intro text htext
    cases htext with
    | head => exact data.header.printable_print
    | tail _ htext =>
      obtain ⟨row, -, rfl⟩ := List.mem_map.mp htext
      exact row.printable_text
  rw [htexts, lines_closed hprintable]

/-- A series whose rows have a value for each field is read back from its text, less the rows that
are not kept. -/
theorem parse_print (data : SeriesData)
    (h : ∀ row ∈ data.rows, row.values.length = data.header.fields.length) :
    parse data.print =
      .ok { data with rows := newest data.header.rows.toNat data.rows } := by
  have hrows := SeriesRow.parseLines_texts h 2
  simp only [parse, lines_print, SeriesHeader.parse_print, hrows]

theorem print_append (header : SeriesHeader) (rows : List SeriesRow) (row : SeriesRow) :
    print { header, rows := rows ++ [row] } =
      print { header, rows } ++ String.ofList row.line := by
  simp [print, ← String.ofList_append]

section Newest

variable {α : Type} {capacity : Nat} {rows : List α}

theorem length_newest (capacity : Nat) (rows : List α) :
    (newest capacity rows).length = min capacity rows.length := by
  rw [newest, List.length_drop]
  omega

theorem newest_of_length_le (h : rows.length ≤ capacity) : newest capacity rows = rows := by
  have hexcess : rows.length - capacity = 0 := Nat.sub_eq_zero_of_le h
  rw [newest, hexcess, List.drop_zero]

theorem newest_cons (h : capacity ≤ rows.length) (first : α) :
    newest capacity (first :: rows) = newest capacity rows := by
  rw [newest, List.length_cons, Nat.succ_sub h, List.drop_succ_cons, newest]

theorem newest_suffix (capacity : Nat) (rows : List α) : newest capacity rows <:+ rows :=
  List.drop_suffix _ rows

theorem eq_newest_iff {last : List α} :
    last = newest capacity rows ↔ last <:+ rows ∧ last.length = min capacity rows.length := by
  constructor
  · rintro rfl
    exact ⟨newest_suffix capacity rows, length_newest capacity rows⟩
  · rintro ⟨hsuffix, hlength⟩
    rw [List.suffix_iff_eq_drop.mp hsuffix, hlength, newest]
    congr 1
    omega

theorem newest_newest_append (capacity : Nat) (rows more : List α) :
    newest capacity (newest capacity rows ++ more) = newest capacity (rows ++ more) := by
  by_cases h : rows.length ≤ capacity
  · rw [newest_of_length_le h]
  · have hkept : newest capacity rows ++ more = (rows ++ more).drop (rows.length - capacity) := by
      rw [newest, List.drop_append_of_le_length (Nat.sub_le rows.length capacity)]
    rw [hkept, newest, newest, List.drop_drop, List.length_drop, List.length_append]
    congr 1
    omega

theorem newest_newest (capacity : Nat) (rows : List α) :
    newest capacity (newest capacity rows) = newest capacity rows := by
  have htwice := newest_newest_append capacity rows []
  rwa [List.append_nil, List.append_nil] at htwice

end Newest

end SeriesData

end FleetTelemetry
