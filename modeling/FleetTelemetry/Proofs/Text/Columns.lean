import FleetTelemetry.Proofs.Text.Numerals
import FleetTelemetry.Snapshot.Basic
import Mathlib.Data.List.Forall2

/-!
# Lines of columns

A line of columns starts with its first column, and the row of a log is its time before the row of
the sample. A line whose columns are numerals is cut at its commas into just these, and they read
back as their numbers.
-/

namespace FleetTelemetry

namespace Text

variable {text row : List Char} {n : Nat} {values : List UInt64}

private theorem commaLine_cons_cons (first second : List Char) (columns : List (List Char)) :
    commaLine (first :: second :: columns) = first ++ ',' :: commaLine (second :: columns) := by
  simp [commaLine, List.intercalate]

private theorem joinPieces_eq_intercalate (sep : Char) (items : List (List Char)) :
    joinPieces sep items = [sep].intercalate items := by
  fun_induction joinPieces with
  | case1 => rfl
  | case2 item => simp [List.intercalate]
  | case3 item others hmore ih =>
    obtain ⟨second, rest, rfl⟩ := List.exists_cons_of_ne_nil hmore
    simp [ih, List.intercalate]

/-! ## Canonical numerals -/

/-- Digits that denote a number, without a zero at the front unless there is nothing else. -/
structure IsCanonical (text : List Char) (n : Nat) : Prop where
  digits : ∀ c ∈ text, isDigit c = true
  nonempty : text ≠ []
  leading : text.head? = some '0' → text = ['0']
  value : digitsValue text = n

private theorem isCanonical_decimal (n : Nat) : IsCanonical (decimal n) n where
  digits _ hc := isDigit_of_mem_decimal hc
  nonempty := decimal_ne_nil n
  leading h := by
    obtain rfl | hpos := Nat.eq_zero_or_pos n
    · rfl
    · exact absurd h (head?_decimal_ne_zero hpos)
  value := digitsValue_decimal n

private theorem IsCanonical.eq_decimal (h : IsCanonical text n) : text = decimal n := by
  rw [← h.value]
  by_cases hzero : text.head? = some '0'
  · rw [h.leading hzero]
    rfl
  · exact (decimal_digitsValue h.digits h.nonempty hzero).2.symm

/-! ## Lines of numerals -/

def numerals (values : List UInt64) : List (List Char) :=
  values.map fun value => decimal value.toNat

theorem forall_mem_numerals {p : List Char → Prop} (values : List UInt64)
    (h : ∀ n, p (decimal n)) : ∀ item ∈ numerals values, p item := by
  intro item hitem
  obtain ⟨value, -, rfl⟩ := List.mem_map.mp hitem
  exact h value.toNat

theorem printable_intercalate_numerals (values : List UInt64) :
    Printable ([','].intercalate (numerals values)) :=
  printable_intercalate (forall_mem_numerals values printable_decimal)

theorem pieces_intercalate_numerals (first : UInt64) (others : List UInt64) :
    pieces ',' ([','].intercalate (numerals (first :: others))) = numerals (first :: others) :=
  pieces_intercalate
    (forall_mem_numerals (first :: others) fun _ => not_mem_decimal (by decide))

theorem map_word?_numerals (values : List UInt64) :
    (numerals values).map word? = values.map some := by
  rw [numerals, List.map_map]
  exact List.map_congr_left fun value _ => word?_decimal value

theorem numerals_inj {others : List UInt64} :
    numerals values = numerals others ↔ values = others := by
  refine ⟨fun h => ?_, congrArg numerals⟩
  have hread := congrArg (List.map word?) h
  rw [map_word?_numerals, map_word?_numerals] at hread
  exact (List.map_inj_right fun _ _ => Option.some.inj).mp hread

private theorem forall₂_isCanonical_iff {items : List (List Char)} :
    List.Forall₂ IsCanonical items (values.map UInt64.toNat) ↔ items = numerals values := by
  rw [List.forall₂_map_right_iff]
  constructor
  · intro h
    induction h with
    | nil => rfl
    | cons hfirst _ ih =>
      rw [ih, hfirst.eq_decimal]
      rfl
  · rintro rfl
    exact List.forall₂_map_left_iff.mpr (List.forall₂_same.mpr fun value _ =>
      isCanonical_decimal value.toNat)

/-- A text is the line of some numbers when it ends at its only line feed and the texts between its
commas are the canonical numerals of the numbers. -/
theorem eq_commaLine_numerals_iff {first : UInt64} {others : List UInt64} :
    row = commaLine (numerals (first :: others)) ↔
      ∃ body, row = body ++ ['\n'] ∧ '\n' ∉ body ∧
        List.Forall₂ IsCanonical (pieces ',' body) ((first :: others).map UInt64.toNat) := by
  constructor
  · rintro rfl
    refine ⟨_, rfl, ?_, forall₂_isCanonical_iff.mpr (pieces_intercalate_numerals first others)⟩
    exact (printable_intercalate_numerals (first :: others)).not_mem (by decide)
  · rintro ⟨body, rfl, -, hitems⟩
    rw [commaLine, ← forall₂_isCanonical_iff.mp hitems, ← joinPieces_eq_intercalate,
      joinPieces_pieces]

theorem commaLine_numerals_inj {first first' : UInt64} {others others' : List UInt64} :
    commaLine (numerals (first :: others)) = commaLine (numerals (first' :: others')) ↔
      first :: others = first' :: others' := by
  refine ⟨fun h => ?_, congrArg fun values => commaLine (numerals values)⟩
  have hpieces := congrArg (pieces ',') (List.append_cancel_right h)
  rw [pieces_intercalate_numerals, pieces_intercalate_numerals] at hpieces
  exact numerals_inj.mp hpieces

end Text

open Text

theorem Snapshot.csvRow_eq (s : Snapshot) (timestamp : UInt64) :
    s.csvRow timestamp = decimalString timestamp.toNat ++ "," ++ s.sampleRow := by
  apply String.toList_inj.mp
  have hcolumns : s.sampleColumns = decimal s.generatedTransactions.toNat :: s.sampleColumns.tail :=
    rfl
  rw [csvRow, sampleRow, hcolumns, commaLine_cons_cons]
  simp [decimalString]

end FleetTelemetry
