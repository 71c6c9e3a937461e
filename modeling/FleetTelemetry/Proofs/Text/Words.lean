import FleetTelemetry.Text.Blank
import Mathlib.Data.List.DropRight

/-!
# Words

A word of a text is a stretch without blanks that blanks or the ends of the text close off. Words
are taken off the end of a text one after the other, and a text that was put together from words
with blanks between them comes apart again.
-/

namespace FleetTelemetry.Text

variable {before word after : List Char}

def AllBlank (s : List Char) : Prop := ∀ c ∈ s, isBlank c = true

def IsWord (s : List Char) : Prop := s ≠ [] ∧ ∀ c ∈ s, isBlank c = false

def popWord (s : List Char) : List Char × List Char :=
  ((trimEnd s).rdropWhile fun c => !isBlank c, (trimEnd s).rtakeWhile fun c => !isBlank c)

/-- Takes the last words off a text. They keep their order. -/
def popWords : Nat → List Char → List Char × List (List Char)
  | 0, s => (s, [])
  | n + 1, s =>
    let last := popWord s
    let others := popWords n last.1
    (others.1, others.2 ++ [last.2])

private theorem AllBlank.isBlank_of_getLast? (before : List Char) (hafter : AllBlank after)
    (hne : after ≠ []) : ∀ c ∈ (before ++ after).getLast?, isBlank c = true := by
  intro c hc
  rw [List.getLast?_append_of_ne_nil _ hne] at hc
  exact hafter c (List.mem_of_getLast? hc)

private theorem popWord_append (hbefore : ∀ c ∈ before.getLast?, isBlank c = true)
    (hword : IsWord word)
    (hafter : AllBlank after) : popWord (before ++ word ++ after) = (before, word) := by
  have htrim : trimEnd (before ++ word ++ after) = before ++ word := by
    rw [trimEnd_append_blanks hafter, trimEnd_eq_self]
    intro c hc
    rw [List.getLast?_append_of_ne_nil _ hword.1] at hc
    exact hword.2 c (List.mem_of_getLast? hc)
  have hdrop : (before ++ word).rdropWhile (fun c => !isBlank c) = before := by
    rw [List.rdropWhile, List.reverse_append, List.dropWhile_append_of_pos]
    · refine List.rdropWhile_eq_self_iff.mpr fun hne => ?_
      rw [hbefore _ (List.getLast?_eq_some_getLast hne)]
      exact Bool.false_ne_true
    · intro c hc
      rw [hword.2 c (List.mem_reverse.mp hc)]
      rfl
  have htake : (before ++ word).rtakeWhile (fun c => !isBlank c) = word := by
    have hboth : (before ++ word).rdropWhile (fun c => !isBlank c) ++
        (before ++ word).rtakeWhile (fun c => !isBlank c) = before ++ word :=
      List.rdropWhile_append_rtakeWhile
    rw [hdrop] at hboth
    exact List.append_cancel_left hboth
  rw [popWord, htrim, hdrop, htake]

/-! ## Columns -/

/-- A text with columns after it. Each column is a gap and what stands behind the gap. -/
def withColumns (first : List Char) (columns : List (List Char × List Char)) : List Char :=
  first ++ columns.flatMap fun column => column.1 ++ column.2

private theorem withColumns_concat (first : List Char) (columns : List (List Char × List Char))
    (column : List Char × List Char) :
    withColumns first (columns ++ [column]) = withColumns first columns ++ column.1 ++ column.2 := by
  simp [withColumns]

/-- Columns of words with a gap before each are taken off again, and at most some blanks stay behind
what was there before them. -/
theorem popWords_withColumns (first : List Char) {columns : List (List Char × List Char)}
    (hcolumns : ∀ column ∈ columns, (column.1 ≠ [] ∧ AllBlank column.1) ∧ IsWord column.2)
    (hafter : AllBlank after) :
    ∃ blanks, AllBlank blanks ∧
      popWords columns.length (withColumns first columns ++ after) =
        (first ++ blanks, columns.map Prod.snd) := by
  induction columns using List.reverseRecOn generalizing after with
  | nil => exact ⟨after, hafter, by simp [popWords, withColumns]⟩
  | append_singleton columns column ih =>
    obtain ⟨⟨hne, hgap⟩, hword⟩ := hcolumns column (by simp)
    -- The gap of a column is what follows the columns before it.
    obtain ⟨blanks, hblanks, hrest⟩ :=
      ih (fun other hother => hcolumns other (List.mem_append_left _ hother)) hgap
    have hpop := popWord_append (hgap.isBlank_of_getLast? (withColumns first columns) hne)
      hword hafter
    refine ⟨blanks, hblanks, ?_⟩
    simp only [List.length_append, List.length_singleton, withColumns_concat, popWords, hpop, hrest,
      List.map_append, List.map_singleton]

end FleetTelemetry.Text
