import FleetTelemetry.Proofs.Text.Columns
import FleetTelemetry.Time.Span

/-!
# Clocks

A clock text is made of words: a figure and its unit, largest unit first, with one space between two
words. From its words the whole seconds of the span are worked out again, so a clock shows them and
nothing else.
-/

namespace FleetTelemetry

open Text

/-! ## Figures of two digits -/

namespace Span

variable {n : Nat}

private theorem isDigit_of_mem_twoDigits {c : Char} (h : c ∈ twoDigits n) : isDigit c = true := by
  unfold twoDigits at h
  split at h
  · rcases List.mem_cons.mp h with rfl | h
    · rfl
    · exact isDigit_of_mem_decimal h
  · exact isDigit_of_mem_decimal h

private theorem length_twoDigits (h : n < 100) : (twoDigits n).length = 2 := by
  have hall : ∀ n < 100, (twoDigits n).length = 2 := by decide
  exact hall n h

private theorem digitsValue_twoDigits (n : Nat) : digitsValue (twoDigits n) = n := by
  have hzero (s : List Char) : digitsValue ('0' :: s) = digitsValue s := rfl
  unfold twoDigits
  split
  · rw [hzero, digitsValue_decimal]
  · exact digitsValue_decimal n

end Span

namespace Clock

open FleetTelemetry.Span

/-! ## Words of a clock -/

def digitsBefore? (unit : Char) (words : List (List Char)) : Option (List Char) :=
  (words.find? fun word => word.getLast? = some unit).map List.dropLast

/-- The figure before a unit. One that is not shown is zero. -/
def figure (unit : Char) (words : List (List Char)) : Nat :=
  (digitsBefore? unit words).elim 0 digitsValue

/-- The words of a clock with so many whole seconds, by the largest unit that is shown. -/
inductive Layout (total : Nat) : List (List Char) → Prop where
  | hours (h : 0 < total / 3600) :
    Layout total [decimal (total / 3600) ++ ['h'], twoDigits (total % 3600 / 60) ++ ['m'],
      twoDigits (total % 60) ++ ['s']]
  | minutes (hhours : total / 3600 = 0) (h : 0 < total % 3600 / 60) :
    Layout total [decimal (total % 3600 / 60) ++ ['m'], twoDigits (total % 60) ++ ['s']]
  | seconds (hhours : total / 3600 = 0) (hminutes : total % 3600 / 60 = 0) :
    Layout total [decimal (total % 60) ++ ['s']]

private theorem space_not_mem {digits : List Char} {unit : Char}
    (hdigits : ∀ c ∈ digits, isDigit c = true) (hunit : ' ' ≠ unit) : ' ' ∉ digits ++ [unit] := by
  intro h
  rcases List.mem_append.mp h with h | h
  · exact absurd (hdigits ' ' h) (by decide)
  · exact hunit (List.mem_singleton.mp h)

private theorem pieces_figure {digits : List Char} {unit : Char}
    (hdigits : ∀ c ∈ digits, isDigit c = true) (hunit : ' ' ≠ unit) (rest : List Char) :
    pieces ' ' (digits ++ unit :: ' ' :: rest) = (digits ++ [unit]) :: pieces ' ' rest := by
  rw [List.append_cons, pieces_append_cons (space_not_mem hdigits hunit)]

private theorem layout_pieces (d : Span) : Layout d.seconds (pieces ' ' d.clock.toList) := by
  have hdecimal (n : Nat) : ∀ c ∈ decimal n, isDigit c = true := fun _ => isDigit_of_mem_decimal
  have htwo (n : Nat) : ∀ c ∈ twoDigits n, isDigit c = true := fun _ => isDigit_of_mem_twoDigits
  rw [clock, String.toList_ofList, clockChars]
  generalize d.seconds = total
  split
  case isTrue h =>
    simp only [List.append_assoc, List.cons_append, List.nil_append]
    rw [pieces_figure (hdecimal _) (by decide), pieces_figure (htwo _) (by decide),
      pieces_of_not_mem (space_not_mem (htwo _) (by decide))]
    exact .hours h
  case isFalse h =>
    have hhours : total / 3600 = 0 := Nat.eq_zero_of_not_pos h
    split
    case isTrue h =>
      simp only [List.append_assoc, List.cons_append, List.nil_append]
      rw [pieces_figure (hdecimal _) (by decide),
        pieces_of_not_mem (space_not_mem (htwo _) (by decide))]
      exact .minutes hhours h
    case isFalse h =>
      rw [pieces_of_not_mem (space_not_mem (hdecimal _) (by decide))]
      exact .seconds hhours (Nat.eq_zero_of_not_pos h)

/-! ## What the words say -/

variable {total : Nat} {words : List (List Char)}

theorem Layout.figures (h : Layout total words) :
    figure 'h' words = total / 3600 ∧ figure 'm' words = total % 3600 / 60 ∧
      figure 's' words = total % 60 := by
  cases h with
  | hours =>
    simp [figure, digitsBefore?, digitsValue_decimal, digitsValue_twoDigits]
  | minutes hhours =>
    simp [figure, digitsBefore?, digitsValue_decimal, digitsValue_twoDigits, hhours]
  | seconds hhours hminutes =>
    simp [figure, digitsBefore?, digitsValue_decimal, hhours, hminutes]

/-- The words of a clock show a number of whole seconds. -/
structure Shows (words : List (List Char)) (total : Nat) : Prop where
  total_eq : 3600 * figure 'h' words + 60 * figure 'm' words + figure 's' words = total
  minutes_le : figure 'm' words ≤ 59
  seconds_le : figure 's' words ≤ 59
  hours_shown_iff : (digitsBefore? 'h' words).isSome ↔ 0 < figure 'h' words
  minutes_shown_iff :
    (digitsBefore? 'm' words).isSome ↔ (digitsBefore? 'h' words).isSome ∨ 0 < figure 'm' words
  seconds_shown : (digitsBefore? 's' words).isSome
  /-- The units that are shown are the last ones, in this order, each once. -/
  units_suffix : words.map List.getLast? <:+ [some 'h', some 'm', some 's']
  first_canonical : ∀ word ∈ words.head?, ∃ n, word.dropLast = decimal n
  others_two_digits : ∀ word ∈ words.tail,
    word.dropLast.length = 2 ∧ ∀ c ∈ word.dropLast, isDigit c = true

private theorem Layout.units_suffix (h : Layout total words) :
    words.map List.getLast? <:+ [some 'h', some 'm', some 's'] := by
  cases h with
  | hours => exact ⟨[], by simp⟩
  | minutes => exact ⟨[some 'h'], by simp⟩
  | seconds => exact ⟨[some 'h', some 'm'], by simp⟩

private theorem Layout.first_canonical (h : Layout total words) :
    ∀ word ∈ words.head?, ∃ n, word.dropLast = decimal n := by
  cases h <;> simp

private theorem Layout.others_two_digits (h : Layout total words) : ∀ word ∈ words.tail,
    word.dropLast.length = 2 ∧ ∀ c ∈ word.dropLast, isDigit c = true := by
  have htwo {n : Nat} (hn : n < 60) :
      (twoDigits n).length = 2 ∧ ∀ c ∈ twoDigits n, isDigit c = true :=
    ⟨length_twoDigits (by omega), fun _ => isDigit_of_mem_twoDigits⟩
  have hminutes : total % 3600 / 60 < 60 := by omega
  have hseconds : total % 60 < 60 := Nat.mod_lt _ (by decide)
  cases h with
  | hours => simpa using ⟨htwo hminutes, htwo hseconds⟩
  | minutes => simpa using htwo hseconds
  | seconds => simp

theorem Layout.shows (h : Layout total words) : Shows words total := by
  obtain ⟨hhours, hminutes, hseconds⟩ := h.figures
  have hshown : (digitsBefore? 'h' words).isSome = decide (0 < total / 3600) ∧
      (digitsBefore? 'm' words).isSome =
        (decide (0 < total / 3600) || decide (0 < total % 3600 / 60)) ∧
      (digitsBefore? 's' words).isSome = true := by
    cases h <;> simp_all [digitsBefore?]
  obtain ⟨hh, hm, hs⟩ := hshown
  refine ⟨?_, ?_, ?_, ?_, ?_, hs, h.units_suffix, h.first_canonical, h.others_two_digits⟩
  · rw [hhours, hminutes, hseconds]
    omega
  · rw [hminutes]
    omega
  · rw [hseconds]
    omega
  · rw [hh, hhours, decide_eq_true_eq]
  · rw [hm, hh, hminutes, Bool.or_eq_true, decide_eq_true_eq, decide_eq_true_eq]

/-- A clock shows exactly the whole seconds of its span, in hours, minutes and seconds, of which the
hours are left out when there are none, and the minutes when there are neither hours nor minutes.
So two spans have the same clock exactly when they have the same whole seconds. -/
theorem clock_exact :
    (∀ d : Span, Shows (pieces ' ' d.clock.toList) d.seconds) ∧
      ∀ d d' : Span, d.clock = d'.clock ↔ d.seconds = d'.seconds := by
  refine ⟨fun d => (layout_pieces d).shows, fun d d' => ⟨fun h => ?_, fun h => ?_⟩⟩
  · have hd := (layout_pieces d).shows
    have hd' := (layout_pieces d').shows
    rw [← hd.total_eq, h, hd'.total_eq]
  · rw [clock, clock, clockChars, clockChars, h]

-- An hour and no minute, less a nanosecond of the next second.
example : (Span.ofParts 3605 999999999).clock = "1h 00m 05s" := by decide

end Clock

end FleetTelemetry
