import FleetTelemetry.Text.Split

/-!
# Texts of lines

Texts without control characters can be closed by line feeds and cut again, and texts without
commas can be joined by commas and cut again. A text is cut where a test first fails.
-/

namespace FleetTelemetry.Text

theorem takeWhile_dropWhile_append {α : Type} {p : α → Bool} {front rest : List α}
    (hfront : ∀ a ∈ front, p a = true) (hrest : ∀ a ∈ rest.head?, p a = false) :
    (front ++ rest).takeWhile p = front ∧ (front ++ rest).dropWhile p = rest := by
  rw [List.takeWhile_append_of_pos hfront, List.dropWhile_append_of_pos hfront]
  cases rest with
  | nil => simp
  | cons a rest => simp [hrest a rfl]

def Printable (s : List Char) : Prop := ∀ c ∈ s, 0x20 ≤ c.toNat

theorem printable_cons {c : Char} {s : List Char} :
    Printable (c :: s) ↔ 0x20 ≤ c.toNat ∧ Printable s := by
  simp [Printable]

theorem printable_append {s t : List Char} : Printable (s ++ t) ↔ Printable s ∧ Printable t := by
  simp [Printable, or_imp, forall_and]

theorem Printable.not_mem {s : List Char} (h : Printable s) {c : Char} (hc : c.toNat < 0x20) :
    c ∉ s := by
  intro hmem
  exact absurd (h c hmem) (Nat.not_le.mpr hc)

theorem intercalate_comma (first : List Char) (others : List (List Char)) :
    [','].intercalate (first :: others) = first ++ others.flatMap fun item => ',' :: item := by
  induction others generalizing first with
  | nil => simp [List.intercalate]
  | cons second others ih =>
    have hmore := ih second
    simp only [List.intercalate] at hmore ⊢
    simp [hmore]

theorem printable_intercalate {items : List (List Char)} (h : ∀ item ∈ items, Printable item) :
    Printable ([','].intercalate items) := by
  cases items with
  | nil => simp [Printable, List.intercalate]
  | cons first others =>
    rw [intercalate_comma, printable_append]
    refine ⟨h first List.mem_cons_self, ?_⟩
    intro c hc
    obtain ⟨item, hitem, hc⟩ := List.mem_flatMap.mp hc
    have hcomma : Printable (',' :: item) :=
      printable_cons.mpr ⟨by decide, h item (List.mem_cons_of_mem first hitem)⟩
    exact hcomma c hc

theorem pieces_intercalate {first : List Char} {others : List (List Char)}
    (h : ∀ item ∈ first :: others, ',' ∉ item) :
    pieces ',' ([','].intercalate (first :: others)) = first :: others := by
  rw [intercalate_comma]
  induction others generalizing first with
  | nil =>
    have hfirst := h first List.mem_cons_self
    simpa using pieces_of_not_mem hfirst
  | cons second others ih =>
    have hfirst := h first List.mem_cons_self
    have hmore := ih fun item hitem => h item (List.mem_cons_of_mem first hitem)
    rw [List.flatMap_cons, List.cons_append, pieces_append_cons hfirst, hmore]

private theorem dropReturn_of_printable {line : List Char} (h : Printable line) :
    dropReturn line = line := by
  have hreturn : line.getLast? ≠ some '\r' := by
    intro hlast
    exact h.not_mem (by decide) (List.mem_of_getLast? hlast)
  rw [dropReturn, if_neg hreturn]

private theorem pieces_closed {texts : List (List Char)} (h : ∀ text ∈ texts, Printable text) :
    pieces '\n' (texts.flatMap fun text => text ++ ['\n']) = texts ++ [[]] := by
  induction texts with
  | nil => rfl
  | cons text texts ih =>
    have htext : '\n' ∉ text := (h text List.mem_cons_self).not_mem (by decide)
    have hmore := ih fun other hother => h other (List.mem_cons_of_mem text hother)
    rw [List.flatMap_cons, List.append_assoc, List.singleton_append, pieces_append_cons htext,
      hmore]
    rfl

theorem lines_closed {texts : List (List Char)} (h : ∀ text ∈ texts, Printable text) :
    lines (texts.flatMap fun text => text ++ ['\n']) = texts := by
  have hreturns : texts.map dropReturn = texts := by
    apply List.map_congr_left _ |>.trans (List.map_id texts)
    exact fun text htext => dropReturn_of_printable (h text htext)
  simp only [lines, pieces_closed h, List.dropLast_concat, List.getLast?_concat, hreturns]

end FleetTelemetry.Text
