/-!
# Pieces and lines

A separated text is cut at every separator, so it has one more piece than separators. A line
ends at a line feed, which takes one carriage return before it along; what follows the last
line feed is a line of its own unless it is empty.
-/

namespace FleetTelemetry.Text

def pieces (sep : Char) : List Char → List (List Char)
  | [] => [[]]
  | c :: rest =>
    if c = sep then
      [] :: pieces sep rest
    else
      match pieces sep rest with
      | [] => [[c]]
      | piece :: others => (c :: piece) :: others

def joinPieces (sep : Char) : List (List Char) → List Char
  | [] => []
  | [piece] => piece
  | piece :: others => piece ++ sep :: joinPieces sep others

def dropReturn (line : List Char) : List Char :=
  if line.getLast? = some '\r' then line.dropLast else line

/-- The lines of a text: each line feed closes one, and an unfinished last line counts. -/
def lines (s : List Char) : List (List Char) :=
  let cut := pieces '\n' s
  let closed := cut.dropLast.map dropReturn
  match cut.getLast? with
  | none => closed
  | some [] => closed
  | some last => closed ++ [last]

theorem pieces_ne_nil (sep : Char) (s : List Char) : pieces sep s ≠ [] := by
  induction s with
  | nil => simp [pieces]
  | cons c rest ih =>
    unfold pieces
    split
    · simp
    · split <;> simp

theorem pieces_of_not_mem {sep : Char} {s : List Char} (h : sep ∉ s) : pieces sep s = [s] := by
  induction s with
  | nil => rfl
  | cons c rest ih =>
    have hc : c ≠ sep := fun e => h (by simp [e])
    simp [pieces, hc, ih (fun hm => h (by simp [hm]))]

theorem pieces_append_cons {sep : Char} {s : List Char} (h : sep ∉ s) (rest : List Char) :
    pieces sep (s ++ sep :: rest) = s :: pieces sep rest := by
  induction s with
  | nil => simp [pieces]
  | cons c more ih =>
    have hc : c ≠ sep := fun e => h (by simp [e])
    simp [pieces, hc, ih (fun hm => h (by simp [hm]))]

theorem joinPieces_pieces (sep : Char) (s : List Char) : joinPieces sep (pieces sep s) = s := by
  induction s with
  | nil => rfl
  | cons c rest ih =>
    by_cases hc : c = sep
    · subst hc
      cases hp : pieces c rest with
      | nil => exact absurd hp (pieces_ne_nil c rest)
      | cons piece others =>
        simp only [pieces, hp, if_true, joinPieces]
        rw [← ih, hp]
        simp
    · cases hp : pieces sep rest with
      | nil => exact absurd hp (pieces_ne_nil sep rest)
      | cons piece others =>
        simp only [pieces, hc, hp, if_false]
        rw [hp] at ih
        cases others with
        | nil => simpa [joinPieces] using ih
        | cons other more => simpa [joinPieces] using ih

end FleetTelemetry.Text
