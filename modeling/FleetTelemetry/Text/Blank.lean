/-!
# Blank characters

The white space of Unicode and trimming by it. Names, numbers and records may be surrounded by
blanks wherever this library reads text by hand, and all of it trims by this one class.
-/

namespace FleetTelemetry.Text

def blankRanges : List (Nat × Nat) :=
  [(0x09, 0x0D), (0x20, 0x20), (0x85, 0x85), (0xA0, 0xA0), (0x1680, 0x1680), (0x2000, 0x200A),
   (0x2028, 0x2029), (0x202F, 0x202F), (0x205F, 0x205F), (0x3000, 0x3000)]

def isBlank (c : Char) : Bool :=
  blankRanges.any fun range => range.1 ≤ c.toNat && c.toNat ≤ range.2

def trimEnd (s : List Char) : List Char :=
  (s.reverse.dropWhile isBlank).reverse

def trimChars (s : List Char) : List Char :=
  trimEnd (s.dropWhile isBlank)

def trim (s : String) : String :=
  String.ofList (trimChars s.toList)

theorem trimEnd_append_blanks {s blanks : List Char} (h : ∀ c ∈ blanks, isBlank c = true) :
    trimEnd (s ++ blanks) = trimEnd s := by
  rw [trimEnd, List.reverse_append, List.dropWhile_append_of_pos, trimEnd]
  intro c hc
  exact h c (List.mem_reverse.mp hc)

theorem trimEnd_eq_self {s : List Char} (hlast : ∀ c ∈ s.getLast?, isBlank c = false) :
    trimEnd s = s := by
  have hrev : s.reverse.dropWhile isBlank = s.reverse := by
    cases hr : s.reverse with
    | nil => rfl
    | cons c r =>
      have hc : s.getLast? = some c := by
        rw [← List.head?_reverse, hr]
        rfl
      simp [hlast c (by simp [hc])]
  rw [trimEnd, hrev, List.reverse_reverse]

theorem trimChars_eq_self {s : List Char} (hhead : ∀ c ∈ s.head?, isBlank c = false)
    (hlast : ∀ c ∈ s.getLast?, isBlank c = false) : trimChars s = s := by
  have hdrop : s.dropWhile isBlank = s := by
    cases s with
    | nil => rfl
    | cons c r => simp [hhead c (by simp)]
  rw [trimChars, hdrop, trimEnd_eq_self hlast]

end FleetTelemetry.Text
