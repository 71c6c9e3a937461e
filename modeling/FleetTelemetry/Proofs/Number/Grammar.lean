import FleetTelemetry.Number.Literal
import FleetTelemetry.Proofs.Text.Numerals
import Mathlib.Data.List.Basic

/-!
# What is a number

The rules of number literals, told without the reader: a sign that may be missing, and digits, a
point and an exponent, or a word. The reader accepts just these. What a number ends in is told from
the rules, since units are written right behind it.
-/

namespace FleetTelemetry.Number

open FleetTelemetry.Text

namespace Literal

/-! ## The rules -/

inductive IsSign : List Char → Prop where
  | absent : IsSign []
  | plus : IsSign ['+']
  | minus : IsSign ['-']

def AllDigits (s : List Char) : Prop := ∀ c ∈ s, isDigit c = true

inductive IsExponent : List Char → Prop where
  | absent : IsExponent []
  | power {letter : Char} {sign digits : List Char} (hletter : letter = 'e' ∨ letter = 'E')
      (hsign : IsSign sign) (hdigits : AllDigits digits) (hne : digits ≠ []) :
    IsExponent (letter :: (sign ++ digits))

/-- Digits, of which there is at least one, with or without a point among them. -/
inductive IsDecimal : List Char → Prop where
  | whole {digits exponent : List Char} (hdigits : AllDigits digits) (hne : digits ≠ [])
      (hexponent : IsExponent exponent) : IsDecimal (digits ++ exponent)
  | point {whole fraction exponent : List Char} (hwhole : AllDigits whole)
      (hfraction : AllDigits fraction) (hne : whole ≠ [] ∨ fraction ≠ [])
      (hexponent : IsExponent exponent) : IsDecimal (whole ++ '.' :: (fraction ++ exponent))

/-- A word for infinity or for no number at all. Case does not matter. -/
def IsWord (s : List Char) : Prop :=
  s.map Char.toLower ∈ ["inf".toList, "infinity".toList, "nan".toList]

/-- A number as it may be written. -/
inductive IsNumber : List Char → Prop where
  | decimal {sign s : List Char} (hsign : IsSign sign) (h : IsDecimal s) : IsNumber (sign ++ s)
  | word {sign s : List Char} (hsign : IsSign sign) (h : IsWord s) : IsNumber (sign ++ s)

/-! ## The reader follows the rules -/

variable {s rest sign digits more : List Char} {letter : Char} {negative : Bool}

private theorem exists_isSign (s : List Char) :
    ∃ sign, IsSign sign ∧ s = sign ++ (splitSign s).2 := by
  unfold splitSign
  split
  · exact ⟨_, .minus, rfl⟩
  · exact ⟨_, .plus, rfl⟩
  · exact ⟨_, .absent, rfl⟩

private theorem splitSign_append (hsign : IsSign sign)
    (hrest : ∀ c ∈ rest.head?, c ≠ '-' ∧ c ≠ '+') :
    (splitSign (sign ++ rest)).2 = rest := by
  cases hsign with
  | plus => rfl
  | minus => rfl
  | absent =>
    rw [List.nil_append]
    unfold splitSign
    split
    · exact absurd rfl (hrest '-' rfl).1
    · exact absurd rfl (hrest '+' rfl).2
    · rfl

theorem AllDigits.head (h : AllDigits s) : ∀ c ∈ s.head?, c ≠ '-' ∧ c ≠ '+' := by
  intro c hc
  have hdigit := h c (List.mem_of_head? hc)
  constructor
  all_goals
    rintro rfl
    cases hdigit

private theorem allDigits_takeWhile (s : List Char) : AllDigits (s.takeWhile isDigit) :=
  List.all_eq_true.mp List.all_takeWhile

private theorem isSome_digits?_iff : (digits? s).isSome = true ↔ AllDigits s ∧ s ≠ [] := by
  simp only [Option.isSome_iff_exists, digits?_eq_some_iff]
  constructor
  · rintro ⟨n, hne, hdigits, -⟩
    exact ⟨hdigits, hne⟩
  · rintro ⟨hdigits, hne⟩
    exact ⟨digitsValue s, hne, hdigits, rfl⟩

private theorem isSome_exponent?_cons : (exponent? (letter :: rest)).isSome = true ↔
    (letter = 'e' ∨ letter = 'E') ∧ AllDigits (splitSign rest).2 ∧ (splitSign rest).2 ≠ [] := by
  rw [exponent?, ← isSome_digits?_iff]
  split
  case isTrue hletter =>
    cases hdigits : digits? (splitSign rest).2 with
    | none => simp [hdigits]
    | some n => simp [hdigits, hletter]
  case isFalse hletter => simp [hletter]

private theorem isSome_exponent?_iff : (exponent? s).isSome = true ↔ IsExponent s := by
  constructor
  · intro h
    cases s with
    | nil => exact .absent
    | cons letter rest =>
      obtain ⟨hletter, hdigits, hne⟩ := isSome_exponent?_cons.mp h
      obtain ⟨sign, hsign, hrest⟩ := exists_isSign rest
      rw [hrest]
      exact .power hletter hsign hdigits hne
  · intro h
    cases h with
    | absent => rfl
    | power hletter hsign hdigits hne =>
      rw [isSome_exponent?_cons, splitSign_append hsign hdigits.head]
      exact ⟨hletter, hdigits, hne⟩

theorem IsExponent.head (h : IsExponent s) : ∀ c ∈ s.head?, isDigit c = false ∧ c ≠ '.' := by
  cases h with
  | absent => exact nofun
  | power hletter =>
    rintro c ⟨⟩
    rcases hletter with rfl | rfl
    all_goals decide

private theorem isSome_digitsAndPoint?_point (hpoint : s.dropWhile isDigit = '.' :: more) :
    (digitsAndPoint? negative s).isSome = true ↔
      (s.takeWhile isDigit ≠ [] ∨ more.takeWhile isDigit ≠ []) ∧
        IsExponent (more.dropWhile isDigit) := by
  rw [← isSome_exponent?_iff, digitsAndPoint?, hpoint]
  change (if (s.takeWhile isDigit).isEmpty && (more.takeWhile isDigit).isEmpty then none
    else (exponent? (more.dropWhile isDigit)).map _).isSome = true ↔ _
  cases s.takeWhile isDigit with
  | nil => cases more.takeWhile isDigit <;> simp
  | cons c whole => simp

private theorem isSome_digitsAndPoint?_whole (hpoint : ∀ c ∈ (s.dropWhile isDigit).head?, c ≠ '.') :
    (digitsAndPoint? negative s).isSome = true ↔
      s.takeWhile isDigit ≠ [] ∧ IsExponent (s.dropWhile isDigit) := by
  rw [← isSome_exponent?_iff, digitsAndPoint?]
  cases hrest : s.dropWhile isDigit with
  | nil => cases s.takeWhile isDigit <;> simp
  | cons c rest =>
    have hc : c ≠ '.' := by
      rw [hrest] at hpoint
      exact hpoint c rfl
    cases s.takeWhile isDigit <;> simp [hc]

private theorem isSome_digitsAndPoint?_iff :
    (digitsAndPoint? negative s).isSome = true ↔ IsDecimal s := by
  constructor
  · intro h
    have hsplit := List.takeWhile_append_dropWhile (p := isDigit) (l := s)
    by_cases hpoint : ∃ more, s.dropWhile isDigit = '.' :: more
    · obtain ⟨more, hmore⟩ := hpoint
      obtain ⟨hne, hexponent⟩ := (isSome_digitsAndPoint?_point hmore).mp h
      have hfraction := List.takeWhile_append_dropWhile (p := isDigit) (l := more)
      rw [← hsplit, hmore, ← hfraction]
      exact .point (allDigits_takeWhile s) (allDigits_takeWhile more) hne hexponent
    · have hhead : ∀ c ∈ (s.dropWhile isDigit).head?, c ≠ '.' := by
        rintro c hc rfl
        exact hpoint (List.head?_eq_some_iff.mp hc)
      obtain ⟨hne, hexponent⟩ := (isSome_digitsAndPoint?_whole hhead).mp h
      rw [← hsplit]
      exact .whole (allDigits_takeWhile s) hne hexponent
  · intro h
    cases h with
    | whole hdigits hne hexponent =>
      obtain ⟨htake, hdrop⟩ :=
        takeWhile_dropWhile_append hdigits fun c hc => (hexponent.head c hc).1
      rw [isSome_digitsAndPoint?_whole, htake, hdrop]
      · exact ⟨hne, hexponent⟩
      · rw [hdrop]
        exact fun c hc => (hexponent.head c hc).2
    | @point whole fraction exponent hwhole hfraction hne hexponent =>
      have hstop : ∀ c ∈ ('.' :: (fraction ++ exponent)).head?, isDigit c = false := by
        rintro c ⟨⟩
        decide
      obtain ⟨htake, hdrop⟩ := takeWhile_dropWhile_append hwhole hstop
      obtain ⟨hmore, hrest⟩ :=
        takeWhile_dropWhile_append hfraction fun c hc => (hexponent.head c hc).1
      rw [isSome_digitsAndPoint?_point hdrop, htake, hmore, hrest]
      exact ⟨hne, hexponent⟩

private theorem toLower_of_not_upper {c : Char} (h : ¬ ('A' ≤ c ∧ c ≤ 'Z')) : c.toLower = c := by
  have hval : ¬ (c.val ≥ 'A'.val ∧ c.val ≤ 'Z'.val) := h
  delta Char.toLower
  rw [dif_neg hval]

private theorem lower_eq_toLower (c : Char) : lower c = c.toLower := by
  have hletters : ∀ n < 91, 65 ≤ n → lower (Char.ofNat n) = (Char.ofNat n).toLower := by decide
  by_cases hupper : 'A' ≤ c ∧ c ≤ 'Z'
  · have hletter := hletters c.toNat (Nat.lt_succ_of_le hupper.2) hupper.1
    rwa [Char.ofNat_toNat] at hletter
  · rw [lower, if_neg hupper, toLower_of_not_upper hupper]

private theorem isSome_word?_iff : (word? negative s).isSome = true ↔ IsWord s := by
  have hlower : lower = Char.toLower := funext lower_eq_toLower
  simp only [word?, hlower, IsWord, List.mem_cons, List.not_mem_nil, or_false, ← or_assoc]
  split
  case isTrue hinfinity => exact iff_of_true rfl (.inl hinfinity)
  case isFalse hinfinity =>
    split
    case isTrue hnan => exact iff_of_true rfl (.inr hnan)
    case isFalse hnan => exact iff_of_false nofun (not_or.mpr ⟨hinfinity, hnan⟩)

theorem IsDecimal.head (h : IsDecimal s) : ∀ c ∈ s.head?, c ≠ '-' ∧ c ≠ '+' := by
  cases h with
  | whole hdigits hne =>
    rw [List.head?_append_of_ne_nil _ hne]
    exact hdigits.head
  | @point whole fraction exponent hwhole =>
    cases whole with
    | nil =>
      rintro c ⟨⟩
      decide
    | cons digit whole =>
      rintro c ⟨⟩
      exact hwhole.head digit rfl

theorem IsWord.head (h : IsWord s) : ∀ c ∈ s.head?, c ≠ '-' ∧ c ≠ '+' := by
  have hletters : ∀ word ∈ ["inf".toList, "infinity".toList, "nan".toList],
      word.head? ≠ some '-' ∧ word.head? ≠ some '+' := by decide
  obtain ⟨hminus, hplus⟩ := hletters _ h
  rw [List.head?_map] at hminus hplus
  rintro c hc
  constructor
  all_goals
    rintro rfl
    rw [hc] at hminus hplus
  · exact hminus rfl
  · exact hplus rfl

theorem isSome_read?_iff : (read? s).isSome = true ↔ IsNumber s := by
  have hread : (read? s).isSome = true ↔ IsDecimal (splitSign s).2 ∨ IsWord (splitSign s).2 := by
    rw [read?]
    cases hdecimal : digitsAndPoint? (splitSign s).1 (splitSign s).2 with
    | none =>
      have hno : ¬ IsDecimal (splitSign s).2 := by
        rw [← isSome_digitsAndPoint?_iff, hdecimal]
        exact Bool.false_ne_true
      simp [hdecimal, hno, isSome_word?_iff]
    | some literal =>
      have hyes : IsDecimal (splitSign s).2 := by
        rw [← isSome_digitsAndPoint?_iff, hdecimal]
        rfl
      simp [hdecimal, hyes]
  rw [hread]
  constructor
  · obtain ⟨sign, hsign, hs⟩ := exists_isSign s
    intro h
    rw [hs]
    rcases h with h | h
    · exact .decimal hsign h
    · exact .word hsign h
  · intro h
    cases h with
    | decimal hsign h =>
      rw [splitSign_append hsign h.head]
      exact .inl h
    | word hsign h =>
      rw [splitSign_append hsign h.head]
      exact .inr h

/-! ## What a number ends in -/

/-- The characters that numbers end in: digits, a point, and the last letters of the words. -/
def endsNumber (c : Char) : Bool :=
  isDigit c || c == '.' || ['f', 'y', 'n'].contains c.toLower

theorem AllDigits.getLast (h : AllDigits s) (hne : s ≠ []) :
    ∃ c ∈ s.getLast?, isDigit c = true :=
  ⟨s.getLast hne, List.getLast?_eq_some_getLast hne, h _ (List.getLast_mem hne)⟩

private theorem IsExponent.getLast_append {before exponent : List Char} (h : IsExponent exponent)
    (hbefore : ∃ c ∈ before.getLast?, isDigit c = true ∨ c = '.') :
    ∃ c ∈ (before ++ exponent).getLast?, isDigit c = true ∨ c = '.' := by
  cases h with
  | absent => rwa [List.append_nil]
  | power _ _ hdigits hne =>
    obtain ⟨c, hc, hdigit⟩ := hdigits.getLast hne
    rw [← List.cons_append, ← List.append_assoc, List.getLast?_append_of_ne_nil _ hne]
    exact ⟨c, hc, .inl hdigit⟩

theorem IsDecimal.getLast (h : IsDecimal s) : ∃ c ∈ s.getLast?, isDigit c = true ∨ c = '.' := by
  cases h with
  | whole hdigits hne hexponent =>
    apply hexponent.getLast_append
    obtain ⟨c, hc, hdigit⟩ := hdigits.getLast hne
    exact ⟨c, hc, .inl hdigit⟩
  | @point whole fraction exponent _ hfraction _ hexponent =>
    rw [← List.cons_append, ← List.append_assoc]
    apply hexponent.getLast_append
    by_cases hempty : fraction = []
    · rw [hempty]
      exact ⟨'.', List.getLast?_concat, .inr rfl⟩
    · obtain ⟨c, hc, hdigit⟩ := hfraction.getLast hempty
      refine ⟨c, ?_, .inl hdigit⟩
      rw [← List.singleton_append]
      exact List.mem_getLast?_append_of_mem_getLast? (List.mem_getLast?_append_of_mem_getLast? hc)

theorem IsWord.getLast (h : IsWord s) : ∃ c ∈ s.getLast?, c.toLower ∈ ['f', 'y', 'n'] := by
  have hletters : ∀ word ∈ ["inf".toList, "infinity".toList, "nan".toList],
      word.getLast? ∈ ['f', 'y', 'n'].map some := by decide
  obtain ⟨letter, hletter, hlast⟩ := List.mem_map.mp (hletters _ h)
  rw [List.getLast?_map, eq_comm, Option.map_eq_some_iff] at hlast
  obtain ⟨c, hc, rfl⟩ := hlast
  exact ⟨c, hc, hletter⟩

theorem IsNumber.getLast (h : IsNumber s) : ∃ c ∈ s.getLast?, endsNumber c = true := by
  cases h with
  | decimal _ h =>
    obtain ⟨c, hc, hends⟩ := h.getLast
    refine ⟨c, List.mem_getLast?_append_of_mem_getLast? hc, ?_⟩
    rcases hends with hdigit | rfl
    · simp [endsNumber, hdigit]
    · rfl
  | word _ h =>
    obtain ⟨c, hc, hletter⟩ := h.getLast
    refine ⟨c, List.mem_getLast?_append_of_mem_getLast? hc, ?_⟩
    simp [endsNumber, hletter]

private theorem toLower_of_isDigit {c : Char} (h : isDigit c = true) : c.toLower = c := by
  simp only [isDigit, Bool.and_eq_true, decide_eq_true_eq] at h
  have hhigh : c.toNat ≤ 57 := h.2
  apply toLower_of_not_upper
  rintro ⟨hlow, -⟩
  have hletter : 65 ≤ c.toNat := hlow
  omega

private theorem endsNumber_of_toLower {c : Char} (h : c.toLower = 'a') : endsNumber c = false := by
  have hdigit : isDigit c = false := by
    rw [Bool.eq_false_iff]
    intro hdigit
    rw [toLower_of_isDigit hdigit] at h
    rw [h] at hdigit
    cases hdigit
  have hpoint : c ≠ '.' := by
    rintro rfl
    cases h
  simp [endsNumber, h, hdigit, hpoint]

/-- A number that ends in the letter `n` is the word for no number. What stands before that letter
ends in `a`, so it is no number itself. -/
theorem IsNumber.not_of_append (h : IsNumber (s ++ ['n'])) : ¬ IsNumber s := by
  generalize ht : s ++ ['n'] = t at h
  cases h with
  | @decimal sign decimal _ h =>
    obtain ⟨c, hc, hends⟩ := h.getLast
    have hlast : c ∈ (sign ++ decimal).getLast? := List.mem_getLast?_append_of_mem_getLast? hc
    rw [← ht, List.getLast?_concat] at hlast
    cases hlast
    rcases hends with hends | hends
    all_goals cases hends
  | @word sign word _ h =>
    -- Of the words only that for no number ends in `n`.
    have hwords : ∀ word ∈ ["inf".toList, "infinity".toList, "nan".toList],
        word.getLast? = some 'n' → word.dropLast.getLast? = some 'a' := by decide
    rcases List.eq_nil_or_concat' word with rfl | ⟨front, last, rfl⟩
    · obtain ⟨c, hc, -⟩ := h.getLast
      cases hc
    · rw [← List.append_assoc] at ht
      obtain ⟨hs, hlast⟩ := List.append_inj' ht rfl
      cases hlast
      have hbefore := hwords _ h
      rw [List.map_append, List.map_singleton, List.getLast?_concat, List.dropLast_concat,
        List.getLast?_map, Option.map_eq_some_iff] at hbefore
      obtain ⟨c, hc, hletter⟩ := hbefore rfl
      intro hnumber
      obtain ⟨d, hd, hends⟩ := hnumber.getLast
      rw [hs, List.mem_getLast?_append_of_mem_getLast? hc] at hd
      cases hd
      rw [endsNumber_of_toLower hletter] at hends
      cases hends

end Literal

end FleetTelemetry.Number
