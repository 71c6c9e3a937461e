import FleetTelemetry.Proofs.Text.Lines
import FleetTelemetry.Text.Blank
import FleetTelemetry.Text.Numeral
import Mathlib.Data.List.Induction

/-!
# Reading numerals back

The canonical numeral of a number is a row of digits that denotes the number, so it is read back as
it was written. It starts with a zero only when the number is zero.
-/

namespace FleetTelemetry.Text

theorem isDigit_of_mem_decimal {n : Nat} {c : Char} (h : c ∈ decimal n) : isDigit c = true := by
  have hdigit := Nat.isDigit_of_mem_toDigits (by decide) (by decide) h
  simp only [Char.isDigit, Bool.and_eq_true, decide_eq_true_eq] at hdigit
  simp only [isDigit, Bool.and_eq_true, decide_eq_true_eq]
  exact hdigit

theorem not_mem_decimal {n : Nat} {c : Char} (h : isDigit c = false) : c ∉ decimal n := by
  intro hmem
  rw [isDigit_of_mem_decimal hmem] at h
  cases h

theorem printable_decimal (n : Nat) : Printable (decimal n) := by
  intro c hc
  have hdigit := isDigit_of_mem_decimal hc
  simp only [isDigit, Bool.and_eq_true, decide_eq_true_eq] at hdigit
  have hlow : 48 ≤ c.toNat := hdigit.1
  omega

theorem decimal_ne_nil (n : Nat) : decimal n ≠ [] := Nat.toDigits_ne_nil

theorem digitsValue_decimal (n : Nat) : digitsValue (decimal n) = n := by
  have hvalue := @Nat.ofDigitChars_ten_toDigits n
  rwa [Nat.ofDigitChars_eq_foldl] at hvalue

private theorem digits?_decimal (n : Nat) : digits? (decimal n) = some n := by
  have hall : (decimal n).all isDigit = true := by
    rw [List.all_eq_true]
    exact fun c hc => isDigit_of_mem_decimal hc
  unfold digits?
  rw [if_neg, digitsValue_decimal]
  simp [decimal_ne_nil, hall]

private theorem natural?_decimal (n : Nat) : natural? (decimal n) = some n := by
  unfold natural?
  split
  case h_1 s h =>
    have hplus : '+' ∈ decimal n := by simp [h]
    exact absurd hplus (not_mem_decimal (by decide))
  case h_2 => exact digits?_decimal n

theorem word?_decimal (n : UInt64) : word? (decimal n.toNat) = some n := by
  have hlt : n.toNat < UInt64.size := n.toNat_lt
  simp [word?, below?, natural?_decimal, Option.filter, hlt]

theorem isBlank_of_isDigit {c : Char} (h : isDigit c = true) : isBlank c = false := by
  simp only [isDigit, Bool.and_eq_true, decide_eq_true_eq] at h
  have hlow : 48 ≤ c.toNat := h.1
  have hhigh : c.toNat ≤ 57 := h.2
  simp only [isBlank, blankRanges, List.any_cons, List.any_nil, Bool.or_false, Bool.or_eq_false_iff,
    Bool.and_eq_false_iff, decide_eq_false_iff_not]
  omega

theorem trimChars_decimal (n : Nat) : trimChars (decimal n) = decimal n := by
  apply trimChars_eq_self
  · intro c hc
    exact isBlank_of_isDigit (isDigit_of_mem_decimal (List.mem_of_head? hc))
  · intro c hc
    exact isBlank_of_isDigit (isDigit_of_mem_decimal (List.mem_of_getLast? hc))

theorem head?_decimal_ne_zero {n : Nat} (h : 0 < n) : (decimal n).head? ≠ some '0' := by
  induction n using Nat.strongRecOn with
  | ind n ih =>
    by_cases hlt : n < 10
    · have hdigits : ∀ m < 10, 0 < m → (decimal m).head? ≠ some '0' := by decide
      exact hdigits n hlt h
    · have hdiv : 0 < n / 10 := Nat.div_pos (by omega) (by decide)
      have hrest := ih (n / 10) (Nat.div_lt_self h (by decide)) hdiv
      unfold decimal at hrest ⊢
      rw [Nat.toDigits_of_base_le (by decide) (by omega), List.head?_append]
      cases hhead : (Nat.toDigits 10 (n / 10)).head? with
      | none => exact absurd (List.head?_eq_none_iff.mp hhead) Nat.toDigits_ne_nil
      | some c =>
        rw [hhead] at hrest
        simpa using hrest

private theorem digitsValue_concat (s : List Char) (c : Char) :
    digitsValue (s ++ [c]) = 10 * digitsValue s + digitValue c := by
  rw [digitsValue, List.foldl_append]
  rfl

private theorem decimal_digitValue {c : Char} (h : isDigit c = true) :
    decimal (digitValue c) = [c] := by
  have hdigits : ∀ n < 58, 48 ≤ n → decimal (digitValue (Char.ofNat n)) = [Char.ofNat n] := by
    decide
  simp only [isDigit, Bool.and_eq_true, decide_eq_true_eq] at h
  have hvalue := hdigits c.toNat (Nat.lt_succ_of_le h.2) h.1
  rwa [Char.ofNat_toNat] at hvalue

theorem decimal_digitsValue {s : List Char} (hs : ∀ c ∈ s, isDigit c = true) (hne : s ≠ [])
    (hzero : s.head? ≠ some '0') : 0 < digitsValue s ∧ decimal (digitsValue s) = s := by
  induction s using List.reverseRecOn with
  | nil => exact absurd rfl hne
  | append_singleton s c ih =>
    have hc : isDigit c = true := hs c (by simp)
    rw [digitsValue_concat]
    by_cases hempty : s = []
    · subst hempty
      have hvalue : digitValue c ≠ 0 := by
        intro h
        have hself := decimal_digitValue hc
        rw [h] at hself
        exact hzero (congrArg List.head? hself.symm)
      have hsum : 10 * digitsValue [] + digitValue c = digitValue c := Nat.zero_add _
      rw [hsum]
      exact ⟨Nat.pos_of_ne_zero hvalue, decimal_digitValue hc⟩
    · have hhead : s.head? ≠ some '0' := by
        intro h
        rw [List.head?_append, h] at hzero
        exact hzero rfl
      obtain ⟨hpos, hself⟩ := ih (fun d hd => hs d (by simp [hd])) hempty hhead
      have hlt : digitValue c < 10 := by
        simp only [isDigit, Bool.and_eq_true, decide_eq_true_eq] at hc
        have hhigh : c.toNat ≤ 57 := hc.2
        have hlow : '0'.toNat = 48 := rfl
        rw [digitValue, hlow]
        omega
      have hdiv : (10 * digitsValue s + digitValue c) / 10 = digitsValue s := by omega
      have hmod : (10 * digitsValue s + digitValue c) % 10 = digitValue c := by omega
      refine ⟨by omega, ?_⟩
      rw [decimal, Nat.toDigits_of_base_le (by decide) (by omega), hdiv, hmod]
      have hlast := decimal_digitValue hc
      rw [decimal, Nat.toDigits_of_lt_base hlt] at hlast
      rw [List.cons.inj hlast |>.1]
      exact congrArg (· ++ [c]) hself

/-! ## All numerals of a number -/

/-- Some digits that denote a number, or these digits after a plus sign. -/
def IsNumeral (s : List Char) (n : Nat) : Prop :=
  ∃ digits, (s = digits ∨ s = '+' :: digits) ∧ digits ≠ [] ∧ (∀ c ∈ digits, isDigit c = true) ∧
    digitsValue digits = n

section

variable {s : List Char} {n bound : Nat}

theorem digits?_eq_some_iff : digits? s = some n ↔
    s ≠ [] ∧ (∀ c ∈ s, isDigit c = true) ∧ digitsValue s = n := by
  simp only [digits?, Option.ite_none_left_eq_some, Option.some.injEq, Bool.or_eq_true, not_or,
    List.isEmpty_iff, Bool.not_eq_true', Bool.not_eq_false, List.all_eq_true, and_assoc, ne_eq]

private theorem natural?_eq_some_iff : natural? s = some n ↔ IsNumeral s n := by
  unfold natural?
  split
  case h_1 rest =>
    rw [digits?_eq_some_iff]
    constructor
    · intro h
      exact ⟨rest, .inr rfl, h⟩
    · rintro ⟨digits, rfl | hplus, h⟩
      · -- A plus sign is no digit.
        have hdigit := h.2.1 '+' List.mem_cons_self
        cases hdigit
      · cases hplus
        exact h
  case h_2 hplus =>
    rw [digits?_eq_some_iff]
    constructor
    · intro h
      exact ⟨s, .inl rfl, h⟩
    · rintro ⟨digits, rfl | hs, h⟩
      · exact h
      · exact absurd hs (hplus digits)

theorem below?_eq_some_iff : below? bound s = some n ↔ IsNumeral s n ∧ n < bound := by
  simp only [below?, Option.filter_eq_some_iff, natural?_eq_some_iff, decide_eq_true_eq]

theorem below?_eq_none_iff : below? bound s = none ↔ ∀ n, IsNumeral s n → bound ≤ n := by
  simp only [Option.eq_none_iff_forall_ne_some, ne_eq, below?_eq_some_iff, not_and, Nat.not_lt]

theorem word?_eq_some_iff {value : UInt64} : word? s = some value ↔ IsNumeral s value.toNat := by
  simp only [word?, Option.map_eq_some_iff, below?_eq_some_iff]
  constructor
  · rintro ⟨n, ⟨h, hlt⟩, rfl⟩
    rwa [UInt64.toNat_ofNat_of_lt' hlt]
  · intro h
    exact ⟨value.toNat, ⟨h, value.toNat_lt⟩, UInt64.ofNat_toNat⟩

theorem IsNumeral.unique {m : Nat} (h : IsNumeral s m) (h' : IsNumeral s n) : m = n :=
  Option.some.inj ((natural?_eq_some_iff.mpr h).symm.trans (natural?_eq_some_iff.mpr h'))

private theorem IsNumeral.ne_nil (h : IsNumeral s n) : s ≠ [] := by
  obtain ⟨digits, rfl | rfl, hne, -⟩ := h
  · exact hne
  · exact List.cons_ne_nil _ _

private theorem IsNumeral.isBlank_eq_false (h : IsNumeral s n) {c : Char} (hc : c ∈ s) :
    isBlank c = false := by
  obtain ⟨digits, rfl | rfl, -, hdigits, -⟩ := h
  · exact isBlank_of_isDigit (hdigits c hc)
  · rcases List.mem_cons.mp hc with rfl | hc
    · decide
    · exact isBlank_of_isDigit (hdigits c hc)

/-! ## Numerals between blanks -/

/-- A numeral of a number with nothing but blanks before and after it. -/
def IsPaddedNumeral (s : List Char) (n : Nat) : Prop :=
  ∃ before numeral after, s = before ++ numeral ++ after ∧ (∀ c ∈ before, isBlank c = true) ∧
    (∀ c ∈ after, isBlank c = true) ∧ IsNumeral numeral n

private theorem exists_eq_append_trimChars (s : List Char) :
    ∃ before after, s = before ++ trimChars s ++ after ∧ (∀ c ∈ before, isBlank c = true) ∧
      ∀ c ∈ after, isBlank c = true := by
  have hfront := List.takeWhile_append_dropWhile (p := isBlank) (l := s)
  have hback := List.takeWhile_append_dropWhile (p := isBlank) (l := (s.dropWhile isBlank).reverse)
  refine ⟨s.takeWhile isBlank, ((s.dropWhile isBlank).reverse.takeWhile isBlank).reverse, ?_, ?_,
    ?_⟩
  · rw [trimChars, trimEnd, List.append_assoc, ← List.reverse_append, hback, List.reverse_reverse,
      hfront]
  · exact List.all_eq_true.mp List.all_takeWhile
  · intro c hc
    exact List.all_eq_true.mp List.all_takeWhile c (List.mem_reverse.mp hc)

private theorem trimChars_padded {before after : List Char}
    (hbefore : ∀ c ∈ before, isBlank c = true)
    (hafter : ∀ c ∈ after, isBlank c = true) (hne : s ≠ [])
    (hs : ∀ c ∈ s, isBlank c = false) : trimChars (before ++ s ++ after) = s := by
  have hfront : (before ++ s ++ after).dropWhile isBlank = s ++ after := by
    rw [List.append_assoc, List.dropWhile_append_of_pos hbefore]
    cases s with
    | nil => exact absurd rfl hne
    | cons c rest => simp [hs c List.mem_cons_self]
  rw [trimChars, hfront, trimEnd_append_blanks hafter]
  exact trimEnd_eq_self fun c hc => hs c (List.mem_of_getLast? hc)

theorem isNumeral_trimChars_iff : IsNumeral (trimChars s) n ↔ IsPaddedNumeral s n := by
  constructor
  · intro h
    obtain ⟨before, after, hs, hbefore, hafter⟩ := exists_eq_append_trimChars s
    exact ⟨before, trimChars s, after, hs, hbefore, hafter, h⟩
  · rintro ⟨before, numeral, after, rfl, hbefore, hafter, h⟩
    rwa [trimChars_padded hbefore hafter h.ne_nil fun c => h.isBlank_eq_false]

end

end FleetTelemetry.Text
