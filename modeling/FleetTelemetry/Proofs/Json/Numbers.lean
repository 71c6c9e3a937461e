import FleetTelemetry.Json.Value
import FleetTelemetry.Proofs.Json.Strings
import FleetTelemetry.Proofs.Text.Numerals

/-!
# Printed numbers

A natural number of 64 bits is read back from its numeral when what follows does not go on with
the number.
-/

namespace FleetTelemetry.Json

open Reader Text

def digitByte (c : Char) : UInt8 := UInt8.ofNat c.toNat

theorem digit_facts {c : Char} (h : isDigit c = true) :
    isDigitByte (digitByte c) = true ∧ isBlankByte (digitByte c) = false ∧
      toChar (digitByte c) = c ∧ digitOfByte (digitByte c) = digitValue c := by
  have hdigits : ∀ n < 58, 48 ≤ n →
      isDigitByte (digitByte (Char.ofNat n)) = true ∧
        isBlankByte (digitByte (Char.ofNat n)) = false ∧
        toChar (digitByte (Char.ofNat n)) = Char.ofNat n ∧
        digitOfByte (digitByte (Char.ofNat n)) = digitValue (Char.ofNat n) := by decide
  simp only [isDigit, Bool.and_eq_true, decide_eq_true_eq] at h
  have hlow : 48 ≤ c.toNat := h.1
  have hhigh : c.toNat < 58 := Nat.lt_succ_of_le h.2
  have hfacts := hdigits c.toNat hhigh hlow
  rwa [Char.ofNat_toNat] at hfacts

theorem encode_digits {s : List Char} (h : ∀ c ∈ s, isDigit c = true) :
    encode s = s.map digitByte := by
  induction s with
  | nil => rfl
  | cons c s ih =>
    have hdigit := h c List.mem_cons_self
    simp only [isDigit, Bool.and_eq_true, decide_eq_true_eq] at hdigit
    have hlt : c.toNat < 0x80 := Nat.lt_of_le_of_lt hdigit.2 (by decide)
    rw [encode_cons_of_lt hlt, ih (fun d hd => h d (List.mem_cons_of_mem c hd)), List.map_cons]
    rfl

private theorem le_foldl_digits (s : List Char) (n : Nat) :
    n ≤ s.foldl (fun acc c => 10 * acc + digitValue c) n := by
  induction s generalizing n with
  | nil => exact Nat.le_refl n
  | cons c s ih =>
    have hmore := ih (10 * n + digitValue c)
    rw [List.foldl_cons]
    omega

private theorem absorb_digits {s : List Char} (hs : ∀ c ∈ s, isDigit c = true) {n : Nat}
    (h : s.foldl (fun acc c => 10 * acc + digitValue c) n < UInt64.size) :
    absorb n (s.map digitByte) = (s.foldl (fun acc c => 10 * acc + digitValue c) n, []) := by
  induction s generalizing n with
  | nil => rfl
  | cons c s ih =>
    rw [List.foldl_cons] at h
    have hlt : 10 * n + digitValue c < UInt64.size := Nat.lt_of_le_of_lt (le_foldl_digits s _) h
    have hvalue := (digit_facts (hs c List.mem_cons_self)).2.2.2
    rw [List.map_cons, absorb, hvalue, if_pos hlt, List.foldl_cons]
    exact ih (fun d hd => hs d (List.mem_cons_of_mem c hd)) h

/-- What cannot go on with a number: neither a digit nor a point nor an exponent stands here. -/
def NumberEnds (rest : Bytes) : Prop :=
  ∀ b ∈ rest.head?, isDigitByte b = false ∧ isDigit (toChar b) = false ∧ toChar b ≠ '.' ∧
    isExponentMark (some (toChar b)) = false

theorem numberEnds_comma (rest : Bytes) : NumberEnds (0x2C :: rest) := by
  intro b hb
  obtain rfl := Option.some.inj hb
  decide

theorem numberEnds_bracket (rest : Bytes) : NumberEnds (0x5D :: rest) := by
  intro b hb
  obtain rfl := Option.some.inj hb
  decide

theorem numberEnds_brace (rest : Bytes) : NumberEnds (0x7D :: rest) := by
  intro b hb
  obtain rfl := Option.some.inj hb
  decide

/-- A reader reads a printed value as `a`, whatever comes after it. -/
def ReadsPrinted {α : Type} (reader : Reader α) (printed : List Char) (a : α) : Prop :=
  ∀ rest, NumberEnds rest → Reads reader (encode printed ++ rest) a rest

theorem ReadsPrinted.map {α β : Type} {reader : Reader α} {printed : List Char} {a : α}
    (h : ReadsPrinted reader printed a) (f : α → β) :
    ReadsPrinted (do let a ← reader; pure (f a)) printed (f a) := by
  intro rest hrest
  exact Reads.bind (h rest hrest) (Reads.pure (f a) rest)

theorem ReadsPrinted.run_eq_ok {α : Type} {reader : Reader α} {printed : List Char} {a : α}
    (h : ReadsPrinted reader printed a) :
    run reader (String.ofList printed).toUTF8.toList = .ok a := by
  have hends : NumberEnds [] := by
    intro b hb
    cases hb
  have hread := h [] hends
  rw [List.append_nil] at hread
  rw [toList_toUTF8_ofList]
  exact hread.run_eq_ok

private theorem look_head? (s : Bytes) : Reads look s (s.head?.map toChar) s :=
  ⟨Nat.le_refl _, rfl⟩

private theorem numberTail_natural {rest : Bytes} (hrest : NumberEnds rest) (n : Nat) :
    Reads (numberTail false n 0) rest (.natural (UInt64.ofNat n)) rest := by
  have hmark : rest.head?.map toChar ≠ some '.' ∧
      isExponentMark (rest.head?.map toChar) = false := by
    cases rest with
    | nil => decide
    | cons b rest =>
      obtain ⟨-, -, hpoint, hexponent⟩ := hrest b rfl
      exact ⟨by simpa using hpoint, hexponent⟩
  apply Reads.bind (look_head? rest)
  simp only [hmark.1, hmark.2, if_false, if_true]
  exact Reads.pure _ rest

theorem unsignedNumber_decimal {n : Nat} (hn : n < UInt64.size) {rest : Bytes}
    (hrest : NumberEnds rest) :
    Reads (unsignedNumber false) (encode (decimal n) ++ rest) (.natural (UInt64.ofNat n)) rest := by
  by_cases hzero : n = 0
  · subst hzero
    have hbytes : encode (decimal 0) = [0x30] := by decide
    have hdigit : ((rest.head?.map toChar).map isDigit).getD false = false := by
      cases rest with
      | nil => rfl
      | cons b rest => exact (hrest b rfl).2.1
    rw [hbytes]
    apply Reads.bind (Reads.next 0x30 rest)
    simp only [if_true]
    apply Reads.bind (look_head? rest)
    rw [hdigit]
    exact numberTail_natural hrest 0
  · have hdigits : ∀ c ∈ decimal n, isDigit c = true := fun c hc => isDigit_of_mem_decimal hc
    have hhead := head?_decimal_ne_zero (Nat.pos_of_ne_zero hzero)
    have hvalue := digitsValue_decimal n
    cases hdecimal : decimal n with
    | nil => exact absurd hdecimal (decimal_ne_nil n)
    | cons c s =>
      rw [hdecimal] at hdigits hhead hvalue
      obtain ⟨hbyte, -, hchar, hfirst⟩ := digit_facts (hdigits c List.mem_cons_self)
      have hs : ∀ d ∈ s, isDigit d = true := fun d hd => hdigits d (List.mem_cons_of_mem c hd)
      have hfold : s.foldl (fun acc d => 10 * acc + digitValue d) (digitValue c) = n := by
        simpa [digitsValue] using hvalue
      have hnonzero : digitByte c ≠ 0x30 := by
        intro h
        rw [h] at hchar
        apply hhead
        rw [← hchar]
        rfl
      have htaken : ∀ b ∈ s.map digitByte, isDigitByte b = true := by
        intro b hb
        obtain ⟨d, hd, rfl⟩ := List.mem_map.mp hb
        exact (digit_facts (hs d hd)).1
      rw [encode_digits hdigits, List.map_cons, List.cons_append]
      apply Reads.bind (Reads.next (digitByte c) (s.map digitByte ++ rest))
      simp only [hnonzero, hbyte, if_false, if_true]
      apply Reads.bind (Reads.takeWhile htaken fun b hb => (hrest b hb).1)
      rw [hfirst, absorb_digits hs (by omega), hfold]
      exact numberTail_natural hrest n

theorem exists_encode_decimal (n : Nat) :
    ∃ b s, encode (decimal n) = b :: s ∧ isBlankByte b = false ∧ isDigit (toChar b) = true := by
  cases hdecimal : decimal n with
  | nil => exact absurd hdecimal (decimal_ne_nil n)
  | cons c s =>
    have hdigits : ∀ d ∈ c :: s, isDigit d = true := by
      rw [← hdecimal]
      exact fun d hd => isDigit_of_mem_decimal hd
    have hc := hdigits c List.mem_cons_self
    obtain ⟨-, hblank, hchar, -⟩ := digit_facts hc
    exact ⟨digitByte c, s.map digitByte, encode_digits hdigits, hblank, hchar.symm ▸ hc⟩

theorem natural_printed (expected : String) (n : UInt64) :
    ReadsPrinted (natural expected) (printNatural n.toNat) n := by
  intro rest hrest
  have hnumber := unsignedNumber_decimal n.toNat_lt hrest
  obtain ⟨b, s, hbytes, hblank, hdigit⟩ := exists_encode_decimal n.toNat
  rw [UInt64.ofNat_toNat, hbytes] at hnumber
  rw [printNatural, hbytes]
  apply Reads.bind (Reads.token hblank (s ++ rest))
  split
  case h_1 h => cases h
  case h_2 h =>
    rw [Option.some.inj h] at hdigit
    cases hdigit
  case h_3 c _ h =>
    obtain rfl := Option.some.inj h
    rw [if_pos hdigit]
    exact Reads.bind hnumber (Reads.ofExcept_ok n rest)

theorem printable_printNatural (n : Nat) : Printable (printNatural n) := printable_decimal n

end FleetTelemetry.Json
