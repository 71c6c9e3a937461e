import FleetTelemetry.Proofs.Json.Kinds
import FleetTelemetry.Proofs.Json.Skipping
import Mathlib.Data.List.DropRight

/-!
# What natural numbers and truth values are read from

A natural number is read from its numeral alone, and to the end of the number that stands there: a
number with a sign, a point or an exponent is none, and neither is one of more than 64 bits. Truth
values are read from their words alone.
-/

namespace FleetTelemetry.Json

open Reader Text

variable {s rest : Bytes}

private theorem outcome_token_bind {α : Type} (f : Option Char → Reader α) (s : Bytes) :
    outcome (token >>= f) s = outcome (token >>= f) (s.dropWhile isBlankByte) := by
  rw [outcome_bind_of_ok (outcome_token s), outcome_bind_of_ok (outcome_token _),
    List.dropWhile_idempotent]

/-! ## Numbers that are not natural -/

def NeverNatural (reader : Reader Number) : Prop :=
  ∀ (s : Bytes) (value : UInt64) (rest : Bytes), outcome reader s ≠ .ok (.natural value, rest)

private theorem neverNatural_fail (fault : Fault) : NeverNatural (fail fault) := nofun

private theorem neverNatural_real (x : Float) : NeverNatural (pure (.real x)) := nofun

theorem NeverNatural.bind {α : Type} {x : Reader α} {f : α → Reader Number}
    (h : ∀ a, NeverNatural (f a)) : NeverNatural (x >>= f) := by
  intro s value rest hread
  obtain ⟨a, mid, -, hf⟩ := outcome_bind_eq_ok.mp hread
  exact h a mid value rest hf

private theorem NeverNatural.ite {p : Prop} [Decidable p] {x y : Reader Number}
    (hx : NeverNatural x)
    (hy : NeverNatural y) : NeverNatural (if p then x else y) := by
  split
  · exact hx
  · exact hy

private theorem neverNatural_realNumber (negative : Bool) (significand : Nat) (exponent : Int) :
    NeverNatural (realNumber negative significand exponent) := by
  unfold realNumber
  split
  · exact neverNatural_fail _
  · exact neverNatural_real _

private theorem neverNatural_missing :
    NeverNatural (do
      match ← look with
      | none => fail .endInValue
      | some _ => fail .invalidNumber) := by
  refine .bind fun next => ?_
  cases next <;> exact neverNatural_fail _

private theorem neverNatural_exponentPart (negative : Bool) (significand : Nat) (exponent : Int) :
    NeverNatural (exponentPart negative significand exponent) := by
  unfold exponentPart
  refine .bind fun _ => .bind fun mark => ?_
  refine .ite (.bind fun _ => .bind fun digits => ?_) (.bind fun digits => ?_)
  all_goals
    refine .ite neverNatural_missing (.ite (.ite (neverNatural_fail _) (neverNatural_real _)) ?_)
    exact neverNatural_realNumber _ _ _

private theorem neverNatural_fractionPart (negative : Bool) (significand : Nat) (exponent : Int) :
    NeverNatural (fractionPart negative significand exponent) := by
  unfold fractionPart
  refine .bind fun _ => .bind fun digits => .ite neverNatural_missing (.bind fun mark => ?_)
  exact .ite (neverNatural_exponentPart _ _ _) (neverNatural_realNumber _ _ _)

/-! ## Natural numbers -/

private theorem numberTail_eq_natural {negative : Bool} {significand extra : Nat} {value : UInt64}
    (h : outcome (numberTail negative significand extra) s = .ok (.natural value, rest)) :
    negative = false ∧ extra = 0 ∧ value = UInt64.ofNat significand ∧ s = rest ∧
      ∀ b ∈ rest.head?, toChar b ≠ '.' ∧ isExponentMark (some (toChar b)) = false := by
  rw [numberTail, outcome_bind_of_ok (outcome_look s)] at h
  split at h
  case isTrue => exact absurd h (neverNatural_fractionPart _ _ _ s value rest)
  case isFalse hpoint =>
    split at h
    case isTrue => exact absurd h (neverNatural_exponentPart _ _ _ s value rest)
    case isFalse hexponent =>
      split at h
      case isTrue hextra =>
        have hnumber : wholeNumber negative significand = .natural value :=
          congrArg Prod.fst (Except.ok.inj h)
        have hrest : s = rest := congrArg Prod.snd (Except.ok.inj h)
        cases negative with
        | false =>
          refine ⟨rfl, hextra, (Number.natural.inj hnumber).symm, hrest, fun b hb => ?_⟩
          rw [hrest, Option.mem_def.mp hb] at hpoint hexponent
          exact ⟨fun heq => hpoint (congrArg some heq), Bool.eq_false_iff.mpr hexponent⟩
        | true =>
          unfold wholeNumber at hnumber
          split at hnumber
          case isTrue hfalse => cases hfalse
          case isFalse => split at hnumber <;> cases hnumber
      case isFalse => exact absurd h (neverNatural_realNumber _ _ _ s value rest)

private theorem encode_map_toChar {digits : Bytes} (h : ∀ b ∈ digits, isDigitByte b = true) :
    encode (digits.map toChar) = digits := by
  induction digits with
  | nil => rfl
  | cons b digits ih =>
    have hb := h b List.mem_cons_self
    simp only [isDigitByte, Bool.and_eq_true, decide_eq_true_eq, UInt8.le_iff_toNat_le] at hb
    have hlt : (toChar b).toNat < 0x80 := by
      rw [toNat_toChar]
      exact Nat.lt_of_le_of_lt hb.2 (by decide)
    rw [List.map_cons, encode_cons_of_lt hlt, toNat_toChar, UInt8.ofNat_toNat,
      ih fun b' hb' => h b' (List.mem_cons_of_mem b hb')]

private theorem digitValue_toChar (b : UInt8) : digitValue (toChar b) = digitOfByte b := by
  rw [digitValue, toNat_toChar]
  rfl

private theorem absorb_eq_nil {digits : Bytes} {n m : Nat} (hn : n < UInt64.size)
    (h : absorb n digits = (m, [])) :
    (digits.map toChar).foldl (fun acc c => 10 * acc + digitValue c) n = m ∧ m < UInt64.size := by
  induction digits generalizing n with
  | nil =>
    cases h
    exact ⟨rfl, hn⟩
  | cons b digits ih =>
    rw [absorb] at h
    split at h
    case isTrue hlt =>
      rw [List.map_cons, List.foldl_cons, digitValue_toChar]
      exact ih hlt h
    case isFalse => cases h

private theorem encode_decimal_of_absorb {b : UInt8} {digits : Bytes} {n : Nat}
    (hb : isDigitByte b = true) (hzero : b ≠ 0x30) (hdigits : ∀ d ∈ digits, isDigitByte d = true)
    (h : absorb (digitOfByte b) digits = (n, [])) :
    n < UInt64.size ∧ encode (decimal n) = b :: digits := by
  have hall : ∀ d ∈ b :: digits, isDigitByte d = true := List.forall_mem_cons.mpr ⟨hb, hdigits⟩
  have hfirst : digitOfByte b < UInt64.size :=
    Nat.lt_of_le_of_lt (Nat.sub_le _ _) (Nat.lt_trans b.toNat_lt (by decide))
  obtain ⟨hvalue, hlt⟩ := absorb_eq_nil hfirst h
  have hnumber : digitsValue ((b :: digits).map toChar) = n := by
    rw [List.map_cons, digitsValue, List.foldl_cons, digitValue_toChar, Nat.mul_zero, Nat.zero_add]
    exact hvalue
  have hchars : ∀ c ∈ (b :: digits).map toChar, isDigit c = true := by
    intro c hc
    obtain ⟨d, hd, rfl⟩ := List.mem_map.mp hc
    rw [isDigit_toChar]
    exact hall d hd
  have hhead : ((b :: digits).map toChar).head? ≠ some '0' := by
    intro heq
    exact hzero (eq_of_toChar (Option.some.inj heq))
  obtain ⟨-, hself⟩ := decimal_digitsValue hchars (by simp) hhead
  rw [hnumber] at hself
  exact ⟨hlt, by rw [hself, encode_map_toChar hall]⟩

private theorem unsignedNumber_eq_natural {negative : Bool} {value : UInt64}
    (h : outcome (unsignedNumber negative) s = .ok (.natural value, rest)) :
    negative = false ∧ s = encode (decimal value.toNat) ++ rest ∧ NumberEnds rest := by
  cases s with
  | nil => cases h
  | cons b t =>
    rw [unsignedNumber, outcome_bind_of_ok (reads_iff_outcome.mp (Reads.next b t))] at h
    dsimp only at h
    split at h
    case isTrue hzero =>
      rw [outcome_bind_of_ok (outcome_look t)] at h
      split at h
      case isTrue => cases h
      case isFalse hdigit =>
        obtain ⟨hsign, -, rfl, rfl, hends⟩ := numberTail_eq_natural h
        refine ⟨hsign, by rw [hzero]; rfl, fun d hd => ?_⟩
        have hnot : isDigit (toChar d) = false := by
          rw [Option.mem_def.mp hd] at hdigit
          exact Bool.eq_false_iff.mpr hdigit
        exact ⟨by rw [← isDigit_toChar, hnot], hnot, hends d hd⟩
    case isFalse hzero =>
      split at h
      case isTrue hb =>
        rw [outcome_bind_of_ok (outcome_digitBytes t)] at h
        obtain ⟨hsign, hextra, rfl, hrest, hends⟩ := numberTail_eq_natural h
        -- a digit that is left over would make a real number of it
        have hleft := List.eq_nil_of_length_eq_zero hextra
        obtain ⟨hlt, hdecimal⟩ := encode_decimal_of_absorb hb hzero
          (List.all_eq_true.mp List.all_takeWhile) (Prod.ext rfl hleft)
        refine ⟨hsign, ?_, fun d hd => ?_⟩
        · rw [UInt64.toNat_ofNat', Nat.mod_eq_of_lt hlt, hdecimal, ← hrest, List.cons_append,
            List.takeWhile_append_dropWhile]
        · have hnot : isDigitByte d = false := by
            have hdrop := List.head?_dropWhile_not isDigitByte t
            rwa [hrest, Option.mem_def.mp hd] at hdrop
          exact ⟨hnot, by rw [isDigit_toChar, hnot], hends d hd⟩
      case isFalse => cases h

private theorem eq_natural_of_natural? {expected : String} {number : Number} {n : UInt64}
    {mid : Bytes} (h : outcome (ofExcept (number.natural? expected)) mid = .ok (n, rest)) :
    number = .natural n ∧ mid = rest := by
  cases number <;> cases h
  exact ⟨rfl, rfl⟩

theorem outcome_natural_eq_ok_iff {expected : String} {n : UInt64} :
    outcome (natural expected) s = .ok (n, rest) ↔
      Lexes [encode (printNatural n.toNat)] s rest ∧ NumberEnds rest := by
  obtain ⟨first, digits, hbytes, hblank, -⟩ := exists_encode_decimal n.toNat
  have hlexes : Lexes [encode (printNatural n.toNat)] s rest ↔
      s.dropWhile isBlankByte = encode (printNatural n.toNat) ++ rest := by
    rw [printNatural, hbytes]
    exact lexes_singleton_iff hblank
  rw [hlexes]
  constructor
  · intro h
    rw [natural, outcome_bind_of_ok (outcome_token s)] at h
    split at h
    case h_1 => cases h
    case h_2 hmark =>
      rw [outcome_bind_of_ok (outcome_drop _)] at h
      obtain ⟨number, mid, hnumber, hvalue⟩ := outcome_bind_eq_ok.mp h
      obtain ⟨rfl, rfl⟩ := eq_natural_of_natural? hvalue
      cases (unsignedNumber_eq_natural hnumber).1
    case h_3 c _ hmark =>
      split at h
      case isTrue =>
        obtain ⟨number, mid, hnumber, hvalue⟩ := outcome_bind_eq_ok.mp h
        obtain ⟨rfl, rfl⟩ := eq_natural_of_natural? hvalue
        exact (unsignedNumber_eq_natural hnumber).2
      case isFalse => exact absurd h (outcome_unexpected_ne _ _ _)
  · rintro ⟨hdrop, hends⟩
    rw [natural, outcome_token_bind, hdrop]
    exact reads_iff_outcome.mp (natural_printed expected n rest hends)

private theorem dropWhile_of_word {c : Char} {cs : List Char} {word value : Bool}
    (hcs : ∀ c ∈ cs, c.toNat < 0x80) (hmark : (s.dropWhile isBlankByte).head?.map toChar = some c)
    (h : outcome (do drop; Json.word cs; pure word) (s.dropWhile isBlankByte) =
      .ok (value, rest)) :
    word = value ∧ s.dropWhile isBlankByte = UInt8.ofNat c.toNat :: (encode cs ++ rest) := by
  obtain ⟨⟨⟩, mid, hword, hpure⟩ := outcome_drop_bind_eq_ok.mp h
  rw [outcome_pure] at hpure
  obtain ⟨rfl, rfl⟩ := Prod.mk.inj (Except.ok.inj hpure)
  obtain ⟨t, hdrop⟩ := exists_cons_of_head? hmark
  rw [hdrop] at hword ⊢
  exact ⟨rfl, congrArg _ (eq_of_word hcs hword)⟩

theorem outcome_boolean_eq_ok_iff {expected : String} {value : Bool} :
    outcome (boolean expected) s = .ok (value, rest) ↔
      Lexes [encode (printBoolean value)] s rest := by
  have hlexes : Lexes [encode (printBoolean value)] s rest ↔
      s.dropWhile isBlankByte = encode (printBoolean value) ++ rest := by
    cases value <;> exact lexes_singleton_iff (by decide)
  rw [hlexes, boolean, outcome_bind_of_ok (outcome_token s)]
  constructor
  · intro h
    split at h
    case h_1 => cases h
    case h_2 hmark =>
      obtain ⟨rfl, hdrop⟩ := dropWhile_of_word (by simp) hmark h
      exact hdrop
    case h_3 hmark =>
      obtain ⟨rfl, hdrop⟩ := dropWhile_of_word (by simp) hmark h
      exact hdrop
    case h_4 => exact absurd h (outcome_unexpected_ne _ _ _)
  · intro hdrop
    rw [hdrop]
    cases value with
    | false => exact outcome_drop_bind_eq_ok.mpr ⟨(), rest, outcome_word (by simp) rest, rfl⟩
    | true => exact outcome_drop_bind_eq_ok.mpr ⟨(), rest, outcome_word (by simp) rest, rfl⟩

/-! ## Natural numbers and truth values among the values -/

private theorem IsValue.scalar_of_ne {b : UInt8} {token : Bytes} {tokens : List Bytes}
    (h : IsValue ((b :: token) :: tokens)) (hlist : b ≠ 0x5B) (hobject : b ≠ 0x7B) :
    tokens = [] ∧ IsScalar (b :: token) := by
  generalize hvalue : (b :: token) :: tokens = value at h
  cases h with
  | scalar h =>
    obtain ⟨rfl, rfl⟩ := List.cons.inj hvalue
    exact ⟨rfl, h⟩
  | list => exact absurd (List.cons.inj (List.cons.inj hvalue).1).1 hlist
  | object => exact absurd (List.cons.inj (List.cons.inj hvalue).1).1 hobject

private theorem isWhole_decimal (n : Nat) : IsWhole (encode (decimal n)) := by
  by_cases hzero : n = 0
  · rw [hzero]
    exact .inl (by decide)
  · have hdigits : ∀ c ∈ decimal n, isDigit c = true := fun c hc => isDigit_of_mem_decimal hc
    have hhead := head?_decimal_ne_zero (Nat.pos_of_ne_zero hzero)
    rw [encode_digits hdigits]
    refine .inr ⟨⟨?_, fun b hb => ?_⟩, fun heq => ?_⟩
    · simpa using decimal_ne_nil n
    · obtain ⟨c, hc, rfl⟩ := List.mem_map.mp hb
      exact (digit_facts (hdigits c hc)).1
    · rw [List.head?_map, Option.map_eq_some_iff] at heq
      obtain ⟨c, hc, hbyte⟩ := heq
      have hchar := (digit_facts (hdigits c (List.mem_of_mem_head? hc))).2.2.1
      rw [hbyte] at hchar
      rw [hc, ← hchar] at hhead
      exact hhead rfl

theorem isScalar_printNatural (n : Nat) : IsScalar (encode (printNatural n)) :=
  .unsigned ⟨encode (decimal n), [], [], by simp [printNatural], isWhole_decimal n, .inl rfl,
    .inl rfl⟩

private theorem IsScalar.eq_boolean {b : UInt8} {token : Bytes} (h : IsScalar (b :: token))
    (hb : b = 0x74 ∨ b = 0x66) : ∃ truth, b :: token = encode (printBoolean truth) := by
  generalize htoken : b :: token = scalar at h
  cases h with
  | boolean truth => exact ⟨truth, rfl⟩
  | unsigned h =>
    obtain ⟨first, digits, rfl, hdigit⟩ := h.exists_cons
    obtain rfl := (List.cons.inj htoken).1
    rcases hb with rfl | rfl <;> cases hdigit
  | null | string | negative =>
    obtain rfl := (List.cons.inj htoken).1
    rcases hb with hb | hb <;> exact absurd hb (by decide)

section Values

variable {value : List Bytes} {left : Bytes}

private theorem scalar_of_lexes {b : UInt8} {token : Bytes} (hvalue : IsValue value)
    (hlex : Lexes value s rest) (htoken : Lexes [b :: token] s left)
    (hblank : isBlankByte b = false) (hlist : b ≠ 0x5B) (hobject : b ≠ 0x7B) :
    ∃ own, value = [b :: own] ∧ IsScalar (b :: own) ∧ own ++ rest = token ++ left := by
  obtain ⟨first, own, tokens, rfl, hfirst, -⟩ := hvalue.exists_cons
  obtain ⟨mid, hdrop, hmore⟩ := (lexes_cons_iff_dropWhile hfirst).mp hlex
  rw [lexes_singleton_iff hblank, hdrop] at htoken
  obtain ⟨rfl, htail⟩ := List.cons.inj htoken
  obtain ⟨rfl, hscalar⟩ := hvalue.scalar_of_ne hlist hobject
  rw [hmore.eq_of_nil] at htail
  exact ⟨own, rfl, hscalar, htail⟩

theorem natural_at_value (hvalue : IsValue value) (hlex : Lexes value s rest)
    (hrest : NumberEnds rest) {expected : String} {n : UInt64} :
    outcome (natural expected) s = .ok (n, left) ↔
      value = [encode (printNatural n.toNat)] ∧ left = rest := by
  rw [outcome_natural_eq_ok_iff]
  constructor
  · rintro ⟨hnatural, hends⟩
    -- the value and the numeral are both skipped to their ends, so they end at one place
    have hskip := hvalue.outcome_skipValue hlex hrest
    have hskip' := (IsValue.scalar (isScalar_printNatural _)).outcome_skipValue hnatural hends
    rw [hskip] at hskip'
    obtain rfl : rest = left := congrArg Prod.snd (Except.ok.inj hskip')
    obtain ⟨first, digits, hbytes, hblank, hdigit⟩ := exists_encode_decimal n.toNat
    have hne : ∀ c, isDigit c = false → toChar first ≠ c := by
      rintro c hc heq
      rw [heq, hc] at hdigit
      cases hdigit
    rw [printNatural, hbytes] at hnatural ⊢
    obtain ⟨own, rfl, -, htail⟩ := scalar_of_lexes hvalue hlex hnatural hblank
      (fun heq => hne '[' rfl (heq ▸ rfl)) (fun heq => hne '\x7b' rfl (heq ▸ rfl))
    rw [List.append_cancel_right htail]
    exact ⟨rfl, rfl⟩
  · rintro ⟨rfl, rfl⟩
    exact ⟨hlex, hrest⟩

theorem boolean_at_value (hvalue : IsValue value) (hlex : Lexes value s rest)
    {expected : String} {truth : Bool} :
    outcome (boolean expected) s = .ok (truth, left) ↔
      value = [encode (printBoolean truth)] ∧ left = rest := by
  rw [outcome_boolean_eq_ok_iff]
  constructor
  · intro hboolean
    have hfirst : ∃ first word, encode (printBoolean truth) = first :: word ∧
        isBlankByte first = false ∧ (first = 0x74 ∨ first = 0x66) := by
      cases truth
      · exact ⟨0x66, _, rfl, by decide, .inr rfl⟩
      · exact ⟨0x74, _, rfl, by decide, .inl rfl⟩
    obtain ⟨first, word, hbytes, hblank, hmark⟩ := hfirst
    have hopens : first ≠ 0x5B ∧ first ≠ 0x7B := by
      rcases hmark with rfl | rfl <;> decide
    rw [hbytes] at hboolean ⊢
    obtain ⟨own, rfl, hscalar, htail⟩ := scalar_of_lexes hvalue hlex hboolean hblank hopens.1
      hopens.2
    obtain ⟨other, hother⟩ := hscalar.eq_boolean hmark
    have hsame : other = truth := by
      have hheads : (encode (printBoolean other)).head? = (encode (printBoolean truth)).head? := by
        rw [← hother, hbytes]
        rfl
      cases other <;> cases truth <;> first | rfl | cases hheads
    rw [hsame, hbytes] at hother
    obtain rfl := (List.cons.inj hother).2
    exact ⟨rfl, (List.append_cancel_left htail).symm⟩
  · rintro ⟨rfl, rfl⟩
    exact hlex

end Values

end FleetTelemetry.Json
