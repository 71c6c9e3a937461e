import FleetTelemetry.Proofs.Json.Grammar
import FleetTelemetry.Proofs.Json.Values

/-!
# Skipping tokens

What is skipped as a word, a number or a string is one, and each of them is skipped to its end. A
number ends where what follows does not go on with it.
-/

namespace FleetTelemetry.Json

open Reader Text

variable {s rest : Bytes}

/-! ## Bytes -/

theorem toNat_toChar (b : UInt8) : (toChar b).toNat = b.toNat := by
  have hlt : b.toNat < 256 := b.toNat_lt
  have hvalid : b.toNat.isValidChar := .inl (by omega)
  unfold toChar
  rw [Char.ofNat, dif_pos hvalid]
  exact UInt32.toNat_ofNatLT ..

theorem eq_of_toChar {b : UInt8} {c : Char} (h : toChar b = c) : b = UInt8.ofNat c.toNat := by
  rw [← h, toNat_toChar, UInt8.ofNat_toNat]

theorem isDigit_toChar (b : UInt8) : isDigit (toChar b) = isDigitByte b := by
  simp only [isDigit, isDigitByte, Char.le_def, UInt8.le_iff_toNat_le, UInt32.le_iff_toNat_le,
    ← toNat_toChar b]
  rfl

/-! ## Words -/

theorem eq_of_word {cs : List Char} (hcs : ∀ c ∈ cs, c.toNat < 0x80)
    (h : outcome (word cs) s = .ok ((), rest)) : s = encode cs ++ rest := by
  induction cs generalizing s with
  | nil =>
    cases h
    rfl
  | cons c cs ih =>
    rw [word] at h
    cases s with
    | nil => cases h
    | cons b s =>
      rw [outcome_bind_of_ok (reads_iff_outcome.mp (Reads.next b s))] at h
      dsimp only at h
      split at h
      case isTrue hb =>
        have hmore := ih (fun d hd => hcs d (List.mem_cons_of_mem c hd)) h
        rw [encode_cons_of_lt (hcs c List.mem_cons_self), eq_of_toChar hb, hmore, List.cons_append]
      case isFalse => cases h

/-! ## Strings -/

theorem outcome_fourHex_eq_ok_iff {n : Nat} :
    outcome fourHex s = .ok (n, rest) ↔ ∃ digits, IsHex digits n ∧ s = digits ++ rest := by
  rw [outcome_eq_ok_iff]
  constructor
  · rintro ⟨hle, h⟩
    unfold fourHex at h
    split at h
    case h_1 a b c d s =>
      split at h
      case h_1 i j k l ha hb hc hd =>
        cases h
        exact ⟨[a, b, c, d], ⟨a, b, c, d, i, j, k, l, rfl, ha, hb, hc, hd, rfl⟩, rfl⟩
      case h_2 => cases h
    case h_2 => cases h
  · rintro ⟨digits, ⟨a, b, c, d, i, j, k, l, rfl, ha, hb, hc, hd, rfl⟩, rfl⟩
    refine ⟨by simp; omega, ?_⟩
    simp only [fourHex, List.cons_append, List.nil_append, ha, hb, hc, hd]

private theorem outcome_skipEscape_eq_ok_iff :
    outcome skipEscape s = .ok ((), rest) ↔
      (∃ b byte, letterEscape? (toChar b) = some byte ∧ s = b :: rest) ∨
      ∃ digits n, IsHex digits n ∧ s = 0x75 :: (digits ++ rest) := by
  have hu : toChar 0x75 = 'u' := by decide
  constructor
  · intro h
    rw [skipEscape] at h
    cases s with
    | nil => cases h
    | cons b s =>
      rw [outcome_bind_of_ok (reads_iff_outcome.mp (Reads.next b s))] at h
      dsimp only at h
      split at h
      case isTrue hb =>
        obtain ⟨byte, hbyte⟩ := Option.isSome_iff_exists.mp hb
        cases h
        exact .inl ⟨b, byte, hbyte, rfl⟩
      case isFalse =>
        split at h
        case isTrue hb =>
          obtain ⟨n, mid, hhex, h⟩ := outcome_bind_eq_ok.mp h
          cases h
          obtain ⟨digits, hdigits, rfl⟩ := outcome_fourHex_eq_ok_iff.mp hhex
          obtain rfl : b = 0x75 := eq_of_toChar hb
          exact .inr ⟨digits, n, hdigits, rfl⟩
        case isFalse => cases h
  · rintro (⟨b, byte, hbyte, rfl⟩ | ⟨digits, n, hdigits, rfl⟩)
    · rw [skipEscape, outcome_bind_of_ok (reads_iff_outcome.mp (Reads.next b rest))]
      dsimp only
      rw [hbyte]
      rfl
    · rw [skipEscape, outcome_bind_of_ok (reads_iff_outcome.mp (Reads.next 0x75 _))]
      dsimp only
      rw [hu, if_neg (by decide), if_pos rfl,
        outcome_bind_of_ok (outcome_fourHex_eq_ok_iff.mpr ⟨digits, hdigits, rfl⟩)]
      rfl

private def skipStringRound (_ : Unit) (b : UInt8) : Reader (Unit ⊕ Unit) :=
  if b = 0x22 then pure (.inr ())
  else if b = 0x5C then do
    skipEscape
    pure (.inl ())
  else if b < 0x20 then fail .controlCharacter
  else pure (.inl ())

private theorem exists_text_of_rounds {state a : Unit}
    (h : Rounds skipStringRound state s a rest) :
    ∃ text, IsStringText text ∧ s = text ++ 0x22 :: rest := by
  induction h with
  | @answer state b s rest a h =>
    rw [skipStringRound] at h
    split at h
    case isTrue hb =>
      cases h
      exact ⟨[], .nil, by rw [hb]; rfl⟩
    case isFalse =>
      split at h
      case isTrue =>
        obtain ⟨_, _, -, h⟩ := outcome_bind_eq_ok.mp h
        cases h
      case isFalse => split at h <;> cases h
  | @round state state' b s mid rest a h _ ih =>
    obtain ⟨text, htext, rfl⟩ := ih
    rw [skipStringRound] at h
    split at h
    case isTrue => cases h
    case isFalse hquote =>
      split at h
      case isTrue hb =>
        obtain ⟨_, _, hescape, h⟩ := outcome_bind_eq_ok.mp h
        cases h
        rw [hb]
        rcases outcome_skipEscape_eq_ok_iff.mp hescape with
          ⟨letter, byte, hbyte, rfl⟩ | ⟨digits, n, hdigits, rfl⟩
        · exact ⟨0x5C :: letter :: text, .letter hbyte htext, rfl⟩
        · exact ⟨0x5C :: 0x75 :: (digits ++ text), .number hdigits htext, by simp⟩
      case isFalse hslash =>
        split at h
        case isTrue => cases h
        case isFalse hcontrol =>
          cases h
          exact ⟨b :: text, .plain ⟨hquote, hslash, hcontrol⟩ htext, rfl⟩

private theorem rounds_of_text {text : Bytes} (h : IsStringText text) (rest : Bytes) :
    Rounds skipStringRound () (text ++ 0x22 :: rest) () rest := by
  induction h with
  | nil => exact .answer rfl
  | plain hb _ ih =>
    obtain ⟨hquote, hslash, hcontrol⟩ := hb
    refine .round ?_ ih
    rw [skipStringRound, if_neg hquote, if_neg hslash, if_neg hcontrol]
    rfl
  | @letter b byte text hb _ ih =>
    refine .round ?_ ih
    have hescape : outcome skipEscape (b :: (text ++ 0x22 :: rest)) =
        .ok ((), text ++ 0x22 :: rest) :=
      outcome_skipEscape_eq_ok_iff.mpr (.inl ⟨b, byte, hb, rfl⟩)
    rw [skipStringRound, if_neg (by decide), if_pos rfl]
    exact outcome_bind_of_ok hescape _
  | @number digits text n hn _ ih =>
    refine .round ?_ ih
    have hescape : outcome skipEscape (0x75 :: (digits ++ text ++ 0x22 :: rest)) =
        .ok ((), text ++ 0x22 :: rest) :=
      outcome_skipEscape_eq_ok_iff.mpr (.inr ⟨digits, n, hn, by rw [List.append_assoc]⟩)
    rw [skipStringRound, if_neg (by decide), if_pos rfl]
    exact outcome_bind_of_ok hescape _

theorem outcome_skipString_eq_ok_iff :
    outcome skipString s = .ok ((), rest) ↔
      ∃ text, IsStringText text ∧ s = text ++ 0x22 :: rest := by
  have hrounds : outcome skipString s = .ok ((), rest) ↔ Rounds skipStringRound () s () rest :=
    outcome_loop_eq_ok_iff
  rw [hrounds]
  constructor
  · exact exists_text_of_rounds
  · rintro ⟨text, htext, rfl⟩
    exact rounds_of_text htext rest

/-! ## Numbers -/

def DigitsEnd (rest : Bytes) : Prop := ∀ b ∈ rest.head?, isDigitByte b = false

theorem outcome_digitBytes (s : Bytes) :
    outcome digitBytes s = .ok (s.takeWhile isDigitByte, s.dropWhile isDigitByte) := rfl

private theorem outcome_digitBytes_append {digits : Bytes}
    (hdigits : ∀ b ∈ digits, isDigitByte b = true)
    (hrest : DigitsEnd rest) : outcome digitBytes (digits ++ rest) = .ok (digits, rest) :=
  reads_iff_outcome.mp (Reads.takeWhile hdigits hrest)

private theorem isDigits_of_skipDigits (h : outcome skipDigits s = .ok ((), rest)) :
    ∃ digits, IsDigits digits ∧ s = digits ++ rest := by
  rw [skipDigits, outcome_bind_of_ok (outcome_digitBytes s)] at h
  split at h
  case isTrue => cases h
  case isFalse hne =>
    cases h
    rw [List.isEmpty_iff] at hne
    exact ⟨s.takeWhile isDigitByte, ⟨hne, List.all_eq_true.mp List.all_takeWhile⟩,
      List.takeWhile_append_dropWhile.symm⟩

private theorem outcome_skipDigits {digits : Bytes} (h : IsDigits digits) (hrest : DigitsEnd rest) :
    outcome skipDigits (digits ++ rest) = .ok ((), rest) := by
  have hne : ¬ digits.isEmpty = true := by simpa [List.isEmpty_iff] using h.1
  rw [skipDigits, outcome_bind_of_ok (outcome_digitBytes_append h.2 hrest), if_neg hne]
  rfl

theorem exists_cons_of_head? {c : Char} (h : s.head?.map toChar = some c) :
    ∃ t, s = UInt8.ofNat c.toNat :: t := by
  cases s with
  | nil => cases h
  | cons b t => exact ⟨t, by rw [eq_of_toChar (Option.some.inj h)]⟩

private def skipSigned : Reader Unit := do
  let mark ← look
  if mark = some '-' || mark = some '+' then drop
  skipDigits

private theorem exists_signed (h : outcome skipSigned s = .ok ((), rest)) :
    ∃ sign digits, s = sign ++ (digits ++ rest) ∧
      (sign = [] ∨ sign = [0x2B] ∨ sign = [0x2D]) ∧ IsDigits digits := by
  rw [skipSigned, outcome_bind_of_ok (outcome_look s)] at h
  dsimp only at h
  split at h
  case isTrue hmark =>
    rw [outcome_bind_of_ok (outcome_drop s)] at h
    obtain ⟨digits, hdigits, htail⟩ := isDigits_of_skipDigits h
    rw [Bool.or_eq_true, decide_eq_true_eq, decide_eq_true_eq] at hmark
    rcases hmark with hmark | hmark
    all_goals
      obtain ⟨t, rfl⟩ := exists_cons_of_head? hmark
      obtain rfl : t = digits ++ rest := htail
    · exact ⟨[0x2D], digits, rfl, .inr (.inr rfl), hdigits⟩
    · exact ⟨[0x2B], digits, rfl, .inr (.inl rfl), hdigits⟩
  case isFalse =>
    obtain ⟨digits, hdigits, rfl⟩ := isDigits_of_skipDigits h
    exact ⟨[], digits, rfl, .inl rfl, hdigits⟩

private theorem outcome_skipSigned {sign digits : Bytes}
    (hsign : sign = [] ∨ sign = [0x2B] ∨ sign = [0x2D]) (hdigits : IsDigits digits)
    (hrest : DigitsEnd rest) : outcome skipSigned (sign ++ (digits ++ rest)) = .ok ((), rest) := by
  have hskip := outcome_skipDigits hdigits hrest
  rcases hsign with rfl | rfl | rfl
  · -- the first digit is no sign
    obtain ⟨b, more, rfl⟩ := List.exists_cons_of_ne_nil hdigits.1
    have hdigit : isDigit (toChar b) = true := by
      rw [isDigit_toChar]
      exact hdigits.2 b List.mem_cons_self
    have hminus : toChar b ≠ '-' := by
      intro h
      rw [h] at hdigit
      cases hdigit
    have hplus : toChar b ≠ '+' := by
      intro h
      rw [h] at hdigit
      cases hdigit
    rw [List.nil_append, skipSigned, outcome_bind_of_ok (outcome_look _)]
    refine (congrArg (outcome · _) (if_neg ?_)).trans hskip
    simpa using ⟨hminus, hplus⟩
  · rw [skipSigned, outcome_bind_of_ok (outcome_look _)]
    exact (outcome_bind_of_ok (outcome_drop _) _).trans hskip
  · rw [skipSigned, outcome_bind_of_ok (outcome_look _)]
    exact (outcome_bind_of_ok (outcome_drop _) _).trans hskip

private theorem isExponent_of_skipExponent (h : outcome skipExponent s = .ok ((), rest)) :
    ∃ exponent, IsExponent exponent ∧ s = exponent ++ rest := by
  rw [skipExponent, outcome_bind_of_ok (outcome_look s)] at h
  split at h
  case isTrue hmark =>
    rw [outcome_bind_of_ok (outcome_drop s)] at h
    obtain ⟨sign, digits, htail, hsign, hdigits⟩ := exists_signed h
    rw [isExponentMark, Bool.or_eq_true, decide_eq_true_eq, decide_eq_true_eq] at hmark
    have hletter : ∃ letter t, s = letter :: t ∧ (letter = 0x65 ∨ letter = 0x45) := by
      rcases hmark with hmark | hmark
      all_goals obtain ⟨t, rfl⟩ := exists_cons_of_head? hmark
      · exact ⟨0x65, t, rfl, .inl rfl⟩
      · exact ⟨0x45, t, rfl, .inr rfl⟩
    obtain ⟨letter, t, rfl, hletter⟩ := hletter
    obtain rfl : t = sign ++ (digits ++ rest) := htail
    exact ⟨letter :: (sign ++ digits), .inr ⟨letter, sign, digits, rfl, hletter, hsign, hdigits⟩,
      by simp⟩
  case isFalse =>
    cases h
    exact ⟨[], .inl rfl, rfl⟩

private theorem outcome_skipExponent {exponent : Bytes} (h : IsExponent exponent)
    (hrest : NumberEnds rest) : outcome skipExponent (exponent ++ rest) = .ok ((), rest) := by
  rcases h with rfl | ⟨letter, sign, digits, rfl, hletter, hsign, hdigits⟩
  · have hmark : isExponentMark (rest.head?.map toChar) = false := by
      cases rest with
      | nil => rfl
      | cons b rest => exact (hrest b rfl).2.2.2
    rw [List.nil_append, skipExponent, outcome_bind_of_ok (outcome_look rest), hmark]
    rfl
  · have hmark : isExponentMark (some (toChar letter)) = true := by
      rcases hletter with rfl | rfl <;> decide
    rw [skipExponent, outcome_bind_of_ok (outcome_look _), List.cons_append, List.head?_cons,
      Option.map_some, hmark, if_pos rfl, List.append_assoc]
    exact (outcome_bind_of_ok (outcome_drop _) _).trans
      (outcome_skipSigned hsign hdigits fun b hb => (hrest b hb).1)

private theorem isFraction_of_skipFraction (h : outcome skipFraction s = .ok ((), rest)) :
    ∃ fraction, IsFraction fraction ∧ s = fraction ++ rest := by
  rw [skipFraction, outcome_bind_of_ok (outcome_look s)] at h
  split at h
  case isTrue hmark =>
    rw [outcome_bind_of_ok (outcome_drop s)] at h
    obtain ⟨digits, hdigits, htail⟩ := isDigits_of_skipDigits h
    obtain ⟨t, rfl⟩ := exists_cons_of_head? hmark
    obtain rfl : t = digits ++ rest := htail
    exact ⟨0x2E :: digits, .inr ⟨digits, rfl, hdigits⟩, rfl⟩
  case isFalse =>
    cases h
    exact ⟨[], .inl rfl, rfl⟩

private theorem outcome_skipFraction {fraction : Bytes} (h : IsFraction fraction)
    (hrest : ∀ b ∈ rest.head?, isDigitByte b = false ∧ toChar b ≠ '.') :
    outcome skipFraction (fraction ++ rest) = .ok ((), rest) := by
  rcases h with rfl | ⟨digits, rfl, hdigits⟩
  · have hmark : rest.head?.map toChar ≠ some '.' := by
      cases rest with
      | nil => exact nofun
      | cons b rest => simpa using (hrest b rfl).2
    rw [List.nil_append, skipFraction, outcome_bind_of_ok (outcome_look rest), if_neg hmark]
    rfl
  · rw [skipFraction, outcome_bind_of_ok (outcome_look _)]
    exact (outcome_bind_of_ok (outcome_drop _) _).trans
      (outcome_skipDigits hdigits fun b hb => (hrest b hb).1)

private theorem exponent_ends {exponent : Bytes} (h : IsExponent exponent)
    (hrest : NumberEnds rest) :
    ∀ b ∈ (exponent ++ rest).head?, isDigitByte b = false ∧ toChar b ≠ '.' := by
  rcases h with rfl | ⟨letter, sign, digits, rfl, hletter, -⟩
  · intro b hb
    obtain ⟨hdigit, -, hpoint, -⟩ := hrest b hb
    exact ⟨hdigit, hpoint⟩
  · rintro b hb
    obtain rfl := Option.some.inj hb
    rcases hletter with rfl | rfl <;> decide

private theorem fraction_ends {fraction : Bytes} (h : IsFraction fraction)
    (hrest : DigitsEnd rest) : DigitsEnd (fraction ++ rest) := by
  rcases h with rfl | ⟨digits, rfl, -⟩
  · exact hrest
  · intro b hb
    obtain rfl := Option.some.inj hb
    decide

theorem IsUnsigned.exists_cons (h : IsUnsigned s) : ∃ b t, s = b :: t ∧ isDigitByte b = true := by
  obtain ⟨whole, fraction, exponent, rfl, hwhole, -⟩ := h
  rcases hwhole with rfl | ⟨⟨hne, hall⟩, -⟩
  · exact ⟨0x30, _, rfl, by decide⟩
  · obtain ⟨b, digits, rfl⟩ := List.exists_cons_of_ne_nil hne
    exact ⟨b, _, rfl, hall b List.mem_cons_self⟩

theorem isUnsigned_of_skipNumberFrom {b : UInt8} (hb : isDigitByte b = true)
    (h : outcome (skipNumberFrom b) s = .ok ((), rest)) :
    ∃ text, IsUnsigned (b :: text) ∧ s = text ++ rest := by
  have htail {t : Bytes} (h : outcome (do skipFraction; skipExponent) t = .ok ((), rest)) :
      ∃ fraction exponent, IsFraction fraction ∧ IsExponent exponent ∧
        t = fraction ++ (exponent ++ rest) := by
    obtain ⟨⟨⟩, mid, hfraction, hexponent⟩ := outcome_bind_eq_ok.mp h
    obtain ⟨fraction, hisFraction, rfl⟩ := isFraction_of_skipFraction hfraction
    obtain ⟨exponent, hisExponent, rfl⟩ := isExponent_of_skipExponent hexponent
    exact ⟨fraction, exponent, hisFraction, hisExponent, rfl⟩
  rw [skipNumberFrom] at h
  split at h
  case isTrue hzero =>
    rw [outcome_bind_of_ok (outcome_look s)] at h
    split at h
    case isTrue =>
      obtain ⟨_, _, hfail, -⟩ := outcome_bind_eq_ok.mp h
      cases hfail
    case isFalse =>
      obtain ⟨fraction, exponent, hfraction, hexponent, rfl⟩ := htail h
      exact ⟨fraction ++ exponent, ⟨[0x30], fraction, exponent, by rw [hzero]; rfl, .inl rfl,
        hfraction, hexponent⟩, by rw [List.append_assoc]⟩
  case isFalse hzero =>
    rw [outcome_bind_of_ok (outcome_digitBytes s)] at h
    obtain ⟨fraction, exponent, hfraction, hexponent, hdrop⟩ := htail h
    have hdigits : IsDigits (b :: s.takeWhile isDigitByte) := by
      refine ⟨List.cons_ne_nil _ _, fun d hd => ?_⟩
      rcases List.mem_cons.mp hd with rfl | hd
      · exact hb
      · exact List.all_eq_true.mp List.all_takeWhile d hd
    refine ⟨s.takeWhile isDigitByte ++ (fraction ++ exponent), ⟨b :: s.takeWhile isDigitByte,
      fraction, exponent, rfl, .inr ⟨hdigits, ?_⟩, hfraction, hexponent⟩, ?_⟩
    · simpa using hzero
    · rw [List.append_assoc, List.append_assoc, ← hdrop, List.takeWhile_append_dropWhile]

theorem outcome_skipNumberFrom {b : UInt8} {text : Bytes} (h : IsUnsigned (b :: text))
    (hrest : NumberEnds rest) : outcome (skipNumberFrom b) (text ++ rest) = .ok ((), rest) := by
  obtain ⟨whole, fraction, exponent, htext, hwhole, hfraction, hexponent⟩ := h
  have hends := fraction_ends hfraction fun b hb => (exponent_ends hexponent hrest b hb).1
  have htail : outcome (do skipFraction; skipExponent) (fraction ++ (exponent ++ rest)) =
      .ok ((), rest) := by
    rw [outcome_bind_of_ok (outcome_skipFraction hfraction (exponent_ends hexponent hrest))]
    exact outcome_skipExponent hexponent hrest
  rcases hwhole with rfl | ⟨⟨hne, hall⟩, hfirst⟩
  · obtain rfl : b = 0x30 := (List.cons.inj htext).1
    obtain rfl : text = fraction ++ exponent := (List.cons.inj htext).2
    have hdigit : ¬ (((fraction ++ (exponent ++ rest)).head?.map toChar).map isDigit).getD false =
        true := by
      cases hs : fraction ++ (exponent ++ rest) with
      | nil => exact nofun
      | cons b t =>
        have hb := hends b (by rw [hs]; rfl)
        rw [← isDigit_toChar] at hb
        simpa using hb
    rw [skipNumberFrom, if_pos rfl, List.append_assoc,
      outcome_bind_of_ok (outcome_look _), if_neg hdigit]
    exact htail
  · obtain ⟨first, digits, rfl⟩ := List.exists_cons_of_ne_nil hne
    obtain rfl : b = first := (List.cons.inj htext).1
    obtain rfl : text = digits ++ (fraction ++ exponent) := (List.cons.inj htext).2
    have hdigits : ∀ d ∈ digits, isDigitByte d = true := fun d hd =>
      hall d (List.mem_cons_of_mem b hd)
    rw [skipNumberFrom, if_neg (by simpa using hfirst), List.append_assoc, List.append_assoc,
      outcome_bind_of_ok (outcome_digitBytes_append hdigits hends)]
    exact htail

theorem isUnsigned_of_skipNumber (h : outcome skipNumber s = .ok ((), rest)) :
    ∃ text, IsUnsigned text ∧ s = text ++ rest := by
  rw [skipNumber] at h
  cases s with
  | nil => cases h
  | cons b t =>
    rw [outcome_bind_of_ok (reads_iff_outcome.mp (Reads.next b t))] at h
    dsimp only at h
    split at h
    case isTrue hb =>
      obtain ⟨text, htext, rfl⟩ := isUnsigned_of_skipNumberFrom hb h
      exact ⟨b :: text, htext, rfl⟩
    case isFalse => cases h

theorem outcome_skipNumber {text : Bytes} (h : IsUnsigned text) (hrest : NumberEnds rest) :
    outcome skipNumber (text ++ rest) = .ok ((), rest) := by
  obtain ⟨b, t, rfl, hb⟩ := h.exists_cons
  rw [skipNumber, List.cons_append, outcome_bind_of_ok (reads_iff_outcome.mp (Reads.next b _))]
  dsimp only
  rw [if_pos hb]
  exact outcome_skipNumberFrom h hrest

/-! ## Keys -/

theorem outcome_colon_eq_ok_iff : outcome colon s = .ok ((), rest) ↔ Lexes [[0x3A]] s rest := by
  rw [lexes_singleton_iff (by decide), colon, outcome_bind_of_ok (outcome_token s)]
  constructor
  · intro h
    split at h
    case h_1 => cases h
    case h_2 hmark =>
      obtain ⟨t, hdrop⟩ := exists_cons_of_head? hmark
      rw [hdrop] at h
      cases h
      exact hdrop
    case h_3 => cases h
  · intro hdrop
    rw [hdrop]
    rfl

theorem outcome_skipKey_eq_ok_iff :
    outcome skipKey s = .ok ((), rest) ↔
      ∃ key mid, IsStringText key ∧ s = key ++ 0x22 :: mid ∧ Lexes [[0x3A]] mid rest := by
  rw [skipKey, outcome_bind_eq_ok]
  constructor
  · rintro ⟨⟨⟩, mid, hstring, hcolon⟩
    obtain ⟨key, hkey, rfl⟩ := outcome_skipString_eq_ok_iff.mp hstring
    exact ⟨key, mid, hkey, rfl, outcome_colon_eq_ok_iff.mp hcolon⟩
  · rintro ⟨key, mid, hkey, rfl, hcolon⟩
    exact ⟨(), mid, outcome_skipString_eq_ok_iff.mpr ⟨key, hkey, rfl⟩,
      outcome_colon_eq_ok_iff.mpr hcolon⟩

/-! ## Members -/

theorem memberStart_eq_false {first : Bool} {b : UInt8}
    (h : outcome (memberStart first b) s = .ok (false, rest)) : b = 0x7D ∧ s = rest := by
  unfold memberStart at h
  dsimp only at h
  split at h
  case isTrue hclose =>
    cases h
    exact ⟨eq_of_toChar hclose, rfl⟩
  case isFalse =>
    split at h
    case isTrue => split at h <;> cases h
    case isFalse =>
      split at h
      case isTrue =>
        rw [outcome_bind_of_ok (outcome_token s)] at h
        split at h
        case h_2 =>
          obtain ⟨_, _, _, hpure⟩ := outcome_bind_eq_ok.mp h
          cases hpure
        all_goals cases h
      case isFalse => cases h

theorem memberStart_eq_true {first : Bool} {b : UInt8}
    (h : outcome (memberStart first b) s = .ok (true, rest)) :
    (first = true ∧ b = 0x22 ∧ s = rest) ∨
      (first = false ∧ b = 0x2C ∧ s.dropWhile isBlankByte = 0x22 :: rest) := by
  unfold memberStart at h
  dsimp only at h
  split at h
  case isTrue => cases h
  case isFalse =>
    split at h
    case isTrue hfirst =>
      split at h
      case isTrue hquote =>
        cases h
        exact .inl ⟨hfirst, eq_of_toChar hquote, rfl⟩
      case isFalse => cases h
    case isFalse hfirst =>
      split at h
      case isTrue hcomma =>
        rw [outcome_bind_of_ok (outcome_token s)] at h
        split at h
        case h_2 hmark =>
          obtain ⟨t, hdrop⟩ := exists_cons_of_head? hmark
          rw [hdrop] at h
          cases h
          exact .inr ⟨Bool.eq_false_iff.mpr hfirst, eq_of_toChar hcomma, hdrop⟩
        all_goals cases h
      case isFalse => cases h

end FleetTelemetry.Json
