import FleetTelemetry.Proofs.Json.Lexemes

/-!
# Unescaping

What stands between the quotes of a string spells a text when its escapes denote the bytes of this
text. Not every string spells one: half of a surrogate pair denotes nothing, and the bytes may be
no UTF-8. A string is read exactly when it spells a text, and as this text.
-/

namespace FleetTelemetry.Json

open Reader Text

inductive Escapes : Bytes → Bytes → Prop where
  | letter {b byte : UInt8} (hb : letterEscape? (toChar b) = some byte) : Escapes [b] [byte]
  | number {digits : Bytes} {n : Nat} (hn : IsHex digits n) (hleading : isLeadingSurrogate n = false)
      (htrailing : isTrailingSurrogate n = false) : Escapes (0x75 :: digits) (encodeCodePoint n)
  | pair {digits more : Bytes} {n m : Nat} (hn : IsHex digits n)
      (hleading : isLeadingSurrogate n = true) (hm : IsHex more m)
      (htrailing : isTrailingSurrogate m = true) :
      Escapes (0x75 :: (digits ++ 0x5C :: 0x75 :: more))
        (encodeCodePoint ((n - 0xD800) * 0x400 + (m - 0xDC00) + 0x10000))

inductive Unescapes : Bytes → Bytes → Prop where
  | nil : Unescapes [] []
  | plain {b : UInt8} {s bytes : Bytes} (hb : IsPlain b) (h : Unescapes s bytes) :
      Unescapes (b :: s) (b :: bytes)
  | escape {escaped s bytes more : Bytes} (hescaped : Escapes escaped bytes)
      (h : Unescapes s more) : Unescapes (0x5C :: (escaped ++ s)) (bytes ++ more)

/-- What stands between quotes spells the text whose bytes it denotes. -/
def Spells (raw : Bytes) (text : String) : Prop := Unescapes raw (encode text.toList)

variable {s rest : Bytes}

/-! ## Escapes -/

private theorem outcome_pairMark_eq_ok_iff {c : Char} (hc : c.toNat < 0x80) :
    outcome (pairMark c) s = .ok ((), rest) ↔ s = UInt8.ofNat c.toNat :: rest := by
  rw [pairMark, outcome_bind_of_ok (outcome_look s)]
  cases s with
  | nil => exact ⟨nofun, nofun⟩
  | cons b t =>
    simp only [List.head?_cons, Option.map_some]
    constructor
    · intro h
      split at h
      case isTrue hb =>
        cases h
        exact congrArg (· :: t) (eq_of_toChar hb)
      case isFalse => cases h
    · intro h
      cases h
      rw [if_pos (toChar_ofNat hc)]
      rfl

private theorem isTrailing_of_isLeading {n : Nat} (h : isLeadingSurrogate n = true) :
    isTrailingSurrogate n = false := by
  simp only [isLeadingSurrogate, Bool.and_eq_true, decide_eq_true_eq] at h
  simp only [isTrailingSurrogate, Bool.and_eq_false_iff, decide_eq_false_iff_not]
  omega

private theorem outcome_escapedCodePoint_eq_ok_iff {bytes : Bytes} :
    outcome escapedCodePoint s = .ok (bytes, rest) ↔
      ∃ escaped, Escapes (0x75 :: escaped) bytes ∧ s = escaped ++ rest := by
  constructor
  · intro h
    obtain ⟨n, mid, hhex, hpoint⟩ := outcome_bind_eq_ok.mp h
    obtain ⟨digits, hdigits, rfl⟩ := outcome_fourHex_eq_ok_iff.mp hhex
    split at hpoint
    case isTrue => cases hpoint
    case isFalse htrailing =>
      split at hpoint
      case isTrue hleading =>
        obtain ⟨⟨⟩, t, hslash, hpair⟩ := outcome_bind_eq_ok.mp hpoint
        obtain ⟨⟨⟩, u, hletter, hsecond⟩ := outcome_bind_eq_ok.mp hpair
        obtain ⟨m, v, hmhex, hvalue⟩ := outcome_bind_eq_ok.mp hsecond
        obtain rfl := (outcome_pairMark_eq_ok_iff (by decide)).mp hslash
        obtain rfl := (outcome_pairMark_eq_ok_iff (by decide)).mp hletter
        obtain ⟨more, hmore, rfl⟩ := outcome_fourHex_eq_ok_iff.mp hmhex
        split at hvalue
        case isTrue hpaired =>
          rw [outcome_pure] at hvalue
          obtain ⟨rfl, rfl⟩ := Prod.mk.inj (Except.ok.inj hvalue)
          refine ⟨digits ++ 0x5C :: 0x75 :: more, .pair hdigits hleading hmore hpaired, ?_⟩
          rw [List.append_assoc]
          rfl
        case isFalse => cases hvalue
      case isFalse hleading =>
        cases hpoint
        exact ⟨digits, .number hdigits (Bool.eq_false_iff.mpr hleading)
          (Bool.eq_false_iff.mpr htrailing), rfl⟩
  · rintro ⟨escaped, h, rfl⟩
    cases h with
    | letter hb => cases hb
    | @number _ n hn hleading htrailing =>
      refine (outcome_bind_of_ok (outcome_fourHex_eq_ok_iff.mpr ⟨escaped, hn, rfl⟩) _).trans ?_
      rw [htrailing, hleading]
      rfl
    | @pair digits more n m hn hleading hm htrailing =>
      have hslash : outcome (pairMark '\\') (0x5C :: 0x75 :: (more ++ rest)) =
          .ok ((), 0x75 :: (more ++ rest)) := (outcome_pairMark_eq_ok_iff (by decide)).mpr rfl
      have hletter : outcome (pairMark 'u') (0x75 :: (more ++ rest)) = .ok ((), more ++ rest) :=
        (outcome_pairMark_eq_ok_iff (by decide)).mpr rfl
      rw [List.append_assoc]
      refine (outcome_bind_of_ok (outcome_fourHex_eq_ok_iff.mpr ⟨digits, hn, rfl⟩) _).trans ?_
      rw [isTrailing_of_isLeading hleading, hleading]
      refine (outcome_bind_of_ok hslash _).trans ?_
      refine (outcome_bind_of_ok hletter _).trans ?_
      refine (outcome_bind_of_ok (outcome_fourHex_eq_ok_iff.mpr ⟨more, hm, rfl⟩) _).trans ?_
      rw [if_pos htrailing]
      exact outcome_pure _ rest

private theorem outcome_escape_eq_ok_iff {bytes : Bytes} :
    outcome escape s = .ok (bytes, rest) ↔
      ∃ escaped, Escapes escaped bytes ∧ s = escaped ++ rest := by
  have hnumber (t : Bytes) : outcome escape (0x75 :: t) = outcome escapedCodePoint t :=
    outcome_bind_of_ok (reads_iff_outcome.mp (Reads.next 0x75 t)) _
  constructor
  · intro h
    cases s with
    | nil => cases h
    | cons b t =>
      cases hletter : letterEscape? (toChar b) with
      | some byte =>
        rw [reads_iff_outcome.mp (escape_letter hletter t)] at h
        cases h
        exact ⟨[b], .letter hletter, rfl⟩
      | none =>
        by_cases hb : b = 0x75
        · rw [hb, hnumber] at h
          obtain ⟨escaped, hescaped, rfl⟩ := outcome_escapedCodePoint_eq_ok_iff.mp h
          exact ⟨0x75 :: escaped, hescaped, by rw [hb]; rfl⟩
        · have hu : toChar b ≠ 'u' := fun hu => hb (eq_of_toChar hu)
          rw [escape, outcome_bind_of_ok (reads_iff_outcome.mp (Reads.next b t))] at h
          simp only [hletter, hu, if_false] at h
          cases h
  · rintro ⟨escaped, hescaped, rfl⟩
    cases hescaped with
    | letter hb => exact reads_iff_outcome.mp (escape_letter hb rest)
    | number hn hleading htrailing =>
      refine (hnumber _).trans (outcome_escapedCodePoint_eq_ok_iff.mpr ?_)
      exact ⟨_, .number hn hleading htrailing, rfl⟩
    | pair hn hleading hm htrailing =>
      refine (hnumber _).trans (outcome_escapedCodePoint_eq_ok_iff.mpr ?_)
      exact ⟨_, .pair hn hleading hm htrailing, rfl⟩

/-! ## Strings -/

private theorem exists_raw_of_rounds {reversed all : Bytes}
    (h : Rounds stringRound reversed s all rest) :
    ∃ raw bytes, s = raw ++ 0x22 :: rest ∧ all = reversed.reverse ++ bytes ∧
      Unescapes raw bytes := by
  -- the state holds the bytes before the round in reverse
  induction h with
  | @answer reversed b s rest all h =>
    rw [stringRound] at h
    split at h
    case isTrue hb =>
      cases h
      exact ⟨[], [], by rw [hb]; rfl, (List.append_nil _).symm, .nil⟩
    case isFalse =>
      split at h
      case isTrue =>
        obtain ⟨_, _, -, h⟩ := outcome_bind_eq_ok.mp h
        cases h
      case isFalse => split at h <;> cases h
  | @round reversed reversed' b s mid rest all h _ ih =>
    obtain ⟨raw, bytes, rfl, rfl, hraw⟩ := ih
    rw [stringRound] at h
    split at h
    case isTrue => cases h
    case isFalse hquote =>
      split at h
      case isTrue hb =>
        obtain ⟨denoted, _, hescape, h⟩ := outcome_bind_eq_ok.mp h
        cases h
        obtain ⟨escaped, hescaped, rfl⟩ := outcome_escape_eq_ok_iff.mp hescape
        refine ⟨0x5C :: (escaped ++ raw), denoted ++ bytes, ?_, ?_, .escape hescaped hraw⟩
        · rw [hb, List.cons_append, List.append_assoc]
          rfl
        · rw [List.reverse_append, List.reverse_reverse, List.append_assoc]
      case isFalse hslash =>
        split at h
        case isTrue => cases h
        case isFalse hcontrol =>
          cases h
          refine ⟨b :: raw, b :: bytes, rfl, ?_, .plain ⟨hquote, hslash, hcontrol⟩ hraw⟩
          rw [List.reverse_cons, List.append_assoc, List.singleton_append]

private theorem stringFrom_unescapes {raw bytes : Bytes} (h : Unescapes raw bytes)
    (reversed rest : Bytes) :
    Reads (stringFrom reversed) (raw ++ 0x22 :: rest) (reversed.reverse ++ bytes) rest := by
  induction h generalizing reversed with
  | nil =>
    have hquote := stringFrom_quote reversed rest
    simpa using hquote
  | @plain b raw bytes hb _ ih =>
    have hmore := ih (b :: reversed)
    rw [List.reverse_cons, List.append_assoc, List.singleton_append] at hmore
    exact stringFrom_plain hb hmore
  | @escape escaped raw denoted bytes hescaped _ ih =>
    have hmore := ih (denoted.reverse ++ reversed)
    rw [List.reverse_append, List.reverse_reverse, List.append_assoc] at hmore
    rw [List.cons_append, List.append_assoc]
    exact stringFrom_escape
      (reads_iff_outcome.mpr (outcome_escape_eq_ok_iff.mpr ⟨escaped, hescaped, rfl⟩)) hmore

private theorem outcome_stringBytes_eq_ok_iff {bytes : Bytes} :
    outcome stringBytes s = .ok (bytes, rest) ↔
      ∃ raw, s = raw ++ 0x22 :: rest ∧ Unescapes raw bytes := by
  have hrounds : outcome stringBytes s = .ok (bytes, rest) ↔ Rounds stringRound [] s bytes rest :=
    outcome_loop_eq_ok_iff
  constructor
  · intro h
    obtain ⟨raw, denoted, rfl, hbytes, hraw⟩ := exists_raw_of_rounds (hrounds.mp h)
    obtain rfl : bytes = denoted := hbytes
    exact ⟨raw, rfl, hraw⟩
  · rintro ⟨raw, rfl, hraw⟩
    exact reads_iff_outcome.mp (stringFrom_unescapes hraw [] rest)

theorem outcome_string_eq_ok_iff {text : String} :
    outcome string s = .ok (text, rest) ↔ ∃ raw, s = raw ++ 0x22 :: rest ∧ Spells raw text := by
  rw [string, outcome_bind_eq_ok]
  constructor
  · rintro ⟨bytes, mid, hbytes, h⟩
    obtain ⟨raw, rfl, hraw⟩ := outcome_stringBytes_eq_ok_iff.mp hbytes
    split at h
    case h_1 text htext =>
      cases h
      rw [textOfBytes?_eq_some_iff.mp htext] at hraw
      exact ⟨raw, rfl, hraw⟩
    case h_2 => cases h
  · rintro ⟨raw, rfl, hraw⟩
    refine ⟨encode text.toList, rest, outcome_stringBytes_eq_ok_iff.mpr ⟨raw, rfl, hraw⟩, ?_⟩
    simp only [textOfBytes?_encode]
    rfl

theorem Spells.unique {raw : Bytes} {text text' : String} (h : Spells raw text)
    (h' : Spells raw text') : text = text' := by
  have hread : outcome string (raw ++ [0x22]) = .ok (text, []) :=
    outcome_string_eq_ok_iff.mpr ⟨raw, rfl, h⟩
  have hread' : outcome string (raw ++ [0x22]) = .ok (text', []) :=
    outcome_string_eq_ok_iff.mpr ⟨raw, rfl, h'⟩
  rw [hread] at hread'
  cases hread'
  rfl

theorem Escapes.isStringText {escaped bytes : Bytes} (h : Escapes escaped bytes)
    (hs : IsStringText s) : IsStringText (0x5C :: (escaped ++ s)) := by
  cases h with
  | letter hb => exact .letter hb hs
  | number hn => exact .number hn hs
  | pair hn _ hm =>
    rw [List.cons_append, List.append_assoc]
    exact .number hn (.number hm hs)

theorem Spells.isStringText {raw : Bytes} {text : String} (h : Spells raw text) :
    IsStringText raw := by
  unfold Spells at h
  generalize encode text.toList = bytes at h
  induction h with
  | nil => exact .nil
  | plain hb _ ih => exact .plain hb ih
  | escape hescaped _ ih => exact hescaped.isStringText ih

theorem IsStringText.append_quote_inj {raw raw' rest' : Bytes} (h : IsStringText raw)
    (h' : IsStringText raw') (heq : raw ++ 0x22 :: rest = raw' ++ 0x22 :: rest') :
    raw = raw' ∧ rest = rest' := by
  have hskip : outcome skipString (raw ++ 0x22 :: rest) = .ok ((), rest) :=
    outcome_skipString_eq_ok_iff.mpr ⟨raw, h, rfl⟩
  have hskip' : outcome skipString (raw ++ 0x22 :: rest) = .ok ((), rest') :=
    outcome_skipString_eq_ok_iff.mpr ⟨raw', h', heq⟩
  rw [hskip] at hskip'
  cases hskip'
  exact ⟨List.append_cancel_right heq, rfl⟩

/-- The second half of a surrogate pair does not begin a text: without the first half it denotes
nothing. -/
theorem not_spells_of_isTrailing {digits : Bytes} {n : Nat} {text : String} (hn : IsHex digits n)
    (htrailing : isTrailingSurrogate n = true) : ¬ Spells (0x5C :: 0x75 :: (digits ++ s)) text := by
  intro h
  -- whichever escape stands here, its number is read off the same digits
  have hsame {digits' s' : Bytes} {m : Nat} (hm : IsHex digits' m)
      (heq : digits' ++ s' = digits ++ s) : m = n := by
    have hread := outcome_fourHex_eq_ok_iff.mpr ⟨digits', hm, heq.symm⟩
    rw [outcome_fourHex_eq_ok_iff.mpr ⟨digits, hn, rfl⟩] at hread
    exact (congrArg Prod.fst (Except.ok.inj hread)).symm
  unfold Spells at h
  generalize hraw : 0x5C :: 0x75 :: (digits ++ s) = raw at h
  generalize encode text.toList = bytes at h
  cases h with
  | nil => cases hraw
  | plain hb => exact hb.2.1 (List.cons.inj hraw).1.symm
  | @escape escaped rest bytes more hescaped =>
    have htail : 0x75 :: (digits ++ s) = escaped ++ rest := (List.cons.inj hraw).2
    cases hescaped with
    | letter hb =>
      rw [← (List.cons.inj htail).1] at hb
      cases hb
    | number hm _ hnot =>
      rw [hsame hm (List.cons.inj htail).2.symm, htrailing] at hnot
      cases hnot
    | @pair first second m k hm hleading =>
      have hmore : digits ++ s = first ++ (0x5C :: 0x75 :: second ++ rest) := by
        rw [← List.append_assoc]
        exact (List.cons.inj htail).2
      rw [hsame hm hmore.symm] at hleading
      rw [isTrailing_of_isLeading hleading] at htrailing
      cases htrailing

end FleetTelemetry.Json
