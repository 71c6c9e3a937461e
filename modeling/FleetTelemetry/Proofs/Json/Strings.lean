import FleetTelemetry.Json.Printer
import FleetTelemetry.Proofs.Json.Reads
import FleetTelemetry.Proofs.Text.Encoding
import FleetTelemetry.Proofs.Text.Lines

/-!
# Printed strings

Every text is read back from its printed string, whatever characters it has: each character is
either escaped or stands for itself as bytes that are neither marks nor control characters. A
printed string has no control character, so it fits in a line.
-/

namespace FleetTelemetry.Json

open Reader Text

def stringRound (reversed : Bytes) (b : UInt8) : Reader (Bytes ⊕ Bytes) :=
  if b = 0x22 then pure (.inr reversed.reverse)
  else if b = 0x5C then do
    let bytes ← escape
    pure (.inl (bytes.reverse ++ reversed))
  else if b < 0x20 then fail .controlCharacter
  else pure (.inl (b :: reversed))

def stringFrom (reversed : Bytes) : Reader Bytes :=
  loop (fun _ => .endInString) stringRound reversed

def IsPlain (b : UInt8) : Prop := b ≠ 0x22 ∧ b ≠ 0x5C ∧ ¬ b < 0x20

instance (b : UInt8) : Decidable (IsPlain b) :=
  inferInstanceAs (Decidable (b ≠ 0x22 ∧ b ≠ 0x5C ∧ ¬ b < 0x20))

section StringRounds

variable {reversed : Bytes} {s rest a : Bytes}

theorem stringFrom_quote (reversed s : Bytes) :
    Reads (stringFrom reversed) (0x22 :: s) reversed.reverse s := by
  apply Reads.loop_answer
  exact Reads.pure _ s

theorem stringFrom_plain {b : UInt8} (hb : IsPlain b)
    (h : Reads (stringFrom (b :: reversed)) s a rest) :
    Reads (stringFrom reversed) (b :: s) a rest := by
  obtain ⟨hquote, hslash, hcontrol⟩ := hb
  apply Reads.loop_round _ h
  rw [stringRound, if_neg hquote, if_neg hslash, if_neg hcontrol]
  exact Reads.pure _ s

private theorem stringFrom_plains {bytes : Bytes} (hbytes : ∀ b ∈ bytes, IsPlain b)
    (h : Reads (stringFrom (bytes.reverse ++ reversed)) s a rest) :
    Reads (stringFrom reversed) (bytes ++ s) a rest := by
  induction bytes generalizing reversed with
  | nil => exact h
  | cons b bytes ih =>
    have hmore : Reads (stringFrom (b :: reversed)) (bytes ++ s) a rest := by
      apply ih
      · exact fun b' hb' => hbytes b' (List.mem_cons_of_mem b hb')
      · simpa using h
    exact stringFrom_plain (hbytes b List.mem_cons_self) hmore

theorem stringFrom_escape {escaped bytes : Bytes} (hescape : Reads escape escaped bytes s)
    (h : Reads (stringFrom (bytes.reverse ++ reversed)) s a rest) :
    Reads (stringFrom reversed) (0x5C :: escaped) a rest := by
  apply Reads.loop_round _ h
  exact Reads.bind hescape (Reads.pure _ s)

end StringRounds

theorem escape_letter {b byte : UInt8} (h : letterEscape? (toChar b) = some byte)
    (s : Bytes) : Reads escape (b :: s) [byte] s := by
  apply Reads.bind (Reads.next b s)
  simp only [h]
  exact Reads.pure _ s

private def hexByte (n : Nat) : UInt8 :=
  if n < 10 then UInt8.ofNat (0x30 + n) else UInt8.ofNat (0x57 + n)

private theorem fourHex_fourDigits {n : Nat} (h : n < 0x20) (s : Bytes) :
    Reads fourHex (encode (fourDigits n) ++ s) n s := by
  -- below thirty-two the first two digits are zeros
  have hbytes : ∀ n < 0x20,
      encode (fourDigits n) = [0x30, 0x30, hexByte (n / 16), hexByte (n % 16)] := by decide
  have hzero : hexValue? 0x30 = some 0 := by decide
  have hvalue : ∀ n < 16, hexValue? (hexByte n) = some n := by decide
  have hhigh := hvalue (n / 16) (by omega)
  have hlow := hvalue (n % 16) (by omega)
  have hnumber : ((0 * 16 + 0) * 16 + n / 16) * 16 + n % 16 = n := by omega
  rw [hbytes n h]
  refine ⟨by simp; omega, ?_⟩
  simp only [fourHex, List.cons_append, List.nil_append, hzero, hhigh, hlow, hnumber]

private theorem escape_number {c : Char} (h : c.toNat < 0x20) (s : Bytes) :
    Reads escape (0x75 :: (encode (fourDigits c.toNat) ++ s)) (String.utf8EncodeChar c) s := by
  have hmark : toChar 0x75 = 'u' := by decide
  have htrailing : isTrailingSurrogate c.toNat = false := by
    simp only [isTrailingSurrogate, Bool.and_eq_false_iff, decide_eq_false_iff_not]
    omega
  have hleading : isLeadingSurrogate c.toNat = false := by
    simp only [isLeadingSurrogate, Bool.and_eq_false_iff, decide_eq_false_iff_not]
    omega
  have hpoint : encodeCodePoint c.toNat = String.utf8EncodeChar c := by
    rw [encodeCodePoint, Char.ofNat_toNat]
  apply Reads.bind (Reads.next 0x75 _)
  simp only [hmark, if_true]
  apply Reads.bind (fourHex_fourDigits h s)
  simp only [htrailing, hleading, hpoint]
  exact Reads.pure _ s

private theorem isPlain_of_mem {c : Char} (hquote : c ≠ '"') (hslash : c ≠ '\\')
    (hcontrol : ¬ c.toNat < 0x20) {b : UInt8} (hb : b ∈ String.utf8EncodeChar c) : IsPlain b := by
  by_cases hlt : c.toNat < 0x80
  · have hbyte : String.utf8EncodeChar c = [UInt8.ofNat c.toNat] := by
      have hcons := encode_cons_of_lt hlt []
      simpa [encode] using hcons
    have hb : b = UInt8.ofNat c.toNat := by simpa [hbyte] using hb
    have hnumber : b.toNat = c.toNat := by
      rw [hb, UInt8.toNat_ofNat', Nat.mod_eq_of_lt (by omega)]
    refine ⟨?_, ?_, ?_⟩
    · intro h
      apply hquote
      apply Char.toNat_inj.mp
      rw [← hnumber, h]
      rfl
    · intro h
      apply hslash
      apply Char.toNat_inj.mp
      rw [← hnumber, h]
      rfl
    · intro h
      rw [UInt8.lt_iff_toNat_lt, hnumber] at h
      exact hcontrol h
  · have hhigh : 0x80 ≤ b := le_of_mem_utf8EncodeChar (Nat.le_of_not_lt hlt) hb
    rw [UInt8.le_iff_toNat_le] at hhigh
    refine ⟨?_, ?_, ?_⟩
    · intro h
      subst h
      exact absurd hhigh (by decide)
    · intro h
      subst h
      exact absurd hhigh (by decide)
    · intro h
      rw [UInt8.lt_iff_toNat_lt] at h
      exact absurd (Nat.lt_of_le_of_lt hhigh h) (by decide)

/-- The characters that are printed as an escape of one letter, with the byte of the letter. -/
private def letters : List (Char × UInt8) :=
  [('"', 0x22), ('\\', 0x5C), ('\x08', 0x62), ('\x0c', 0x66), ('\n', 0x6E), ('\r', 0x72),
   ('\t', 0x74)]

private theorem printChar_cases (c : Char) :
    (∃ letter, (c, letter) ∈ letters) ∨
    (c.toNat < 0x20 ∧ printChar c = '\\' :: 'u' :: fourDigits c.toNat) ∨
    (c ≠ '"' ∧ c ≠ '\\' ∧ ¬ c.toNat < 0x20 ∧ printChar c = [c]) := by
  by_cases hletter : c ∈ letters.map Prod.fst
  · obtain ⟨⟨c', letter⟩, hmem, rfl⟩ := List.mem_map.mp hletter
    exact .inl ⟨letter, hmem⟩
  · simp only [letters, List.map_cons, List.map_nil, List.mem_cons, List.not_mem_nil, or_false,
      not_or] at hletter
    obtain ⟨hquote, hslash, hbackspace, hfeed, hline, hreturn, htab⟩ := hletter
    have hplain : printChar c =
        if c.toNat < 0x20 then '\\' :: 'u' :: fourDigits c.toNat else [c] := by
      simp only [printChar, hquote, hslash, hbackspace, hfeed, hline, hreturn, htab, if_false]
    by_cases hcontrol : c.toNat < 0x20
    · exact .inr (.inl ⟨hcontrol, by rw [hplain, if_pos hcontrol]⟩)
    · exact .inr (.inr ⟨hquote, hslash, hcontrol, by rw [hplain, if_neg hcontrol]⟩)

private theorem stringFrom_printChar (c : Char) {reversed s a rest : Bytes}
    (h : Reads (stringFrom ((String.utf8EncodeChar c).reverse ++ reversed)) s a rest) :
    Reads (stringFrom reversed) (encode (printChar c) ++ s) a rest := by
  obtain ⟨letter, hletter⟩ | ⟨hcontrol, hprint⟩ | ⟨hquote, hslash, hcontrol, hprint⟩ :=
    printChar_cases c
  · have hletters : ∀ entry ∈ letters, encode (printChar entry.1) = [0x5C, entry.2] ∧
        letterEscape? (toChar entry.2) = some (UInt8.ofNat entry.1.toNat) ∧
        String.utf8EncodeChar entry.1 = [UInt8.ofNat entry.1.toNat] := by decide
    obtain ⟨hprint, hbyte, hself⟩ := hletters (c, letter) hletter
    rw [hself] at h
    rw [hprint]
    exact stringFrom_escape (escape_letter hbyte s) h
  · have hmark : encode ['\\', 'u'] = [0x5C, 0x75] := by decide
    have hbytes : encode (printChar c) = 0x5C :: 0x75 :: encode (fourDigits c.toNat) := by
      rw [hprint]
      have happend := encode_append ['\\', 'u'] (fourDigits c.toNat)
      rw [hmark] at happend
      exact happend
    rw [hbytes]
    exact stringFrom_escape (escape_number hcontrol s) h
  · have hbytes : encode (printChar c) = String.utf8EncodeChar c := by
      rw [hprint]
      simp [encode]
    rw [hbytes]
    exact stringFrom_plains (fun b hb => isPlain_of_mem hquote hslash hcontrol hb) h

private theorem stringFrom_printed (s : List Char) (reversed rest : Bytes) :
    Reads (stringFrom reversed) (encode (s.flatMap printChar) ++ 0x22 :: rest)
      (reversed.reverse ++ encode s) rest := by
  induction s generalizing reversed with
  | nil =>
    have hquote := stringFrom_quote reversed rest
    simpa using hquote
  | cons c s ih =>
    have hmore := ih ((String.utf8EncodeChar c).reverse ++ reversed)
    rw [List.reverse_append, List.reverse_reverse, List.append_assoc, ← encode_cons] at hmore
    rw [List.flatMap_cons, encode_append, List.append_assoc]
    exact stringFrom_printChar c hmore

theorem string_printed (s : String) (rest : Bytes) :
    Reads string (encode (s.toList.flatMap printChar) ++ 0x22 :: rest) s rest := by
  have hbytes : Reads stringBytes (encode (s.toList.flatMap printChar) ++ 0x22 :: rest)
      (encode s.toList) rest := stringFrom_printed s.toList [] rest
  apply Reads.bind hbytes
  simp only [textOfBytes?_encode]
  exact Reads.pure s rest

theorem encode_printString (s : String) (rest : Bytes) :
    encode (printString s) ++ rest =
      0x22 :: (encode (s.toList.flatMap printChar) ++ 0x22 :: rest) := by
  have hquote : encode ['"'] = [0x22] := by decide
  rw [printString, List.cons_append, ← List.singleton_append, encode_append, encode_append, hquote]
  simp

private def isPrintable (s : List Char) : Bool := s.all fun c => decide (0x20 ≤ c.toNat)

private theorem printable_of_isPrintable {s : List Char} (h : isPrintable s = true) :
    Printable s := by
  intro c hc
  exact of_decide_eq_true (List.all_eq_true.mp h c hc)

private theorem printable_printChar (c : Char) : Printable (printChar c) := by
  obtain ⟨letter, hletter⟩ | ⟨hcontrol, hprint⟩ | ⟨hquote, hslash, hcontrol, hprint⟩ :=
    printChar_cases c
  · have hletters : letters.all (fun entry => isPrintable (printChar entry.1)) = true := by decide
    exact printable_of_isPrintable (List.all_eq_true.mp hletters (c, letter) hletter)
  · have hdigits : (List.range 0x20).all (fun n => isPrintable (fourDigits n)) = true := by decide
    have hmem : c.toNat ∈ List.range 0x20 := List.mem_range.mpr hcontrol
    rw [hprint, printable_cons, printable_cons]
    refine ⟨by decide, by decide, ?_⟩
    exact printable_of_isPrintable (List.all_eq_true.mp hdigits c.toNat hmem)
  · rw [hprint]
    intro d hd
    obtain rfl := List.mem_singleton.mp hd
    exact Nat.le_of_not_lt hcontrol

theorem printable_printString (s : String) : Printable (printString s) := by
  rw [printString, List.cons_append, printable_cons, printable_append]
  refine ⟨by decide, ?_, by simp [Printable]⟩
  intro d hd
  obtain ⟨c, -, hc⟩ := List.mem_flatMap.mp hd
  exact printable_printChar c d hc

end FleetTelemetry.Json
