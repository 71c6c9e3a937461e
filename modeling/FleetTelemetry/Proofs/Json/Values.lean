import FleetTelemetry.Proofs.Json.Records

/-!
# Printed values

Words, truth values and natural numbers are read back, also by the reader of any value. From a
reader that reads the values of an object back comes a reader of all its members, in their order;
as a map the members are looked up by their keys, of which the last one counts.
-/

namespace FleetTelemetry.Json

open Reader Text

theorem toChar_ofNat {c : Char} (h : c.toNat < 0x80) :
    toChar (UInt8.ofNat c.toNat) = c := by
  have hbyte : (UInt8.ofNat c.toNat).toNat = c.toNat := by
    rw [UInt8.toNat_ofNat', Nat.mod_eq_of_lt (by omega)]
  rw [toChar, hbyte, Char.ofNat_toNat]

theorem word_printed {cs : List Char} (hcs : ∀ c ∈ cs, c.toNat < 0x80) (rest : Bytes) :
    Reads (word cs) (encode cs ++ rest) () rest := by
  induction cs with
  | nil => exact Reads.pure () rest
  | cons c cs ih =>
    have hc := hcs c List.mem_cons_self
    have hmore := ih fun d hd => hcs d (List.mem_cons_of_mem c hd)
    rw [encode_cons_of_lt hc, List.cons_append]
    apply Reads.bind (Reads.next _ _)
    simp only [toChar_ofNat hc, if_true]
    exact hmore

theorem boolean_printed (expected : String) (b : Bool) :
    ReadsPrinted (boolean expected) (printBoolean b) b := by
  intro rest _
  cases b with
  | false =>
    apply Reads.bind (Reads.token (b := 0x66) (by decide) _)
    apply Reads.bind (Reads.drop 0x66 _)
    exact Reads.bind (word_printed (by simp) rest) (Reads.pure false rest)
  | true =>
    apply Reads.bind (Reads.token (b := 0x74) (by decide) _)
    apply Reads.bind (Reads.drop 0x74 _)
    exact Reads.bind (word_printed (by simp) rest) (Reads.pure true rest)

theorem value_boolean (depth : Nat) (b : Bool) :
    ReadsPrinted (value depth) (printBoolean b) (.boolean b) := by
  intro rest _
  rw [value.eq_def]
  cases b with
  | false =>
    apply Reads.bind (Reads.token (b := 0x66) (by decide) _)
    apply Reads.bind (Reads.drop 0x66 _)
    exact Reads.bind (word_printed (by simp) rest) (Reads.pure _ rest)
  | true =>
    apply Reads.bind (Reads.token (b := 0x74) (by decide) _)
    apply Reads.bind (Reads.drop 0x74 _)
    exact Reads.bind (word_printed (by simp) rest) (Reads.pure _ rest)

theorem value_natural (depth : Nat) (n : UInt64) :
    ReadsPrinted (value depth) (printNatural n.toNat) (.number (.natural n)) := by
  intro rest hrest
  have hnumber := unsignedNumber_decimal n.toNat_lt hrest
  obtain ⟨b, s, hbytes, hblank, hdigit⟩ := exists_encode_decimal n.toNat
  rw [UInt64.ofNat_toNat, hbytes] at hnumber
  have hother : ∀ c, isDigit c = false → some (toChar b) ≠ some c := by
    intro c hc h
    rw [Option.some.inj h, hc] at hdigit
    cases hdigit
  rw [value.eq_def, printNatural, hbytes]
  apply Reads.bind (Reads.token hblank (s ++ rest))
  -- a digit is none of the characters that begin another kind of value
  split
  case h_1 h => cases h
  case h_2 h => exact absurd h (hother 'n' rfl)
  case h_3 h => exact absurd h (hother 't' rfl)
  case h_4 h => exact absurd h (hother 'f' rfl)
  case h_5 h => exact absurd h (hother '"' rfl)
  case h_6 h => exact absurd h (hother '-' rfl)
  case h_7 h => exact absurd h (hother '[' rfl)
  case h_8 h => exact absurd h (hother '\x7b' rfl)
  case h_9 c _ _ _ _ _ _ _ h =>
    obtain rfl := Option.some.inj h
    rw [if_pos hdigit]
    exact Reads.bind hnumber (Reads.pure _ rest)

section Members

variable {ι α : Type} {value : Reader α} {key : ι → String} {print : ι → List Char} {read : ι → α}

def pairRound (value : Reader α) (reversed : List (String × α)) (b : UInt8) :
    Reader (List (String × α) ⊕ List (String × α)) :=
  if isBlankByte b then pure (.inl reversed)
  else do
    if ← memberStart reversed.isEmpty b then
      let key ← string
      colon
      let a ← value
      pure (.inl ((key, a) :: reversed))
    else
      pure (.inr reversed.reverse)

def pairsFrom (value : Reader α) (reversed : List (String × α)) : Reader (List (String × α)) :=
  loop (fun _ => .endInObject) (pairRound value) reversed

private theorem pairRound_printed {reversed : List (String × α)} {b : UInt8} {i : ι}
    {s rest : Bytes} (hblank : isBlankByte b = false)
    (hstart : Reads (memberStart reversed.isEmpty b) s true
      (encode ((key i).toList.flatMap printChar) ++ 0x22 :: 0x3A :: (encode (print i) ++ rest)))
    (hvalue : ReadsPrinted value (print i) (read i)) (hrest : NumberEnds rest) :
    Reads (pairRound value reversed b) s (.inl ((key i, read i) :: reversed)) rest := by
  rw [pairRound, hblank]
  apply Reads.bind hstart
  apply Reads.bind (string_printed (key i) _)
  apply Reads.bind (colon_printed _)
  apply Reads.bind (hvalue rest hrest)
  exact Reads.pure _ rest

private theorem pairsFrom_close (reversed : List (String × α)) (rest : Bytes) :
    Reads (pairsFrom value reversed) (0x7D :: rest) reversed.reverse rest := by
  apply Reads.loop_answer
  exact Reads.bind (Reads.pure false rest) (Reads.pure _ rest)

private theorem pairsFrom_others (others : List ι) {reversed : List (String × α)}
    (hbegun : reversed ≠ []) (hvalue : ∀ i ∈ others, ReadsPrinted value (print i) (read i))
    (rest : Bytes) :
    Reads (pairsFrom value reversed)
      (encode ((others.map fun i => (key i, print i)).flatMap fun member =>
        ',' :: printMember member.1 member.2) ++ 0x7D :: rest)
      (reversed.reverse ++ others.map fun i => (key i, read i)) rest := by
  -- the loop holds the members that have been read in reverse
  induction others generalizing reversed with
  | nil =>
    simp only [List.map_nil, List.append_nil]
    exact pairsFrom_close reversed rest
  | cons i others ih =>
    have hmore := @ih ((key i, read i) :: reversed) (List.cons_ne_nil _ _)
      fun j hj => hvalue j (List.mem_cons_of_mem i hj)
    rw [List.reverse_cons, List.append_assoc, List.singleton_append] at hmore
    have hends := numberEnds_members (others.map fun i => (key i, print i)) rest
    have hempty : reversed.isEmpty = false := List.isEmpty_eq_false_iff.mpr hbegun
    rw [List.map_cons, List.flatMap_cons, List.cons_append, encode_cons_of_lt (by decide),
      encode_append, List.cons_append, List.append_assoc, encode_printMember]
    refine Reads.loop_round ?_ hmore
    apply pairRound_printed (by decide) _ (hvalue i List.mem_cons_self) hends
    rw [hempty]
    exact memberStart_comma _

private theorem members_printed (items : List ι)
    (hvalue : ∀ i ∈ items, ReadsPrinted value (print i) (read i)) (rest : Bytes) :
    Reads (members value)
      (encode ([','].intercalate (items.map fun i => printMember (key i) (print i))) ++
        0x7D :: rest)
      (items.map fun i => (key i, read i)) rest := by
  cases items with
  | nil => exact pairsFrom_close [] rest
  | cons i others =>
    have hmore := @pairsFrom_others _ _ value key print read others [(key i, read i)]
      (List.cons_ne_nil _ _) (fun j hj => hvalue j (List.mem_cons_of_mem i hj)) rest
    have hends := numberEnds_members (others.map fun i => (key i, print i)) rest
    rw [List.flatMap_map] at hmore hends
    rw [List.map_cons, intercalate_comma, List.flatMap_map, encode_append, List.append_assoc,
      encode_printMember]
    refine Reads.loop_round ?_ hmore
    exact pairRound_printed (by decide) (memberStart_quote _) (hvalue i List.mem_cons_self) hends

theorem value_object {depth : Nat} {read : ι → Value} (items : List ι)
    (hvalue : ∀ i ∈ items, ReadsPrinted (Json.value depth) (print i) (read i)) :
    ReadsPrinted (Json.value (depth + 1)) (printObject (items.map fun i => (key i, print i)))
      (.object (items.map fun i => (key i, read i))) := by
  intro rest _
  rw [encode_printObject, List.map_map, value.eq_def]
  apply Reads.bind (Reads.token (by decide) _)
  apply Reads.bind (Reads.drop _ _)
  apply Reads.bind (members_printed items hvalue rest)
  exact Reads.pure _ rest

end Members

/-- As a map, members are looked up by their keys; of several with one key the last one counts. -/
theorem Members.getElem?_ofList (members : List (String × Value)) (key : String) :
    (Members.ofList members)[key]? = (members.reverse.find? (·.1 = key)).map (·.2) := by
  have general : ∀ (members : List (String × Value)) (map : Members),
      (members.foldl (fun map member => map.insert member.1 member.2) map)[key]? =
        ((members.reverse.find? (·.1 = key)).map (·.2)).or map[key]? := by
    intro members
    induction members with
    | nil => simp
    | cons first rest ih =>
      intro map
      rw [List.foldl_cons, ih, List.reverse_cons, List.find?_append]
      by_cases hfirst : first.1 = key
      · cases hlater : rest.reverse.find? (·.1 = key) <;> simp [hfirst]
      · cases hlater : rest.reverse.find? (·.1 = key) <;>
          simp [Std.ExtTreeMap.getElem?_insert, hfirst]
  have h := general members ∅
  simpa [Members.ofList] using h

end FleetTelemetry.Json
