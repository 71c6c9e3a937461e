import FleetTelemetry.Json.Record
import FleetTelemetry.Proofs.Json.Numbers

/-!
# Printed objects and lists

A printed value is read back whatever follows it, unless what follows goes on with a number. From
readers that read the members of an object back comes a reader of the printed object, and from one
that reads the items of a list back comes a reader of the printed list. Neither has a control
character in it when its parts have none.
-/

namespace FleetTelemetry.Json

open Reader Text

theorem stringValue_printed (expected s : String) :
    ReadsPrinted (stringValue expected) (printString s) s := by
  intro rest _
  rw [encode_printString]
  apply Reads.bind (Reads.token (by decide) _)
  apply Reads.bind (Reads.drop 0x22 _)
  exact string_printed s rest

theorem printable_printObject {members : List (String × List Char)}
    (h : ∀ member ∈ members, Printable member.2) : Printable (printObject members) := by
  rw [printObject, List.cons_append, printable_cons, printable_append]
  refine ⟨by decide, printable_intercalate ?_, by simp [Printable]⟩
  intro item hitem
  obtain ⟨member, hmember, rfl⟩ := List.mem_map.mp hitem
  rw [printMember, printable_append, printable_cons]
  exact ⟨printable_printString member.1, by decide, h member hmember⟩

theorem printable_printList {items : List (List Char)} (h : ∀ item ∈ items, Printable item) :
    Printable (printList items) := by
  rw [printList, List.cons_append, printable_cons, printable_append]
  exact ⟨by decide, printable_intercalate h, by simp [Printable]⟩

theorem encode_printObject (members : List (String × List Char)) (rest : Bytes) :
    encode (printObject members) ++ rest =
      0x7B :: (encode ([','].intercalate
        (members.map fun member => printMember member.1 member.2)) ++ 0x7D :: rest) := by
  have hclose : encode ['\x7d'] = [0x7D] := by decide
  rw [printObject, List.cons_append, encode_cons_of_lt (by decide), encode_append, hclose,
    List.cons_append, List.append_assoc, List.singleton_append]
  rfl

section Objects

variable {σ : Type} {fields : List (RecordField σ)}

/-- Printed members are read by fields of a record, each by another one; they turn one filling of
the record into another. -/
inductive ReadsMembers (fields : List (RecordField σ)) :
    Filling σ → List (String × List Char) → Filling σ → Prop where
  | nil (filling : Filling σ) : ReadsMembers fields filling [] filling
  | cons {filling final : Filling σ} {field : RecordField σ} {record : σ} {key : String}
      {printed : List Char} {members : List (String × List Char)}
      (hfield : fields.find? (·.name = key) = some field) (hnew : key ∉ filling.seen)
      (hread : ReadsPrinted (field.fill filling.record) printed record)
      (hmembers : ReadsMembers fields ⟨record, key :: filling.seen⟩ members final) :
      ReadsMembers fields filling ((key, printed) :: members) final

theorem colon_printed (rest : Bytes) : Reads colon (0x3A :: rest) () rest := by
  apply Reads.bind (Reads.token (by decide) rest)
  exact Reads.drop 0x3A rest

theorem encode_printMember (key : String) (printed : List Char) (rest : Bytes) :
    encode (printMember key printed) ++ rest =
      0x22 :: (encode (key.toList.flatMap printChar) ++
        0x22 :: 0x3A :: (encode printed ++ rest)) := by
  have hcolon : encode (':' :: printed) = 0x3A :: encode printed :=
    encode_cons_of_lt (by decide) printed
  rw [printMember, encode_append, List.append_assoc, encode_printString, hcolon]
  rfl

private theorem recordMember_printed {filling : Filling σ} {field : RecordField σ} {record : σ}
    {key : String} {printed : List Char} (hfield : fields.find? (·.name = key) = some field)
    (hnew : key ∉ filling.seen) (hread : ReadsPrinted (field.fill filling.record) printed record)
    {rest : Bytes} (hrest : NumberEnds rest) :
    Reads (recordMember fields filling)
      (encode (key.toList.flatMap printChar) ++ 0x22 :: 0x3A :: (encode printed ++ rest))
      ⟨record, key :: filling.seen⟩ rest := by
  have hseen : filling.seen.contains key = false := by simpa using hnew
  apply Reads.bind (string_printed key _)
  simp only [hfield, hseen, Bool.false_eq_true, if_false]
  apply Reads.bind (colon_printed _)
  apply Reads.bind (hread rest hrest)
  exact Reads.pure _ rest

def memberRound (fields : List (RecordField σ)) (state : Bool × Filling σ) (b : UInt8) :
    Reader ((Bool × Filling σ) ⊕ Filling σ) :=
  if isBlankByte b then pure (.inl state)
  else do
    if ← memberStart state.1 b then
      let filling ← recordMember fields state.2
      pure (.inl (false, filling))
    else
      pure (.inr state.2)

def membersFrom (fields : List (RecordField σ)) (state : Bool × Filling σ) : Reader (Filling σ) :=
  loop (fun _ => .endInObject) (memberRound fields) state

private theorem membersFrom_close (first : Bool) (filling : Filling σ) (rest : Bytes) :
    Reads (membersFrom fields (first, filling)) (0x7D :: rest) filling rest := by
  apply Reads.loop_answer
  exact Reads.bind (Reads.pure false rest) (Reads.pure _ rest)

theorem memberStart_quote (rest : Bytes) : Reads (memberStart true 0x22) rest true rest :=
  Reads.pure true rest

theorem outcome_memberStart_comma {s t : Bytes} (hdrop : s.dropWhile isBlankByte = 0x22 :: t) :
    outcome (memberStart false 0x2C) s = .ok (true, t) := by
  refine (outcome_bind_of_ok (outcome_token s) _).trans ?_
  rw [hdrop]
  rfl

theorem memberStart_comma (rest : Bytes) :
    Reads (memberStart false 0x2C) (0x22 :: rest) true rest :=
  reads_iff_outcome.mpr (outcome_memberStart_comma (List.dropWhile_cons_of_neg (by decide)))

theorem outcome_membersFrom_of_dropWhile {b : UInt8} {s t : Bytes}
    (hdrop : s.dropWhile isBlankByte = b :: t) (state : Bool × Filling σ) :
    outcome (membersFrom fields state) s =
      outcome (do
        if ← memberStart state.1 b then
          let filling ← recordMember fields state.2
          membersFrom fields (false, filling)
        else
          pure state.2) t := by
  have hblank (state : Bool × Filling σ) (b : UInt8) (hb : isBlankByte b = true) :
      memberRound fields state b = pure (.inl state) := if_pos hb
  have hround : memberRound fields state b = (do
      if ← memberStart state.1 b then
        let filling ← recordMember fields state.2
        pure (.inl (false, filling))
      else
        pure (.inr state.2)) :=
    if_neg (Bool.eq_false_iff.mp (isBlankByte_of_dropWhile hdrop))
  rw [membersFrom, outcome_loop_dropWhile hblank, hdrop, outcome_loop_cons, hround, outcome_bind,
    outcome_bind, bind_assoc]
  refine bind_congr fun start => ?_
  obtain ⟨more, mid⟩ := start
  cases more with
  | false => rfl
  | true =>
    simp only [if_true]
    rw [outcome_bind, outcome_bind, bind_assoc]
    rfl

theorem numberEnds_members (members : List (String × List Char)) (rest : Bytes) :
    NumberEnds (encode (members.flatMap fun member => ',' :: printMember member.1 member.2) ++
      0x7D :: rest) := by
  cases members with
  | nil => exact numberEnds_brace rest
  | cons member members =>
    rw [List.flatMap_cons, List.cons_append, encode_cons_of_lt (by decide)]
    exact numberEnds_comma _

private theorem membersFrom_others {filling final : Filling σ} {members : List (String × List Char)}
    (h : ReadsMembers fields filling members final) (rest : Bytes) :
    Reads (membersFrom fields (false, filling))
      (encode (members.flatMap fun member => ',' :: printMember member.1 member.2) ++
        0x7D :: rest) final rest := by
  induction h with
  | nil filling => exact membersFrom_close false filling rest
  | cons hfield hnew hread hmembers ih =>
    rw [List.flatMap_cons, List.cons_append, encode_cons_of_lt (by decide), encode_append,
      List.cons_append, List.append_assoc, encode_printMember]
    apply Reads.loop_round _ ih
    apply Reads.bind (memberStart_comma _)
    apply Reads.bind (recordMember_printed hfield hnew hread (numberEnds_members _ rest))
    exact Reads.pure _ _

private theorem recordMembers_printed {init : σ} {final : Filling σ}
    {members : List (String × List Char)} (h : ReadsMembers fields ⟨init, []⟩ members final)
    (rest : Bytes) :
    Reads (recordMembers fields init)
      (encode ([','].intercalate (members.map fun member => printMember member.1 member.2)) ++
        0x7D :: rest) final rest := by
  cases h with
  | nil => exact membersFrom_close true ⟨init, []⟩ rest
  | cons hfield hnew hread hmembers =>
    rw [List.map_cons, intercalate_comma, List.flatMap_map, encode_append, List.append_assoc,
      encode_printMember]
    apply Reads.loop_round _ (membersFrom_others hmembers rest)
    apply Reads.bind (memberStart_quote _)
    apply Reads.bind (recordMember_printed hfield hnew hread (numberEnds_members _ rest))
    exact Reads.pure _ _

/-- A record is read back from a printed object when its fields read the members and the record is
complete after them. -/
theorem record_printed {expected : String} {init a : σ} {final : Filling σ}
    {complete : Filling σ → Bool → Except Fault σ} {members : List (String × List Char)}
    (h : ReadsMembers fields ⟨init, []⟩ members final) (hcomplete : complete final false = .ok a) :
    ReadsPrinted (record expected fields init complete) (printObject members) a := by
  intro rest _
  rw [encode_printObject]
  apply Reads.bind (Reads.token (by decide) _)
  apply Reads.bind (Reads.drop _ _)
  apply Reads.bind (recordMembers_printed h rest)
  rw [hcomplete]
  exact Reads.ofExcept_ok a rest

end Objects

section Lists

variable {α : Type} {item : Reader α} {print : α → List Char}

private def itemRound (item : Reader α) (reversed : List α) (b : UInt8) :
    Reader (List α ⊕ List α) :=
  let c := toChar b
  if isBlankByte b then pure (.inl reversed)
  else if c = ']' then pure (.inr reversed.reverse)
  else if c = ',' then do
    itemAfterComma
    let a ← item
    pure (.inl (a :: reversed))
  else fail .expectedCommaOrBracket

private def itemsFrom (item : Reader α) (reversed : List α) : Reader (List α) :=
  loop (fun _ => .endInList) (itemRound item) reversed

def StartsItem (printed : List Char) : Prop :=
  ∃ b s, encode printed = b :: s ∧ isBlankByte b = false ∧ toChar b ≠ ']'

private theorem itemAfterComma_printed {printed : List Char} (h : StartsItem printed)
    (rest : Bytes) : Reads itemAfterComma (encode printed ++ rest) () (encode printed ++ rest) := by
  obtain ⟨b, s, hprinted, hblank, hclose⟩ := h
  rw [hprinted]
  apply Reads.bind (Reads.token hblank (s ++ rest))
  split
  case h_1 h => cases h
  case h_2 h => exact absurd (Option.some.inj h) hclose
  case h_3 => exact Reads.pure () _

private theorem itemFollows_printed {printed : List Char} (h : StartsItem printed)
    (rest : Bytes) :
    Reads (itemFollows true) (encode printed ++ rest) true (encode printed ++ rest) := by
  obtain ⟨b, s, hprinted, hblank, hclose⟩ := h
  rw [hprinted]
  apply Reads.bind (Reads.token hblank (s ++ rest))
  split
  case h_1 h => cases h
  case h_2 h => exact absurd (Option.some.inj h) hclose
  case h_3 => exact Reads.pure true _

private theorem numberEnds_items (print : α → List Char) (values : List α) (rest : Bytes) :
    NumberEnds (encode (values.flatMap fun a => ',' :: print a) ++ 0x5D :: rest) := by
  cases values with
  | nil => exact numberEnds_bracket rest
  | cons a values =>
    rw [List.flatMap_cons, List.cons_append, encode_cons_of_lt (by decide)]
    exact numberEnds_comma _

private theorem itemsFrom_others (hitem : ∀ a, ReadsPrinted item (print a) a)
    (hstart : ∀ a, StartsItem (print a)) (values reversed : List α) (rest : Bytes) :
    Reads (itemsFrom item reversed)
      (encode (values.flatMap fun a => ',' :: print a) ++ 0x5D :: rest)
      (reversed.reverse ++ values) rest := by
  -- the loop holds the items that have been read in reverse
  induction values generalizing reversed with
  | nil =>
    rw [List.append_nil]
    apply Reads.loop_answer
    exact Reads.pure _ rest
  | cons a values ih =>
    have hmore := ih (a :: reversed)
    rw [List.reverse_cons, List.append_assoc, List.singleton_append] at hmore
    rw [List.flatMap_cons, List.cons_append, encode_cons_of_lt (by decide), encode_append,
      List.cons_append, List.append_assoc]
    apply Reads.loop_round _ hmore
    apply Reads.bind (itemAfterComma_printed (hstart a) _)
    apply Reads.bind (hitem a _ (numberEnds_items print values rest))
    exact Reads.pure _ _

theorem items_printed (hitem : ∀ a, ReadsPrinted item (print a) a)
    (hstart : ∀ a, StartsItem (print a)) (values : List α) (rest : Bytes) :
    Reads (items item) (encode ([','].intercalate (values.map print)) ++ 0x5D :: rest) values
      rest := by
  cases values with
  | nil =>
    have hnone : Reads (itemFollows true) (0x5D :: rest) false (0x5D :: rest) :=
      Reads.bind (Reads.token (by decide) rest) (Reads.pure false _)
    apply Reads.bind hnone
    apply Reads.bind (Reads.drop 0x5D rest)
    exact Reads.pure [] rest
  | cons a values =>
    rw [List.map_cons, intercalate_comma, List.flatMap_map, encode_append, List.append_assoc]
    apply Reads.bind (itemFollows_printed (hstart a) _)
    apply Reads.bind (hitem a _ (numberEnds_items print values rest))
    exact itemsFrom_others hitem hstart values [a] rest

end Lists

end FleetTelemetry.Json
