import FleetTelemetry.Proofs.Snapshot.Payload

/-!
# Strict against lenient decoding

A payload that is accepted strictly is an object whose keys are those of a snapshot. Strictly its
members become a map, in which the last member of a key counts; leniently they are filled in as
they stand, and a key that comes back is refused. So both modes agree on the payload when no key
comes back, and the lenient mode refuses it otherwise.
-/

namespace FleetTelemetry.Snapshot

open Json Reader

/-- Fills in the members of an object in the order in which they stand. A member with an unknown
key is skipped, and a known key may not come back. -/
def fillInOrder : Filling Snapshot → List (String × Value) → Except Fault (Filling Snapshot)
  | filling, [] => .ok filling
  | filling, (key, v) :: pairs =>
    match Field.ofName? key with
    | none => fillInOrder filling pairs
    | some field =>
      if key ∈ filling.seen then .error (.duplicateField key)
      else
        match filling.record.setValue field v with
        | .error fault => .error fault
        | .ok s => fillInOrder ⟨s, key :: filling.seen⟩ pairs

theorem Field.name_of_ofName? {key : String} {field : Field} (h : ofName? key = some field) :
    field.name = key := by
  simpa using List.find?_some h

section Lenient

variable {depth : Nat} {t rest : Bytes} {pairs : List (String × Value)}

private theorem fill_of_value {v : Value} (h : outcome (value depth) t = .ok (v, rest))
    (field : Field)
    (s : Snapshot) :
    outcome (field.reader.fill s) t = (s.setValue field v).map fun s' => (s', rest) := by
  have htoken := boolean_of_value h tokenKind
  have hnumber := natural_of_value h numberKind
  cases field
  case token =>
    refine (outcome_bind _ _ t).trans ?_
    rw [htoken]
    simp only [setValue]
    cases v.boolean? tokenKind <;> rfl
  all_goals
    refine (outcome_bind _ _ t).trans ?_
    rw [hnumber]
    simp only [setValue]
    cases v.natural? numberKind <;> rfl

private theorem recordMember_of_value {s₁ s₂ s₃ s₄ : Bytes} {key : String} {v : Value}
    {field : Field}
    (hfield : Field.ofName? key = some field) (hkey : outcome string s₁ = .ok (key, s₂))
    (hcolon : outcome colon s₂ = .ok ((), s₃)) (hvalue : outcome (value depth) s₃ = .ok (v, s₄))
    (filling : Filling Snapshot) :
    outcome (recordMember (Field.all.map Field.reader) filling) s₁ =
      if key ∈ filling.seen then .error (.duplicateField key)
      else (filling.record.setValue field v).map fun s => (⟨s, key :: filling.seen⟩, s₄) := by
  have hfound := find?_reader field
  rw [Field.name_of_ofName? hfield] at hfound
  rw [recordMember, outcome_bind_of_ok hkey]
  simp only [hfound]
  by_cases hseen : key ∈ filling.seen
  · simp only [List.contains_iff_mem, hseen, if_true]
    rfl
  · simp only [List.contains_iff_mem, hseen, if_false]
    refine (outcome_bind_of_ok hcolon _).trans ?_
    rw [outcome_bind, fill_of_value hvalue]
    cases filling.record.setValue field v <;> rfl

private theorem outcome_membersFrom {first : Bool} (h : ObjectRest (value depth) first t pairs rest)
    (hknown : ∀ pair ∈ pairs, (Field.ofName? pair.1).isSome = true) (filling : Filling Snapshot) :
    outcome (membersFrom (Field.all.map Field.reader) (first, filling)) t =
      (fillInOrder filling pairs).map fun final => (final, rest) := by
  induction h generalizing filling with
  | blank hblank _ ih =>
    rw [membersFrom, outcome_loop_cons, memberRound, if_pos hblank]
    exact ih hknown filling
  | close hblank hstart =>
    rw [membersFrom, outcome_loop_cons, memberRound, hblank, if_neg (by decide),
      outcome_bind_of_ok hstart]
    rfl
  | @member first b s s₁ s₂ s₃ s₄ rest key v pairs hblank hstart hkey hcolon hvalue _ ih =>
    obtain ⟨field, hfield⟩ := Option.isSome_iff_exists.mp (hknown _ List.mem_cons_self)
    have hmore := ih fun pair hpair => hknown pair (List.mem_cons_of_mem _ hpair)
    rw [membersFrom, outcome_loop_cons, memberRound, hblank, if_neg (by decide),
      outcome_bind_of_ok hstart, if_pos rfl, outcome_bind,
      recordMember_of_value hfield hkey hcolon hvalue]
    simp only [fillInOrder, hfield]
    by_cases hseen : key ∈ filling.seen
    · simp only [hseen, if_true]
      rfl
    · simp only [hseen, if_false]
      cases filling.record.setValue field v with
      | error fault => rfl
      | ok s' => exact hmore ⟨s', key :: filling.seen⟩

private theorem decodeLenient_of_parse {body : Bytes} (h : Value.parse body = .ok (.object pairs))
    (hknown : ∀ pair ∈ pairs, (Field.ofName? pair.1).isSome = true) :
    decodeLenient body = (fillInOrder ⟨{}, []⟩ pairs).map (·.record) := by
  obtain ⟨rest, hvalue, hblank⟩ := run_eq_ok_iff.mp h
  obtain ⟨hbrace, hpairs⟩ := value_eq_object_iff.mp hvalue
  have hfill := outcome_membersFrom (objectRest_of_members hpairs) hknown ⟨{}, []⟩
  have hread : outcome reader body =
      (fillInOrder ⟨{}, []⟩ pairs).map fun final => (final.record, rest) := by
    rw [reader, record, outcome_bind_of_ok (outcome_token body), hbrace]
    refine (outcome_bind_of_ok (outcome_drop _) _).trans ?_
    refine (outcome_bind _ _ _).trans ?_
    refine (congrArg (· >>= _) hfill).trans ?_
    cases fillInOrder ⟨{}, []⟩ pairs <;> rfl
  cases hresult : fillInOrder ⟨{}, []⟩ pairs with
  | ok final =>
    rw [hresult] at hread
    exact run_eq_ok_iff.mpr ⟨rest, hread, hblank⟩
  | error fault =>
    rw [hresult] at hread
    exact run_eq_error hread

end Lenient

section Filling

variable {source : Snapshot} {filling final : Filling Snapshot} {pairs : List (String × Value)}

private theorem nodup_of_fillInOrder (hknown : ∀ pair ∈ pairs, (Field.ofName? pair.1).isSome = true)
    (h : fillInOrder filling pairs = .ok final) :
    (pairs.map Prod.fst).Nodup ∧ ∀ key ∈ pairs.map Prod.fst, key ∉ filling.seen := by
  induction pairs generalizing filling with
  | nil => simp
  | cons pair pairs ih =>
    obtain ⟨key, v⟩ := pair
    obtain ⟨field, hfield⟩ := Option.isSome_iff_exists.mp (hknown _ List.mem_cons_self)
    simp only [fillInOrder, hfield] at h
    split at h
    case isTrue => cases h
    case isFalse hseen =>
      split at h
      case h_1 => cases h
      case h_2 s _ =>
        obtain ⟨hnodup, hnew⟩ := ih (fun pair hpair => hknown pair (List.mem_cons_of_mem _ hpair)) h
        rw [List.map_cons, List.nodup_cons]
        refine ⟨⟨fun hagain => hnew key hagain List.mem_cons_self, hnodup⟩, ?_⟩
        intro other hother
        rcases List.mem_cons.mp hother with rfl | hother
        · exact hseen
        · exact fun hmem => hnew other hother (List.mem_cons_of_mem key hmem)

private theorem fillInOrder_fields
    (hpairs : ∀ pair ∈ pairs, ∃ field : Field, pair = (field.name, source.fieldValue field))
    (hkeys : (pairs.map Prod.fst).Nodup) (hnew : ∀ key ∈ pairs.map Prod.fst, key ∉ filling.seen)
    (hall : ∀ field : Field, field.name ∈ pairs.map Prod.fst ∨
      filling.record.get field = source.get field) :
    ∃ final, fillInOrder filling pairs = .ok final ∧ final.record = source := by
  induction pairs generalizing filling with
  | nil => exact ⟨filling, rfl, ext_get fun field => by simpa using hall field⟩
  | cons pair pairs ih =>
    obtain ⟨first, rfl⟩ := hpairs pair List.mem_cons_self
    rw [List.map_cons, List.nodup_cons] at hkeys
    have hfirst : first.name ∉ filling.seen := hnew _ List.mem_cons_self
    have hlater : ∀ key ∈ pairs.map Prod.fst, key ∉ first.name :: filling.seen := by
      intro key hkey
      rw [List.mem_cons, not_or]
      exact ⟨fun heq => hkeys.1 (heq ▸ hkey), hnew key (List.mem_cons_of_mem _ hkey)⟩
    have hrest : ∀ field : Field, field.name ∈ pairs.map Prod.fst ∨
        (source.copyField filling.record first).get field = source.get field := by
      apply get_copyField_of_or
      intro field
      refine (hall field).imp_left fun hmem => (List.mem_cons.mp hmem).imp_left fun hname => ?_
      exact (Field.name_injective hname).symm
    obtain ⟨final, hfill, hfinal⟩ :=
      @ih ⟨source.copyField filling.record first, first.name :: filling.seen⟩
        (fun pair hpair => hpairs pair (List.mem_cons_of_mem _ hpair)) hkeys.2 hlater hrest
    refine ⟨final, ?_, hfinal⟩
    simp only [fillInOrder, first.ofName?_name, hfirst, if_false, setValue_fieldValue, hfill]

private theorem fillInOrder_seen {fields : List Field} {field : Field} (hfields : fields.Nodup)
    (hmem : field ∈ fields) (hseen : ∀ other ∈ fields, other.name ∈ filling.seen ↔ other = field) :
    fillInOrder filling (fields.map fun other => (other.name, source.fieldValue other)) =
      .error (.duplicateField field.name) := by
  induction fields generalizing filling with
  | nil => cases hmem
  | cons first rest ih =>
    rw [List.nodup_cons] at hfields
    by_cases hfirst : first = field
    · obtain rfl := hfirst
      have hbefore := (hseen first List.mem_cons_self).mpr rfl
      simp only [List.map_cons, fillInOrder, first.ofName?_name, hbefore, if_true]
    · have hnew : first.name ∉ filling.seen := fun h =>
        hfirst ((hseen first List.mem_cons_self).mp h)
      simp only [List.map_cons, fillInOrder, first.ofName?_name, hnew, if_false,
        setValue_fieldValue]
      apply ih hfields.2 ((List.mem_cons.mp hmem).resolve_left (Ne.symm hfirst))
      intro other hother
      rw [← hseen other (List.mem_cons_of_mem first hother), List.mem_cons]
      refine or_iff_right fun hname => ?_
      exact hfields.1 (Field.name_injective hname ▸ hother)

end Filling

section Strict

variable {s s' : Snapshot}

private theorem fieldValue_congr {field : Field} (h : s.get field = s'.get field) :
    s.fieldValue field = s'.fieldValue field := by
  cases field
  case token => exact congrArg Value.boolean (token_eq_of_get h)
  all_goals exact congrArg (fun n => Value.number (.natural n)) h

private theorem fieldValue_of_setValue {field : Field} {v : Value}
    (h : s.setValue field v = .ok s') :
    v = s'.fieldValue field ∧ s' = s'.copyField s field := by
  cases field
  case token =>
    simp only [setValue] at h
    cases hb : v.boolean? tokenKind with
    | error fault => simp [hb, Except.map] at h
    | ok b =>
      rw [hb] at h
      cases h
      exact ⟨boolean?_eq_ok hb, rfl⟩
  all_goals
    simp only [setValue] at h
    cases hn : v.natural? numberKind with
    | error fault => simp [hn, Except.map] at h
    | ok n =>
      rw [hn] at h
      cases h
      exact ⟨natural?_eq_ok hn, rfl⟩

private theorem fieldValue_of_ofEntries {entries : List (String × Value)}
    (hkeys : (entries.map Prod.fst).Nodup)
    (hknown : ∀ entry ∈ entries, (Field.ofName? entry.1).isSome = true)
    (h : ofEntries s entries = .ok s') :
    (∀ entry ∈ entries, ∃ field : Field, entry = (field.name, s'.fieldValue field)) ∧
      ∀ field : Field, field.name ∉ entries.map Prod.fst → s'.get field = s.get field := by
  induction entries generalizing s with
  | nil =>
    cases h
    simp
  | cons entry entries ih =>
    obtain ⟨key, v⟩ := entry
    obtain ⟨field, hfield⟩ := Option.isSome_iff_exists.mp (hknown _ List.mem_cons_self)
    obtain rfl := Field.name_of_ofName? hfield
    rw [List.map_cons, List.nodup_cons] at hkeys
    simp only [ofEntries, hfield] at h
    split at h
    case h_1 => cases h
    case h_2 next hset =>
      obtain ⟨hvalue, hothers⟩ := fieldValue_of_setValue hset
      obtain ⟨hentries, hkept⟩ :=
        ih hkeys.2 (fun entry hentry => hknown entry (List.mem_cons_of_mem _ hentry)) h
      constructor
      · intro entry hentry
        rcases List.mem_cons.mp hentry with rfl | hentry
        · exact ⟨field, by rw [hvalue, fieldValue_congr (hkept field hkeys.1)]⟩
        · exact hentries entry hentry
      · intro other hother
        rw [List.map_cons, List.mem_cons, not_or] at hother
        have hne : field ≠ other := fun heq => hother.1 (congrArg Field.name heq).symm
        rw [hkept other hother.2, hothers, get_copyField, if_neg hne]

theorem ofMembers_eq_ok_iff {map : Members} :
    ofMembers map = .ok s ↔
      ∀ (key : String) (v : Value), map[key]? = some v ↔
        ∃ field : Field, (key, v) = (field.name, s.fieldValue field) := by
  refine ⟨fun h => ?_, ofMembers_fields⟩
  unfold ofMembers at h
  split at h
  case h_1 => cases h
  case h_2 hunknown =>
    split at h
    case h_1 => cases h
    case h_2 hmissing =>
      split at h
      case h_2 => cases h
      case h_1 hfilled =>
        cases h
        have hknown : ∀ entry ∈ map.toList, (Field.ofName? entry.1).isSome = true := by
          intro entry hentry
          have hkey : entry.1 ∈ map.keys := by
            rw [← Std.ExtTreeMap.map_fst_toList_eq_keys]
            exact List.mem_map_of_mem hentry
          rw [Option.isSome_iff_ne_none]
          simpa using List.find?_eq_none.mp hunknown entry.1 hkey
        have hnodup : (map.toList.map Prod.fst).Nodup := by
          rw [Std.ExtTreeMap.map_fst_toList_eq_keys]
          exact Std.ExtTreeMap.nodup_keys
        have hfields := (fieldValue_of_ofEntries hnodup hknown hfilled).1
        intro key v
        constructor
        · intro hget
          exact hfields _ (Std.ExtTreeMap.mem_toList_iff_getElem?_eq_some.mpr hget)
        · rintro ⟨field, heq⟩
          obtain ⟨rfl, rfl⟩ := Prod.mk.inj heq
          have hcontains := List.find?_eq_none.mp hmissing field field.mem_all
          have hmem : field.name ∈ map := by simpa using hcontains
          have hget := Std.ExtTreeMap.getElem?_eq_some_getElem hmem
          obtain ⟨other, heq⟩ :=
            hfields _ (Std.ExtTreeMap.mem_toList_iff_getElem?_eq_some.mpr hget)
          obtain ⟨hname, hvalue⟩ := Prod.mk.inj heq
          rw [hget, hvalue, Field.name_injective hname]

private theorem mem_keys_of_ofMembers {pairs : List (String × Value)} {key : String}
    (h : ofMembers (Members.ofList pairs) = .ok s) :
    key ∈ pairs.map Prod.fst ↔ ∃ field : Field, key = field.name := by
  have hfields := ofMembers_eq_ok_iff.mp h
  rw [← Members.mem_ofList, ← Std.ExtTreeMap.isSome_getElem?_iff_mem, Option.isSome_iff_exists]
  constructor
  · rintro ⟨v, hv⟩
    obtain ⟨field, heq⟩ := (hfields key v).mp hv
    exact ⟨field, congrArg Prod.fst heq⟩
  · rintro ⟨field, rfl⟩
    exact ⟨_, (hfields _ _).mpr ⟨field, rfl⟩⟩

end Strict

/-- A payload that is accepted strictly is an object. Leniently it is accepted as the same snapshot
when no key of the object comes back, and refused otherwise. -/
theorem decode_lenient_of_decode_strict {body : Bytes} {s : Snapshot}
    (h : decode .strict body = .ok s) :
    ∃ pairs, Value.parse body = .ok (.object pairs) ∧
      ((pairs.map Prod.fst).Nodup → decode .lenient body = .ok s) ∧
      (¬ (pairs.map Prod.fst).Nodup → ∃ fault, decode .lenient body = .error (.json fault)) := by
  rw [decode, decodeStrict] at h
  split at h
  case h_2 => cases h
  case h_1 map hmap =>
    obtain ⟨pairs, rfl, hparse⟩ := run_mapReader_eq_ok_iff.mp hmap
    have hkeys : ∀ key, key ∈ pairs.map Prod.fst ↔ ∃ field : Field, key = field.name := fun key =>
      mem_keys_of_ofMembers h
    have hknown : ∀ pair ∈ pairs, (Field.ofName? pair.1).isSome = true := by
      intro pair hpair
      obtain ⟨field, hfield⟩ := (hkeys pair.1).mp (List.mem_map_of_mem hpair)
      rw [hfield, field.ofName?_name]
      rfl
    have hlenient := decodeLenient_of_parse hparse hknown
    refine ⟨pairs, hparse, fun hnodup => ?_, fun hrepeated => ?_⟩
    · have hpairs : ∀ pair ∈ pairs, ∃ field : Field, pair = (field.name, s.fieldValue field) := by
        rintro ⟨key, v⟩ hpair
        rw [← ofMembers_eq_ok_iff.mp h, Members.getElem?_ofList_eq_some_iff hnodup]
        exact hpair
      have hall (field : Field) : field.name ∈ pairs.map Prod.fst := (hkeys _).mpr ⟨field, rfl⟩
      obtain ⟨final, hfill, rfl⟩ :=
        @fillInOrder_fields s ⟨{}, []⟩ pairs hpairs hnodup (by simp) fun field => .inl (hall field)
      rw [decode, hlenient, hfill]
      rfl
    · cases hfill : fillInOrder ⟨{}, []⟩ pairs with
      | ok final => exact absurd (nodup_of_fillInOrder hknown hfill).1 hrepeated
      | error fault =>
        rw [hfill] at hlenient
        exact ⟨fault, by rw [decode, hlenient]; rfl⟩

def busySnapshot : Snapshot where
  generatedTransactions := 1200
  confirmedTransactions := 1100
  chainDepth := 31
  token := true
  proposeBlock := 34
  signBlock := 33
  submitBlock := 32
  proposeLatency := 910
  signLatency := 620
  submitLatency := 480
  gas := 18446744073709551615
  proposeNum := 9
  signNum := 7
  submitNum := 5

theorem decode_lenient_of_decode_strict_busy :
    decode .strict busySnapshot.payload.toUTF8.toList = .ok busySnapshot ∧
      decode .lenient busySnapshot.payload.toUTF8.toList = .ok busySnapshot := by
  have hstrict := decode_payload .strict busySnapshot
  obtain ⟨pairs, hparse, hsame, -⟩ := decode_lenient_of_decode_strict hstrict
  have hprinted := parse_printFields (Field.all.map (·, busySnapshot))
  rw [printFields_all, hparse] at hprinted
  cases hprinted
  refine ⟨hstrict, hsame ?_⟩
  rw [List.map_map, List.map_map]
  exact Field.nodup_names

/-! ## A key that comes back -/

section Repeated

variable (field : Field) (old s : Snapshot)

/-- The payload of a snapshot with one field in front of it that comes back in it. -/
def repeatingPayload : String :=
  printFields ((field, old) :: Field.all.map (·, s))

private theorem parse_repeatingPayload :
    Value.parse (repeatingPayload field old s).toUTF8.toList =
      .ok (.object ((field.name, old.fieldValue field) ::
        Field.all.map fun other => (other.name, s.fieldValue other))) := by
  rw [repeatingPayload, parse_printFields, List.map_cons, List.map_map]
  rfl

private theorem decode_strict_repeatingPayload :
    decode .strict (repeatingPayload field old s).toUTF8.toList = .ok s := by
  have hread := run_mapReader_eq_ok_iff.mpr ⟨_, rfl, parse_repeatingPayload field old s⟩
  have hagain : field.name ∈
      (Field.all.map fun other => (other.name, s.fieldValue other)).map Prod.fst := by
    rw [List.map_map]
    exact List.mem_map_of_mem field.mem_all
  rw [decode, decodeStrict, hread, Members.ofList_cons_of_mem hagain]
  exact ofMembers_fields s.getElem?_ofList_fields

private theorem decode_lenient_repeatingPayload :
    decode .lenient (repeatingPayload field old s).toUTF8.toList =
      .error (.json (.duplicateField field.name)) := by
  have hknown : ∀ pair ∈ (field.name, old.fieldValue field) ::
      Field.all.map fun other => (other.name, s.fieldValue other),
      (Field.ofName? pair.1).isSome = true := by
    intro pair hpair
    rcases List.mem_cons.mp hpair with rfl | hpair
    · simp [field.ofName?_name]
    · obtain ⟨other, -, rfl⟩ := List.mem_map.mp hpair
      simp [other.ofName?_name]
  have hfill : fillInOrder ⟨old.copyField {} field, [field.name]⟩
      (Field.all.map fun other => (other.name, s.fieldValue other)) =
      .error (.duplicateField field.name) := by
    apply fillInOrder_seen (by decide) field.mem_all
    intro other _
    rw [List.mem_singleton]
    exact ⟨Field.name_injective, congrArg Field.name⟩
  have hread := decodeLenient_of_parse (parse_repeatingPayload field old s) hknown
  simp only [fillInOrder, field.ofName?_name, List.not_mem_nil, if_false, setValue_fieldValue,
    hfill] at hread
  rw [decode, hread]
  rfl

end Repeated

/-- The payload of an idle node, with the gas given twice. -/
def repeatedGas : String :=
  "\x7b\"gas\":1,\"generated_transactions\":0,\"confirmed_transactions\":0,\"chain_depth\":0," ++
  "\"token\":false,\"propose_block\":0,\"sign_block\":0,\"submit_block\":0," ++
  "\"propose_latency\":0,\"sign_latency\":0,\"submit_latency\":0,\"gas\":2," ++
  "\"propose_num\":0,\"sign_num\":0,\"submit_num\":0\x7d"

private theorem repeatedGas_eq :
    repeatedGas = repeatingPayload .gas { gas := 1 } { gas := 2 } := by
  decide +kernel

/-- The gas given twice is accepted strictly and refused leniently. -/
theorem repeated_gas_passes_strict_only :
    decode .strict repeatedGas.toUTF8.toList = .ok { gas := 2 } ∧
      decode .lenient repeatedGas.toUTF8.toList = .error (.json (.duplicateField "gas")) := by
  rw [repeatedGas_eq]
  exact ⟨decode_strict_repeatingPayload .gas _ _, decode_lenient_repeatingPayload .gas _ _⟩

end FleetTelemetry.Snapshot
