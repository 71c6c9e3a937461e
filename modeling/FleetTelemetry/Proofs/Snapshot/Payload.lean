import FleetTelemetry.Proofs.Json.Kinds
import FleetTelemetry.Proofs.Json.Objects
import FleetTelemetry.Snapshot.Payload

/-!
# Printed snapshots

A snapshot is read back from its payload in both modes. Leniently, its fields are filled in one
after another as they stand in the payload; strictly, they come from a map in the order of their
names. Either way every field is copied, so the order does not matter.
-/

namespace FleetTelemetry.Snapshot

open Json Reader Text

theorem Field.ofName?_name (field : Field) : ofName? field.name = some field := by
  cases field <;> decide

theorem Field.name_injective {field field' : Field} (h : field.name = field'.name) :
    field = field' := by
  have hfield := ofName?_name field
  rw [h, ofName?_name field'] at hfield
  exact (Option.some.inj hfield).symm

theorem Field.mem_all (field : Field) : field ∈ all := by
  cases field <;> decide

theorem token_eq_of_get {s t : Snapshot} (h : s.get .token = t.get .token) : s.token = t.token := by
  simp only [get] at h
  cases hs : s.token <;> cases ht : t.token <;> simp [hs, ht] at h ⊢

theorem ext_get {s t : Snapshot} (h : ∀ field, s.get field = t.get field) : s = t := by
  have htoken := token_eq_of_get (h .token)
  cases s
  cases t
  simp only [mk.injEq]
  exact ⟨h .generatedTransactions, h .confirmedTransactions, h .chainDepth, htoken,
    h .proposeBlock, h .signBlock, h .submitBlock, h .proposeLatency, h .signLatency,
    h .submitLatency, h .gas, h .proposeNum, h .signNum, h .submitNum⟩

def copyField (source s : Snapshot) (field : Field) : Snapshot :=
  match field with
  | .token => { s with token := source.token }
  | _ => s.setNumber (source.get field) field

theorem get_copyField (source s : Snapshot) (field other : Field) :
    (source.copyField s field).get other =
      if field = other then source.get other else s.get other := by
  cases field <;> cases other <;> rfl

theorem get_copyField_of_or {source s : Snapshot} {first : Field} {others : Field → Prop}
    (h : ∀ field, (first = field ∨ others field) ∨ s.get field = source.get field)
    (field : Field) : others field ∨ (source.copyField s first).get field = source.get field := by
  rw [get_copyField]
  by_cases hfirst : first = field
  · exact .inr (if_pos hfirst)
  · rw [if_neg hfirst]
    exact (h field).imp_left fun hmem => hmem.resolve_left hfirst

private theorem foldl_copyField {source s : Snapshot} {fields : List Field}
    (h : ∀ field, field ∈ fields ∨ s.get field = source.get field) :
    fields.foldl source.copyField s = source := by
  induction fields generalizing s with
  | nil =>
    apply ext_get
    intro field
    simpa using h field
  | cons first rest ih =>
    apply ih
    apply get_copyField_of_or
    intro field
    exact (h field).imp_left fun hmem => (List.mem_cons.mp hmem).imp_left Eq.symm

private theorem foldl_copyField_all (source s : Snapshot) :
    Field.all.foldl source.copyField s = source :=
  foldl_copyField fun field => .inl field.mem_all

/-! ## Lenient decoding -/

theorem fill_printed (source s : Snapshot) (field : Field) :
    ReadsPrinted (field.reader.fill s) (source.printField field) (source.copyField s field) := by
  cases field
  case token => exact (boolean_printed tokenKind source.token).map _
  all_goals exact (natural_printed numberKind _).map _

theorem find?_reader (field : Field) :
    (Field.all.map Field.reader).find? (·.name = field.name) = some field.reader := by
  have hfield := field.ofName?_name
  rw [Field.ofName?] at hfield
  rw [List.find?_map]
  exact congrArg (Option.map Field.reader) hfield

private theorem readsMembers_fields (source : Snapshot) {fields : List Field}
    (hfields : fields.Nodup) (filling : Filling Snapshot)
    (hnew : ∀ field ∈ fields, field.name ∉ filling.seen) :
    ∃ final, ReadsMembers (Field.all.map Field.reader) filling
        (fields.map fun field => (field.name, source.printField field)) final ∧
      final.record = fields.foldl source.copyField filling.record := by
  induction fields generalizing filling with
  | nil => exact ⟨filling, .nil filling, rfl⟩
  | cons field rest ih =>
    obtain ⟨hother, hrest⟩ := List.nodup_cons.mp hfields
    have hlater : ∀ other ∈ rest, other.name ∉ field.name :: filling.seen := by
      intro other hmem
      rw [List.mem_cons, not_or]
      refine ⟨fun hname => ?_, hnew other (List.mem_cons_of_mem field hmem)⟩
      exact hother (Field.name_injective hname ▸ hmem)
    obtain ⟨final, hreads, hfinal⟩ :=
      ih hrest ⟨source.copyField filling.record field, field.name :: filling.seen⟩ hlater
    refine ⟨final, .cons (find?_reader field) (hnew field List.mem_cons_self) ?_ hreads, hfinal⟩
    exact fill_printed source filling.record field

private def printedMembers (s : Snapshot) : List (String × List Char) :=
  Field.all.map fun field => (field.name, s.printField field)

private theorem reader_printed (s : Snapshot) :
    ReadsPrinted reader (printObject s.printedMembers) s := by
  obtain ⟨final, hreads, hfinal⟩ :=
    @readsMembers_fields s Field.all (by decide) ⟨{}, []⟩ (by simp)
  apply record_printed hreads
  rw [hfinal, foldl_copyField_all]

theorem decodeLenient_payload (s : Snapshot) : decodeLenient s.payload.toUTF8.toList = .ok s :=
  s.reader_printed.run_eq_ok

/-! ## Strict decoding -/

def fieldValue (s : Snapshot) (field : Field) : Value :=
  match field with
  | .token => .boolean s.token
  | _ => .number (.natural (s.get field))

theorem value_printField (depth : Nat) (s : Snapshot) (field : Field) :
    ReadsPrinted (value depth) (s.printField field) (s.fieldValue field) := by
  cases field
  case token => exact value_boolean depth s.token
  all_goals exact value_natural depth _

theorem setValue_fieldValue (source s : Snapshot) (field : Field) :
    s.setValue field (source.fieldValue field) = .ok (source.copyField s field) := by
  cases field <;> rfl

private theorem ofEntries_fields {source s : Snapshot} {entries : List (String × Value)}
    (hentries : ∀ entry ∈ entries, ∃ field : Field, entry = (field.name, source.fieldValue field))
    (hall : ∀ field : Field, (field.name, source.fieldValue field) ∈ entries ∨
      s.get field = source.get field) : ofEntries s entries = .ok source := by
  induction entries generalizing s with
  | nil =>
    have hsame : s = source := ext_get fun field => by simpa using hall field
    rw [hsame]
    rfl
  | cons entry rest ih =>
    obtain ⟨first, rfl⟩ := hentries entry List.mem_cons_self
    simp only [ofEntries, Field.ofName?_name, setValue_fieldValue]
    apply ih fun other hother => hentries other (List.mem_cons_of_mem _ hother)
    apply get_copyField_of_or
    intro field
    refine (hall field).imp_left fun hmem => (List.mem_cons.mp hmem).imp_left fun heq => ?_
    exact (Field.name_injective (congrArg Prod.fst heq)).symm

theorem ofMembers_fields {source : Snapshot} {map : Members}
    (hmap : ∀ (key : String) (v : Value), map[key]? = some v ↔
      ∃ field : Field, (key, v) = (field.name, source.fieldValue field)) :
    ofMembers map = .ok source := by
  have hfield (field : Field) : map[field.name]? = some (source.fieldValue field) :=
    (hmap _ _).mpr ⟨field, rfl⟩
  have hknown : (map.keys.find? fun key => (Field.ofName? key).isNone) = none := by
    rw [List.find?_eq_none]
    intro key hkey
    have hmem : key ∈ map := Std.ExtTreeMap.mem_keys.mp hkey
    obtain ⟨field, heq⟩ := (hmap key _).mp (Std.ExtTreeMap.getElem?_eq_some_getElem hmem)
    have hname : key = field.name := congrArg Prod.fst heq
    simp [hname, Field.ofName?_name]
  have hcomplete : (Field.all.find? fun field => !map.contains field.name) = none := by
    rw [List.find?_eq_none]
    intro field _
    simp [Std.ExtTreeMap.contains_eq_isSome_getElem?, hfield]
  have hentries : ofEntries {} map.toList = .ok source := by
    apply ofEntries_fields
    · rintro ⟨key, v⟩ hentry
      exact (hmap key v).mp (Std.ExtTreeMap.mem_toList_iff_getElem?_eq_some.mp hentry)
    · intro field
      exact .inl (Std.ExtTreeMap.mem_toList_iff_getElem?_eq_some.mpr (hfield field))
  simp only [ofMembers, hknown, hcomplete, hentries]

/-- A payload is read as a map when it is one object; the map is that of the object's members. -/
theorem run_mapReader_eq_ok_iff {body : Bytes} {map : Members} :
    Reader.run mapReader body = .ok map ↔
      ∃ pairs, map = Members.ofList pairs ∧ Value.parse body = .ok (.object pairs) := by
  simp only [Value.parse, run_eq_ok_iff]
  constructor
  · rintro ⟨rest, hread, hblank⟩
    rw [mapReader, outcome_bind_of_ok (outcome_token body)] at hread
    split at hread
    case h_1 => cases hread
    case h_3 => exact absurd hread (outcome_unexpected_ne _ _ _)
    case h_2 hbrace =>
      obtain ⟨pairs, left, hpairs, hread⟩ := outcome_drop_bind_eq_ok.mp hread
      cases hread
      exact ⟨pairs, rfl, left, value_eq_object_iff.mpr ⟨hbrace, hpairs⟩, hblank⟩
  · rintro ⟨pairs, rfl, rest, hvalue, hblank⟩
    obtain ⟨hbrace, hpairs⟩ := value_eq_object_iff.mp hvalue
    refine ⟨rest, ?_, hblank⟩
    rw [mapReader, outcome_bind_of_ok (outcome_token body), hbrace]
    exact outcome_drop_bind_eq_ok.mpr ⟨pairs, rest, hpairs, rfl⟩

def printFields (fields : List (Field × Snapshot)) : String :=
  String.ofList (printObject (fields.map fun field => (field.1.name, field.2.printField field.1)))

theorem parse_printFields (fields : List (Field × Snapshot)) :
    Value.parse (printFields fields).toUTF8.toList =
      .ok (.object (fields.map fun field => (field.1.name, field.2.fieldValue field.1))) :=
  (value_object fields fun field _ => value_printField _ field.2 field.1).run_eq_ok

theorem printFields_all (s : Snapshot) : printFields (Field.all.map (·, s)) = s.payload := by
  rw [printFields, List.map_map]
  rfl

theorem Field.nodup_names : (all.map name).Nodup := by decide

theorem getElem?_ofList_fields (s : Snapshot) (key : String) (v : Value) :
    (Members.ofList (Field.all.map fun field => (field.name, s.fieldValue field)))[key]? = some v ↔
      ∃ field : Field, (key, v) = (field.name, s.fieldValue field) := by
  have hkeys : ((Field.all.map fun field => (field.name, s.fieldValue field)).map
      Prod.fst).Nodup := by
    rw [List.map_map]
    exact Field.nodup_names
  simp only [Members.getElem?_ofList_eq_some_iff hkeys, List.mem_map, Field.mem_all, true_and,
    eq_comm]

theorem decodeStrict_payload (s : Snapshot) : decodeStrict s.payload.toUTF8.toList = .ok s := by
  have hparse := parse_printFields (Field.all.map (·, s))
  rw [printFields_all, List.map_map] at hparse
  rw [decodeStrict, run_mapReader_eq_ok_iff.mpr ⟨_, rfl, hparse⟩]
  exact ofMembers_fields s.getElem?_ofList_fields

/-- A snapshot is read back from the bytes of its payload in both modes, whatever its figures. -/
theorem decode_payload (mode : SchemaMode) (s : Snapshot) :
    decode mode s.payload.toUTF8.toList = .ok s := by
  cases mode with
  | lenient => rw [decode, decodeLenient_payload]
  | strict => exact s.decodeStrict_payload

end FleetTelemetry.Snapshot
