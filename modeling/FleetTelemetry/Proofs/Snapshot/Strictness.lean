import FleetTelemetry.Proofs.Snapshot.Leniency
import FleetTelemetry.Proofs.Text.ByteOrder

/-!
# Verdicts of strict decoding

Strictly an object is judged as a map, by three tests in a fixed order: of the keys that no field
has the least one is told; of the fields that have no key the first one; of the keys whose value the
field does not take the least one, by what is wrong with its value. A map that passes is the
snapshot with these values. The least key is the first one in the order of bytes.
-/

namespace FleetTelemetry.Snapshot

open Json Reader Text

/-- The first text with some property in the order of bytes. -/
def LeastKey (p : String → Prop) (key : String) : Prop :=
  p key ∧ ∀ other, p other → other = key ∨ ByteLess key other

/-- A value that a field takes: a truth value for the token, a natural number of 64 bits for every
other field. -/
def Field.Takes (field : Field) (v : Value) : Prop :=
  match field with
  | .token => ∃ b, v = .boolean b
  | _ => ∃ n, v = .number (.natural n)

/-- What is told about a value that a field does not take. -/
def Field.refusal (field : Field) (v : Value) : Fault :=
  match field, v with
  | .token, v => .invalidType v.kind "a boolean"
  | _, .number (.negative magnitude) => .invalidValue (.integer (-(magnitude : Int))) "u64"
  | _, v => .invalidType v.kind "u64"

/-- The verdict on a map. -/
inductive StrictVerdict (map : Members) : Except PayloadError Snapshot → Prop where
  | unknown {key : String}
      (h : LeastKey (fun key => key ∈ map ∧ ∀ field : Field, key ≠ field.name) key) :
      StrictVerdict map (.error (.unknownField key))
  | missing {field : Field} {before after : List Field}
      (hknown : ∀ key ∈ map, ∃ field : Field, key = field.name)
      (hall : Field.all = before ++ field :: after) (hbefore : ∀ other ∈ before, other.name ∈ map)
      (h : field.name ∉ map) : StrictVerdict map (.error (.missingField field.name))
  | refused {field : Field} {v : Value} (hkeys : ∀ key, key ∈ map ↔ ∃ field : Field, key = field.name)
      (hvalue : map[field.name]? = some v)
      (h : LeastKey (fun key => ∃ (other : Field) (w : Value), key = other.name ∧
        map[key]? = some w ∧ ¬ other.Takes w) field.name) :
      StrictVerdict map (.error (.json (field.refusal v)))
  | accepted {s : Snapshot} (hkeys : ∀ key, key ∈ map ↔ ∃ field : Field, key = field.name)
      (h : ∀ field : Field, map[field.name]? = some (s.fieldValue field)) :
      StrictVerdict map (.ok s)

/-! ## Least keys -/

section

variable {keys : List String} {key key' : String} {p : String → Prop} {map : Members}

theorem LeastKey.unique (h : LeastKey p key) (h' : LeastKey p key') : key = key' := by
  rcases h.2 key' h'.1 with heq | hlt
  · exact heq.symm
  · rcases h'.2 key h.1 with heq | hgt
    · exact heq
    · exact absurd hgt (List.lt_asymm hlt)

private theorem leastKey_of_find? {test : String → Bool} (hkeys : keys.Pairwise ByteLess)
    (h : keys.find? test = some key) : LeastKey (fun key => key ∈ keys ∧ test key = true) key := by
  obtain ⟨htest, before, after, rfl, hbefore⟩ := List.find?_eq_some_iff_append.mp h
  refine ⟨⟨by simp, htest⟩, fun other hother => ?_⟩
  rcases List.mem_append.mp hother.1 with hmem | hmem
  · have hfails := hbefore other hmem
    rw [hother.2] at hfails
    cases hfails
  · rcases List.mem_cons.mp hmem with heq | hmem
    · exact .inl heq
    · exact .inr ((List.pairwise_cons.mp (List.pairwise_append.mp hkeys).2.1).1 other hmem)

private theorem find?_eq_some_iff_leastKey {test : String → Bool} (hkeys : keys.Pairwise ByteLess) :
    keys.find? test = some key ↔ LeastKey (fun key => key ∈ keys ∧ test key = true) key := by
  refine ⟨leastKey_of_find? hkeys, fun h => ?_⟩
  have hsome : (keys.find? test).isSome = true := List.find?_isSome.mpr ⟨key, h.1⟩
  obtain ⟨found, hfound⟩ := Option.isSome_iff_exists.mp hsome
  rw [hfound, (leastKey_of_find? hkeys hfound).unique h]

private theorem not_contains_iff : (!map.contains key) = true ↔ key ∉ map := by
  rw [Bool.not_eq_true', ← Bool.not_eq_true, Std.ExtTreeMap.contains_iff_mem]

private theorem exists_leastKey (hmem : ∀ key, p key → key ∈ map) (h : ∃ key, p key) :
    ∃ key, LeastKey p key := by
  classical
  have hsome : (map.keys.find? fun key => decide (p key)).isSome = true := by
    obtain ⟨key, hkey⟩ := h
    rw [List.find?_isSome]
    exact ⟨key, Std.ExtTreeMap.mem_keys.mpr (hmem key hkey), decide_eq_true hkey⟩
  obtain ⟨key, hfound⟩ := Option.isSome_iff_exists.mp hsome
  obtain ⟨hkey, hleast⟩ := leastKey_of_find? (pairwise_byteLess_keys map) hfound
  refine ⟨key, of_decide_eq_true hkey.2, fun other hother => ?_⟩
  exact hleast other ⟨Std.ExtTreeMap.mem_keys.mpr (hmem other hother), decide_eq_true hother⟩

end

/-! ## Fields and their values -/

section

variable {field : Field} {v : Value} {s s' : Snapshot} {map : Members} {key : String}

private theorem Field.ofName?_eq_none_iff :
    ofName? key = none ↔ ∀ field : Field, key ≠ field.name := by
  constructor
  · rintro hnone field rfl
    rw [field.ofName?_name] at hnone
    cases hnone
  · intro hne
    cases hname : ofName? key with
    | none => rfl
    | some field => exact absurd (Field.name_of_ofName? hname).symm (hne field)

private theorem setValue_of_takes (h : field.Takes v) (s : Snapshot) :
    ∃ s', s.setValue field v = .ok s' := by
  cases field
  all_goals
    obtain ⟨value, rfl⟩ := h
    exact ⟨_, rfl⟩

private theorem setValue_of_not_takes (h : ¬ field.Takes v) (s : Snapshot) :
    s.setValue field v = .error (field.refusal v) := by
  cases field
  case token =>
    cases v
    case boolean b => exact absurd ⟨b, rfl⟩ h
    all_goals rfl
  all_goals
    cases v
    case number n =>
      cases n
      case natural n => exact absurd ⟨n, rfl⟩ h
      all_goals rfl
    all_goals rfl

/-! ## Filling in the entries of a map -/

private theorem ofEntries_append (entries more : List (String × Value)) (s : Snapshot) :
    ofEntries s (entries ++ more) = ofEntries s entries >>= fun s' => ofEntries s' more := by
  induction entries generalizing s with
  | nil => rfl
  | cons entry entries ih =>
    obtain ⟨key, v⟩ := entry
    rw [List.cons_append, ofEntries, ofEntries]
    cases Field.ofName? key with
    | none => exact ih s
    | some field =>
      dsimp only
      cases s.setValue field v with
      | error fault => rfl
      | ok s' => exact ih s'

private theorem ofEntries_of_takes {entries : List (String × Value)}
    (h : ∀ entry ∈ entries, ∀ field, Field.ofName? entry.1 = some field → field.Takes entry.2)
    (s : Snapshot) : ∃ s', ofEntries s entries = .ok s' := by
  induction entries generalizing s with
  | nil => exact ⟨s, rfl⟩
  | cons entry entries ih =>
    obtain ⟨key, v⟩ := entry
    have hmore := ih fun other hother => h other (List.mem_cons_of_mem _ hother)
    rw [ofEntries]
    cases hfield : Field.ofName? key with
    | none => exact hmore s
    | some field =>
      have htakes : field.Takes v := h (key, v) List.mem_cons_self field hfield
      obtain ⟨s', hset⟩ := setValue_of_takes htakes s
      dsimp only
      rw [hset]
      exact hmore s'

private theorem ofEntries_toList_of_leastKey (hvalue : map[field.name]? = some v)
    (h : LeastKey (fun key => ∃ (other : Field) (w : Value), key = other.name ∧
      map[key]? = some w ∧ ¬ other.Takes w) field.name) :
    ofEntries s map.toList = .error (field.refusal v) := by
  obtain ⟨⟨other, w, hname, hget, hrefused⟩, hleast⟩ := h
  obtain rfl := Field.name_injective hname
  cases hvalue.symm.trans hget
  obtain ⟨before, after, hsplit⟩ :=
    List.append_of_mem (Std.ExtTreeMap.mem_toList_iff_getElem?_eq_some.mpr hvalue)
  have hordered : (map.toList.map Prod.fst).Pairwise ByteLess := by
    rw [Std.ExtTreeMap.map_fst_toList_eq_keys]
    exact pairwise_byteLess_keys map
  rw [hsplit, List.map_append, List.map_cons] at hordered
  have hbefore : ∀ entry ∈ before, ∀ other, Field.ofName? entry.1 = some other →
      other.Takes entry.2 := by
    intro entry hentry other hother
    -- A key that comes earlier would be the least one.
    by_contra hnot
    have hmem : entry ∈ map.toList := hsplit ▸ List.mem_append_left _ hentry
    have hname := (Field.name_of_ofName? hother).symm
    have hlt := (List.pairwise_append.mp hordered).2.2 _ (List.mem_map_of_mem hentry) field.name
      List.mem_cons_self
    rcases hleast entry.1 ⟨other, entry.2, hname,
      Std.ExtTreeMap.mem_toList_iff_getElem?_eq_some.mp hmem, hnot⟩ with heq | hgt
    · rw [heq] at hlt
      exact List.lt_irrefl _ hlt
    · exact List.lt_asymm hlt hgt
  obtain ⟨s', hfilled⟩ := ofEntries_of_takes hbefore s
  rw [hsplit, ofEntries_append, hfilled]
  have hrest : ofEntries s' ((field.name, v) :: after) = .error (field.refusal v) := by
    rw [ofEntries, field.ofName?_name]
    dsimp only
    rw [setValue_of_not_takes hrefused]
  exact hrest

/-! ## Verdicts -/

private theorem ofMembers_of_unknown
    (h : LeastKey (fun key => key ∈ map ∧ ∀ field : Field, key ≠ field.name) key) :
    ofMembers map = .error (.unknownField key) := by
  have hfound : (map.keys.find? fun key => (Field.ofName? key).isNone) = some key := by
    rw [find?_eq_some_iff_leastKey (pairwise_byteLess_keys map)]
    simpa only [Std.ExtTreeMap.mem_keys, Option.isNone_iff_eq_none, Field.ofName?_eq_none_iff] using h
  rw [ofMembers, hfound]

private theorem find?_unknown (hknown : ∀ key ∈ map, ∃ field : Field, key = field.name) :
    (map.keys.find? fun key => (Field.ofName? key).isNone) = none := by
  rw [List.find?_eq_none]
  intro key hkey
  obtain ⟨field, rfl⟩ := hknown key (Std.ExtTreeMap.mem_keys.mp hkey)
  simp [field.ofName?_name]

private theorem ofMembers_of_missing {before after : List Field}
    (hknown : ∀ key ∈ map, ∃ field : Field, key = field.name)
    (hall : Field.all = before ++ field :: after) (hbefore : ∀ other ∈ before, other.name ∈ map)
    (h : field.name ∉ map) : ofMembers map = .error (.missingField field.name) := by
  have hfound : (Field.all.find? fun field => !map.contains field.name) = some field := by
    rw [List.find?_eq_some_iff_append]
    refine ⟨not_contains_iff.mpr h, before, after, hall, fun other hother => ?_⟩
    simpa using hbefore other hother
  rw [ofMembers, find?_unknown hknown]
  simp only [hfound]

private theorem ofMembers_of_keys (hkeys : ∀ key, key ∈ map ↔ ∃ field : Field, key = field.name) :
    ofMembers map = match ofEntries {} map.toList with
      | .ok s => .ok s
      | .error fault => .error (.json fault) := by
  have hcomplete : (Field.all.find? fun field => !map.contains field.name) = none := by
    rw [List.find?_eq_none]
    intro other _
    have hmem : other.name ∈ map := (hkeys _).mpr ⟨other, rfl⟩
    simpa using hmem
  rw [ofMembers, find?_unknown fun key => (hkeys key).mp]
  cases ofEntries {} map.toList <;> simp only [hcomplete]

private theorem ofMembers_of_refused (hkeys : ∀ key, key ∈ map ↔ ∃ field : Field, key = field.name)
    (hvalue : map[field.name]? = some v)
    (h : LeastKey (fun key => ∃ (other : Field) (w : Value), key = other.name ∧
      map[key]? = some w ∧ ¬ other.Takes w) field.name) :
    ofMembers map = .error (.json (field.refusal v)) := by
  rw [ofMembers_of_keys hkeys, ofEntries_toList_of_leastKey hvalue h]

private theorem ofMembers_of_accepted (hkeys : ∀ key, key ∈ map ↔ ∃ field : Field, key = field.name)
    (h : ∀ field : Field, map[field.name]? = some (s.fieldValue field)) :
    ofMembers map = .ok s := by
  apply ofMembers_fields
  intro key v
  constructor
  · intro hget
    have hmem : key ∈ map := by
      rw [← Std.ExtTreeMap.isSome_getElem?_iff_mem, hget]
      rfl
    obtain ⟨field, rfl⟩ := (hkeys key).mp hmem
    rw [h field] at hget
    exact ⟨field, by rw [Option.some.inj hget]⟩
  · rintro ⟨field, heq⟩
    cases heq
    exact h field

private theorem StrictVerdict.ofMembers_eq {verdict : Except PayloadError Snapshot}
    (h : StrictVerdict map verdict) : ofMembers map = verdict := by
  cases h with
  | unknown h => exact ofMembers_of_unknown h
  | missing hknown hall hbefore h => exact ofMembers_of_missing hknown hall hbefore h
  | refused hkeys hvalue h => exact ofMembers_of_refused hkeys hvalue h
  | accepted hkeys h => exact ofMembers_of_accepted hkeys h

private theorem exists_snapshot (hkeys : ∀ key, key ∈ map ↔ ∃ field : Field, key = field.name)
    (htakes : ∀ (field : Field) (v : Value), map[field.name]? = some v → field.Takes v) :
    ∃ s : Snapshot, ∀ field : Field, map[field.name]? = some (s.fieldValue field) := by
  have hentries : ∀ entry ∈ map.toList, ∀ field, Field.ofName? entry.1 = some field →
      field.Takes entry.2 := by
    intro entry hentry field hfield
    apply htakes field entry.2
    rw [Field.name_of_ofName? hfield]
    exact Std.ExtTreeMap.mem_toList_iff_getElem?_eq_some.mp hentry
  obtain ⟨s, hfilled⟩ := ofEntries_of_takes hentries {}
  have haccepted : ofMembers map = .ok s := by rw [ofMembers_of_keys hkeys, hfilled]
  exact ⟨s, fun field => (ofMembers_eq_ok_iff.mp haccepted _ _).mpr ⟨field, rfl⟩⟩

private theorem exists_strictVerdict (map : Members) : ∃ verdict, StrictVerdict map verdict := by
  by_cases hunknown : ∃ key, key ∈ map ∧ ∀ field : Field, key ≠ field.name
  · obtain ⟨key, h⟩ := exists_leastKey (fun key hkey => hkey.1) hunknown
    exact ⟨_, .unknown h⟩
  have hknown : ∀ key ∈ map, ∃ field : Field, key = field.name := by
    intro key hkey
    by_contra hnone
    exact hunknown ⟨key, hkey, fun field hname => hnone ⟨field, hname⟩⟩
  cases hfound : Field.all.find? fun field => !map.contains field.name with
  | some field =>
    obtain ⟨hmissing, before, after, hall, hbefore⟩ := List.find?_eq_some_iff_append.mp hfound
    refine ⟨_, .missing hknown hall (fun other hother => ?_) (not_contains_iff.mp hmissing)⟩
    simpa using hbefore other hother
  | none =>
    have hkeys : ∀ key, key ∈ map ↔ ∃ field : Field, key = field.name := by
      refine fun key => ⟨hknown key, ?_⟩
      rintro ⟨field, rfl⟩
      simpa using List.find?_eq_none.mp hfound field field.mem_all
    by_cases hrefused : ∃ key, ∃ (other : Field) (w : Value), key = other.name ∧
        map[key]? = some w ∧ ¬ other.Takes w
    · have hmem : ∀ key, (∃ (other : Field) (w : Value), key = other.name ∧
          map[key]? = some w ∧ ¬ other.Takes w) → key ∈ map := by
        rintro key ⟨other, w, hname, -⟩
        exact (hkeys key).mpr ⟨other, hname⟩
      obtain ⟨key, h⟩ := exists_leastKey hmem hrefused
      obtain ⟨field, v, rfl, hvalue, -⟩ := h.1
      exact ⟨_, .refused hkeys hvalue h⟩
    · obtain ⟨s, hs⟩ := exists_snapshot hkeys fun field v hvalue => by
        by_contra hnot
        exact hrefused ⟨field.name, field, v, rfl, hvalue, hnot⟩
      exact ⟨_, .accepted hkeys hs⟩

private theorem ofMembers_eq_iff {verdict : Except PayloadError Snapshot} :
    ofMembers map = verdict ↔ StrictVerdict map verdict := by
  refine ⟨fun h => ?_, StrictVerdict.ofMembers_eq⟩
  obtain ⟨other, hother⟩ := exists_strictVerdict map
  rwa [← h, hother.ofMembers_eq]

end

/-- Strictly an object is decided by its map, in which each key has the value of its last member:
what comes out is the one verdict on this map, so objects with one map are decided alike. -/
theorem decode_strict_eq_iff {body : Bytes} {pairs : List (String × Value)}
    (h : Value.parse body = .ok (.object pairs)) :
    (∀ key v, (Members.ofList pairs)[key]? = some v ↔
      ∃ before after, pairs = before ++ (key, v) :: after ∧ key ∉ after.map Prod.fst) ∧
    (∀ verdict, decode .strict body = verdict ↔ StrictVerdict (Members.ofList pairs) verdict) ∧
    (∀ body' pairs', Value.parse body' = .ok (.object pairs') →
      Members.ofList pairs' = Members.ofList pairs → decode .strict body' = decode .strict body) ∧
    (∀ key, (PayloadError.unknownField key).message = "unknown field '" ++ key ++ "'") ∧
    ∀ key, (PayloadError.missingField key).message = "missing field '" ++ key ++ "'" := by
  have hdecode {body' : Bytes} {pairs' : List (String × Value)}
      (h' : Value.parse body' = .ok (.object pairs')) :
      decode .strict body' = ofMembers (Members.ofList pairs') := by
    rw [decode, decodeStrict, run_mapReader_eq_ok_iff.mpr ⟨pairs', rfl, h'⟩]
  refine ⟨fun key v => Members.getElem?_ofList_eq_some_iff_last, fun verdict => ?_,
    fun body' pairs' h' hsame => ?_, fun key => rfl, fun key => rfl⟩
  · rw [hdecode h, ofMembers_eq_iff]
  · rw [hdecode h', hdecode h, hsame]

/-! ## Objects with several flaws -/

/-- Members whose values are figures of the busy node, each under a key of its own. -/
def relabelled (labels : List (String × Field)) : List (String × Value) :=
  labels.map fun label => (label.1, busySnapshot.fieldValue label.2)

def relabelledPayload (labels : List (String × Field)) : String :=
  String.ofList (printObject (labels.map fun label => (label.1, busySnapshot.printField label.2)))

/-- Unknown keys, a key that comes back, missing fields and values that their fields do not take. -/
def muddledLabels : List (String × Field) :=
  [("token", .gas), ("x", .gas), ("gas", .token), ("b", .signNum), ("x", .submitNum)]

def scantLabels : List (String × Field) := [("token", .gas), ("gas", .token)]

def exchangedLabels : List (String × Field) :=
  Field.all.map fun field =>
    (field.name, match field with | .gas => .token | .token => .gas | field => field)

private theorem parse_relabelledPayload (labels : List (String × Field)) :
    Value.parse (relabelledPayload labels).toUTF8.toList = .ok (.object (relabelled labels)) :=
  (value_object labels fun label _ => value_printField _ busySnapshot label.2).run_eq_ok

private theorem mem_relabelled_iff {labels : List (String × Field)} {key : String} :
    key ∈ Members.ofList (relabelled labels) ↔ key ∈ labels.map Prod.fst := by
  rw [Members.mem_ofList, relabelled, List.map_map]
  rfl

private theorem strictVerdict_muddled :
    StrictVerdict (Members.ofList (relabelled muddledLabels)) (.error (.unknownField "b")) := by
  refine .unknown ⟨⟨mem_relabelled_iff.mpr (by decide), fun field => ?_⟩, fun other hother => ?_⟩
  · cases field <;> decide
  · have hlabels := mem_relabelled_iff.mp hother.1
    simp only [muddledLabels, List.map_cons, List.map_nil, List.mem_cons, List.not_mem_nil,
      or_false] at hlabels
    rcases hlabels with rfl | rfl | rfl | rfl | rfl
    · exact absurd rfl (hother.2 .token)
    · exact .inr (byteLess_of_lt (by decide))
    · exact absurd rfl (hother.2 .gas)
    · exact .inl rfl
    · exact .inr (byteLess_of_lt (by decide))

private theorem strictVerdict_scant :
    StrictVerdict (Members.ofList (relabelled scantLabels))
      (.error (.missingField "generated_transactions")) := by
  refine @StrictVerdict.missing _ .generatedTransactions [] _ (fun key hkey => ?_) rfl (by simp)
    (mt mem_relabelled_iff.mp (by decide))
  have hlabels := mem_relabelled_iff.mp hkey
  simp only [scantLabels, List.map_cons, List.map_nil, List.mem_cons, List.not_mem_nil,
    or_false] at hlabels
  rcases hlabels with rfl | rfl
  · exact ⟨.token, rfl⟩
  · exact ⟨.gas, rfl⟩

private theorem strictVerdict_exchanged :
    StrictVerdict (Members.ofList (relabelled exchangedLabels))
      (.error (.json (.invalidType (.boolean true) "u64"))) := by
  have hnodup : ((relabelled exchangedLabels).map Prod.fst).Nodup := by decide
  have hkeys (key : String) : key ∈ Members.ofList (relabelled exchangedLabels) ↔
      ∃ field : Field, key = field.name := by
    simp [mem_relabelled_iff, exchangedLabels, Field.mem_all, eq_comm]
  have hget (key : String) (v : Value) := @Members.getElem?_ofList_eq_some_iff _ key v hnodup
  have hgas := (hget "gas" (.boolean true)).mpr
    (List.mem_map.mpr ⟨("gas", .token), by decide, rfl⟩)
  refine @StrictVerdict.refused _ .gas (.boolean true) hkeys hgas ⟨⟨.gas, _, rfl, hgas, ?_⟩, ?_⟩
  · rintro ⟨n, hn⟩
    cases hn
  · rintro key ⟨other, w, rfl, hw, hrefused⟩
    have hmem := (hget _ _).mp hw
    rw [relabelled, exchangedLabels, List.map_map] at hmem
    obtain ⟨field, -, heq⟩ := List.mem_map.mp hmem
    obtain ⟨hname, rfl⟩ := Prod.mk.inj heq
    obtain rfl := Field.name_injective hname
    -- every other field stands with a value of its own
    cases field
    case gas => exact .inl rfl
    case token => exact .inr (byteLess_of_lt (by decide))
    all_goals exact absurd ⟨_, rfl⟩ hrefused

/-- Of several flaws an unknown key is told first, then a missing field, and then the value of the
least key. -/
theorem decode_strict_eq_iff_flawed :
    decode .strict (relabelledPayload muddledLabels).toUTF8.toList = .error (.unknownField "b") ∧
    decode .strict (relabelledPayload scantLabels).toUTF8.toList =
      .error (.missingField "generated_transactions") ∧
    decode .strict (relabelledPayload exchangedLabels).toUTF8.toList =
      .error (.json (.invalidType (.boolean true) "u64")) := by
  obtain ⟨-, hmuddled, -⟩ := decode_strict_eq_iff (parse_relabelledPayload muddledLabels)
  obtain ⟨-, hscant, -⟩ := decode_strict_eq_iff (parse_relabelledPayload scantLabels)
  obtain ⟨-, hexchanged, -⟩ := decode_strict_eq_iff (parse_relabelledPayload exchangedLabels)
  exact ⟨(hmuddled _).mpr strictVerdict_muddled, (hscant _).mpr strictVerdict_scant,
    (hexchanged _).mpr strictVerdict_exchanged⟩

end FleetTelemetry.Snapshot
