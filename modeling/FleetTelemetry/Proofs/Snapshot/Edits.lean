import FleetTelemetry.Proofs.Snapshot.Members
import Mathlib.Logic.Relation

/-!
# Objects with the same known members

Leniently an object may be written in many ways: its members come in any order, blanks stand
anywhere between the tokens, and members that a snapshot has no field for come and go. The snapshot
stays the same. What comes in must be a member that can be read at all: a key that spells no text
is refused, although the grammar allows it.
-/

namespace FleetTelemetry.Snapshot

open Json Reader Text

/-- A change of the members of an object that keeps the known ones. -/
inductive Edit : List Member → List Member → Prop where
  | reorder {members members' : List Member} (h : members.Perm members') : Edit members members'
  | insert (before after : List Member) {member : Member} {key : String}
      (hkey : Spells member.key key) (hforeign : ∀ field : Field, key ≠ field.name)
      (hvalue : IsValue member.value) : Edit (before ++ after) (before ++ member :: after)
  | delete (before after : List Member) {member : Member}
      (hforeign : ∀ field : Field, ¬ Spells member.key field.name) :
      Edit (before ++ member :: after) (before ++ after)

variable {members members' : List Member} {s : Snapshot} {body : Bytes}

private theorem Shows.perm (h : Shows members s) (hperm : members.Perm members') :
    Shows members' s where
  texts member hmember := h.texts member (hperm.mem_iff.mpr hmember)
  once field := by
    refine (hperm.pairwise_iff fun hnot hboth => ?_).mp (h.once field)
    exact hnot hboth.symm
  written member hmember := h.written member (hperm.mem_iff.mpr hmember)
  absent field hfield := h.absent field fun member hmember =>
    hfield member (hperm.mem_iff.mp hmember)

private theorem shows_cons_foreign {member : Member} {key : String} (hkey : Spells member.key key)
    (hforeign : ∀ field : Field, key ≠ field.name) :
    Shows (member :: members) s ↔ Shows members s := by
  rw [← showsFrom_empty_iff, showsFrom_cons_foreign hkey hforeign, showsFrom_empty_iff]

theorem Edit.shows (hedit : Edit members members') (h : Shows members s) : Shows members' s := by
  cases hedit with
  | reorder hperm => exact h.perm hperm
  | insert before after hkey hforeign hvalue =>
    exact ((shows_cons_foreign hkey hforeign).mpr h).perm List.perm_middle.symm
  | @delete before after member hforeign =>
    -- the member was read, so its key does spell a text
    have hfirst := h.perm List.perm_middle
    obtain ⟨key, hkey⟩ := hfirst.texts member List.mem_cons_self
    refine (shows_cons_foreign hkey fun field heq => ?_).mp hfirst
    exact hforeign field (heq ▸ hkey)

private theorem lexes_flatMap {blanks : Bytes} (hblanks : ∀ b ∈ blanks, isBlankByte b = true)
    (tokens : List Bytes) : Lexes tokens (tokens.flatMap (blanks ++ ·)) [] := by
  induction tokens with
  | nil => exact .nil []
  | cons token tokens ih =>
    rw [List.flatMap_cons, List.append_assoc]
    exact .cons hblanks ih

private theorem isObject_flatMap {blanks : Bytes} (hblanks : ∀ b ∈ blanks, isBlankByte b = true)
    (hkeys : ∀ member ∈ members, IsStringText member.key)
    (hvalues : ∀ member ∈ members, IsValue member.value) :
    IsObject members ((Frame.object.tokens (members.map Member.tokens)).flatMap (blanks ++ ·)) :=
  ⟨hkeys, hvalues, [], lexes_flatMap hblanks _, rfl⟩

private theorem Edit.exists_isObject (hedit : Edit members members') (h : IsObject members body) :
    ∃ body', IsObject members' body' := by
  have hgood : ∀ member ∈ members', IsStringText member.key ∧ IsValue member.value := by
    cases hedit with
    | reorder hperm =>
      intro member hmember
      have hmem := hperm.mem_iff.mpr hmember
      exact ⟨h.keys member hmem, h.values member hmem⟩
    | @insert before after member key hkey _ hvalue =>
      intro other hother
      rcases List.mem_cons.mp (List.perm_middle.mem_iff.mp hother) with rfl | hmem
      · exact ⟨hkey.isStringText, hvalue⟩
      · exact ⟨h.keys other hmem, h.values other hmem⟩
    | @delete before after removed =>
      intro other hother
      have hmem := List.perm_middle.mem_iff.mpr (List.mem_cons_of_mem removed hother)
      exact ⟨h.keys other hmem, h.values other hmem⟩
  refine ⟨_, isObject_flatMap (@List.forall_mem_nil _ _) (fun member hmember => ?_) ?_⟩
  · exact (hgood member hmember).1
  · exact fun member hmember => (hgood member hmember).2

private theorem shows_of_edits (hedits : Relation.ReflTransGen Edit members members')
    (hobject : IsObject members body) (h : Shows members s) :
    Shows members' s ∧ ∃ body', IsObject members' body' := by
  induction hedits with
  | refl => exact ⟨h, body, hobject⟩
  | tail _ hedit ih =>
    obtain ⟨hshows, body', hobject'⟩ := ih
    exact ⟨hedit.shows hshows, hedit.exists_isObject hobject'⟩

/-- An object that is accepted leniently is accepted as the same snapshot after its members have
been put in another order and members with keys that no field has have been put in or taken out,
with blanks wherever they may stand. -/
theorem decode_lenient_of_edits (hobject : IsObject members body)
    (h : decode .lenient body = .ok s) (hedits : Relation.ReflTransGen Edit members members') :
    (∃ body', IsObject members' body') ∧
      ∀ body', IsObject members' body' → decode .lenient body' = .ok s := by
  have hshows := (decodeLenient_eq_ok_iff hobject).mp (decode_lenient_eq_ok_iff.mp h)
  obtain ⟨hshows', hexists⟩ := shows_of_edits hedits hobject hshows
  refine ⟨hexists, fun body' hobject' => decode_lenient_eq_ok_iff.mpr ?_⟩
  exact (decodeLenient_eq_ok_iff hobject').mpr hshows'

private theorem spells_plain {text : String}
    (h : (encode text.toList).all (fun b => decide (IsPlain b)) = true) :
    Spells (encode text.toList) text := by
  unfold Spells
  generalize encode text.toList = bytes at h
  induction bytes with
  | nil => exact .nil
  | cons b bytes ih =>
    rw [List.all_cons, Bool.and_eq_true, decide_eq_true_eq] at h
    exact .plain h.1 (ih h.2)

def gasMember : Member := ⟨encode "gas".toList, [encode (printNatural 7)]⟩

def tokenMember : Member := ⟨encode "token".toList, [encode (printBoolean true)]⟩

def strayMember : Member := ⟨encode "b".toList, [encode (printNatural 0)]⟩

/-- A member whose value is a list of an object, in which a field is named. -/
def nestedMember : Member :=
  ⟨encode "a".toList, Frame.list.tokens
    [Frame.object.tokens [Member.tokens ⟨encode "gas".toList, [encode (printNatural 1)]⟩]]⟩

private theorem spells_gas : Spells gasMember.key "gas" := spells_plain (by decide)

private theorem spells_token : Spells tokenMember.key "token" := spells_plain (by decide)

private theorem spells_stray : Spells strayMember.key "b" := spells_plain (by decide)

private theorem spells_nested : Spells nestedMember.key "a" := spells_plain (by decide)

private theorem ne_name (field : Field) : "a" ≠ field.name ∧ "b" ≠ field.name := by
  cases field <;> decide

private theorem isValue_nestedMember : IsValue nestedMember.value := by
  have hinner : IsValue (Frame.object.tokens
      ([⟨encode "gas".toList, [encode (printNatural 1)]⟩].map Member.tokens)) := by
    refine .object (fun member hmember => ?_) fun member hmember => ?_
    · obtain rfl := List.mem_singleton.mp hmember
      exact spells_gas.isStringText
    · obtain rfl := List.mem_singleton.mp hmember
      exact .scalar (isScalar_printNatural 1)
  refine .list fun item hitem => ?_
  obtain rfl := List.mem_singleton.mp hitem
  exact hinner

private theorem isObject_before : IsObject [gasMember, strayMember, tokenMember]
    (encode "\x7b\"gas\":7,\"b\":0,\"token\":true\x7d".toList) := by
  refine @isObject_flatMap _ [] (by simp) ?_ ?_
  · simpa using ⟨spells_gas.isStringText, spells_stray.isStringText, spells_token.isStringText⟩
  · simpa using ⟨.scalar (isScalar_printNatural 7), .scalar (isScalar_printNatural 0),
      .scalar (.boolean true)⟩

private theorem isObject_after : IsObject [tokenMember, nestedMember, gasMember] (encode
    " \x7b \"token\" : true , \"a\" : [ \x7b \"gas\" : 1 \x7d ] , \"gas\" : 7 \x7d".toList) := by
  refine @isObject_flatMap _ [0x20] (List.forall_mem_singleton.mpr rfl) ?_ ?_
  · simpa using ⟨spells_token.isStringText, spells_nested.isStringText, spells_gas.isStringText⟩
  · simpa using ⟨.scalar (.boolean true), isValue_nestedMember, .scalar (isScalar_printNatural 7)⟩

private theorem shows_before :
    Shows [gasMember, strayMember, tokenMember] { gas := 7, token := true } := by
  have htoken : ShowsFrom ⟨{ gas := 7 }, ["gas"]⟩ [tokenMember] { gas := 7, token := true } :=
    (@showsFrom_cons_field _ _ _ _ .token spells_token).mpr ⟨by decide, rfl, .nil _⟩
  have hstray := (showsFrom_cons_foreign spells_stray fun field => (ne_name field).2).mpr htoken
  exact showsFrom_empty_iff.mp ((@showsFrom_cons_field _ _ _ _ .gas spells_gas).mpr
    ⟨List.not_mem_nil, rfl, hstray⟩)

private theorem edits_before_after :
    Relation.ReflTransGen Edit [gasMember, strayMember, tokenMember]
      [tokenMember, nestedMember, gasMember] := by
  have hreorder : Edit [gasMember, strayMember, tokenMember]
      [tokenMember, strayMember, gasMember] := .reorder (List.reverse_perm _).symm
  have hdelete : Edit [tokenMember, strayMember, gasMember] [tokenMember, gasMember] :=
    .delete [tokenMember] [gasMember] fun field hname =>
      (ne_name field).2 (spells_stray.unique hname)
  have hinsert : Edit [tokenMember, gasMember] [tokenMember, nestedMember, gasMember] :=
    .insert [tokenMember] [gasMember] spells_nested (fun field => (ne_name field).1)
      isValue_nestedMember
  exact ((Relation.ReflTransGen.single hreorder).tail hdelete).tail hinsert

/-- The token comes before the gas, an unknown member goes and another one comes, in which the gas
is named again, and blanks stand before all tokens: the gas and the token are the same. -/
theorem decode_lenient_of_edits_nested :
    decode .lenient (encode "\x7b\"gas\":7,\"b\":0,\"token\":true\x7d".toList) =
        .ok { gas := 7, token := true } ∧
      decode .lenient (encode
        " \x7b \"token\" : true , \"a\" : [ \x7b \"gas\" : 1 \x7d ] , \"gas\" : 7 \x7d".toList) =
        .ok { gas := 7, token := true } := by
  have hbefore := decode_lenient_eq_ok_iff.mpr
    ((decodeLenient_eq_ok_iff isObject_before).mpr shows_before)
  obtain ⟨-, hafter⟩ := decode_lenient_of_edits isObject_before hbefore edits_before_after
  exact ⟨hbefore, hafter _ isObject_after⟩

/-! ## A key that is no text -/

def emptyObject : Bytes := encode "\x7b\x7d".toList

private theorem isObject_empty : IsObject [] emptyObject :=
  ⟨by simp, by simp, [], .front [0x7B] (.front [0x7D] (.nil [])), rfl⟩

private theorem decode_lenient_empty : decode .lenient emptyObject = .ok {} :=
  decode_lenient_eq_ok_iff.mpr ((decodeLenient_eq_ok_iff isObject_empty).mpr
    (showsFrom_empty_iff.mp (.nil ⟨{}, []⟩)))

/-- The escape of half a surrogate pair. -/
def loneKey : Bytes := encode "\\uDEAD".toList

private theorem isHex_dead : IsHex (encode "DEAD".toList) 0xDEAD :=
  ⟨_, _, _, _, _, _, _, _, rfl, rfl, rfl, rfl, rfl, rfl⟩

private theorem loneKey_eq : loneKey = 0x5C :: 0x75 :: (encode "DEAD".toList ++ []) := by decide

private theorem not_spells_loneKey (text : String) : ¬ Spells loneKey text := by
  rw [loneKey_eq]
  exact not_spells_of_isTrailing isHex_dead (by decide)

/-- A member with such a key is refused, although the grammar allows it and no field has the key. -/
theorem decode_lenient_loneKey :
    (decode .lenient emptyObject = .ok {} ∧ IsObject [] emptyObject) ∧
      (IsObject [⟨loneKey, [encode (printNatural 0)]⟩] (encode "\x7b\"\\uDEAD\":0\x7d".toList) ∧
        ∀ field : Field, ¬ Spells loneKey field.name) ∧
      ∀ s, decode .lenient (encode "\x7b\"\\uDEAD\":0\x7d".toList) ≠ .ok s := by
  have hkey : IsStringText loneKey := by
    rw [loneKey_eq]
    exact .number isHex_dead .nil
  have hobject : IsObject [⟨loneKey, [encode (printNatural 0)]⟩]
      (encode "\x7b\"\\uDEAD\":0\x7d".toList) := by
    refine @isObject_flatMap _ [] (by simp) ?_ ?_
    · simpa using hkey
    · simpa using .scalar (isScalar_printNatural 0)
  refine ⟨⟨decode_lenient_empty, isObject_empty⟩,
    ⟨hobject, fun field => not_spells_loneKey field.name⟩, fun s h => ?_⟩
  have hshows := (decodeLenient_eq_ok_iff hobject).mp (decode_lenient_eq_ok_iff.mp h)
  obtain ⟨text, hspells⟩ := hshows.texts _ List.mem_cons_self
  exact not_spells_loneKey text hspells

end FleetTelemetry.Snapshot
