import FleetTelemetry.Proofs.Json.Naturals
import FleetTelemetry.Proofs.Json.Unescaping
import FleetTelemetry.Proofs.Snapshot.Strictness

/-!
# Lenient decoding by members

What an object says of a snapshot is said by its own members, whatever their order: a member whose
key spells the name of a field shows the value of this field, and the fields that no member names
are zero. Leniently an object is decoded as the snapshot that its members show.
-/

namespace FleetTelemetry.Snapshot

open Json Reader Text

/-- The members of an object show a snapshot. -/
structure Shows (members : List Member) (s : Snapshot) : Prop where
  texts : ∀ member ∈ members, ∃ key, Spells member.key key
  once : ∀ field : Field, members.Pairwise fun member other =>
    ¬ (Spells member.key field.name ∧ Spells other.key field.name)
  written : ∀ member ∈ members, ∀ field : Field, Spells member.key field.name →
    member.value = [encode (s.printField field)]
  absent : ∀ field : Field, (∀ member ∈ members, ¬ Spells member.key field.name) → s.get field = 0

/-! ## Filling in members -/

inductive TakesMember (filling : Filling Snapshot) (member : Member) : Filling Snapshot → Prop where
  | foreign {key : String} (hkey : Spells member.key key)
      (hforeign : ∀ field : Field, key ≠ field.name) : TakesMember filling member filling
  | field {field : Field} {record : Snapshot} (hkey : Spells member.key field.name)
      (hnew : field.name ∉ filling.seen) (hvalue : member.value = [encode (record.printField field)])
      (hrecord : record = record.copyField filling.record field) :
      TakesMember filling member ⟨record, field.name :: filling.seen⟩

inductive TakesMembers : Filling Snapshot → List Member → Filling Snapshot → Prop where
  | nil (filling : Filling Snapshot) : TakesMembers filling [] filling
  | cons {filling next final : Filling Snapshot} {member : Member} {members : List Member}
      (h : TakesMember filling member next) (hmore : TakesMembers next members final) :
      TakesMembers filling (member :: members) final

section Reading

variable {filling next final : Filling Snapshot} {member : Member} {members : List Member}
  {s s' : Snapshot} {t mid rest left : Bytes} {value : List Bytes}

private theorem fill_at_value (hvalue : IsValue value) (hlex : Lexes value t rest)
    (hrest : NumberEnds rest) (field : Field) :
    outcome (field.reader.fill s) t = .ok (s', left) ↔
      (value = [encode (s'.printField field)] ∧ s' = s'.copyField s field) ∧ left = rest := by
  cases field
  case token =>
    have hread {truth : Bool} {left : Bytes} :
        outcome (Json.boolean tokenKind) t = .ok (truth, left) ↔
          value = [encode (printBoolean truth)] ∧ left = rest := boolean_at_value hvalue hlex
    refine outcome_bind_eq_ok.trans ⟨?_, ?_⟩
    · rintro ⟨truth, mid, htruth, hpure⟩
      cases hpure
      obtain ⟨hwritten, hleft⟩ := hread.mp htruth
      exact ⟨⟨hwritten, rfl⟩, hleft⟩
    · rintro ⟨⟨hwritten, hcopy⟩, hleft⟩
      refine ⟨s'.token, left, hread.mpr ⟨hwritten, hleft⟩, ?_⟩
      exact congrArg (fun record => Except.ok (record, left)) hcopy.symm
  all_goals
    have hread {n : UInt64} {left : Bytes} :
        outcome (Json.natural numberKind) t = .ok (n, left) ↔
          value = [encode (printNatural n.toNat)] ∧ left = rest := natural_at_value hvalue hlex hrest
    refine outcome_bind_eq_ok.trans ⟨?_, ?_⟩
    · rintro ⟨n, mid, hn, hpure⟩
      cases hpure
      obtain ⟨hwritten, hleft⟩ := hread.mp hn
      exact ⟨⟨hwritten, rfl⟩, hleft⟩
    · rintro ⟨⟨hwritten, hcopy⟩, hleft⟩
      refine ⟨_, left, hread.mpr ⟨hwritten, hleft⟩, ?_⟩
      exact congrArg (fun record => Except.ok (record, left)) hcopy.symm

private theorem find?_reader_eq_none {key : String} (h : ∀ field : Field, key ≠ field.name) :
    (Field.all.map Field.reader).find? (·.name = key) = none := by
  rw [List.find?_eq_none]
  intro reader hreader
  obtain ⟨field, -, rfl⟩ := List.mem_map.mp hreader
  exact (decide_eq_false (h field).symm).trans_ne Bool.false_ne_true

private theorem outcome_recordMember_foreign {raw : Bytes} {key : String} (hkey : Spells raw key)
    (hforeign : ∀ field : Field, key ≠ field.name) (filling : Filling Snapshot) (mid : Bytes) :
    outcome (recordMember (Field.all.map Field.reader) filling) (raw ++ 0x22 :: mid) =
      outcome (do colon; skipValue; pure filling) mid := by
  rw [recordMember, outcome_bind_of_ok (outcome_string_eq_ok_iff.mpr ⟨raw, rfl, hkey⟩)]
  simp only [find?_reader_eq_none hforeign]

private theorem outcome_recordMember_field {raw : Bytes} {field : Field}
    (hkey : Spells raw field.name)
    (filling : Filling Snapshot) (mid : Bytes) :
    outcome (recordMember (Field.all.map Field.reader) filling) (raw ++ 0x22 :: mid) =
      if field.name ∈ filling.seen then .error (.duplicateField field.name)
      else outcome (do
        colon
        let record ← field.reader.fill filling.record
        pure ⟨record, field.name :: filling.seen⟩) mid := by
  rw [recordMember, outcome_bind_of_ok (outcome_string_eq_ok_iff.mpr ⟨raw, rfl, hkey⟩)]
  simp only [find?_reader field, List.contains_iff_mem]
  split <;> rfl

private theorem recordMember_eq_ok_iff (hkey : IsStringText member.key)
    (hvalue : IsValue member.value)
    (hlex : Lexes ([0x3A] :: member.value) mid rest) (hrest : NumberEnds rest) :
    outcome (recordMember (Field.all.map Field.reader) filling) (member.key ++ 0x22 :: mid) =
        .ok (next, left) ↔
      TakesMember filling member next ∧ left = rest := by
  obtain ⟨t, hlexColon, hlexValue⟩ := lexes_append_iff.mp
    (show Lexes ([[0x3A]] ++ member.value) mid rest from hlex)
  have hcolon := outcome_colon_eq_ok_iff.mpr hlexColon
  have hfill (s s' : Snapshot) (field : Field) (left : Bytes) :=
    @fill_at_value s s' t rest left _ hvalue hlexValue hrest field
  constructor
  · intro h
    obtain ⟨key, u, hstring, -⟩ := outcome_bind_eq_ok.mp h
    obtain ⟨raw, hraw, hspells⟩ := outcome_string_eq_ok_iff.mp hstring
    -- what was read as the key is the key that the grammar has here
    obtain ⟨rfl, -⟩ := hkey.append_quote_inj hspells.isStringText hraw
    by_cases hforeign : ∀ field : Field, key ≠ field.name
    · rw [outcome_recordMember_foreign hspells hforeign, outcome_bind_of_ok hcolon,
        outcome_bind_of_ok (hvalue.outcome_skipValue hlexValue hrest)] at h
      cases h
      exact ⟨.foreign hspells hforeign, rfl⟩
    · push Not at hforeign
      obtain ⟨field, rfl⟩ := hforeign
      rw [outcome_recordMember_field hspells] at h
      split at h
      case isTrue => cases h
      case isFalse hnew =>
        rw [outcome_bind_of_ok hcolon] at h
        obtain ⟨record, u, hrecord, hpure⟩ := outcome_bind_eq_ok.mp h
        cases hpure
        obtain ⟨⟨hwritten, hcopy⟩, hleft⟩ := (hfill _ _ field _).mp hrecord
        exact ⟨.field hspells hnew hwritten hcopy, hleft⟩
  · rintro ⟨htakes, rfl⟩
    cases htakes with
    | foreign hspells hforeign =>
      rw [outcome_recordMember_foreign hspells hforeign, outcome_bind_of_ok hcolon,
        outcome_bind_of_ok (hvalue.outcome_skipValue hlexValue hrest)]
      rfl
    | @field field record hspells hnew hwritten hcopy =>
      rw [outcome_recordMember_field hspells, if_neg hnew, outcome_bind_of_ok hcolon,
        outcome_bind_of_ok ((hfill _ _ field _).mpr ⟨⟨hwritten, hcopy⟩, rfl⟩)]
      rfl

private theorem exists_outcome_membersFrom (first : Bool)
    (hlex : Lexes (separated Frame.object.closing first ((member :: members).map Member.tokens))
      t rest) (filling : Filling Snapshot) :
    ∃ mid u, Lexes ([0x3A] :: member.value) mid u ∧
      Lexes (separated Frame.object.closing false (members.map Member.tokens)) u rest ∧
      outcome (membersFrom (Field.all.map Field.reader) (first, filling)) t =
        outcome (do
          let next ← recordMember (Field.all.map Field.reader) filling
          membersFrom (Field.all.map Field.reader) (false, next)) (member.key ++ 0x22 :: mid) := by
  -- up to the key of the first member and past the quote before it
  have hkey {v : Bytes} (hlex : Lexes (member.tokens ++
      separated Frame.object.closing false (members.map Member.tokens)) v rest) :
      ∃ mid u, Lexes ([0x3A] :: member.value) mid u ∧
        Lexes (separated Frame.object.closing false (members.map Member.tokens)) u rest ∧
        v.dropWhile isBlankByte = 0x22 :: (member.key ++ 0x22 :: mid) := by
    obtain ⟨u, hmember, hothers⟩ := lexes_append_iff.mp hlex
    obtain ⟨mid, hdrop, hmore⟩ := (lexes_cons_iff_dropWhile (by decide)).mp hmember
    rw [List.append_assoc] at hdrop
    exact ⟨mid, u, hmore, hothers, hdrop⟩
  cases first with
  | true =>
    obtain ⟨mid, u, hmore, hothers, hdrop⟩ := hkey hlex
    refine ⟨mid, u, hmore, hothers, ?_⟩
    rw [outcome_membersFrom_of_dropWhile hdrop]
    exact outcome_bind_of_ok (reads_iff_outcome.mp (memberStart_quote _)) _
  | false =>
    obtain ⟨v, hcomma, hlex⟩ := (lexes_cons_iff_dropWhile (by decide)).mp hlex
    obtain ⟨mid, u, hmore, hothers, hdrop⟩ := hkey hlex
    refine ⟨mid, u, hmore, hothers, ?_⟩
    rw [outcome_membersFrom_of_dropWhile hcomma]
    exact outcome_bind_of_ok (outcome_memberStart_comma hdrop) _

private theorem membersFrom_eq_ok_iff (hkeys : ∀ member ∈ members, IsStringText member.key)
    (hvalues : ∀ member ∈ members, IsValue member.value) (first : Bool)
    (hlex : Lexes (separated Frame.object.closing first (members.map Member.tokens)) t rest) :
    outcome (membersFrom (Field.all.map Field.reader) (first, filling)) t = .ok (final, left) ↔
      TakesMembers filling members final ∧ left = rest := by
  induction members generalizing t filling first with
  | nil =>
    have hclose : Lexes [[0x7D]] t rest := by
      cases first <;> exact hlex
    rw [outcome_membersFrom_of_dropWhile ((lexes_singleton_iff (by decide)).mp hclose)]
    constructor
    · intro h
      cases h
      exact ⟨.nil _, rfl⟩
    · rintro ⟨htakes, rfl⟩
      cases htakes
      rfl
  | cons member members ih =>
    obtain ⟨mid, u, hmember, hothers, hloop⟩ := exists_outcome_membersFrom first hlex filling
    have htake {next : Filling Snapshot} {v : Bytes} :
        outcome (recordMember (Field.all.map Field.reader) filling) (member.key ++ 0x22 :: mid) =
            .ok (next, v) ↔ TakesMember filling member next ∧ v = u :=
      recordMember_eq_ok_iff (hkeys member List.mem_cons_self)
        (hvalues member List.mem_cons_self) hmember (numberEnds_of_separated hothers)
    have hrest {next : Filling Snapshot} :
        outcome (membersFrom (Field.all.map Field.reader) (false, next)) u = .ok (final, left) ↔
          TakesMembers next members final ∧ left = rest :=
      ih (fun other hother => hkeys other (List.mem_cons_of_mem _ hother))
        (fun other hother => hvalues other (List.mem_cons_of_mem _ hother)) false hothers
    rw [hloop, outcome_bind_eq_ok]
    constructor
    · rintro ⟨next, v, hnext, hfinal⟩
      obtain ⟨htakes, rfl⟩ := htake.mp hnext
      obtain ⟨hmore, hleft⟩ := hrest.mp hfinal
      exact ⟨.cons htakes hmore, hleft⟩
    · rintro ⟨htakes, hleft⟩
      cases htakes with
      | cons hfirst hmore => exact ⟨_, u, htake.mpr ⟨hfirst, rfl⟩, hrest.mpr ⟨hmore, hleft⟩⟩

end Reading

/-! ## What members show -/

structure ShowsFrom (filling : Filling Snapshot) (members : List Member) (s : Snapshot) : Prop where
  texts : ∀ member ∈ members, ∃ key, Spells member.key key
  once : ∀ field : Field, members.Pairwise fun member other =>
    ¬ (Spells member.key field.name ∧ Spells other.key field.name)
  new : ∀ member ∈ members, ∀ field : Field, Spells member.key field.name →
    field.name ∉ filling.seen
  written : ∀ member ∈ members, ∀ field : Field, Spells member.key field.name →
    member.value = [encode (s.printField field)]
  absent : ∀ field : Field, (∀ member ∈ members, ¬ Spells member.key field.name) →
    s.get field = filling.record.get field

section Showing

variable {filling next final : Filling Snapshot} {member : Member} {members : List Member}
  {s s' : Snapshot}

private theorem get_empty (field : Field) : ({} : Snapshot).get field = 0 := by
  cases field <;> rfl

theorem showsFrom_empty_iff : ShowsFrom ⟨{}, []⟩ members s ↔ Shows members s := by
  constructor
  · intro h
    exact ⟨h.texts, h.once, h.written, fun field hfield => by
      rw [h.absent field hfield, get_empty]⟩
  · intro h
    exact ⟨h.texts, h.once, fun _ _ _ _ => List.not_mem_nil, h.written, fun field hfield => by
      rw [h.absent field hfield, get_empty]⟩

private theorem printField_congr {field : Field} (h : s.get field = s'.get field) :
    s.printField field = s'.printField field := by
  cases field
  case token => exact congrArg printBoolean (token_eq_of_get h)
  all_goals exact congrArg (fun n : UInt64 => printNatural n.toNat) h

theorem ShowsFrom.nil (filling : Filling Snapshot) : ShowsFrom filling [] filling.record :=
  ⟨by simp, fun _ => .nil, by simp, by simp, fun _ _ => rfl⟩

theorem showsFrom_cons_foreign {key : String} (hkey : Spells member.key key)
    (hforeign : ∀ field : Field, key ≠ field.name) :
    ShowsFrom filling (member :: members) s ↔ ShowsFrom filling members s := by
  have hnot (field : Field) : ¬ Spells member.key field.name := fun hname =>
    hforeign field (hkey.unique hname)
  constructor
  · intro h
    refine ⟨(List.forall_mem_cons.mp h.texts).2, fun field => (List.pairwise_cons.mp (h.once field)).2,
      (List.forall_mem_cons.mp h.new).2, (List.forall_mem_cons.mp h.written).2, fun field hfield => ?_⟩
    exact h.absent field (List.forall_mem_cons.mpr ⟨hnot field, hfield⟩)
  · intro h
    refine ⟨List.forall_mem_cons.mpr ⟨⟨key, hkey⟩, h.texts⟩, fun field => ?_,
      List.forall_mem_cons.mpr ⟨fun field hname => absurd hname (hnot field), h.new⟩,
      List.forall_mem_cons.mpr ⟨fun field hname => absurd hname (hnot field), h.written⟩,
      fun field hfield => h.absent field (List.forall_mem_cons.mp hfield).2⟩
    exact List.pairwise_cons.mpr ⟨fun _ _ hboth => hnot field hboth.1, h.once field⟩

theorem showsFrom_cons_field {field : Field} (hkey : Spells member.key field.name) :
    ShowsFrom filling (member :: members) s ↔
      field.name ∉ filling.seen ∧ member.value = [encode (s.printField field)] ∧
        ShowsFrom ⟨s.copyField filling.record field, field.name :: filling.seen⟩ members s := by
  have hnames {other : Field} (hother : Spells member.key other.name) : field = other :=
    Field.name_injective (hkey.unique hother)
  constructor
  · intro h
    refine ⟨h.new member List.mem_cons_self field hkey,
      h.written member List.mem_cons_self field hkey, (List.forall_mem_cons.mp h.texts).2,
      fun other => (List.pairwise_cons.mp (h.once other)).2, fun later hlater other hother => ?_,
      (List.forall_mem_cons.mp h.written).2, fun other hother => ?_⟩
    · rw [List.mem_cons, not_or]
      refine ⟨fun heq => ?_, h.new later (List.mem_cons_of_mem _ hlater) other hother⟩
      obtain rfl := Field.name_injective heq
      exact (List.pairwise_cons.mp (h.once other)).1 later hlater ⟨hkey, hother⟩
    · rw [get_copyField]
      split
      case isTrue heq => rfl
      case isFalse hne =>
        exact h.absent other (List.forall_mem_cons.mpr ⟨fun hname => hne (hnames hname), hother⟩)
  · rintro ⟨hnew, hwritten, h⟩
    refine ⟨List.forall_mem_cons.mpr ⟨⟨_, hkey⟩, h.texts⟩, fun other => ?_,
      List.forall_mem_cons.mpr ⟨fun other hother => ?_, fun later hlater other hother => ?_⟩,
      List.forall_mem_cons.mpr ⟨fun other hother => ?_, h.written⟩, fun other hother => ?_⟩
    · refine List.pairwise_cons.mpr ⟨fun later hlater hboth => ?_, h.once other⟩
      rw [← hnames hboth.1] at hboth
      exact h.new later hlater field hboth.2 List.mem_cons_self
    · rwa [← hnames hother]
    · exact fun hseen => h.new later hlater other hother (List.mem_cons_of_mem _ hseen)
    · rwa [← hnames hother]
    · obtain ⟨hfirst, hrest⟩ := List.forall_mem_cons.mp hother
      rw [h.absent other hrest, get_copyField, if_neg]
      rintro rfl
      exact hfirst hkey

private theorem copyField_congr {t : Snapshot} {field : Field} (h : s.get field = s'.get field) :
    s.copyField t field = s'.copyField t field := by
  apply ext_get
  intro other
  rw [get_copyField, get_copyField]
  split
  case isTrue heq => rw [← heq, h]
  case isFalse => rfl

private theorem exists_takesMembers_iff :
    (∃ final, TakesMembers filling members final ∧ final.record = s) ↔
      ShowsFrom filling members s := by
  induction members generalizing filling with
  | nil =>
    constructor
    · rintro ⟨final, htakes, rfl⟩
      cases htakes
      exact .nil filling
    · intro h
      exact ⟨filling, .nil filling, ext_get fun field => (h.absent field (by simp)).symm⟩
  | cons member members ih =>
    constructor
    · rintro ⟨final, htakes, rfl⟩
      cases htakes with
      | @cons _ next _ _ _ hfirst hmore =>
        have hrest := ih.mp ⟨final, hmore, rfl⟩
        cases hfirst with
        | foreign hkey hforeign => exact (showsFrom_cons_foreign hkey hforeign).mpr hrest
        | @field field record hkey hnew hvalue hrecord =>
          -- the other members do not name the field again
          have hkept : final.record.get field = record.get field := by
            refine hrest.absent field fun other hother hname => ?_
            exact hrest.new other hother field hname List.mem_cons_self
          refine (showsFrom_cons_field hkey).mpr ⟨hnew, ?_, ?_⟩
          · rw [hvalue, printField_congr hkept]
          · rwa [copyField_congr hkept, ← hrecord]
    · intro h
      -- every key spells a text, of a field or of none
      obtain ⟨key, hkey⟩ := h.texts member List.mem_cons_self
      by_cases hforeign : ∀ field : Field, key ≠ field.name
      · obtain ⟨final, hmore, hfinal⟩ := ih.mpr ((showsFrom_cons_foreign hkey hforeign).mp h)
        exact ⟨final, .cons (.foreign hkey hforeign) hmore, hfinal⟩
      · push Not at hforeign
        obtain ⟨field, rfl⟩ := hforeign
        obtain ⟨hnew, hwritten, hrest⟩ := (showsFrom_cons_field hkey).mp h
        obtain ⟨final, hmore, hfinal⟩ := ih.mpr hrest
        have hset : (s.copyField filling.record field).get field = s.get field := by
          rw [get_copyField, if_pos rfl]
        refine ⟨final, .cons (.field hkey hnew ?_ ?_) hmore, hfinal⟩
        · rw [hwritten, printField_congr hset]
        · rw [copyField_congr hset]

private theorem get_eq_of_encode_printField {field : Field}
    (h : encode (s.printField field) = encode (s'.printField field)) :
    s.get field = s'.get field := by
  have hends : NumberEnds [] := nofun
  have hread := reads_iff_outcome.mp (fill_printed s {} field [] hends)
  have hread' := reads_iff_outcome.mp (fill_printed s' {} field [] hends)
  rw [h, hread'] at hread
  have hcopy := congrArg (fun taken => taken.1.get field) (Except.ok.inj hread)
  simpa [get_copyField] using hcopy.symm

theorem Shows.unique (h : Shows members s) (h' : Shows members s') : s = s' := by
  apply ext_get
  intro field
  by_cases hnamed : ∃ member ∈ members, Spells member.key field.name
  · obtain ⟨member, hmember, hkey⟩ := hnamed
    have hvalues := (h.written member hmember field hkey).symm.trans
      (h'.written member hmember field hkey)
    exact get_eq_of_encode_printField (List.cons.inj hvalues).1
  · push Not at hnamed
    rw [h.absent field hnamed, h'.absent field hnamed]

end Showing

/-! ## Objects -/

section Objects

variable {members : List Member} {s : Snapshot} {body : Bytes}

private theorem outcome_reader_object {mid : Bytes}
    (hbrace : body.dropWhile isBlankByte = 0x7B :: mid) :
    outcome reader body =
      outcome (do
        let filling ← membersFrom (Field.all.map Field.reader) (true, ⟨{}, []⟩)
        pure filling.record) mid := by
  rw [reader, record, outcome_bind_of_ok (outcome_token body), hbrace]
  exact outcome_bind_of_ok (outcome_drop (0x7B :: mid)) _

theorem decodeLenient_eq_ok_iff (h : IsObject members body) :
    decodeLenient body = .ok s ↔ Shows members s := by
  obtain ⟨rest, hlex, hblank⟩ := h.text
  obtain ⟨mid, hbrace, hmembers⟩ := (lexes_cons_iff_dropWhile (by decide)).mp hlex
  have htakes {final : Filling Snapshot} {left : Bytes} :=
    @membersFrom_eq_ok_iff ⟨{}, []⟩ final members mid rest left h.keys h.values true hmembers
  rw [← showsFrom_empty_iff, ← exists_takesMembers_iff, decodeLenient, run_eq_ok_iff,
    outcome_reader_object hbrace]
  constructor
  · rintro ⟨left, hread, -⟩
    obtain ⟨final, u, hfinal, hpure⟩ := outcome_bind_eq_ok.mp hread
    cases hpure
    exact ⟨final, (htakes.mp hfinal).1, rfl⟩
  · rintro ⟨final, hfinal, rfl⟩
    exact ⟨rest, outcome_bind_eq_ok.mpr ⟨final, rest, htakes.mpr ⟨hfinal, rfl⟩, rfl⟩, hblank⟩

private theorem exists_value_of_fill {s s' : Snapshot} {field : Field} {t rest : Bytes}
    (h : outcome (field.reader.fill s) t = .ok (s', rest)) :
    ∃ value, IsValue value ∧ Lexes value t rest := by
  cases field
  case token =>
    obtain ⟨truth, mid, hread, hpure⟩ := outcome_bind_eq_ok.mp h
    cases hpure
    exact ⟨_, .scalar (.boolean truth), outcome_boolean_eq_ok_iff.mp hread⟩
  all_goals
    obtain ⟨n, mid, hread, hpure⟩ := outcome_bind_eq_ok.mp h
    cases hpure
    exact ⟨_, .scalar (isScalar_printNatural _), (outcome_natural_eq_ok_iff.mp hread).1⟩

private theorem exists_member_of_recordMember {filling next : Filling Snapshot} {t rest : Bytes}
    (h : outcome (recordMember (Field.all.map Field.reader) filling) t = .ok (next, rest)) :
    ∃ member : Member, IsStringText member.key ∧ IsValue member.value ∧
      Lexes member.tokens (0x22 :: t) rest := by
  have hmember {raw mid u : Bytes} {value : List Bytes} (hcolon : outcome colon mid = .ok ((), u))
      (hlex : Lexes value u rest) :
      Lexes (Member.tokens ⟨raw, value⟩) (0x22 :: (raw ++ 0x22 :: mid)) rest := by
    rw [← quote_append]
    exact .front (quote raw) ((outcome_colon_eq_ok_iff.mp hcolon).append hlex)
  obtain ⟨key, mid, hstring, -⟩ := outcome_bind_eq_ok.mp h
  obtain ⟨raw, rfl, hspells⟩ := outcome_string_eq_ok_iff.mp hstring
  by_cases hforeign : ∀ field : Field, key ≠ field.name
  · rw [outcome_recordMember_foreign hspells hforeign] at h
    obtain ⟨⟨⟩, u, hcolon, hvalue⟩ := outcome_bind_eq_ok.mp h
    obtain ⟨⟨⟩, v, hskip, hpure⟩ := outcome_bind_eq_ok.mp hvalue
    cases hpure
    obtain ⟨value, hisValue, hlex⟩ := exists_value_of_skipValue hskip
    exact ⟨⟨raw, value⟩, hspells.isStringText, hisValue, hmember hcolon hlex⟩
  · push Not at hforeign
    obtain ⟨field, rfl⟩ := hforeign
    rw [outcome_recordMember_field hspells] at h
    split at h
    case isTrue => cases h
    case isFalse =>
      obtain ⟨⟨⟩, u, hcolon, hvalue⟩ := outcome_bind_eq_ok.mp h
      obtain ⟨record, v, hfill, hpure⟩ := outcome_bind_eq_ok.mp hvalue
      cases hpure
      obtain ⟨value, hisValue, hlex⟩ := exists_value_of_fill hfill
      exact ⟨⟨raw, value⟩, hspells.isStringText, hisValue, hmember hcolon hlex⟩

private theorem exists_members_of_rounds {state : Bool × Filling Snapshot}
    {final : Filling Snapshot}
    {t rest : Bytes}
    (h : Rounds (memberRound (Field.all.map Field.reader)) state t final rest) :
    ∃ members : List Member, (∀ member ∈ members, IsStringText member.key ∧ IsValue member.value) ∧
      Lexes (separated Frame.object.closing state.1 (members.map Member.tokens)) t rest := by
  induction h with
  | @answer state b t rest final h =>
    rw [memberRound] at h
    split at h
    case isTrue => cases h
    case isFalse =>
      obtain ⟨more, u, hstart, hround⟩ := outcome_bind_eq_ok.mp h
      cases more with
      | true =>
        obtain ⟨_, _, -, hpure⟩ := outcome_bind_eq_ok.mp hround
        cases hpure
      | false =>
        cases hround
        obtain ⟨rfl, rfl⟩ := memberStart_eq_false hstart
        refine ⟨[], by simp, ?_⟩
        cases state.1 <;> exact lexes_singleton [0x7D] _
  | @round state state' b t mid rest final h _ ih =>
    obtain ⟨members, hmembers, hlex⟩ := ih
    rw [memberRound] at h
    split at h
    case isTrue hblank =>
      cases h
      -- blanks belong to the next token, and there is one, be it the brace
      have hitems : ∀ item ∈ members.map Member.tokens, Frame.object.IsItem item := by
        intro item hitem
        obtain ⟨member, hmember, rfl⟩ := List.mem_map.mp hitem
        exact ⟨member, rfl, hmembers member hmember⟩
      obtain ⟨token, tokens, heq⟩ := separated_ne_nil hitems state.1
      rw [heq] at hlex
      exact ⟨members, hmembers, heq ▸ hlex.blank hblank⟩
    case isFalse =>
      obtain ⟨more, u, hstart, hround⟩ := outcome_bind_eq_ok.mp h
      cases more with
      | false => cases hround
      | true =>
        obtain ⟨next, v, hread, hpure⟩ := outcome_bind_eq_ok.mp hround
        cases hpure
        obtain ⟨member, hkey, hvalue, hmember⟩ := exists_member_of_recordMember hread
        refine ⟨member :: members, List.forall_mem_cons.mpr ⟨⟨hkey, hvalue⟩, hmembers⟩, ?_⟩
        rcases memberStart_eq_true hstart with ⟨hfirst, rfl, rfl⟩ | ⟨hfirst, rfl, hdrop⟩
        · rw [hfirst]
          exact hmember.append hlex
        · have hblanks := Lexes.of_dropWhile (hdrop ▸ hmember)
          rw [hfirst]
          exact .front [0x2C] (hblanks.append hlex)

private theorem exists_isObject_of_decodeLenient
    (hbrace : (body.dropWhile isBlankByte).head? = some 0x7B)
    (h : decodeLenient body = .ok s) : ∃ members, IsObject members body := by
  obtain ⟨rest, hread, hblank⟩ := run_eq_ok_iff.mp h
  obtain ⟨mid, hdrop⟩ := List.head?_eq_some_iff.mp hbrace
  rw [outcome_reader_object hdrop] at hread
  obtain ⟨final, u, hfinal, hpure⟩ := outcome_bind_eq_ok.mp hread
  cases hpure
  obtain ⟨members, hmembers, hlex⟩ := exists_members_of_rounds (outcome_loop_eq_ok_iff.mp hfinal)
  refine ⟨members, fun member hmember => (hmembers member hmember).1,
    fun member hmember => (hmembers member hmember).2, _, ?_, hblank⟩
  exact .of_dropWhile (hdrop ▸ .front [0x7B] hlex)

end Objects

theorem decode_lenient_eq_ok_iff {body : Bytes} {s : Snapshot} :
    decode .lenient body = .ok s ↔ decodeLenient body = .ok s := by
  rw [decode]
  cases decodeLenient body <;> simp

/-- An object that is accepted leniently invents nothing. Whatever its bytes are, it is an object of
the grammar, and its own members, however they are told apart, show the snapshot: no field is named
twice, a named field has exactly the value that is written there, the others are zero, and so the
members of nested objects do not matter. -/
theorem decode_lenient_shows {body : Bytes} {s : Snapshot} (h : decode .lenient body = .ok s)
    (hbrace : (body.dropWhile isBlankByte).head? = some 0x7B) :
    (∃ members, IsObject members body) ∧
      ∀ members, IsObject members body →
        Shows members s ∧ ∀ s', Shows members s' → s' = s := by
  have hdecode := decode_lenient_eq_ok_iff.mp h
  refine ⟨exists_isObject_of_decodeLenient hbrace hdecode, fun members hobject => ?_⟩
  have hshows := (decodeLenient_eq_ok_iff hobject).mp hdecode
  exact ⟨hshows, fun s' hs' => hs'.unique hshows⟩

private theorem dropWhile_payload (s : Snapshot) :
    (s.payload.toUTF8.toList.dropWhile isBlankByte).head? = some 0x7B := by
  have hprint := encode_printObject (Field.all.map fun field => (field.name, s.printField field)) []
  rw [List.append_nil] at hprint
  rw [payload, toList_toUTF8_ofList, hprint, List.dropWhile_cons_of_neg (by decide)]
  rfl

/-- The payload of a snapshot shows this snapshot and no other. -/
theorem decode_lenient_shows_payload :
    let s : Snapshot := { gas := 18446744073709551615, token := true }
    decode .lenient s.payload.toUTF8.toList = .ok s ∧
      (∃ members, IsObject members s.payload.toUTF8.toList) ∧
        ∀ members, IsObject members s.payload.toUTF8.toList →
          Shows members s ∧ ∀ s', Shows members s' → s' = s :=
  ⟨decode_payload .lenient _, decode_lenient_shows (decode_payload .lenient _) (dropWhile_payload _)⟩

end FleetTelemetry.Snapshot
