import FleetTelemetry.Proofs.Text.Numerals
import FleetTelemetry.Roster.Record

/-!
# What a record describes

A record describes an endpoint when it has the fields that the layout asks for and they are sound.
Otherwise there are causes against it, at one or more of the checks that it has to pass, and reading
it tells the cause at the first of them.
-/

namespace FleetTelemetry.Roster

open Text

/-- The text in a column of a record. -/
def column? (layout : RosterLayout) (record : List Char) (column : RosterColumn) :
    Option (List Char) :=
  (fields record)[layout.column column]?

/-- A record of an endpoint: it has as many fields as it should, its name and its host are not
empty, and its port has sixteen bits. -/
structure Describes (layout : RosterLayout) (record : List Char) (e : Endpoint) : Prop where
  arity : (fields record).length = layout.arity
  name : column? layout record .name = some e.name.toList
  named : e.name.toList ≠ []
  url : ∃ host text port, column? layout record .host = some host ∧ host ≠ [] ∧
    column? layout record .port = some text ∧ IsNumeral text port ∧ port < 65536 ∧
    e.url = "http://" ++ String.ofList host ++ ":" ++ decimalString port ++ layout.snapshotPath
  nodeClass : ∃ marker, column? layout record .marker = some marker ∧
    (e.nodeClass = .side ↔ String.ofList marker = "0")

/-- A record that describes some endpoint. -/
structure WellFormed (layout : RosterLayout) (record : List Char) : Prop where
  arity : (fields record).length = layout.arity
  columns : ∀ column, layout.column column < (fields record).length
  name : column? layout record .name ≠ some []
  host : column? layout record .host ≠ some []
  port : ∃ text port, column? layout record .port = some text ∧ IsNumeral text port ∧ port < 65536

inductive Check where
  | arity
  | column (column : RosterColumn)
  | taken
  deriving DecidableEq

def Check.rank : Check → Nat
  | .arity => 0
  | .column .name => 1
  | .column .host => 2
  | .column .port => 3
  | .column .marker => 4
  | .taken => 5

theorem Check.eq_of_rank {check check' : Check} (h : check.rank = check'.rank) :
    check = check' := by
  rcases check with _ | (_ | _ | _ | _) | _ <;> rcases check' with _ | (_ | _ | _ | _) | _ <;>
    first | rfl | cases h

theorem Check.rank_le (check : Check) : check.rank ≤ Check.taken.rank := by
  rcases check with _ | (_ | _ | _ | _) | _ <;> decide

/-- What stands against a record at some check. -/
inductive HasCause (layout : RosterLayout) (record : List Char) : Check → RecordError → Prop where
  | arity (h : (fields record).length ≠ layout.arity) :
      HasCause layout record .arity (.arity layout.arity (fields record).length)
  | outOfRange {column : RosterColumn} (h : column? layout record column = none) :
      HasCause layout record (.column column) (.columnOutOfRange column (layout.column column))
  | emptyName (h : column? layout record .name = some []) :
      HasCause layout record (.column .name) .emptyName
  | emptyHost {name : List Char} (hname : column? layout record .name = some name)
      (h : column? layout record .host = some []) :
      HasCause layout record (.column .host) (.emptyHost (String.ofList name))
  | invalidPort {text : List Char} (h : column? layout record .port = some text)
      (hport : ∀ port, IsNumeral text port → 65536 ≤ port) :
      HasCause layout record (.column .port) (.invalidPort (String.ofList text))

section

variable {layout : RosterLayout} {record : List Char} {check : Check}
  {cause cause' : RecordError} {e e' : Endpoint}

theorem column?_eq_none_iff {column : RosterColumn} :
    column? layout record column = none ↔ (fields record).length ≤ layout.column column :=
  List.getElem?_eq_none_iff

theorem HasCause.unique (h : HasCause layout record check cause)
    (h' : HasCause layout record check cause') : cause = cause' := by
  cases h <;> cases h' <;> simp_all

/-! ## Records that pass -/

def Passes (layout : RosterLayout) (record : List Char) (check : Check) : Prop :=
  ∀ cause, ¬ HasCause layout record check cause

private theorem passes_arity (h : (fields record).length = layout.arity) :
    Passes layout record .arity := by
  rintro _ ⟨hne⟩
  exact hne h

private theorem passes_name {name : List Char} (h : column? layout record .name = some name)
    (hne : name ≠ []) : Passes layout record (.column .name) := by
  intro cause hcause
  cases hcause <;> simp_all

private theorem passes_host {host : List Char} (h : column? layout record .host = some host)
    (hne : host ≠ []) : Passes layout record (.column .host) := by
  intro cause hcause
  cases hcause <;> simp_all

private theorem passes_port {text : List Char} {port : Nat}
    (h : column? layout record .port = some text)
    (hport : IsNumeral text port) (hlt : port < 65536) : Passes layout record (.column .port) := by
  intro cause hcause
  cases hcause with
  | outOfRange hnone => cases hnone.symm.trans h
  | invalidPort htext hbig =>
    cases htext.symm.trans h
    exact absurd (hbig port hport) (Nat.not_le.mpr hlt)

private theorem passes_marker {marker : List Char}
    (h : column? layout record .marker = some marker) :
    Passes layout record (.column .marker) := by
  intro cause hcause
  cases hcause with
  | outOfRange hnone => cases hnone.symm.trans h

private theorem passes_taken : Passes layout record .taken := nofun

theorem Describes.passes (h : Describes layout record e) (check : Check) :
    Passes layout record check := by
  obtain ⟨host, text, port, hhost, hne, htext, hport, hlt, -⟩ := h.url
  obtain ⟨marker, hmarker, -⟩ := h.nodeClass
  match check with
  | .arity => exact passes_arity h.arity
  | .column .name => exact passes_name h.name h.named
  | .column .host => exact passes_host hhost hne
  | .column .port => exact passes_port htext hport hlt
  | .column .marker => exact passes_marker hmarker
  | .taken => exact passes_taken

theorem Describes.unique (h : Describes layout record e) (h' : Describes layout record e') :
    e = e' := by
  obtain ⟨host, text, port, hhost, -, htext, hport, -, hurl⟩ := h.url
  obtain ⟨host', text', port', hhost', -, htext', hport', -, hurl'⟩ := h'.url
  obtain ⟨marker, hmarker, hclass⟩ := h.nodeClass
  obtain ⟨marker', hmarker', hclass'⟩ := h'.nodeClass
  have hname : e.name = e'.name :=
    String.toList_inj.mp (Option.some.inj (h.name.symm.trans h'.name))
  cases hhost.symm.trans hhost'
  cases htext.symm.trans htext'
  cases hport.unique hport'
  cases hmarker.symm.trans hmarker'
  have hurls : e.url = e'.url := hurl.trans hurl'.symm
  have hside : e.nodeClass = .side ↔ e'.nodeClass = .side := hclass.trans hclass'.symm
  have hclasses : e.nodeClass = e'.nodeClass := by
    cases hc : e.nodeClass <;> cases hc' : e'.nodeClass <;> simp_all
  cases e
  cases e'
  cases hname
  cases hclasses
  cases hurls
  rfl

/-! ## Reading a record -/

/-- The cause at the first check that a record does not pass. -/
def FirstCause (layout : RosterLayout) (record : List Char) (cause : RecordError) : Prop :=
  ∃ check, HasCause layout record check cause ∧
    ∀ other, other.rank < check.rank → Passes layout record other

private theorem ofMarker_eq_side_iff (marker : String) :
    NodeClass.ofMarker marker = .side ↔ marker = "0" := by
  unfold NodeClass.ofMarker
  split
  case isTrue h => simp [h]
  case isFalse h => simp [h]

private theorem field_eq (column : RosterColumn) : field layout (fields record) column =
    match column? layout record column with
    | some text => .ok text
    | none => .error (.columnOutOfRange column (layout.column column)) := rfl

theorem readRecord_spec (layout : RosterLayout) (record : List Char) :
    match readRecord layout record with
    | .ok e => Describes layout record e
    | .error cause => FirstCause layout record cause := by
  -- The checks that were passed so far are those of a smaller rank.
  have hnext {check : Check} (hbefore : ∀ other : Check, other.rank < check.rank →
      Passes layout record other) (hpass : Passes layout record check) (other : Check)
      (hother : other.rank < check.rank + 1) : Passes layout record other := by
    rcases Nat.lt_succ_iff_lt_or_eq.mp hother with hlt | heq
    · exact hbefore other hlt
    · exact Check.eq_of_rank heq ▸ hpass
  unfold readRecord
  simp only [field_eq, bind, Except.bind]
  by_cases harity : (fields record).length = layout.arity
  case neg =>
    rw [if_pos harity]
    exact ⟨.arity, .arity harity, nofun⟩
  rw [if_neg fun h => h harity]
  have h1 : ∀ other : Check, other.rank < 1 → Passes layout record other :=
    @hnext .arity nofun (passes_arity harity)
  cases hname : column? layout record .name with
  | none => exact ⟨.column .name, .outOfRange hname, h1⟩
  | some name =>
    dsimp only
    by_cases hnamed : name = []
    case pos =>
      rw [if_pos hnamed]
      exact ⟨.column .name, .emptyName (hnamed ▸ hname), h1⟩
    rw [if_neg hnamed]
    have h2 := @hnext (.column .name) h1 (passes_name hname hnamed)
    cases hhost : column? layout record .host with
    | none => exact ⟨.column .host, .outOfRange hhost, h2⟩
    | some host =>
      dsimp only
      by_cases hempty : host = []
      case pos =>
        rw [if_pos hempty]
        exact ⟨.column .host, .emptyHost hname (hempty ▸ hhost), h2⟩
      rw [if_neg hempty]
      have h3 := @hnext (.column .host) h2 (passes_host hhost hempty)
      cases htext : column? layout record .port with
      | none => exact ⟨.column .port, .outOfRange htext, h3⟩
      | some text =>
        dsimp only
        cases hport : below? portBound text with
        | none => exact ⟨.column .port, .invalidPort htext (below?_eq_none_iff.mp hport), h3⟩
        | some port =>
          obtain ⟨hnumeral, hlt⟩ := below?_eq_some_iff.mp hport
          have h4 := @hnext (.column .port) h3 (passes_port htext hnumeral hlt)
          cases hmarker : column? layout record .marker with
          | none => exact ⟨.column .marker, .outOfRange hmarker, h4⟩
          | some marker =>
            refine ⟨harity, ?_, ?_, ?_, ?_⟩
            · rw [hname, String.toList_ofList]
            · rwa [String.toList_ofList]
            · exact ⟨host, text, port, hhost, hempty, htext, hnumeral, hlt, rfl⟩
            · exact ⟨marker, hmarker, ofMarker_eq_side_iff _⟩

theorem wellFormed_iff : WellFormed layout record ↔ ∃ e, Describes layout record e := by
  constructor
  · intro h
    have hspec := readRecord_spec layout record
    cases hread : readRecord layout record with
    | ok e =>
      rw [hread] at hspec
      exact ⟨e, hspec⟩
    | error cause =>
      rw [hread] at hspec
      obtain ⟨check, hcause, -⟩ := hspec
      obtain ⟨text, port, htext, hport, hlt⟩ := h.port
      cases hcause with
      | arity hne => exact absurd h.arity hne
      | @outOfRange column hnone =>
        exact absurd (h.columns column) (Nat.not_lt.mpr (column?_eq_none_iff.mp hnone))
      | emptyName hname => exact absurd hname h.name
      | emptyHost _ hhost => exact absurd hhost h.host
      | invalidPort htext' hbig =>
        cases htext'.symm.trans htext
        exact absurd (hbig port hport) (Nat.not_le.mpr hlt)
  · rintro ⟨e, h⟩
    obtain ⟨host, text, port, hhost, hempty, htext, hport, hlt, -⟩ := h.url
    refine ⟨h.arity, fun column => ?_, ?_, ?_, text, port, htext, hport, hlt⟩
    · refine Nat.lt_of_not_le fun hle => ?_
      exact h.passes (.column column) _ (.outOfRange (column?_eq_none_iff.mpr hle))
    · exact fun hname => h.passes (.column .name) _ (.emptyName hname)
    · exact fun hnone => h.passes (.column .host) _ (.emptyHost h.name hnone)

end

end FleetTelemetry.Roster
