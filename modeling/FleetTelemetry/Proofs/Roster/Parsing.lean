import FleetTelemetry.Proofs.Roster.Contents
import FleetTelemetry.Proofs.Roster.Records
import FleetTelemetry.Roster.Parser
import Mathlib.Data.List.Forall2

/-!
# What a roster text gives

The records of a text are its lines without empty ones and comments, each with its number among all
lines. The text is a roster when every record describes an endpoint and no name comes twice, and
then the roster holds these endpoints. Otherwise the fault that is told stands on the first line
that has one, and is the fault of the first check that this line does not pass.
-/

namespace FleetTelemetry.Roster

open Text

/-- The lines of a text that are neither empty nor comments when they are trimmed, with their
numbers counted from one. -/
def records (text : String) : List (List Char × Nat) :=
  (((lines text.toList).map trimChars).zipIdx 1).filter fun line =>
    line.1 ≠ [] ∧ line.1.head? ≠ some '#'

def readRecords (layout : RosterLayout) :
    List (List Char × Nat) → Roster → Except RosterError Roster
  | [], roster => .ok roster
  | (record, line) :: rest, roster =>
    match readRecord layout record with
    | .error cause => .error (.record line cause)
    | .ok endpoint =>
      match roster.addLine line endpoint with
      | .error fault => .error fault
      | .ok larger => readRecords layout rest larger

/-- What stands against the record of a line at some check: a cause against the record itself, or a
line before that has the same name. -/
inductive HasFault (layout : RosterLayout) (lines : List (List Char × Nat)) :
    Nat → Check → RosterError → Prop where
  | record {record : List Char} {line : Nat} {check : Check} {cause : RecordError}
      (hmem : (record, line) ∈ lines) (h : HasCause layout record check cause) :
      HasFault layout lines line check (.record line cause)
  | duplicate {record earlier name : List Char} {line before : Nat} (hmem : (record, line) ∈ lines)
      (hearlier : (earlier, before) ∈ lines) (hbefore : before < line)
      (hname : column? layout record .name = some name)
      (hsame : column? layout earlier .name = some name) :
      HasFault layout lines line .taken (.duplicate line (String.ofList name))

/-- The fault on the first line that has one, and of the first check that this line does not pass.
-/
def FirstFault (layout : RosterLayout) (lines : List (List Char × Nat)) (fault : RosterError) :
    Prop :=
  ∃ line check, HasFault layout lines line check fault ∧
    ∀ line' check' fault', HasFault layout lines line' check' fault' →
      line < line' ∨ line = line' ∧ check.rank ≤ check'.rank

/-! ## Lines and records -/

private theorem isSignificant_iff (record : List Char) :
    isSignificant record = decide (record ≠ [] ∧ record.head? ≠ some '#') := by
  cases record <;> simp [isSignificant]

theorem readLines_eq (layout : RosterLayout) (first : Nat) (texts : List (List Char))
    (roster : Roster) : readLines layout first texts roster =
      readRecords layout (((texts.map trimChars).zipIdx first).filter fun line =>
        line.1 ≠ [] ∧ line.1.head? ≠ some '#') roster := by
  induction texts generalizing first roster with
  | nil => rfl
  | cons text texts ih =>
    rw [readLines, List.map_cons, List.zipIdx_cons, List.filter_cons, ← isSignificant_iff]
    split
    · rw [readRecords]
      cases readRecord layout (trimChars text) with
      | error cause => rfl
      | ok e =>
        dsimp only
        cases roster.addLine first e with
        | error fault => rfl
        | ok larger => exact ih (first + 1) larger
    · exact ih (first + 1) roster

theorem pairwise_records (text : String) : (records text).Pairwise fun a b => a.2 < b.2 := by
  have hnumbers (texts : List (List Char)) :
      (texts.zipIdx 1).Pairwise fun a b => a.2 < b.2 := by
    have hrange : ((texts.zipIdx 1).map Prod.snd).Pairwise (· < ·) := by
      rw [List.zipIdx_map_snd]
      exact List.pairwise_lt_range'
    exact List.pairwise_map.mp hrange
  exact (hnumbers _).filter _

/-! ## Lines that have no fault -/

section

variable {layout : RosterLayout} {before after : List (List Char × Nat)}
  {endpoints endpoints' : List Endpoint} {line : Nat} {check : Check} {fault fault' : RosterError}

/-- The records of some endpoints, one after another. -/
abbrev Describe (layout : RosterLayout) (lines : List (List Char × Nat))
    (endpoints : List Endpoint) : Prop :=
  List.Forall₂ (fun line e => Describes layout line.1 e) lines endpoints

theorem Describe.names (h : Describe layout before endpoints) :
    before.map (fun line => column? layout line.1 .name) =
      (endpoints.map (·.name)).map fun name => some name.toList := by
  induction h with
  | nil => rfl
  | cons hfirst _ ih => rw [List.map_cons, hfirst.name, ih, List.map_cons, List.map_cons]

theorem Describe.nodup_iff (h : Describe layout before endpoints) :
    (before.map fun line => column? layout line.1 .name).Nodup ↔
      (endpoints.map (·.name)).Nodup := by
  rw [h.names]
  refine List.nodup_map_iff fun name name' hsame => ?_
  exact String.toList_inj.mp (Option.some.inj hsame)

theorem Describe.unique (h : Describe layout before endpoints)
    (h' : Describe layout before endpoints') : endpoints = endpoints' := by
  induction h generalizing endpoints' with
  | nil =>
    cases h'
    rfl
  | cons hfirst _ ih =>
    cases h' with
    | cons hfirst' hrest' => rw [hfirst.unique hfirst', ih hrest']

theorem Describe.describes (h : Describe layout before endpoints) {record : List Char}
    (hmem : (record, line) ∈ before) : ∃ e, Describes layout record e := by
  induction h with
  | nil => cases hmem
  | @cons _ e _ _ hfirst _ ih =>
    rcases List.mem_cons.mp hmem with rfl | hmem
    · exact ⟨e, hfirst⟩
    · exact ih hmem

theorem Describe.not_hasFault (h : Describe layout before endpoints)
    (hnames : (endpoints.map (·.name)).Nodup) : ¬ HasFault layout before line check fault := by
  intro hfault
  cases hfault with
  | record hmem hcause =>
    obtain ⟨e, he⟩ := h.describes hmem
    exact he.passes _ _ hcause
  | duplicate hmem hearlier hlt hname hsame =>
    have heq := List.inj_on_of_nodup_map (h.nodup_iff.mpr hnames) hmem hearlier
      (hname.trans hsame.symm)
    cases heq
    exact Nat.lt_irrefl _ hlt

private theorem HasFault.of_append (h : HasFault layout (before ++ after) line check fault)
    (hafter : ∀ other ∈ after, line < other.2) : HasFault layout before line check fault := by
  have hfront {record : List Char} {number : Nat} (hmem : (record, number) ∈ before ++ after)
      (hle : number ≤ line) : (record, number) ∈ before := by
    rcases List.mem_append.mp hmem with hbefore | hlater
    · exact hbefore
    · exact absurd (hafter _ hlater) (Nat.not_lt.mpr hle)
  cases h with
  | record hmem hcause => exact .record (hfront hmem (Nat.le_refl _)) hcause
  | duplicate hmem hearlier hlt hname hsame =>
    exact .duplicate (hfront hmem (Nat.le_refl _)) (hfront hearlier (Nat.le_of_lt hlt)) hlt hname
      hsame

private theorem record_eq_of_line {lines : List (List Char × Nat)}
    (hlines : lines.Pairwise fun a b => a.2 < b.2) {record record' : List Char}
    (hmem : (record, line) ∈ lines) (hmem' : (record', line) ∈ lines) : record = record' := by
  have hnumbers : (lines.map Prod.snd).Nodup := by
    have hlt : (lines.map Prod.snd).Pairwise (· < ·) := List.pairwise_map.mpr hlines
    exact hlt.imp Nat.ne_of_lt
  exact congrArg Prod.fst (List.inj_on_of_nodup_map hnumbers hmem hmem' rfl)

theorem HasFault.unique {lines : List (List Char × Nat)}
    (hlines : lines.Pairwise fun a b => a.2 < b.2) (h : HasFault layout lines line check fault)
    (h' : HasFault layout lines line check fault') : fault = fault' := by
  cases h with
  | record hmem hcause =>
    cases h' with
    | record hmem' hcause' =>
      cases record_eq_of_line hlines hmem hmem'
      rw [hcause.unique hcause']
    | duplicate => cases hcause
  | duplicate hmem _ _ hname _ =>
    cases h' with
    | record hmem' hcause' => cases hcause'
    | duplicate hmem' _ _ hname' _ =>
      cases record_eq_of_line hlines hmem hmem'
      cases hname.symm.trans hname'
      rfl

theorem FirstFault.unique {lines : List (List Char × Nat)}
    (hlines : lines.Pairwise fun a b => a.2 < b.2) (h : FirstFault layout lines fault)
    (h' : FirstFault layout lines fault') : fault = fault' := by
  obtain ⟨line, check, hfault, hfirst⟩ := h
  obtain ⟨line', check', hfault', hfirst'⟩ := h'
  have hle := hfirst line' check' fault' hfault'
  have hge := hfirst' line check fault hfault
  cases show line = line' by omega
  have hcheck : check = check' := Check.eq_of_rank (by omega)
  cases hcheck
  exact hfault.unique hlines hfault'

/-! ## Reading the records -/

/-- The fault of the line after those that describe endpoints with different names is the first
one when nothing stands against this line at an earlier check. -/
theorem firstFault_of_line {record : List Char} (h : Describe layout before endpoints)
    (hnames : (endpoints.map (·.name)).Nodup)
    (hlines : (before ++ (record, line) :: after).Pairwise fun a b => a.2 < b.2)
    (hfault : HasFault layout (before ++ (record, line) :: after) line check fault)
    (hpasses : ∀ other, other.rank < check.rank → Passes layout record other) :
    FirstFault layout (before ++ (record, line) :: after) fault := by
  have hmem : (record, line) ∈ before ++ (record, line) :: after := by simp
  refine ⟨line, check, hfault, fun line' check' fault' hfault' => ?_⟩
  obtain ⟨-, hlater, -⟩ := List.pairwise_append.mp hlines
  -- A fault on an earlier line would be one of the lines that describe endpoints.
  have hle : line ≤ line' := by
    refine Nat.le_of_not_lt fun hlt => h.not_hasFault hnames (hfault'.of_append ?_)
    intro other hother
    rcases List.mem_cons.mp hother with rfl | hother
    · exact hlt
    · exact Nat.lt_trans hlt ((List.pairwise_cons.mp hlater).1 other hother)
  rcases Nat.lt_or_eq_of_le hle with hlt | rfl
  · exact .inl hlt
  · refine .inr ⟨rfl, Nat.le_of_not_lt fun hlt => ?_⟩
    cases hfault' with
    | record hmem' hcause =>
      cases record_eq_of_line hlines hmem' hmem
      exact hpasses _ hlt _ hcause
    | duplicate => exact absurd check.rank_le (Nat.not_le.mpr hlt)

private theorem readRecords_spec {roster : Roster} (h : Describe layout before endpoints)
    (hnames : (endpoints.map (·.name)).Nodup) (hholds : Holds roster endpoints)
    (hlines : (before ++ after).Pairwise fun a b => a.2 < b.2) :
    match readRecords layout after roster with
    | .ok larger => ∃ all, Describe layout (before ++ after) all ∧ (all.map (·.name)).Nodup ∧
      Holds larger all
    | .error fault => FirstFault layout (before ++ after) fault := by
  -- the roster holds the endpoints of the records before, and these have no fault
  induction after generalizing before endpoints roster with
  | nil => exact ⟨endpoints, by rwa [List.append_nil], hnames, hholds⟩
  | cons current after ih =>
    obtain ⟨record, line⟩ := current
    have hmem : (record, line) ∈ before ++ (record, line) :: after := by simp
    have hspec := readRecord_spec layout record
    rw [readRecords]
    cases hread : readRecord layout record with
    | error cause =>
      rw [hread] at hspec
      obtain ⟨check, hcause, hpasses⟩ := hspec
      exact firstFault_of_line h hnames hlines (.record hmem hcause) hpasses
    | ok e =>
      rw [hread] at hspec
      dsimp only
      by_cases htaken : e.name ∈ endpoints.map (·.name)
      · -- Some line before has the name.
        have hname : column? layout record .name ∈
            before.map fun line => column? layout line.1 .name := by
          rw [h.names, hspec.name]
          exact List.mem_map_of_mem htaken
        obtain ⟨⟨earlier, number⟩, hearlier, hsame⟩ := List.mem_map.mp hname
        have hlt : number < line :=
          (List.pairwise_append.mp hlines).2.2 _ hearlier (record, line) List.mem_cons_self
        have hfault := HasFault.duplicate hmem (List.mem_append_left _ hearlier) hlt hspec.name
          (hsame.trans hspec.name)
        rw [String.ofList_toList] at hfault
        rw [addLine, hholds.add?_of_mem htaken]
        exact firstFault_of_line h hnames hlines hfault fun other _ => hspec.passes other
      · obtain ⟨larger, hadd, hlarger⟩ := hholds.add?_of_not_mem htaken
        rw [addLine, hadd]
        have hall : Describe layout (before ++ [(record, line)]) (endpoints ++ [e]) :=
          List.rel_append h (.cons hspec .nil)
        have hdifferent : ((endpoints ++ [e]).map (·.name)).Nodup := by
          rw [List.map_append, List.map_singleton, ← List.concat_eq_append]
          exact hnames.concat htaken
        have hmore := ih hall hdifferent hlarger (by simpa using hlines)
        rwa [List.append_assoc, List.singleton_append] at hmore

private theorem parse_spec (layout : RosterLayout) (text : String) :
    match parse layout text with
    | .ok roster => ∃ endpoints, Describe layout (records text) endpoints ∧
      (endpoints.map (·.name)).Nodup ∧ Holds roster endpoints
    | .error fault => FirstFault layout (records text) fault := by
  rw [parse, readLines_eq]
  exact readRecords_spec .nil .nil holds_empty (pairwise_records text)

end

/-! ## Texts of rosters -/

theorem not_hasFault {layout : RosterLayout} {lines : List (List Char × Nat)}
    (hformed : ∀ line ∈ lines, WellFormed layout line.1)
    (hnames : (lines.map fun line => column? layout line.1 .name).Nodup) {line : Nat}
    {check : Check} {fault : RosterError} : ¬ HasFault layout lines line check fault := by
  intro hfault
  cases hfault with
  | record hmem hcause =>
    obtain ⟨e, he⟩ := wellFormed_iff.mp (hformed _ hmem)
    exact he.passes check _ hcause
  | duplicate hmem hearlier hlt hname hsame =>
    cases List.inj_on_of_nodup_map hnames hmem hearlier (hname.trans hsame.symm)
    exact Nat.lt_irrefl _ hlt

section

variable {layout : RosterLayout} {text : String}

theorem parse_eq_ok_iff {roster : Roster} : parse layout text = .ok roster ↔
    ∃ endpoints, Describe layout (records text) endpoints ∧
      (endpoints.map (·.name)).Nodup ∧ Holds roster endpoints := by
  have hspec := parse_spec layout text
  constructor
  · intro hparse
    rwa [hparse] at hspec
  · rintro ⟨endpoints, hdescribe, hnames, hholds⟩
    cases hparse : parse layout text with
    | ok other =>
      rw [hparse] at hspec
      obtain ⟨endpoints', hdescribe', -, hholds'⟩ := hspec
      cases hdescribe.unique hdescribe'
      rw [hholds'.ext hholds]
    | error fault =>
      rw [hparse] at hspec
      obtain ⟨line, check, hfault, -⟩ := hspec
      exact absurd hfault (hdescribe.not_hasFault hnames)

theorem parse_eq_error_iff {fault : RosterError} :
    parse layout text = .error fault ↔ FirstFault layout (records text) fault := by
  have hspec := parse_spec layout text
  constructor
  · intro hparse
    rwa [hparse] at hspec
  · intro hfirst
    cases hparse : parse layout text with
    | ok roster =>
      rw [hparse] at hspec
      obtain ⟨endpoints, hdescribe, hnames, -⟩ := hspec
      obtain ⟨line, check, hfault, -⟩ := hfirst
      exact absurd hfault (hdescribe.not_hasFault hnames)
    | error other =>
      rw [hparse] at hspec
      rw [hspec.unique (pairwise_records text) hfirst]

theorem exists_parse_iff : (∃ roster, parse layout text = .ok roster) ↔
    (∀ line ∈ records text, WellFormed layout line.1) ∧
      ((records text).map fun line => column? layout line.1 .name).Nodup := by
  constructor
  · rintro ⟨roster, hparse⟩
    obtain ⟨endpoints, hdescribe, hnames, -⟩ := parse_eq_ok_iff.mp hparse
    refine ⟨fun line hline => wellFormed_iff.mpr (hdescribe.describes hline), ?_⟩
    exact hdescribe.nodup_iff.mpr hnames
  · rintro ⟨hformed, hnames⟩
    cases hparse : parse layout text with
    | ok roster => exact ⟨roster, rfl⟩
    | error fault =>
      obtain ⟨line, check, hfault, -⟩ := parse_eq_error_iff.mp hparse
      exact absurd hfault (not_hasFault hformed hnames)

end

/-- For every text and every layout: the text is read as a roster exactly when all its records are
well-formed and their names are different. What comes out is then the roster of the endpoints that
the records describe, one for each record, found under its name and listed in the order of the
bytes of the names, and it knows how many of them are in each class. Otherwise what comes out is
the fault on the first line that has one, and of the first check that this line does not pass. -/
theorem parse_exact (layout : RosterLayout) (text : String) :
    ((∃ roster, parse layout text = .ok roster) ↔
      (∀ line ∈ records text, WellFormed layout line.1) ∧
        ((records text).map fun line => column? layout line.1 .name).Nodup) ∧
    (∀ roster, parse layout text = .ok roster ↔ ∃ endpoints,
      List.Forall₂ (fun line e => Describes layout line.1 e) (records text) endpoints ∧
      (endpoints.map (·.name)).Nodup ∧
      (∀ name e, roster.get? name = some e ↔ e ∈ endpoints ∧ e.name = name) ∧
      roster.endpoints.Perm endpoints ∧
      roster.endpoints.map (·.name) = roster.names ∧
      roster.names.Pairwise ByteLess ∧
      roster.scaleCount = (endpoints.countP fun e => e.nodeClass = .scale) ∧
      roster.sideCount = (endpoints.countP fun e => e.nodeClass = .side) ∧
      roster.scaleCount + roster.sideCount = roster.size) ∧
    ∀ fault, parse layout text = .error fault ↔ FirstFault layout (records text) fault := by
  refine ⟨exists_parse_iff, fun roster => ?_, fun fault => parse_eq_error_iff⟩
  rw [parse_eq_ok_iff]
  constructor
  · rintro ⟨endpoints, hdescribe, hnames, h⟩
    exact ⟨endpoints, hdescribe, hnames, h.get?_iff, h.endpoints_perm hnames,
      h.map_name_endpoints, pairwise_byteLess_keys _, h.scaleCount, h.sideCount,
      h.scaleCount_add_sideCount hnames⟩
  · rintro ⟨endpoints, hdescribe, hnames, hget, -, -, -, hscale, hside, -⟩
    exact ⟨endpoints, hdescribe, hnames, hget, hscale, hside⟩

/-- Comments and empty lines count, and the port is looked at before the name that is taken. -/
example : parse {} "# nodes\n\nb,1,h,6000,7000,0\nb,2,h,6000,x,1\n" =
    .error (.record 4 (.invalidPort "x")) := by
  rfl

end FleetTelemetry.Roster
