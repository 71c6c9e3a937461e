import FleetTelemetry.Proofs.Roster.Parsing

/-!
# Rosters of endpoints

A roster text whose records all describe endpoints is read as the roster of these endpoints. Reading
it and adding the endpoints one after another differ in nothing but the number that a taken name is
reported with: the number of the line in the text, or the position among the endpoints.
-/

namespace FleetTelemetry.Roster

def addNumbered : List (Endpoint × Nat) → Roster → Except RosterError Roster
  | [], roster => .ok roster
  | (e, number) :: rest, roster =>
    match roster.addLine number e with
    | .error fault => .error fault
    | .ok larger => addNumbered rest larger

/-- The endpoint at a place, counted from zero, is the first one whose name an endpoint before it
has. -/
structure FirstRepeat (endpoints : List Endpoint) (place : Nat) (e : Endpoint) : Prop where
  found : endpoints[place]? = some e
  before : ((endpoints.take place).map (·.name)).Nodup
  again : e.name ∈ (endpoints.take place).map (·.name)

section

variable {layout : RosterLayout} {lines : List (List Char × Nat)} {endpoints old : List Endpoint}
  {numbered more : List (Endpoint × Nat)} {roster larger : Roster} {record : List Char}
  {e : Endpoint} {place : Nat}

private theorem Describes.readRecord_eq (h : Describes layout record e) :
    readRecord layout record = .ok e := by
  have hspec := readRecord_spec layout record
  cases hread : readRecord layout record with
  | ok other =>
    rw [hread] at hspec
    rw [hspec.unique h]
  | error cause =>
    rw [hread] at hspec
    obtain ⟨check, hcause, -⟩ := hspec
    exact absurd hcause (h.passes check cause)

private theorem describes_of_readRecord (h : readRecord layout record = .ok e) :
    Describes layout record e := by
  have hspec := readRecord_spec layout record
  rwa [h] at hspec

/-! ## Both constructors as one loop -/

private theorem readRecords_eq (h : Describe layout lines endpoints) (roster : Roster) :
    readRecords layout lines roster =
      addNumbered (endpoints.zip (lines.map Prod.snd)) roster := by
  induction h generalizing roster with
  | nil => rfl
  | @cons line e lines endpoints hfirst _ ih =>
    rw [readRecords, hfirst.readRecord_eq, List.map_cons, List.zip_cons_cons, addNumbered]
    dsimp only
    cases roster.addLine line.2 e with
    | error fault => rfl
    | ok larger => exact ih larger

private theorem addAll_eq (position : Nat) (endpoints : List Endpoint) (roster : Roster) :
    addAll position endpoints roster =
      addNumbered (endpoints.zip (List.range' position endpoints.length)) roster := by
  induction endpoints generalizing position roster with
  | nil => rfl
  | cons e endpoints ih =>
    rw [addAll, List.length_cons, List.range'_succ, List.zip_cons_cons, addNumbered]
    cases roster.addLine position e with
    | error fault => rfl
    | ok larger => exact ih (position + 1) larger

/-! ## The first name that comes back -/

theorem FirstRepeat.append (h : FirstRepeat endpoints place e) (later : List Endpoint) :
    FirstRepeat (endpoints ++ later) place e := by
  obtain ⟨hlt, -⟩ := List.getElem?_eq_some_iff.mp h.found
  have htake : (endpoints ++ later).take place = endpoints.take place :=
    List.take_append_of_le_length (Nat.le_of_lt hlt)
  refine ⟨?_, htake ▸ h.before, htake ▸ h.again⟩
  rw [List.getElem?_append_left hlt]
  exact h.found

private theorem nodup_or_firstRepeat (endpoints : List Endpoint) :
    (endpoints.map (·.name)).Nodup ∨ ∃ place e, FirstRepeat endpoints place e := by
  induction endpoints using List.reverseRecOn with
  | nil => exact .inl List.nodup_nil
  | append_singleton endpoints e ih =>
    rcases ih with hnames | ⟨place, first, hfirst⟩
    · by_cases hmem : e.name ∈ endpoints.map (·.name)
      · have htake : (endpoints ++ [e]).take endpoints.length = endpoints := List.take_left
        exact .inr ⟨endpoints.length, e, by simp, htake.symm ▸ hnames, htake.symm ▸ hmem⟩
      · rw [List.map_append, List.map_singleton, ← List.concat_eq_append]
        exact .inl (hnames.concat hmem)
    · exact .inr ⟨place, first, hfirst.append [e]⟩

/-! ## What is added -/

private theorem addNumbered_append (numbered more : List (Endpoint × Nat)) (roster : Roster) :
    addNumbered (numbered ++ more) roster =
      addNumbered numbered roster >>= fun larger => addNumbered more larger := by
  induction numbered generalizing roster with
  | nil => rfl
  | cons first numbered ih =>
    rw [List.cons_append, addNumbered, addNumbered]
    cases roster.addLine first.2 first.1 with
    | error fault => rfl
    | ok larger => exact ih larger

private theorem Holds.exists_addNumbered (h : Holds roster old)
    (hnames : ((old ++ numbered.map Prod.fst).map (·.name)).Nodup) :
    ∃ larger, addNumbered numbered roster = .ok larger ∧
      Holds larger (old ++ numbered.map Prod.fst) := by
  induction numbered generalizing old roster with
  | nil => exact ⟨roster, rfl, by simpa using h⟩
  | cons first numbered ih =>
    have hnew : first.1.name ∉ old.map (·.name) := by
      intro hmem
      rw [List.map_append] at hnames
      exact (List.nodup_append.mp hnames).2.2 _ hmem _ (by simp) rfl
    obtain ⟨next, hadd, hnext⟩ := h.add?_of_not_mem hnew
    have hsplit : old ++ (first :: numbered).map Prod.fst =
        (old ++ [first.1]) ++ numbered.map Prod.fst := by simp
    rw [hsplit] at hnames ⊢
    obtain ⟨larger, hmore, hlarger⟩ := ih hnext hnames
    refine ⟨larger, ?_, hlarger⟩
    rw [addNumbered, addLine, hadd]
    exact hmore

private theorem addNumbered_of_firstRepeat {numbers : List Nat} {number : Nat}
    (h : FirstRepeat endpoints place e) (hlength : numbers.length = endpoints.length)
    (hnumber : numbers[place]? = some number) :
    addNumbered (endpoints.zip numbers) empty = .error (.duplicate number e.name) := by
  have hplace : (endpoints.zip numbers)[place]? = some (e, number) :=
    List.getElem?_zip_eq_some.mpr ⟨h.found, hnumber⟩
  obtain ⟨hlt, hget⟩ := List.getElem?_eq_some_iff.mp hplace
  have hfront : ((endpoints.zip numbers).take place).map Prod.fst = endpoints.take place := by
    rw [List.map_take, List.map_fst_zip (Nat.le_of_eq hlength.symm)]
  have hbefore := @Holds.exists_addNumbered [] ((endpoints.zip numbers).take place) _ holds_empty
  rw [List.nil_append, hfront] at hbefore
  obtain ⟨larger, hadd, hlarger⟩ := hbefore h.before
  rw [← List.take_append_drop place (endpoints.zip numbers), addNumbered_append, hadd,
    List.drop_eq_getElem_cons hlt, hget]
  have htaken : larger.addLine number e = .error (.duplicate number e.name) := by
    rw [addLine, hlarger.add?_of_mem h.again]
  have hrest (rest : List (Endpoint × Nat)) : addNumbered ((e, number) :: rest) larger =
      .error (.duplicate number e.name) := by
    rw [addNumbered, htaken]
  exact hrest _

private theorem ofEndpoints_of_nodup (hnames : (endpoints.map (·.name)).Nodup) :
    ∃ roster, ofEndpoints endpoints = .ok roster ∧ Holds roster endpoints := by
  have hfirsts : (endpoints.zip (List.range' 1 endpoints.length)).map Prod.fst = endpoints :=
    List.map_fst_zip (Nat.le_of_eq List.length_range'.symm)
  have hadd := @Holds.exists_addNumbered [] (endpoints.zip (List.range' 1 endpoints.length)) _
    holds_empty
  rw [List.nil_append, hfirsts] at hadd
  rw [ofEndpoints, addAll_eq]
  exact hadd hnames

private theorem ofEndpoints_of_firstRepeat (h : FirstRepeat endpoints place e) :
    ofEndpoints endpoints = .error (.duplicate (place + 1) e.name) := by
  obtain ⟨hlt, -⟩ := List.getElem?_eq_some_iff.mp h.found
  rw [ofEndpoints, addAll_eq]
  apply addNumbered_of_firstRepeat h List.length_range'
  rw [List.getElem?_range' hlt, Nat.one_mul, Nat.add_comm]

theorem holds_of_ofEndpoints (h : ofEndpoints endpoints = .ok roster) :
    (endpoints.map (·.name)).Nodup ∧ Holds roster endpoints := by
  rcases nodup_or_firstRepeat endpoints with hnames | ⟨place, e, hfirst⟩
  · obtain ⟨other, hother, hholds⟩ := ofEndpoints_of_nodup hnames
    cases h.symm.trans hother
    exact ⟨hnames, hholds⟩
  · rw [ofEndpoints_of_firstRepeat hfirst] at h
    cases h

/-! ## Both constructors -/

private theorem parse_of_nodup {text : String} (h : Describe layout (records text) endpoints)
    (hnames : (endpoints.map (·.name)).Nodup) (hholds : Holds roster endpoints) :
    parse layout text = .ok roster :=
  parse_eq_ok_iff.mpr ⟨endpoints, h, hnames, hholds⟩

private theorem parse_of_firstRepeat {text : String} {line : Nat}
    (h : Describe layout (records text) endpoints) (hfirst : FirstRepeat endpoints place e)
    (hline : (records text)[place]? = some (record, line)) :
    parse layout text = .error (.duplicate line e.name) := by
  have hnumber : ((records text).map Prod.snd)[place]? = some line := by
    rw [List.getElem?_map, hline]
    rfl
  rw [parse, readLines_eq]
  refine (readRecords_eq h empty).trans (addNumbered_of_firstRepeat hfirst ?_ hnumber)
  rw [List.length_map, h.length_eq]

theorem Holds.counts (h : Holds roster endpoints) (hnames : (endpoints.map (·.name)).Nodup) :
    roster.scaleCount = (roster.endpoints.countP fun e => e.nodeClass = .scale) ∧
      roster.sideCount = (roster.endpoints.countP fun e => e.nodeClass = .side) ∧
      roster.scaleCount + roster.sideCount = roster.size ∧
      ∀ name e, roster.get? name = some e → e.name = name := by
  have hperm := h.endpoints_perm hnames
  refine ⟨?_, ?_, h.scaleCount_add_sideCount hnames, fun name e hget => ?_⟩
  · rw [h.scaleCount, hperm.countP_eq]
  · rw [h.sideCount, hperm.countP_eq]
  · exact ((h.get?_iff name e).mp hget).2

end

/-- A text whose records describe endpoints gives the same as these endpoints: both give the same
roster, or both report the same name, the first one that comes back. Then the endpoints report the
place of the endpoint, and the text reports the line of the record at this place. Every roster that
is given either way counts its endpoints by class, and has each under its own name. -/
theorem parse_agrees_with_ofEndpoints {layout : RosterLayout} {text : String}
    {endpoints : List Endpoint}
    (h : List.Forall₂ (fun line e => Describes layout line.1 e) (records text) endpoints) :
    ((∃ roster, parse layout text = .ok roster ∧ ofEndpoints endpoints = .ok roster) ∨
      ∃ place e record line, endpoints[place]? = some e ∧
        (records text)[place]? = some (record, line) ∧
        ((endpoints.take place).map (·.name)).Nodup ∧
        e.name ∈ (endpoints.take place).map (·.name) ∧
        ofEndpoints endpoints = .error (.duplicate (place + 1) e.name) ∧
        parse layout text = .error (.duplicate line e.name)) ∧
    ∀ roster, (∃ layout text, parse layout text = .ok roster) ∨
        (∃ endpoints, ofEndpoints endpoints = .ok roster) →
      roster.scaleCount = (roster.endpoints.countP fun e => e.nodeClass = .scale) ∧
      roster.sideCount = (roster.endpoints.countP fun e => e.nodeClass = .side) ∧
      roster.scaleCount + roster.sideCount = roster.size ∧
      ∀ name e, roster.get? name = some e → e.name = name := by
  constructor
  · rcases nodup_or_firstRepeat endpoints with hnames | ⟨place, e, hfirst⟩
    · obtain ⟨roster, hroster, hholds⟩ := ofEndpoints_of_nodup hnames
      exact .inl ⟨roster, parse_of_nodup h hnames hholds, hroster⟩
    · obtain ⟨hlt, -⟩ := List.getElem?_eq_some_iff.mp hfirst.found
      rw [← h.length_eq] at hlt
      have hline : (records text)[place]? =
          some ((records text)[place].1, (records text)[place].2) := List.getElem?_eq_getElem hlt
      exact .inr ⟨place, e, _, _, hfirst.found, hline, hfirst.before, hfirst.again,
        ofEndpoints_of_firstRepeat hfirst, parse_of_firstRepeat h hfirst hline⟩
  · rintro roster (⟨layout, text, hparse⟩ | ⟨endpoints, hadd⟩)
    · obtain ⟨endpoints, -, hnames, hholds⟩ := parse_eq_ok_iff.mp hparse
      exact hholds.counts hnames
    · obtain ⟨hnames, hholds⟩ := holds_of_ofEndpoints hadd
      exact hholds.counts hnames

/-- A roster text with a comment and an empty line in it, and a name that comes back. -/
def repeatingText : String :=
  "# nodes\na,1,h,6000,7000,0\n\n b,2,h,6000,7001,1\na,3,i,6000,7002,1\n"

def repeatingEndpoints : List Endpoint :=
  [⟨"a", .side, "http://h:7000/telematics/snapshot"⟩,
    ⟨"b", .scale, "http://h:7001/telematics/snapshot"⟩,
    ⟨"a", .scale, "http://i:7002/telematics/snapshot"⟩]

private theorem records_repeatingText : records repeatingText =
    [("a,1,h,6000,7000,0".toList, 2), ("b,2,h,6000,7001,1".toList, 4),
      ("a,3,i,6000,7002,1".toList, 5)] := by
  decide +kernel

private theorem describe_repeatingText :
    Describe {} (records repeatingText) repeatingEndpoints := by
  rw [records_repeatingText]
  exact .cons (describes_of_readRecord rfl)
    (.cons (describes_of_readRecord rfl) (.cons (describes_of_readRecord rfl) .nil))

/-- The third endpoint is on the fifth line. -/
theorem parse_agrees_with_ofEndpoints_repeating :
    List.Forall₂ (fun line e => Describes {} line.1 e) (records repeatingText)
      repeatingEndpoints ∧
    ofEndpoints repeatingEndpoints = .error (.duplicate 3 "a") ∧
    parse {} repeatingText = .error (.duplicate 5 "a") := by
  have hthird : ofEndpoints repeatingEndpoints = .error (.duplicate 3 "a") := rfl
  refine ⟨describe_repeatingText, hthird, ?_⟩
  rcases (parse_agrees_with_ofEndpoints describe_repeatingText).1 with
    ⟨roster, -, hroster⟩ | ⟨place, e, record, line, -, hline, -, -, hadd, hparse⟩
  · cases hthird.symm.trans hroster
  · obtain ⟨hplace, hname⟩ : 3 = place + 1 ∧ "a" = e.name := by
      simpa using hthird.symm.trans hadd
    obtain rfl : place = 2 := Nat.succ.inj hplace.symm
    rw [records_repeatingText] at hline
    cases hline
    rw [hparse, ← hname]

end FleetTelemetry.Roster
