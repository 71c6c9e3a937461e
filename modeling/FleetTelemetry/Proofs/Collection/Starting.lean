import FleetTelemetry.Command.Run
import FleetTelemetry.Proofs.Fleet.Averaging
import FleetTelemetry.Proofs.Files.Writing
import FleetTelemetry.Proofs.Roster.Parsing

/-!
# Starts that fail before a file is made

What can stand against a start before its first directory is known from the settings and from the
text of the roster's file: a time between polls that cannot be read, a file that is no roster, a
roster without nodes, and a field whose divisor counts no node. The start fails with the first of
these, in this order, and leaves all files as they were; none of its tasks begins.
-/

namespace FleetTelemetry

open Roster (records Describe FirstFault)

def Divisor.among (endpoints : List Endpoint) : Divisor → Nat
  | .side => endpoints.countP fun e => e.nodeClass = .side
  | .scale => endpoints.countP fun e => e.nodeClass = .scale
  | .nodes => endpoints.length
  | .unit => 1

/-- What is looked at before the first directory is made. -/
inductive StartCheck where
  | interval
  | roster
  | nodes
  | divisor (field : FleetField)

def StartCheck.rank : StartCheck → Nat
  | .interval => 0
  | .roster => 1
  | .nodes => 2
  | .divisor field => 3 + FleetField.all.idxOf field

/-- What stands against a start at some check. -/
inductive Hindrance (settings : Settings) (files : Files) : StartCheck → StartError → Prop where
  | interval {cause : SettingsError} (h : settings.pollInterval = .error cause) :
      Hindrance settings files .interval (.interval cause)
  | unreadable {fault : FileFault} (h : files.readText settings.nodesFile = .error fault) :
      Hindrance settings files .roster
        (.roster settings.nodesFile (.unreadable settings.nodesFile fault))
  | malformed {text : String} {fault : RosterError}
      (htext : files.readText settings.nodesFile = .ok text)
      (h : FirstFault settings.roster (records text) fault) :
      Hindrance settings files .roster (.roster settings.nodesFile fault)
  | noNodes {text : String} (htext : files.readText settings.nodesFile = .ok text)
      (h : records text = []) : Hindrance settings files .nodes (.noNodes settings.nodesFile)
  | zeroDivisor {text : String} {endpoints : List Endpoint} {field : FleetField}
      (htext : files.readText settings.nodesFile = .ok text)
      (hdescribe : Describe settings.roster (records text) endpoints)
      (hnames : (endpoints.map (·.name)).Nodup)
      (hzero : (settings.averaging.divisor field).among endpoints = 0) :
      Hindrance settings files (.divisor field)
        (.zeroDivisor { field, divisor := settings.averaging.divisor field })

/-- What stands against a start at the first check that it does not pass. -/
def FirstHindrance (settings : Settings) (files : Files) (e : StartError) : Prop :=
  ∃ check, Hindrance settings files check e ∧
    ∀ check' e', Hindrance settings files check' e' → check.rank ≤ check'.rank

/-- The errors of the checks, as opposed to those of making directories and files. -/
def StartError.BeforeFiles : StartError → Prop
  | .interval _ | .roster _ _ | .noNodes _ | .zeroDivisor _ => True
  | .dataDirectory _ _ | .logs _ _ | .store _ _ => False

theorem StartCheck.eq_of_rank {check check' : StartCheck} (h : check.rank = check'.rank) :
    check = check' := by
  cases check with
  | divisor field =>
    cases check' with
    | divisor field' =>
      simp only [rank, Nat.add_left_cancel_iff] at h
      rw [(List.idxOf_inj field.mem_all).mp h]
    | _ => simp only [rank] at h; omega
  | _ => cases check' <;> simp only [rank] at h <;> first | rfl | omega

private theorem StartCheck.three_le_rank_divisor (field : FleetField) : 3 ≤ (divisor field).rank :=
  Nat.le_add_right 3 _

/-! ## Rosters and their divisors -/

section

variable {layout : RosterLayout} {files : Files} {path : String} {roster : Roster}
  {endpoints : List Endpoint}

private theorem Roster.load_eq_ok_iff : Roster.load layout files path = .ok roster ↔
    ∃ text endpoints, files.readText path = .ok text ∧ Describe layout (records text) endpoints ∧
      (endpoints.map (·.name)).Nodup ∧ roster.Holds endpoints := by
  unfold Roster.load
  cases htext : files.readText path with
  | error fault => simp
  | ok text => simp [parse_eq_ok_iff]

private theorem Roster.Describe.nil_iff {lines : List (List Char × Nat)}
    (h : Describe layout lines endpoints) : endpoints = [] ↔ lines = [] := by
  rw [← List.length_eq_zero_iff, ← List.length_eq_zero_iff, h.length_eq]

theorem Roster.Holds.size_eq_among (h : roster.Holds endpoints)
    (hnames : (endpoints.map (·.name)).Nodup) (profile : AveragingProfile) (divisor : Divisor) :
    ({ scale := roster.scaleCount, side := roster.sideCount, profile } : Divisors).size divisor =
      divisor.among endpoints := by
  cases divisor with
  | side => exact h.sideCount
  | scale => exact h.scaleCount
  | nodes =>
    have hall := h.scaleCount_add_sideCount hnames
    rw [h.size_eq hnames, Nat.add_comm] at hall
    exact hall
  | unit => rfl

end

/-! ## The first hindrance -/

section

variable {settings : Settings} {files : Files} {check : StartCheck} {e e' : StartError}
  {interval : Span} {text : String} {endpoints : List Endpoint}

private theorem Hindrance.beforeFiles (h : Hindrance settings files check e) : e.BeforeFiles := by
  cases h <;> trivial

theorem Hindrance.unique (h : Hindrance settings files check e)
    (h' : Hindrance settings files check e') : e = e' := by
  cases h with
  | interval hcause =>
    cases h' with
    | interval hcause' =>
      cases hcause.symm.trans hcause'
      rfl
  | unreadable hfault =>
    cases h' with
    | unreadable hfault' =>
      cases hfault.symm.trans hfault'
      rfl
    | malformed htext' => cases hfault.symm.trans htext'
  | malformed htext hfirst =>
    cases h' with
    | unreadable hfault' => cases htext.symm.trans hfault'
    | malformed htext' hfirst' =>
      cases htext.symm.trans htext'
      rw [hfirst.unique (Roster.pairwise_records _) hfirst']
  | noNodes => cases h'; rfl
  | zeroDivisor => cases h'; rfl

private theorem FirstHindrance.beforeFiles (h : FirstHindrance settings files e) :
    e.BeforeFiles := by
  obtain ⟨_, hcheck, -⟩ := h
  exact hcheck.beforeFiles

theorem FirstHindrance.unique (h : FirstHindrance settings files e)
    (h' : FirstHindrance settings files e') : e = e' := by
  obtain ⟨check, hcheck, hfirst⟩ := h
  obtain ⟨check', hcheck', hfirst'⟩ := h'
  have hsame : check = check' :=
    StartCheck.eq_of_rank (Nat.le_antisymm (hfirst _ _ hcheck') (hfirst' _ _ hcheck))
  subst hsame
  exact hcheck.unique hcheck'

private theorem Hindrance.one_le_rank (h : Hindrance settings files check e)
    (hinterval : settings.pollInterval = .ok interval) : 1 ≤ check.rank := by
  cases h with
  | interval hcause => cases hcause.symm.trans hinterval
  | zeroDivisor => exact Nat.le_trans (by decide) (StartCheck.three_le_rank_divisor _)
  | _ => decide

private theorem Hindrance.two_le_rank (h : Hindrance settings files check e)
    (hinterval : settings.pollInterval = .ok interval)
    (htext : files.readText settings.nodesFile = .ok text)
    (hdescribe : Describe settings.roster (records text) endpoints)
    (hnames : (endpoints.map (·.name)).Nodup) : 2 ≤ check.rank := by
  cases h with
  | interval hcause => cases hcause.symm.trans hinterval
  | unreadable hfault => cases hfault.symm.trans htext
  | malformed htext' hfirst =>
    cases htext.symm.trans htext'
    obtain ⟨line, check, hfault, -⟩ := hfirst
    exact absurd hfault (hdescribe.not_hasFault hnames)
  | noNodes => decide
  | zeroDivisor => exact Nat.le_trans (by decide) (StartCheck.three_le_rank_divisor _)

private theorem Hindrance.exists_field (h : Hindrance settings files check e)
    (hinterval : settings.pollInterval = .ok interval)
    (htext : files.readText settings.nodesFile = .ok text)
    (hdescribe : Describe settings.roster (records text) endpoints)
    (hnames : (endpoints.map (·.name)).Nodup) (hnodes : endpoints ≠ []) :
    ∃ field, check = .divisor field ∧ (settings.averaging.divisor field).among endpoints = 0 := by
  have hrank := h.two_le_rank hinterval htext hdescribe hnames
  cases h with
  | noNodes htext' hnone =>
    cases htext.symm.trans htext'
    exact absurd (hdescribe.nil_iff.mpr hnone) hnodes
  | zeroDivisor htext' hdescribe' hnames' hzero =>
    cases htext.symm.trans htext'
    cases hdescribe.unique hdescribe'
    exact ⟨_, rfl, hzero⟩
  | _ => exact absurd hrank (by decide)

private theorem firstHindrance_zeroDivisor {roster : Roster} {cause : ZeroDivisor}
    (hinterval : settings.pollInterval = .ok interval)
    (htext : files.readText settings.nodesFile = .ok text)
    (hdescribe : Describe settings.roster (records text) endpoints)
    (hnames : (endpoints.map (·.name)).Nodup) (hnodes : endpoints ≠ [])
    (hholds : roster.Holds endpoints)
    (h : Divisors.ofRoster roster settings.averaging = .error cause) :
    FirstHindrance settings files (.zeroDivisor cause) := by
  have hsize := hholds.size_eq_among hnames settings.averaging
  obtain ⟨before, field, after, hall, hzero, rfl, hbefore⟩ := Divisors.exists_of_check_eq_error h
  rw [hsize] at hzero
  have hlater (other : FleetField)
      (hother : (settings.averaging.divisor other).among endpoints = 0) : other ∉ before :=
    fun hmem => hbefore other hmem ((hsize _).trans hother)
  refine ⟨.divisor field, .zeroDivisor htext hdescribe hnames hzero, fun _ _ h' => ?_⟩
  obtain ⟨field', rfl, hzero'⟩ := h'.exists_field hinterval htext hdescribe hnames hnodes
  simp only [StartCheck.rank, hall]
  rw [List.idxOf_append_of_notMem (hlater field hzero),
    List.idxOf_append_of_notMem (hlater field' hzero'), List.idxOf_cons_self]
  omega

end

namespace CollectionPlan

private theorem make_spec (settings : Settings) (files : Files) :
    match make settings files with
    | .ok _ => ∀ check e, ¬ Hindrance settings files check e
    | .error e => FirstHindrance settings files e := by
  unfold make
  cases hinterval : settings.pollInterval with
  | error cause => exact ⟨.interval, .interval hinterval, fun _ _ _ => Nat.zero_le _⟩
  | ok interval =>
    dsimp only
    cases hload : Roster.load settings.roster files settings.nodesFile with
    | error cause =>
      refine ⟨.roster, ?_, fun _ _ h => h.one_le_rank hinterval⟩
      unfold Roster.load at hload
      cases htext : files.readText settings.nodesFile with
      | error fault =>
        rw [htext] at hload
        cases hload
        exact .unreadable htext
      | ok text =>
        rw [htext] at hload
        exact .malformed htext (Roster.parse_eq_error_iff.mp hload)
    | ok roster =>
      obtain ⟨text, endpoints, htext, hdescribe, hnames, hholds⟩ := Roster.load_eq_ok_iff.mp hload
      dsimp only
      by_cases hempty : roster.isEmpty = true
      · have hnone := hdescribe.nil_iff.mp ((hholds.isEmpty_iff hnames).mp hempty)
        rw [if_pos hempty]
        exact ⟨.nodes, .noNodes htext hnone,
          fun _ _ h => h.two_le_rank hinterval htext hdescribe hnames⟩
      · have hnodes : endpoints ≠ [] := fun h => hempty ((hholds.isEmpty_iff hnames).mpr h)
        rw [if_neg hempty]
        cases hdivisors : Divisors.ofRoster roster settings.averaging with
        | error cause =>
          exact firstHindrance_zeroDivisor hinterval htext hdescribe hnames hnodes hholds hdivisors
        | ok divisors =>
          intro check e h
          obtain ⟨field, rfl, hzero⟩ := h.exists_field hinterval htext hdescribe hnames hnodes
          have hsize := hholds.size_eq_among hnames settings.averaging
          have hchecked := Divisors.checked_of_check hdivisors
          obtain ⟨_, -, hd⟩ := bind_eq_ok.mp hdivisors
          cases hd
          exact hchecked.size_ne_zero field ((hsize _).trans hzero)

private theorem make_eq_error_iff {settings : Settings} {files : Files} {e : StartError} :
    make settings files = .error e ↔ FirstHindrance settings files e := by
  have hspec := make_spec settings files
  cases hmake : make settings files with
  | ok plan =>
    rw [hmake] at hspec
    refine ⟨nofun, ?_⟩
    rintro ⟨check, hcheck, -⟩
    exact absurd hcheck (hspec check e)
  | error e' =>
    rw [hmake] at hspec
    constructor
    · intro h
      cases h
      exact hspec
    · intro h
      rw [hspec.unique h]

end CollectionPlan

/-! ## Starting -/

namespace Collection

variable {settings : Settings} {files files' : Files} {e : StartError}

private theorem makeStores_not_beforeFiles {interval : Span} {nodes : List String}
    (h : makeStores settings interval nodes files = (.error e, files')) : ¬ e.BeforeFiles := by
  induction nodes generalizing files with
  | nil => cases h
  | cons node nodes ih =>
    simp only [makeStores] at h
    split at h
    · cases h
      exact id
    · next store files hcreate =>
      split at h
      · cases h
      · next rest =>
        cases h
        exact ih rest

private theorem ofPlan_not_beforeFiles {plan : CollectionPlan}
    (h : ofPlan settings plan files = (.error e, files')) : ¬ e.BeforeFiles := by
  unfold ofPlan at h
  split at h
  · cases h
    exact id
  · split at h
    · cases h
      exact id
    · split at h
      · cases h
      · next hstores =>
        cases h
        exact makeStores_not_beforeFiles hstores

private theorem start_of_firstHindrance (h : FirstHindrance settings files e) :
    start settings files = (.error e, files) := by
  unfold start
  rw [CollectionPlan.make_eq_error_iff.mpr h]

private theorem firstHindrance_of_start (h : start settings files = (.error e, files'))
    (hbefore : e.BeforeFiles) : FirstHindrance settings files e ∧ files' = files := by
  unfold start at h
  cases hmake : CollectionPlan.make settings files with
  | error first =>
    rw [hmake] at h
    cases h
    exact ⟨CollectionPlan.make_eq_error_iff.mp hmake, rfl⟩
  | ok plan =>
    rw [hmake] at h
    exact absurd hbefore (ofPlan_not_beforeFiles h)

end Collection

private theorem Hindrance.exists_first {settings : Settings} {files : Files} {check : StartCheck}
    {e : StartError} (h : Hindrance settings files check e) :
    ∃ first, FirstHindrance settings files first := by
  have hspec := CollectionPlan.make_spec settings files
  cases hmake : CollectionPlan.make settings files with
  | error first =>
    rw [hmake] at hspec
    exact ⟨first, hspec⟩
  | ok plan =>
    rw [hmake] at hspec
    exact absurd h (hspec check e)

private theorem Command.aborted_spec (files : Files) (told : List Diagnostics.Event)
    (abort : Diagnostics.Abort) :
    (aborted files told abort).files = files ∧ (aborted files told abort).exitCode ≠ 0 := by
  cases abort with
  | failed failure => exact ⟨rfl, Nat.one_ne_zero⟩
  | broken => exact ⟨rfl, Nat.succ_ne_zero 100⟩

private theorem Command.startWith_of_firstHindrance {settings : Settings} {files : Files}
    {e : StartError}
    (h : FirstHindrance settings files e) (around : Surroundings) (journal : Journal)
    {before : Files} (hbegun : journal.write before [startingEvent settings] = files) :
    ∃ ending, startWith around settings journal before = .ended ending ∧ ending.files = files ∧
      ending.exitCode ≠ 0 := by
  simp only [startWith, hbegun, Collection.start_of_firstHindrance h]
  split
  · exact ⟨_, rfl, aborted_spec files _ _⟩
  · exact ⟨_, rfl, aborted_spec files _ _⟩

/-- For all settings and all files: a start that fails at one of its checks leaves every file and
every directory as it was, and fails with the first thing that stands against it. Whenever anything
does, the start fails so, whatever else would have failed after the checks, and the command around
it ends without success and without a task, with the files as they were when it began to start. -/
theorem Collection.hindered_start_touches_nothing (settings : Settings) (files : Files) :
    (∀ e files', start settings files = (.error e, files') → e.BeforeFiles →
      FirstHindrance settings files e ∧ files' = files) ∧
    (∀ check e, Hindrance settings files check e → ∃ first, FirstHindrance settings files first ∧
      first.BeforeFiles ∧ start settings files = (.error first, files)) ∧
    ∀ (around : Command.Surroundings) (journal : Command.Journal) (before : Files) check e,
      Hindrance settings files check e →
      journal.write before [Command.startingEvent settings] = files →
      ∃ ending, Command.startWith around settings journal before = .ended ending ∧
        ending.files = files ∧ ending.exitCode ≠ 0 := by
  refine ⟨fun e files' => firstHindrance_of_start, ?_, ?_⟩
  · intro check e h
    obtain ⟨first, hfirst⟩ := h.exists_first
    exact ⟨first, hfirst, hfirst.beforeFiles, start_of_firstHindrance hfirst⟩
  · intro around journal before check e h hbegun
    obtain ⟨first, hfirst⟩ := h.exists_first
    exact Command.startWith_of_firstHindrance hfirst around journal hbegun

def scaleRoster : String := "a,1,h,1,9,1\n"

/-- The files around such a roster, with a series and a journal that exist already. -/
def scaleFiles : Files where
  entries := .ofList [(["nodes.txt"], Entry.file 0), (["seriesData"], Entry.directory),
    (["seriesData", "a.series"], Entry.file 1), (["journal"], Entry.file 2)]
  contents := .ofList [(0, scaleRoster.toUTF8), (1, "old".toUTF8)]
  next := 3

/-- A field that is divided by the number of side nodes stands against a start without any, and the
series of an earlier run is still there afterwards. -/
theorem Collection.hindered_start_touches_nothing_scale :
    let journal : Command.Journal := { filter := { directives := [{}] }, content := 2 }
    let files := journal.write scaleFiles [Command.startingEvent {}]
    files.readText "seriesData/a.series" = .ok "old" ∧
    start {} files = (.error (.zeroDivisor { field := .generated, divisor := .side }), files) ∧
    ∃ ending, Command.startWith { files := {}, hasTerminal := true } {} journal scaleFiles =
      .ended ending ∧ ending.files = files ∧ ending.exitCode ≠ 0 := by
  intro journal files
  have hread {path text : String} {number : Nat} (hopen : scaleFiles.openFile path = .ok number)
      (hcontent : scaleFiles.content number = text.toUTF8) (hne : number ≠ 2) :
      files.readText path = .ok text :=
    Files.readText_eq_ok (Files.openFile_append hopen _ _)
      ((Files.content_append_of_ne hne _).trans hcontent)
  have htext : files.readText "./nodes.txt" = .ok scaleRoster := hread rfl rfl (by decide)
  have hold : files.readText "seriesData/a.series" = .ok "old" := hread rfl rfl (by decide)
  obtain ⟨roster, hparse, hroster⟩ := exists_of_toOption_map (b := (false, 1, 0))
    (f := fun roster : Roster => (roster.isEmpty, roster.scaleCount, roster.sideCount))
    (x := Roster.parse {} scaleRoster) rfl
  obtain ⟨hempty, hscale, hside⟩ := by simpa only [Prod.mk.injEq] using hroster
  obtain ⟨endpoints, hdescribe, hnames, hholds⟩ := Roster.parse_eq_ok_iff.mp hparse
  have hnodes : endpoints ≠ [] := by
    intro hnone
    cases hempty.symm.trans ((hholds.isEmpty_iff hnames).mpr hnone)
  have hdivisors : Divisors.ofRoster roster .full =
      .error { field := .generated, divisor := .side } := by
    rw [Divisors.ofRoster, hscale, hside]
    rfl
  have hleast : FirstHindrance {} files
      (.zeroDivisor { field := .generated, divisor := .side }) :=
    firstHindrance_zeroDivisor rfl htext hdescribe hnames hnodes hholds hdivisors
  have ⟨check, hindrance, _⟩ := hleast
  obtain ⟨-, hstart, hcommand⟩ := hindered_start_touches_nothing {} files
  obtain ⟨first, hfirst, -, hfails⟩ := hstart check _ hindrance
  cases hfirst.unique hleast
  exact ⟨hold, hfails, hcommand _ journal scaleFiles check _ hindrance rfl⟩

end FleetTelemetry
