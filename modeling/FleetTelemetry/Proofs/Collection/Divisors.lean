import FleetTelemetry.Proofs.Collection.Endings
import FleetTelemetry.Proofs.Collection.Starting
import FleetTelemetry.Proofs.Roster.Endpoints

/-!
# Divisors of a roster

The divisors of a roster are checked once. The check passes exactly when each class that the profile
divides by has a node, and tells the first field without one otherwise. Nothing that is averaged
later finds a zero, so that a tick with checked divisors fails at the logs or not at all.
-/

namespace FleetTelemetry

/-! ## Rosters and their classes -/

section

variable {roster : Roster} {endpoints : List Endpoint} {profile : AveragingProfile}
  {divisor : Divisor}

/-- The roster was read from a text or made of endpoints. -/
def Roster.Made (roster : Roster) : Prop :=
  (∃ layout text, Roster.parse layout text = .ok roster) ∨
    ∃ endpoints, Roster.ofEndpoints endpoints = .ok roster

/-- Every class that the profile divides by has a node among some endpoints. -/
def AveragingProfile.Served (endpoints : List Endpoint) : AveragingProfile → Prop
  | .full => (∃ e ∈ endpoints, e.nodeClass = .scale) ∧ ∃ e ∈ endpoints, e.nodeClass = .side
  | .reduced => endpoints ≠ []
  | .reducedScale => ∃ e ∈ endpoints, e.nodeClass = .scale

/-- The first field, in field order, whose divisor counts no node among some endpoints. -/
def AveragingProfile.firstUnserved? (endpoints : List Endpoint) (profile : AveragingProfile) :
    Option FleetField :=
  FleetField.all.find? fun field => (profile.divisor field).among endpoints = 0

theorem Roster.Made.holds (h : roster.Made) :
    roster.Holds roster.endpoints ∧ (roster.endpoints.map (·.name)).Nodup := by
  obtain ⟨endpoints, hnames, hholds⟩ :
      ∃ endpoints : List Endpoint, (endpoints.map (·.name)).Nodup ∧ roster.Holds endpoints := by
    rcases h with ⟨layout, text, hparse⟩ | ⟨endpoints, hadd⟩
    · obtain ⟨endpoints, -, hnames, hholds⟩ := parse_eq_ok_iff.mp hparse
      exact ⟨endpoints, hnames, hholds⟩
    · exact ⟨endpoints, holds_of_ofEndpoints hadd⟩
  obtain ⟨hscale, hside, -, -⟩ := hholds.counts hnames
  refine ⟨⟨fun name e => ?_, hscale, hside⟩, ?_⟩
  · rw [hholds.mem_endpoints_iff]
    exact hholds.get?_iff name e
  · exact ((hholds.endpoints_perm hnames).map _).nodup_iff.mpr hnames

private theorem Divisor.among_ne_zero_iff : divisor.among endpoints ≠ 0 ↔
    match divisor with
    | .side => ∃ e ∈ endpoints, e.nodeClass = .side
    | .scale => ∃ e ∈ endpoints, e.nodeClass = .scale
    | .nodes => endpoints ≠ []
    | .unit => True := by
  cases divisor with
  | side => simp [among, List.countP_eq_zero]
  | scale => simp [among, List.countP_eq_zero]
  | nodes => simp [among]
  | unit => simp [among]

private theorem AveragingProfile.served_iff :
    profile.Served endpoints ↔ ∀ field, (profile.divisor field).among endpoints ≠ 0 := by
  simp only [Divisor.among_ne_zero_iff]
  cases profile with
  | full =>
    constructor
    · rintro ⟨hscale, hside⟩ field
      cases field <;> first | exact hside | exact hscale | trivial
    · intro h
      exact ⟨h .gas, h .generated⟩
  | reduced => exact ⟨fun h _ => h, fun h => h .gas⟩
  | reducedScale => exact ⟨fun h _ => h, fun h => h .gas⟩

private theorem AveragingProfile.firstUnserved?_eq_none_iff :
    profile.firstUnserved? endpoints = none ↔ profile.Served endpoints := by
  rw [firstUnserved?, List.find?_eq_none, served_iff]
  simp [FleetField.mem_all]

private theorem Divisors.ofRoster_eq (h : roster.Made) (profile : AveragingProfile) :
    ofRoster roster profile =
      match profile.firstUnserved? roster.endpoints with
      | some field => .error { field, divisor := profile.divisor field }
      | none => .ok { scale := roster.scaleCount, side := roster.sideCount, profile } := by
  obtain ⟨hholds, hnames⟩ := h.holds
  have hsize := hholds.size_eq_among hnames profile
  cases hroster : ofRoster roster profile with
  | ok d =>
    obtain ⟨_, -, hd⟩ := bind_eq_ok.mp hroster
    cases hd
    have hserved : profile.firstUnserved? roster.endpoints = none := by
      rw [AveragingProfile.firstUnserved?_eq_none_iff, AveragingProfile.served_iff]
      intro field
      rw [← hsize]
      exact (checked_of_check hroster).size_ne_zero field
    rw [hserved]
  | error e =>
    obtain ⟨before, field, after, hall, hzero, rfl, hbefore⟩ := exists_of_check_eq_error hroster
    have hfirst : profile.firstUnserved? roster.endpoints = some field := by
      rw [AveragingProfile.firstUnserved?, List.find?_eq_some_iff_append]
      refine ⟨by simpa [hsize] using hzero, before, after, hall, fun other hother => ?_⟩
      have hother := hbefore other hother
      rw [hsize] at hother
      simpa using hother
    rw [hfirst]

end

/-! ## Ticks -/

private theorem Aggregator.log_of_mem_outcomes {a : Aggregator} (hd : a.divisors.Checked)
    {calls : List Call} {e : AggregateError} (h : .failed e ∈ a.outcomes calls) :
    ∃ cause, e = .log cause := by
  induction calls generalizing a with
  | nil => cases h
  | cons call calls ih =>
    cases call with
    | apply report => exact ih (a := a.apply report) hd h
    | tick elapsed timestamp =>
      obtain ⟨-, -, hdivisors, -⟩ := a.tick_state elapsed timestamp
      rcases List.mem_cons.mp h with hfirst | hlater
      · obtain ⟨cause, -, rfl, -⟩ := (tick_spec hd elapsed timestamp).2.1 e hfirst.symm
        exact ⟨cause, rfl⟩
      · exact ih (hdivisors.symm ▸ hd) hlater

namespace World

/-- The aggregator's task works with some divisors and has not failed but by a log, and the run has
not returned for a divisor. -/
structure Divides (d : Divisors) (w : World) : Prop where
  task : ∃ t, w.aggregator = some t ∧ t.aggregator.divisors = d ∧
    ∀ e, t.end? = some (.failed e) → ∃ cause, e = .log cause
  result : ∀ cause, w.result ≠ some (.error (.zeroDivisor cause))

variable {d : Divisors} {w w' : World} {m : Move}

private theorem divides_ofPipeline (epoch clockEnd : Nat) (pollers : List Poller) {a : Aggregator}
    (h : a.divisors = d) : (ofPipeline epoch clockEnd pollers a).Divides d :=
  ⟨⟨_, rfl, h, nofun⟩, nofun⟩

theorem Divides.step (h : w.Divides d) (hd : d.Checked) (hstep : w.step m = some w') :
    w'.Divides d := by
  obtain ⟨t, ht, hdivisors, hended⟩ := h.task
  cases step_cases hstep with
  | spares hspares =>
    refine ⟨⟨t, hspares.aggregator.trans ht, hdivisors, hended⟩, ?_⟩
    rw [hspares.result]
    exact h.result
  | @takes u u' htakes =>
    cases htakes.before.symm.trans ht
    -- Which signals were sent and when the task began does not matter here.
    have hsignal : w.shutdown.value = true → .signal true ∈ [Move.signal true, .dropSignal] :=
      fun _ => List.mem_cons_self
    have hlate : t.phase = .created → w.clockEnd ≤ w.now + t.period → True := fun _ _ => trivial
    obtain ⟨hfollows, hcause⟩ := htakes.turn.endCause (hdivisors.symm ▸ hd) hsignal
      (fun _ => List.mem_cons_of_mem _ List.mem_cons_self) hlate
    refine ⟨⟨u', htakes.after, hfollows.divisors.trans hdivisors, fun e he => ?_⟩, ?_⟩
    · cases hcause _ (AggregatorTask.end?_eq_some_iff.mp he) with
      | @log cause => exact ⟨cause, rfl⟩
    · rw [htakes.result]
      exact h.result
  | @returns u how hm hu hhow hresult hreturn =>
    subst hreturn
    cases hu.symm.trans ht
    refine ⟨h.task, fun cause hcause => ?_⟩
    cases how with
    | stopped => cases hcause
    | crashed => cases hcause
    | failed e =>
      obtain ⟨cause, rfl⟩ := hended e hhow
      cases hcause
  | signals hm hvalue =>
    subst hvalue
    exact ⟨h.task, h.result⟩
  | drops hm hdrop =>
    subst hdrop
    exact ⟨h.task, h.result⟩

theorem Divides.run {ms : List Move} (h : w.Divides d) (hd : d.Checked)
    (hrun : w.run ms = some w') : w'.Divides d := by
  induction ms generalizing w with
  | nil =>
    cases hrun
    exact h
  | cons m ms ih =>
    obtain ⟨v, hstep, hrest⟩ := Option.bind_eq_some_iff.mp hrun
    exact ih (h.step hd hstep) hrest

end World

/-- For every roster and profile: the divisors of the roster are found exactly when every class that
the profile divides by has a node, and otherwise the first field is told, in field order, whose
divisor counts none. Divisors that are found have an average for all totals. Whatever calls an
aggregator with such divisors gets, from whatever state, a tick that fails does so by a log; and
whatever moves a pipeline with them makes, its task fails by a log if at all, and no divisor is what
it returns for. -/
theorem Divisors.found_never_fail {roster : Roster} (h : roster.Made) (profile : AveragingProfile) :
    ((∃ d, ofRoster roster profile = .ok d) ↔ profile.Served roster.endpoints) ∧
    (∀ e, ofRoster roster profile = .error e ↔
      profile.firstUnserved? roster.endpoints = some e.field ∧
        e.divisor = profile.divisor e.field) ∧
    ∀ d, ofRoster roster profile = .ok d →
      (∀ totals, ∃ averages, d.average totals = .ok averages) ∧
      (∀ (a : Aggregator) (calls : List Aggregator.Call), a.divisors = d →
        ∀ e, .failed e ∈ a.outcomes calls → ∃ cause, e = .log cause) ∧
      ∀ (epoch clockEnd : Nat) (pollers : List Poller) (a : Aggregator) (ms : List Move)
          (w : World),
        a.divisors = d → (World.ofPipeline epoch clockEnd pollers a).run ms = some w →
        (∀ t e, w.aggregator = some t → t.end? = some (.failed e) → ∃ cause, e = .log cause) ∧
        ∀ cause, w.result ≠ some (.error (.zeroDivisor cause)) := by
  have hspec := ofRoster_eq h profile
  refine ⟨?_, fun e => ?_, fun d hroster => ?_⟩
  · rw [← AveragingProfile.firstUnserved?_eq_none_iff, hspec]
    cases profile.firstUnserved? roster.endpoints <;> simp
  · rw [hspec]
    cases profile.firstUnserved? roster.endpoints with
    | none => simp
    | some field =>
      cases e
      simp only [Except.error.injEq, ZeroDivisor.mk.injEq, Option.some.injEq]
      exact and_congr_right fun hfield => by rw [hfield, eq_comm]
  · have hd : d.Checked := checked_of_ofCounts hroster
    refine ⟨hd.average, fun a calls ha e => ?_, fun epoch clockEnd pollers a ms w ha hrun => ?_⟩
    · exact Aggregator.log_of_mem_outcomes (ha.symm ▸ hd)
    · have hdivides := (World.divides_ofPipeline epoch clockEnd pollers ha).run hd hrun
      refine ⟨fun t e ht => ?_, hdivides.result⟩
      obtain ⟨u, hu, -, hended⟩ := hdivides.task
      cases ht.symm.trans hu
      exact hended e

/-- The aggregator of a roster without side nodes, whose only log can take no row. -/
def sidelessAggregator : Aggregator :=
  { roster := ⟨∅, 1, 0⟩
    divisors := ⟨1, 0, .reduced⟩
    logs := NodeLogs.ofNodes ["a"] fun _ => NodeLog.limited 0
    interval := ⟨20⟩ }

/-- A roster of one scale node cannot be averaged by class. Divided by all nodes it can, and a tick
still fails by its log. -/
theorem Divisors.found_never_fail_sideless :
    ∃ roster, Roster.parse {} scaleRoster = .ok roster ∧
      ofRoster roster .full = .error { field := .generated, divisor := .side } ∧
      ¬ AveragingProfile.full.Served roster.endpoints ∧
      ofRoster roster .reduced = .ok sidelessAggregator.divisors ∧
      AveragingProfile.reduced.Served roster.endpoints ∧
      ∃ e, .failed e ∈ sidelessAggregator.outcomes
        [.apply ⟨"a", {}⟩, .apply ⟨"a", {}⟩, .tick ⟨20⟩ 0] ∧ ∃ cause, e = .log cause := by
  obtain ⟨roster, hparse, hcounts⟩ := exists_of_toOption_map (b := (1, 0))
    (f := fun roster : Roster => (roster.scaleCount, roster.sideCount))
    (x := Roster.parse {} scaleRoster) rfl
  obtain ⟨hscale, hside⟩ := by simpa only [Prod.mk.injEq] using hcounts
  have hmade : roster.Made := .inl ⟨_, _, hparse⟩
  have hfull : ofRoster roster .full = .error { field := .generated, divisor := .side } := by
    rw [ofRoster, hscale, hside]
    rfl
  have hreduced : ofRoster roster .reduced = .ok sidelessAggregator.divisors := by
    rw [ofRoster, hscale, hside]
    rfl
  obtain ⟨hfound, -, -⟩ := found_never_fail hmade .full
  obtain ⟨hfound', -, hlater⟩ := found_never_fail hmade .reduced
  have hfailed : .failed (.log ⟨"a", .diskFull⟩) ∈ sidelessAggregator.outcomes
      [.apply ⟨"a", {}⟩, .apply ⟨"a", {}⟩, .tick ⟨20⟩ 0] := .head _
  refine ⟨roster, hparse, hfull, fun hserved => ?_, hreduced, hfound'.mp ⟨_, hreduced⟩, _, hfailed,
    (hlater _ hreduced).2.1 _ _ rfl _ hfailed⟩
  obtain ⟨d, hd⟩ := hfound.mpr hserved
  cases hfull.symm.trans hd

end FleetTelemetry
