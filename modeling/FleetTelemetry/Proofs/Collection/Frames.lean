import FleetTelemetry.Proofs.Collection.Faults
import FleetTelemetry.Proofs.Collection.Lockstep
import FleetTelemetry.Proofs.Fleet.Frames

/-!
# Frames of an aggregator

What a tick shows depends on the roster, on the reports that have been taken in, and on the time
that has gone by. Earlier ticks leave no trace in it: they change neither the state nor what it is
averaged by.
-/

namespace FleetTelemetry.Aggregator

open Text

variable {a : Aggregator} {roster : Roster} {divisors : Divisors} {reports : List Report}
  {elapsed : Span} {timestamp : UInt64} {frame : Frame}

/-- The aggregator works for a roster by some divisors and has taken in some reports. -/
structure Remembers (a : Aggregator) (roster : Roster) (divisors : Divisors)
    (reports : List Report) : Prop where
  tracks : a.state.Tracks reports
  roster : a.roster = roster
  divisors : a.divisors = divisors

private theorem remembers_launch (roster : Roster) (divisors : Divisors) (writer : String → NodeLog)
    (panel : DashboardPanel) (interval : Span) :
    (launch roster divisors writer panel interval).Remembers roster divisors [] :=
  ⟨FleetState.Tracks.empty, rfl, rfl⟩

theorem Remembers.perform (h : a.Remembers roster divisors reports) (call : Call) :
    (a.perform call).Remembers roster divisors (reports ++ call.report?.toList) := by
  cases call with
  | apply report => exact ⟨h.tracks.apply report, h.roster, h.divisors⟩
  | tick elapsed timestamp =>
    obtain ⟨hstate, hroster, hdivisors, -⟩ := tick_state a elapsed timestamp
    refine ⟨?_, hroster.trans h.roster, hdivisors.trans h.divisors⟩
    change (a.tick elapsed timestamp).2.1.state.Tracks (reports ++ [])
    rw [hstate, List.append_nil]
    exact h.tracks

theorem Remembers.performAll (h : a.Remembers roster divisors reports) (calls : List Call) :
    (a.performAll calls).Remembers roster divisors (reports ++ reportsIn calls) := by
  induction calls generalizing a reports with
  | nil => simpa [Aggregator.performAll, reportsIn] using h
  | cons call calls ih =>
    have hrest := ih (h.perform call)
    rw [List.append_assoc] at hrest
    cases call with
    | apply report => exact hrest
    | tick elapsed timestamp => exact hrest

private theorem ofState_of_tick (hd : a.divisors.Checked)
    (h : (a.tick elapsed timestamp).1 = .frame frame) :
    a.state.isWarm = true ∧ Frame.ofState a.divisors a.roster a.state elapsed = .ok frame := by
  rcases tick_cases hd elapsed timestamp with ⟨-, htick⟩ | ⟨found, hwarm, hframe, ⟨_, _, -, htick⟩ |
    ⟨_, -, htick⟩ | ⟨logs, -, htick⟩⟩
  · rw [htick] at h
    cases h
  · rw [htick] at h
    cases h
  · rw [htick] at h
    cases h
  · rw [htick] at h
    rcases (draw_spec { a with logs } found).2 with hdrawn | ⟨hcrash, -⟩
    · cases hdrawn.symm.trans h
      exact ⟨hwarm, hframe⟩
    · cases hcrash.symm.trans h

private theorem tick_of_ofState (hwarm : a.state.isWarm = true)
    (hframe : Frame.ofState a.divisors a.roster a.state elapsed = .ok frame) (timestamp : UInt64) :
    (a.tick elapsed timestamp).1 = .frame frame ∨
      (∃ cause log, (a.tick elapsed timestamp).1 = .failed (.log cause) ∧
        (a.tick elapsed timestamp).2.1.logs[cause.node]? = some log ∧ log.Failed cause.fault) ∨
      (a.tick elapsed timestamp).1 = .crashed ∧
        ((a.tick elapsed timestamp).2.1.panel.Crashed ∨
          (a.tick elapsed timestamp).2.1.logs.Crashed) := by
  obtain ⟨-, hcause⟩ := a.logs.writeTick_spec timestamp a.state.current
  rw [tick_of_warm hwarm hframe timestamp]
  generalize a.logs.writeTick timestamp a.state.current = written at hcause ⊢
  obtain ⟨outcome, logs⟩ := written
  cases hcause with
  | written =>
    rcases (draw_spec { a with logs } frame).2 with hdrawn | ⟨hcrash, hcrashed⟩
    · exact .inl hdrawn
    · exact .inr (.inr ⟨hcrash, .inl hcrashed⟩)
  | failed hlog hfailed => exact .inr (.inl ⟨_, _, rfl, hlog, hfailed⟩)
  | crashed hcrashed => exact .inr (.inr ⟨rfl, .inr hcrashed⟩)

private theorem Steady.exists_frame (h : a.Steady reports) (hwarm : Warm reports)
    (hdraws : ∀ attempt, a.panel.outcomeAt attempt ≠ .crashed) (elapsed : Span)
    (timestamp : UInt64) : ∃ frame, (a.tick elapsed timestamp).1 = .frame frame := by
  obtain ⟨frame, hframe⟩ := Frame.ofState_eq_ok h.checked a.roster a.state elapsed
  refine ⟨frame, ?_⟩
  rcases tick_of_ofState (h.tracks.isWarm_iff.mpr hwarm) hframe timestamp with
    hdrawn | ⟨cause, log, -, hlog, attempt, -, hfault⟩ |
    ⟨-, ⟨attempt, -, hcrash⟩ | ⟨node, log, hlog, attempt, -, hcrash⟩⟩
  · exact hdrawn
  · have hunfailing := (h.perform (.tick elapsed timestamp)).unfailing cause.node log hlog attempt
    rw [hfault] at hunfailing
    cases hunfailing
  · obtain ⟨hfollows, -⟩ := tick_spec h.checked elapsed timestamp
    rw [hfollows.outcomes] at hcrash
    exact absurd hcrash (hdraws attempt)
  · have hunfailing := (h.perform (.tick elapsed timestamp)).unfailing node log hlog attempt
    rw [hcrash] at hunfailing
    cases hunfailing

/-- A frame sums each of its fields over the nodes that have reported, with the last snapshot of
each, and over those that have reported twice, with the last but one. It has one row for each node
that has reported, in the byte order of names, with the class that the roster gives the name and
with the figures of the node's last snapshot. The tick leaves the state as it is, so a later tick at
the same instant returns the same frame when no report came in between, unless a writer fails or a
writer or the dashboard crashes at that tick. -/
theorem frame_of_reports (roster : Roster) (divisors : Divisors) (writer : String → NodeLog)
    (panel : DashboardPanel) (interval : Span) (calls : List Call) (elapsed : Span)
    (timestamp : UInt64) (frame : Frame) (hd : divisors.Checked)
    (h : (((launch roster divisors writer panel interval).performAll calls).tick elapsed
      timestamp).1 = .frame frame) :
    let now := (launch roster divisors writer panel interval).performAll calls
    let reports := reportsIn calls
    (∀ field, frame.current.get field =
      ∑ node ∈ reporters reports, ((lastOf reports node).get field.source).toNat) ∧
    (∀ field, frame.previous.get field =
      ∑ node ∈ repeaters reports, ((lastButOneOf reports node).get field.source).toNat) ∧
    (frame.nodes.map (·.name)).Pairwise ByteLess ∧
    (∀ node, node ∈ frame.nodes.map (·.name) ↔ ∃ report ∈ reports, report.node = node) ∧
    (∀ row ∈ frame.nodes, ∃ last, (snapshotsOf reports row.name).getLast? = some last ∧
      row.nodeClass = roster.classOf? row.name ∧ row.leader = last.token ∧
      row.chainDepth = last.chainDepth ∧ row.proposeBlock = last.proposeBlock ∧
      row.signBlock = last.signBlock ∧ row.submitBlock = last.submitBlock) ∧
    (now.tick elapsed timestamp).2.1.state = now.state ∧
    ∀ again timestamp', reportsIn again = [] →
      let later := (now.perform (.tick elapsed timestamp)).performAll again
      later.state = now.state ∧
      ((later.tick elapsed timestamp').1 = .frame frame ∨
        (∃ cause log, (later.tick elapsed timestamp').1 = .failed (.log cause) ∧
          (later.tick elapsed timestamp').2.1.logs[cause.node]? = some log ∧
          log.Failed cause.fault) ∨
        (later.tick elapsed timestamp').1 = .crashed ∧
          ((later.tick elapsed timestamp').2.1.panel.Crashed ∨
            (later.tick elapsed timestamp').2.1.logs.Crashed)) := by
  intro now reports
  have hnow : now.Remembers roster divisors reports :=
    (remembers_launch roster divisors writer panel interval).performAll calls
  obtain ⟨hwarm, hframe⟩ := ofState_of_tick (hnow.divisors.symm ▸ hd) h
  obtain ⟨hcurrent, hprevious, -⟩ := Frame.ofState_eq_ok_imp hframe
  have hnames := Frame.names_nodes hframe
  have hrows := Frame.mem_nodes_iff hframe hnow.tracks
  refine ⟨?_, ?_, ?_, ?_, ?_, (tick_state now elapsed timestamp).1, ?_⟩
  · intro field
    rw [hcurrent]
    exact hnow.tracks.get_sum_current field
  · intro field
    rw [hprevious]
    exact hnow.tracks.get_sum_previous field
  · rw [hnames]
    exact pairwise_byteLess_keys _
  · intro node
    rw [hnames, ← List.mem_toFinset, hnow.tracks.toFinset_keys_current, mem_reporters]
  · intro row hrow
    obtain ⟨hmem, heq⟩ := (hrows row).mp hrow
    refine ⟨lastOf reports row.name, getLast?_of_mem_reporters hmem, ?_⟩
    rw [heq, hnow.roster]
    exact ⟨rfl, rfl, rfl, rfl, rfl, rfl⟩
  · intro again timestamp' hagain later
    have hlater := (hnow.perform (.tick elapsed timestamp)).performAll again
    rw [hagain, List.append_nil, Call.report?, Option.toList_none, List.append_nil] at hlater
    have hstate : later.state = now.state := hlater.tracks.ext hnow.tracks fun _ => rfl
    refine ⟨hstate, tick_of_ofState (hstate ▸ hwarm) ?_ timestamp'⟩
    rw [hlater.divisors, hlater.roster, hstate, ← hframe, hnow.divisors, hnow.roster]

/-- Reports of two nodes, mixed with one of a name that is not in the roster. -/
def mixedReports : List Report :=
  [⟨"a", { gas := 1 }⟩, ⟨"x", {}⟩, ⟨"a", { gas := 2 }⟩, ⟨"c", { gas := 3 }⟩]

theorem frame_of_reports_mixed :
    pairDivisors.Checked ∧
    ∃ frame, (((launch pairRoster pairDivisors (fun _ => {}) {} ⟨0⟩).performAll
        (mixedReports.map .apply)).tick ⟨5⟩ 20).1 = .frame frame ∧
      frame.current.get .gas = 5 ∧ frame.previous.get .gas = 1 ∧
      "x" ∈ frame.nodes.map (·.name) := by
  have hd : pairDivisors.Checked := rfl
  have hsteady := (@steady_launch pairRoster pairDivisors (fun _ => {}) {} ⟨0⟩ hd
    fun _ _ _ => rfl).performAll (mixedReports.map .apply)
  obtain ⟨frame, hframe⟩ := hsteady.exists_frame (by decide) (fun _ => nofun) ⟨5⟩ 20
  obtain ⟨hcurrent, hprevious, -, hnames, -⟩ := frame_of_reports pairRoster pairDivisors
    (fun _ => {}) {} ⟨0⟩ (mixedReports.map .apply) ⟨5⟩ 20 frame hd hframe
  refine ⟨hd, frame, hframe, ?_, ?_, ?_⟩
  · rw [hcurrent]
    decide
  · rw [hprevious]
    decide
  · rw [hnames]
    decide

end FleetTelemetry.Aggregator
