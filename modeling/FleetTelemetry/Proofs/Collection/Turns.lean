import FleetTelemetry.Collection.Task

/-!
# The turns of an aggregator's task

For everything that an aggregator's task does in turn: when it can do it, and what becomes of the
task. A task that has ended does nothing any more.
-/

namespace FleetTelemetry.AggregatorTask

open Diagnostics

variable {t t' : AggregatorTask} {events : List Event} {now : Nat}

theorem end?_of_running (h : t.phase = .running) : t.end? = none := by
  simp [end?, h]

theorem end?_eq_some_iff {how : AggregatorEnd} : t.end? = some how ↔ t.phase = .ended how := by
  unfold end?
  split
  case h_1 how' hphase => simp [hphase]
  case h_2 hphase => exact iff_of_false (by simp) (hphase how)

/-- The first tick of the task cannot be awaited: there is no time before it, or the clock cannot
tell its time. -/
def Unstartable (t : AggregatorTask) (now clockEnd : Nat) : Prop :=
  t.period = 0 ∨ clockEnd ≤ now + t.period

theorem start_eq_some_iff {clockEnd : Nat} : t.start now clockEnd = some (t', events) ↔
    t.phase = .created ∧
    ((t.Unstartable now clockEnd ∧ t' = { t with phase := .ended .crashed } ∧ events = []) ∨
      (¬ t.Unstartable now clockEnd ∧
        t' = { t with phase := .running, due := now + t.period } ∧
        events = [t.aggregator.startedEvent])) := by
  unfold start Unstartable
  split
  case isTrue hcreated =>
    split
    case isTrue hnever =>
      constructor
      · intro h
        cases h
        exact ⟨hcreated, .inl ⟨hnever, rfl, rfl⟩⟩
      · rintro ⟨-, ⟨-, rfl, rfl⟩ | ⟨hcan, -⟩⟩
        · rfl
        · exact absurd hnever hcan
    case isFalse hcan =>
      constructor
      · intro h
        cases h
        exact ⟨hcreated, .inr ⟨hcan, rfl, rfl⟩⟩
      · rintro ⟨-, ⟨hnever, -⟩ | ⟨-, rfl, rfl⟩⟩
        · exact absurd hnever hcan
        · rfl
  case isFalse hcreated => simp [hcreated]

theorem receive_eq_some_iff {report : Report} : t.receive report = some t' ↔
    t.phase = .running ∧ t.reportsOpen = true ∧
      t' = { t with aggregator := t.aggregator.apply report } := by
  unfold receive
  split
  case isTrue h =>
    constructor
    · intro heq
      exact ⟨h.1, h.2, (Option.some.inj heq).symm⟩
    · rintro ⟨-, -, rfl⟩
      rfl
  case isFalse h =>
    constructor
    · intro heq
      cases heq
    · rintro ⟨hphase, hopen, -⟩
      exact absurd ⟨hphase, hopen⟩ h

theorem closeReports_eq_some_iff : t.closeReports = some (t', events) ↔
    t.phase = .running ∧ t.reportsOpen = true ∧ t' = { t with reportsOpen := false } ∧
      events = [Aggregator.channelClosedEvent] := by
  unfold closeReports
  split
  case isTrue h =>
    constructor
    · intro heq
      cases heq
      exact ⟨h.1, h.2, rfl, rfl⟩
    · rintro ⟨-, -, rfl, rfl⟩
      rfl
  case isFalse h =>
    constructor
    · intro heq
      cases heq
    · rintro ⟨hphase, hopen, -⟩
      exact absurd ⟨hphase, hopen⟩ h

theorem tick_eq_some_iff {timestamp : UInt64} : t.tick now timestamp = some (t', events) ↔
    t.phase = .running ∧ t.due ≤ now ∧
      t' = { t with
        aggregator := (t.aggregator.tick ⟨now⟩ timestamp).2.1
        phase := phaseAfter (t.aggregator.tick ⟨now⟩ timestamp).1
        due := nextDue t.period t.due now } ∧
      events = (t.aggregator.tick ⟨now⟩ timestamp).2.2 := by
  unfold tick
  split
  case isTrue h =>
    constructor
    · intro heq
      cases heq
      exact ⟨h.1, h.2, rfl, rfl⟩
    · rintro ⟨-, -, rfl, rfl⟩
      rfl
  case isFalse h =>
    constructor
    · intro heq
      cases heq
    · rintro ⟨hphase, hdue, -⟩
      exact absurd ⟨hphase, hdue⟩ h

theorem notice_eq_some_iff {shutdown : Shutdown} : t.notice shutdown = some (t', events) ↔
    t.phase = .running ∧
      ((shutdown.notice t.seen = some .goOn ∧ t' = { t with seen := shutdown.version } ∧
          events = []) ∨
        (shutdown.notice t.seen = some .stop ∧
          t' = { t with seen := shutdown.version, phase := .ended .stopped } ∧
          events = [Aggregator.stoppingEvent])) := by
  unfold notice
  split
  case isTrue h =>
    cases hnotice : shutdown.notice t.seen with
    | none => simp
    | some notice =>
      cases notice with
      | goOn => simp [h, eq_comm]
      | stop => simp [h, eq_comm]
  case isFalse h => simp [h]

end FleetTelemetry.AggregatorTask
