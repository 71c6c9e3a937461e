import FleetTelemetry.Collection.Task

/-!
# The turns of a poller's task

For everything that a poller's task does in turn: when it can do it, and what becomes of the task.
A task that has stopped does nothing any more.
-/

namespace FleetTelemetry

namespace Shutdown

variable {shutdown : Shutdown} {seen : Nat}

/-- A task goes on only because of a setting for going on that it has not seen. -/
theorem notice_eq_goOn_iff :
    shutdown.notice seen = some .goOn ↔ seen < shutdown.version ∧ shutdown.value = false := by
  unfold notice
  split
  case isTrue hunseen => cases hvalue : shutdown.value <;> simp [hunseen]
  case isFalse hseen => simp [hseen]

/-- A task stops because of a setting for stopping that it has not seen, or when it has seen all
settings and there will be no other. -/
theorem notice_eq_stop_iff : shutdown.notice seen = some .stop ↔
    (seen < shutdown.version ∧ shutdown.value = true) ∨
      (¬ seen < shutdown.version ∧ shutdown.dropped = true) := by
  unfold notice
  split
  case isTrue hunseen => cases hvalue : shutdown.value <;> simp [hunseen]
  case isFalse hseen => simp [hseen]

end Shutdown

namespace PollerTask

open Diagnostics

variable {t t' : PollerTask} {events : List Event} {now : Nat}

theorem start_eq_some_iff : t.start now = some (t', events) ↔ t.phase = .created ∧
    ((t.period = 0 ∧ t' = { t with phase := .stopped } ∧ events = []) ∨
      (0 < t.period ∧ t' = { t with phase := .idle, due := now } ∧
        events = [t.poller.startedEvent])) := by
  unfold start
  split
  case h_1 hcreated =>
    split
    case isTrue hzero =>
      have hpos : ¬ 0 < t.period := by omega
      simp [hcreated, hzero, eq_comm]
    case isFalse hzero =>
      have hpos : 0 < t.period := Nat.pos_of_ne_zero hzero
      simp [hcreated, hzero, hpos, eq_comm]
  case h_2 hcreated => exact iff_of_false (by simp) fun h => hcreated h.1

theorem beginFetch_eq_some_iff : t.beginFetch now = some t' ↔ t.phase = .idle ∧ t.due ≤ now ∧
    t' = { t with
      phase := .fetching (now + t.poller.source.delay t.poller.fetches)
      due := nextDue t.period t.due now } := by
  unfold beginFetch
  split
  case h_1 hidle =>
    simp only [Option.ite_none_right_eq_some, Option.some.injEq, hidle, true_and]
    exact and_congr_right fun _ => eq_comm
  case h_2 hidle => exact iff_of_false (by simp) fun h => hidle h.1

/-- What a task does after a fetch: it offers the snapshot as a report, or waits again. -/
def phaseAfter (node : String) : Option Snapshot → PollerPhase
  | some snapshot => .offering { node, snapshot }
  | none => .idle

theorem endFetch_eq_some_iff : t.endFetch now = some (t', events) ↔
    ∃ ends, t.phase = .fetching ends ∧ ends ≤ now ∧
      t' = { t with
        poller := t.poller.poll.2.1
        phase := phaseAfter t.poller.poll.2.1.node t.poller.poll.1 } ∧
      events = t.poller.poll.2.2 := by
  unfold endFetch
  split
  case h_1 ends hfetching =>
    have hends (p : Nat → Prop) : (∃ e, t.phase = .fetching e ∧ p e) ↔ p ends := by
      simp [hfetching]
    rw [hends]
    rcases t.poller.poll with ⟨_ | snapshot, poller, told⟩
    · simp [phaseAfter, eq_comm]
    · simp [phaseAfter, eq_comm]
  case h_2 hfetching => exact iff_of_false (by simp) fun ⟨ends, hends, _⟩ => hfetching ends hends

theorem offer?_eq_some_iff {report : Report} :
    t.offer? = some report ↔ t.phase = .offering report := by
  unfold offer?
  split
  case h_1 hoffering => simp [hoffering]
  case h_2 hoffering => exact iff_of_false (by simp) (hoffering report)

/-- A task that looks at the signal stops or goes back to waiting for ticks; a report that it was
offering is gone. -/
theorem notice_eq_some_iff {shutdown : Shutdown} : t.notice shutdown = some t' ↔
    (t.phase = .idle ∨ ∃ report, t.phase = .offering report) ∧
      ((shutdown.notice t.seen = some .goOn ∧
          t' = { t with seen := shutdown.version, phase := .idle }) ∨
        (shutdown.notice t.seen = some .stop ∧
          t' = { t with seen := shutdown.version, phase := .stopped })) := by
  have hwaits : t.phase = .idle ∨ t.offer?.isSome = true ↔
      t.phase = .idle ∨ ∃ report, t.phase = .offering report := by
    simp only [Option.isSome_iff_exists, offer?_eq_some_iff]
  unfold notice
  split
  case isTrue h =>
    rw [and_iff_right (hwaits.mp h)]
    cases hnotice : shutdown.notice t.seen with
    | none => simp
    | some notice =>
      cases notice with
      | goOn => simp [eq_comm]
      | stop => simp [eq_comm]
  case isFalse h =>
    rw [hwaits] at h
    simp [h]

section Stopped

variable (h : t.phase = .stopped)
include h

theorem start_of_stopped : t.start now = none := by simp [start, h]

theorem beginFetch_of_stopped : t.beginFetch now = none := by simp [beginFetch, h]

theorem endFetch_of_stopped : t.endFetch now = none := by simp [endFetch, h]

theorem offer?_of_stopped : t.offer? = none := by simp [offer?, h]

theorem notice_of_stopped (shutdown : Shutdown) : t.notice shutdown = none := by
  simp [notice, h, offer?]

end Stopped

end PollerTask

end FleetTelemetry
