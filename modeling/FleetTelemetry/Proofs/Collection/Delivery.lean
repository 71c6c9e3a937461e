import FleetTelemetry.Proofs.Collection.Moves
import FleetTelemetry.Proofs.Fleet.History

/-!
# From fetches to reports

Pollers share a channel with room for one report. Whatever the order of their moves and of the
aggregator's, the snapshots that a node's fetches have brought are those that were applied, the one
in the channel and the one that its poller still holds, in this order.
-/

namespace FleetTelemetry

/-- The snapshots that a poller's fetches have brought, oldest first. -/
def Poller.successes (p : Poller) : List Snapshot :=
  (List.range p.fetches).filterMap fun k => (p.source.outcome k).toOption

private theorem Poller.successes_succ {p q : Poller} (hfetches : q.fetches = p.fetches + 1)
    (hsource : q.source = p.source) :
    q.successes = p.successes ++ (p.source.outcome p.fetches).toOption.toList := by
  simp only [successes, hfetches, hsource, List.range_succ, List.filterMap_append]
  cases h : (p.source.outcome p.fetches).toOption <;> simp [h]

/-- A fetch leaves a poller's node and source as they are. Its snapshot, if it brings one, comes
after those before, whatever becomes of the update of the series. -/
theorem Poller.poll_spec {p p' : Poller} {s : Option Snapshot} {events : List Diagnostics.Event}
    (h : p.poll = (s, p', events)) :
    p'.node = p.node ∧ p'.source = p.source ∧ p'.successes = p.successes ++ s.toList := by
  unfold poll at h
  split at h
  case h_1 e houtcome =>
    cases h
    refine ⟨rfl, rfl, ?_⟩
    have hnext := successes_succ (p := p) (q := { p with fetches := p.fetches + 1 }) rfl rfl
    rw [houtcome] at hnext
    exact hnext
  case h_2 snapshot houtcome =>
    split at h
    all_goals
      next series _ =>
      cases h
      refine ⟨rfl, rfl, ?_⟩
      have hnext :=
        successes_succ (p := p) (q := { p with fetches := p.fetches + 1, series }) rfl rfl
      rw [houtcome] at hnext
      exact hnext

namespace PollerTask

/-- The snapshots that a task has fetched and not handed over: the one of the report that it offers,
and at most one that was lost when it stopped. -/
def Keeps (t : PollerTask) (kept : List Snapshot) : Prop :=
  match t.phase with
  | .offering report => report.node = t.poller.node ∧ kept = [report.snapshot]
  | .stopped => kept.length ≤ 1
  | _ => kept = []

theorem Keeps.length_le {t : PollerTask} {kept : List Snapshot} (h : t.Keeps kept) :
    kept.length ≤ 1 := by
  unfold Keeps at h
  split at h
  case h_1 => simp [h.2]
  case h_2 => exact h
  case h_3 => simp [h]

/-- The snapshots of a task's fetches are those of the reports that were handed over for its node,
and what it keeps. -/
def AccountsFor (t : PollerTask) (handed : List Report) : Prop :=
  ∃ kept, t.Keeps kept ∧ t.poller.successes = snapshotsOf handed t.poller.node ++ kept

section Moves

variable {t t' : PollerTask} {handed : List Report} {events : List Diagnostics.Event} {now : Nat}

theorem AccountsFor.of_keeps (h : t.AccountsFor handed) (hpoller : t'.poller = t.poller)
    (hkeeps : ∀ kept, t.Keeps kept → t'.Keeps kept) : t'.AccountsFor handed := by
  obtain ⟨kept, hkept, heq⟩ := h
  refine ⟨kept, hkeeps kept hkept, ?_⟩
  rw [hpoller]
  exact heq

theorem AccountsFor.of_stopped (h : t.AccountsFor handed) (hpoller : t'.poller = t.poller)
    (hphase : t'.phase = .stopped) : t'.AccountsFor handed := by
  refine h.of_keeps hpoller fun kept hkept => ?_
  unfold Keeps
  rw [hphase]
  exact hkept.length_le

theorem AccountsFor.start (h : t.AccountsFor handed) (hstart : t.start now = some (t', events)) :
    t'.poller = t.poller ∧ t'.AccountsFor handed := by
  unfold PollerTask.start at hstart
  split at hstart
  case h_1 hphase =>
    split at hstart
    · cases hstart
      exact ⟨rfl, h.of_stopped rfl rfl⟩
    · cases hstart
      refine ⟨rfl, h.of_keeps rfl fun kept hkept => ?_⟩
      simpa [Keeps, hphase] using hkept
  case h_2 => cases hstart

theorem AccountsFor.beginFetch (h : t.AccountsFor handed) (hbegin : t.beginFetch now = some t') :
    t'.poller = t.poller ∧ t'.AccountsFor handed := by
  unfold PollerTask.beginFetch at hbegin
  split at hbegin
  case h_1 hphase =>
    split at hbegin
    · cases hbegin
      refine ⟨rfl, h.of_keeps rfl fun kept hkept => ?_⟩
      simpa [Keeps, hphase] using hkept
    · cases hbegin
  case h_2 => cases hbegin

theorem AccountsFor.endFetch (h : t.AccountsFor handed)
    (hend : t.endFetch now = some (t', events)) :
    t'.poller.node = t.poller.node ∧ t'.poller.source = t.poller.source ∧
      t'.AccountsFor handed := by
  obtain ⟨kept, hkept, heq⟩ := h
  unfold PollerTask.endFetch at hend
  split at hend
  case h_1 ends hphase =>
    have hnone : kept = [] := by simpa [Keeps, hphase] using hkept
    subst hnone
    split at hend
    case isTrue =>
      split at hend
      case h_1 snapshot poller told hpoll =>
        obtain ⟨hnode, hsource, hsuccesses⟩ := Poller.poll_spec hpoll
        cases hend
        refine ⟨hnode, hsource, [snapshot], ⟨rfl, rfl⟩, ?_⟩
        rw [hsuccesses, heq, hnode]
        simp
      case h_2 poller told hpoll =>
        obtain ⟨hnode, hsource, hsuccesses⟩ := Poller.poll_spec hpoll
        cases hend
        refine ⟨hnode, hsource, [], rfl, ?_⟩
        rw [hsuccesses, heq, hnode]
        simp
    case isFalse => cases hend
  case h_2 => cases hend

theorem AccountsFor.abandon (h : t.AccountsFor handed) :
    t.abandon.1.poller = t.poller ∧ t.abandon.1.AccountsFor handed :=
  ⟨rfl, h.of_stopped rfl rfl⟩

/-- While nothing is sent, a task that looks at the shutdown signal can only learn that it is to
stop. -/
theorem AccountsFor.notice (h : t.AccountsFor handed) {shutdown : Shutdown}
    (hquiet : shutdown.version = 0) (hnotice : t.notice shutdown = some t') :
    t'.poller = t.poller ∧ t'.AccountsFor handed := by
  unfold PollerTask.notice at hnotice
  split at hnotice
  case isTrue =>
    obtain ⟨notice, hlearned, rfl⟩ := Option.map_eq_some_iff.mp hnotice
    have hstop : notice = .stop := by
      unfold Shutdown.notice at hlearned
      rw [hquiet, if_neg (Nat.not_lt_zero _)] at hlearned
      split at hlearned
      · exact (Option.some.inj hlearned).symm
      · cases hlearned
    exact ⟨rfl, h.of_stopped rfl (by simp [hstop])⟩
  case isFalse => cases hnotice

theorem AccountsFor.delivered (h : t.AccountsFor handed) {report : Report}
    (hoffer : t.offer? = some report) :
    report.node = t.poller.node ∧ t.delivered.AccountsFor (handed ++ [report]) := by
  obtain ⟨kept, hkept, heq⟩ := h
  unfold offer? at hoffer
  split at hoffer
  case h_1 offered hphase =>
    cases hoffer
    simp only [Keeps, hphase] at hkept
    obtain ⟨hnode, rfl⟩ := hkept
    refine ⟨hnode, [], rfl, ?_⟩
    change t.poller.successes = snapshotsOf (handed ++ [report]) t.poller.node ++ []
    rw [heq, ← hnode, snapshotsOf_concat_self, List.append_nil]
  case h_2 => cases hoffer

theorem AccountsFor.concat (h : t.AccountsFor handed) {report : Report}
    (hne : report.node ≠ t.poller.node) : t.AccountsFor (handed ++ [report]) := by
  obtain ⟨kept, hkept, heq⟩ := h
  refine ⟨kept, hkept, ?_⟩
  rw [snapshotsOf_concat_ne _ _ hne]
  exact heq

end Moves

end PollerTask

end FleetTelemetry
