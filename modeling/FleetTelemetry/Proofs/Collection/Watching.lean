import FleetTelemetry.Collection.Schedule
import FleetTelemetry.Proofs.Collection.Moves
import FleetTelemetry.Proofs.Collection.PollerTurns
import Mathlib.Data.List.Induction

/-!
# Watching one poller

Someone who watches a run sees something in each of its moves. What a move makes of the poller with
a number is a turn of its task, the end of the run, or nothing.
-/

namespace FleetTelemetry.World

def watch {α : Type} (see : World → Move → World → List α) (w : World) : List Move → List α
  | [] => []
  | m :: ms =>
    match w.step m with
    | none => []
    | some w' => see w m w' ++ w'.watch see ms

section

variable {α : Type} {see : World → Move → World → List α} {w w' v : World} {m : Move}
  {ms : List Move}

theorem watch_cons (h : w.step m = some w') (ms : List Move) :
    w.watch see (m :: ms) = see w m w' ++ w'.watch see ms := by
  simp only [watch, h]

theorem watch_concat (hrun : w.run ms = some v) (hstep : v.step m = some w') :
    w.watch see (ms ++ [m]) = w.watch see ms ++ see v m w' := by
  induction ms generalizing w with
  | nil =>
    cases hrun
    simp [watch, hstep]
  | cons first ms ih =>
    obtain ⟨u, hmove, hrest⟩ := Option.bind_eq_some_iff.mp hrun
    rw [List.cons_append, watch_cons hmove, watch_cons hmove, ih hrest, List.append_assoc]

private theorem run_concat_iff :
    w.run (ms ++ [m]) = some w' ↔ ∃ v, w.run ms = some v ∧ v.step m = some w' := by
  induction ms generalizing w with
  | nil => simp [run]
  | cons first ms ih =>
    rw [List.cons_append, run, run]
    cases w.step first with
    | none => simp
    | some u => exact ih

/-- What each move preserves of a world and of the moves that led to it, a run preserves. -/
theorem run_induction {motive : List Move → World → Prop} (h : motive [] w)
    (hstep : ∀ ms v m v', w.run ms = some v → v.step m = some v' → motive ms v →
      motive (ms ++ [m]) v')
    (hrun : w.run ms = some w') : motive ms w' := by
  induction ms using List.reverseRecOn generalizing w' with
  | nil =>
    cases hrun
    exact h
  | append_singleton ms m ih =>
    obtain ⟨v, hbefore, hmove⟩ := run_concat_iff.mp hrun
    exact hstep ms v m w' hbefore hmove (ih hbefore)

end

/-- What a move makes of the task `t` of the poller with the number `i`. -/
inductive Becomes (w : World) (i : Nat) (t : PollerTask) : Move → PollerTask → Prop where
  | start {t' : PollerTask} {events : List Diagnostics.Event}
      (h : t.start w.now = some (t', events)) : Becomes w i t (.startPoller i) t'
  | beginFetch {t' : PollerTask} (h : t.beginFetch w.now = some t') :
      Becomes w i t (.beginFetch i) t'
  | endFetch {t' : PollerTask} {events : List Diagnostics.Event}
      (h : t.endFetch w.now = some (t', events)) : Becomes w i t (.endFetch i) t'
  | deliver {report : Report} (h : t.offer? = some report) :
      Becomes w i t (.deliver i) t.delivered
  | abandon (h : w.receiving = false) : Becomes w i t (.abandon i) t.abandon.1
  | notice {t' : PollerTask} (h : t.notice w.shutdown = some t') :
      Becomes w i t (.noticePoller i) t'
  | cancel (h : ∃ u, w.aggregator = some u ∧ u.end?.isSome = true) : Becomes w i t .finish t.cancel
  | other {m : Move} (hm : m ∉ pollerMoves i) : Becomes w i t m t

section

variable {w w' : World} {i j : Nat} {t u t' : PollerTask} {m : Move}

theorem getElem?_setPoller_self (ht : w.pollers[i]? = some t) :
    (w.setPoller i t').pollers[i]? = some t' := by
  have hlt : i < w.pollers.length := (List.getElem?_eq_some_iff.mp ht).1
  simp [hlt]

private theorem getElem?_setPoller_ne (h : j ≠ i) :
    (w.setPoller j u).pollers[i]? = w.pollers[i]? := by
  simp [h]

private theorem becomes_of_turn (ht : w.pollers[i]? = some t) (hu : w.pollers[j]? = some u)
    (hpollers : w'.pollers = (w.setPoller j t').pollers) (hself : j = i → w.Becomes i u m t')
    (hother : j ≠ i → m ∉ pollerMoves i) :
    ∃ t'', w'.pollers[i]? = some t'' ∧ w.Becomes i t m t'' := by
  rw [hpollers]
  by_cases h : j = i
  · subst h
    cases ht.symm.trans hu
    exact ⟨t', getElem?_setPoller_self ht, hself rfl⟩
  · exact ⟨t, (getElem?_setPoller_ne h).trans ht, .other (hother h)⟩

theorem becomes_of_step (ht : w.pollers[i]? = some t) (hstep : w.step m = some w') :
    ∃ t', w'.pollers[i]? = some t' ∧ w.Becomes i t m t' := by
  -- The moves of other tasks and those from outside keep the pollers.
  have hkept (hpollers : w'.pollers = w.pollers) (hm : m ∉ pollerMoves i) :
      ∃ t', w'.pollers[i]? = some t' ∧ w.Becomes i t m t' :=
    ⟨t, by rw [hpollers, ht], .other hm⟩
  cases m with
  | startPoller j =>
    obtain ⟨u, t', events, hu, hstart, rfl⟩ := step_startPoller_iff.mp hstep
    exact becomes_of_turn ht hu rfl (fun h => h ▸ .start hstart) fun h => by simp [pollerMoves, h]
  | beginFetch j =>
    obtain ⟨u, t', hu, hbegin, rfl⟩ := step_beginFetch_iff.mp hstep
    exact becomes_of_turn ht hu rfl (fun h => h ▸ .beginFetch hbegin)
      fun h => by simp [pollerMoves, h]
  | endFetch j =>
    obtain ⟨u, t', events, hu, hend, rfl⟩ := step_endFetch_iff.mp hstep
    exact becomes_of_turn ht hu rfl (fun h => h ▸ .endFetch hend) fun h => by simp [pollerMoves, h]
  | deliver j =>
    obtain ⟨u, report, hu, hoffer, -, -, rfl⟩ := step_deliver_iff.mp hstep
    exact becomes_of_turn ht hu rfl (fun h => h ▸ .deliver hoffer) fun h => by simp [pollerMoves, h]
  | abandon j =>
    obtain ⟨u, hu, -, hreceiving, rfl⟩ := step_abandon_iff.mp hstep
    exact becomes_of_turn ht hu rfl (fun h => h ▸ .abandon hreceiving)
      fun h => by simp [pollerMoves, h]
  | noticePoller j =>
    obtain ⟨u, t', hu, hnotice, rfl⟩ := step_noticePoller_iff.mp hstep
    exact becomes_of_turn ht hu rfl (fun h => h ▸ .notice hnotice) fun h => by simp [pollerMoves, h]
  | startAggregator =>
    obtain ⟨u, u', events, -, -, rfl⟩ := step_startAggregator_iff.mp hstep
    exact hkept (by simp) (by simp [pollerMoves])
  | receive =>
    obtain ⟨u, u', report, -, -, -, rfl⟩ := step_receive_iff.mp hstep
    exact hkept (by simp) (by simp [pollerMoves])
  | closeReports =>
    obtain ⟨u, u', events, -, -, -, -, rfl⟩ := step_closeReports_iff.mp hstep
    exact hkept (by simp) (by simp [pollerMoves])
  | tick =>
    obtain ⟨u, u', events, -, -, rfl⟩ := step_tick_iff.mp hstep
    exact hkept (by simp) (by simp [pollerMoves])
  | noticeAggregator =>
    obtain ⟨u, u', events, -, -, rfl⟩ := step_noticeAggregator_iff.mp hstep
    exact hkept (by simp) (by simp [pollerMoves])
  | finish =>
    obtain ⟨u, how, hu, hhow, -, rfl⟩ := step_finish_iff.mp hstep
    exact ⟨t.cancel, by simp [ht], .cancel ⟨u, hu, by simp [hhow]⟩⟩
  | wait time =>
    obtain ⟨-, rfl⟩ := step_wait_iff.mp hstep
    exact hkept rfl (by simp [pollerMoves])
  | signal value =>
    obtain ⟨-, rfl⟩ := step_signal_iff.mp hstep
    exact hkept rfl (by simp [pollerMoves])
  | dropSignal =>
    cases step_dropSignal_iff.mp hstep
    exact hkept rfl (by simp [pollerMoves])
  | send report =>
    obtain ⟨-, rfl⟩ := step_send_iff.mp hstep
    exact hkept rfl (by simp [pollerMoves])
  | closeSender =>
    cases step_closeSender_iff.mp hstep
    exact hkept rfl (by simp [pollerMoves])
  | take =>
    obtain ⟨-, htake⟩ := Option.ite_none_right_eq_some.mp hstep
    cases htake
    exact hkept rfl (by simp [pollerMoves])
  | closeReceiver =>
    cases hstep
    exact hkept rfl (by simp [pollerMoves])

end

end FleetTelemetry.World
