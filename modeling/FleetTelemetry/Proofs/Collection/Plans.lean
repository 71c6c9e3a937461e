import FleetTelemetry.Proofs.Collection.Fetches
import FleetTelemetry.Proofs.Collection.Watching

/-!
# Pollers without their series

A poller's plan is all of it but its series. The moves that are possible in a world, and the reports
that its pollers offer, depend on their plans alone: whatever the series make of their updates, the
same things are fetched and reported.
-/

namespace FleetTelemetry

open Diagnostics

namespace Poller

/-- A poller with a series that has seen nothing and does not fail. -/
def plan (p : Poller) : Poller := { p with series := {} }

private theorem poll_alike {p q : Poller} (h : p.plan = q.plan) :
    p.poll.1 = q.poll.1 ∧ p.poll.2.1.plan = q.poll.2.1.plan := by
  have hnext : p.next? = q.next? := (congrArg next? h :)
  have hafter : { p.plan with fetches := p.fetches + 1 } =
      { q.plan with fetches := q.fetches + 1 } :=
    (congrArg (fun p => { p with fetches := p.fetches + 1 }) h :)
  constructor
  · rw [poll_fst, poll_fst, hnext]
  · rw [poll_poller, poll_poller]
    exact hafter

end Poller

namespace PollerTask

def plan (t : PollerTask) : PollerTask := { t with poller := t.poller.plan }

/-- Tasks of pollers that have nothing different but their series. -/
def Alike (t u : PollerTask) : Prop := t.plan = u.plan

section

variable {t u t' : PollerTask} {events : List Event} {now : Nat}

theorem Alike.poller (h : t.Alike u) : t.poller.plan = u.poller.plan :=
  (congrArg PollerTask.poller h :)

theorem Alike.phase (h : t.Alike u) : t.phase = u.phase := (congrArg PollerTask.phase h :)

theorem Alike.due (h : t.Alike u) : t.due = u.due := (congrArg PollerTask.due h :)

theorem Alike.seen (h : t.Alike u) : t.seen = u.seen := (congrArg PollerTask.seen h :)

theorem Alike.offer? (h : t.Alike u) : t.offer? = u.offer? := (congrArg PollerTask.offer? h :)

theorem Alike.period (h : t.Alike u) : t.period = u.period := (congrArg PollerTask.period h :)

private theorem Alike.of_poller (h : t.poller.plan = u.poller.plan) {phase : PollerPhase}
    {due seen : Nat} :
    Alike ⟨t.poller, phase, due, seen⟩ ⟨u.poller, phase, due, seen⟩ := by
  unfold Alike plan
  rw [h]

theorem Alike.start (h : t.Alike u) (hstart : t.start now = some (t', events)) :
    ∃ u' events', u.start now = some (u', events') ∧ t'.Alike u' := by
  obtain ⟨hcreated, hstart⟩ := start_eq_some_iff.mp hstart
  rw [h.phase] at hcreated
  rw [h.period] at hstart
  rcases hstart with ⟨hzero, rfl, -⟩ | ⟨hpos, rfl, -⟩
  · refine ⟨_, _, start_eq_some_iff.mpr ⟨hcreated, .inl ⟨hzero, rfl, rfl⟩⟩, ?_⟩
    rw [h.due, h.seen]
    exact .of_poller h.poller
  · refine ⟨_, _, start_eq_some_iff.mpr ⟨hcreated, .inr ⟨hpos, rfl, rfl⟩⟩, ?_⟩
    rw [h.seen]
    exact .of_poller h.poller

theorem Alike.beginFetch (h : t.Alike u) (hbegin : t.beginFetch now = some t') :
    ∃ u', u.beginFetch now = some u' ∧ t'.Alike u' := by
  obtain ⟨hidle, hdue, rfl⟩ := beginFetch_eq_some_iff.mp hbegin
  rw [h.phase] at hidle
  rw [h.due] at hdue
  refine ⟨_, beginFetch_eq_some_iff.mpr ⟨hidle, hdue, rfl⟩, ?_⟩
  have hsource : t.poller.source = u.poller.source := (congrArg Poller.source h.poller :)
  have hfetches : t.poller.fetches = u.poller.fetches := (congrArg Poller.fetches h.poller :)
  rw [hsource, hfetches, h.period, h.due, h.seen]
  exact .of_poller h.poller

theorem Alike.endFetch (h : t.Alike u) (hend : t.endFetch now = some (t', events)) :
    ∃ u' events', u.endFetch now = some (u', events') ∧ t'.Alike u' := by
  obtain ⟨ends, hfetching, hends, rfl, -⟩ := endFetch_eq_some_iff.mp hend
  rw [h.phase] at hfetching
  refine ⟨_, _, endFetch_eq_some_iff.mpr ⟨ends, hfetching, hends, rfl, rfl⟩, ?_⟩
  obtain ⟨hsnapshot, hplan⟩ := Poller.poll_alike h.poller
  have hnode : t.poller.poll.2.1.node = u.poller.poll.2.1.node := (congrArg Poller.node hplan :)
  -- The report names the node, which is part of the plan.
  unfold Alike plan
  simp only [hsnapshot, hplan, hnode, h.due, h.seen]

theorem Alike.notice (h : t.Alike u) {shutdown : Shutdown}
    (hnotice : t.notice shutdown = some t') : ∃ u', u.notice shutdown = some u' ∧ t'.Alike u' := by
  obtain ⟨hwaits, hnotice⟩ := notice_eq_some_iff.mp hnotice
  rw [h.phase] at hwaits
  rw [h.seen] at hnotice
  rcases hnotice with ⟨hgo, rfl⟩ | ⟨hstop, rfl⟩
  · refine ⟨_, notice_eq_some_iff.mpr ⟨hwaits, .inl ⟨hgo, rfl⟩⟩, ?_⟩
    rw [h.due]
    exact .of_poller h.poller
  · refine ⟨_, notice_eq_some_iff.mpr ⟨hwaits, .inr ⟨hstop, rfl⟩⟩, ?_⟩
    rw [h.due]
    exact .of_poller h.poller

end

end PollerTask

namespace World

/-- A world without its pollers' series and without its journal. -/
def plan (w : World) : World := { w with pollers := w.pollers.map PollerTask.plan, journal := #[] }

/-- Worlds that have nothing different but the pollers' series and the journal. -/
def Alike (w v : World) : Prop := w.plan = v.plan

section

variable {w v w' : World} {m : Move} {i : Nat}

theorem Alike.now (h : w.Alike v) : w.now = v.now := (congrArg World.now h :)

theorem Alike.clockEnd (h : w.Alike v) : w.clockEnd = v.clockEnd := (congrArg World.clockEnd h :)

theorem Alike.shutdown (h : w.Alike v) : w.shutdown = v.shutdown := (congrArg World.shutdown h :)

theorem Alike.slot (h : w.Alike v) : w.slot = v.slot := (congrArg World.slot h :)

theorem Alike.receiving (h : w.Alike v) : w.receiving = v.receiving :=
  (congrArg World.receiving h :)

theorem Alike.sending (h : w.Alike v) : w.sending = v.sending := (congrArg World.sending h :)

theorem Alike.aggregator (h : w.Alike v) : w.aggregator = v.aggregator :=
  (congrArg World.aggregator h :)

theorem Alike.result (h : w.Alike v) : w.result = v.result := (congrArg World.result h :)

theorem Alike.timestamp (h : w.Alike v) : w.timestamp = v.timestamp :=
  (congrArg World.timestamp h :)

theorem Alike.pollers (h : w.Alike v) :
    w.pollers.map PollerTask.plan = v.pollers.map PollerTask.plan := (congrArg World.pollers h :)

private theorem hasSender_plan (w : World) : w.plan.hasSender = w.hasSender := by
  have hstopped : (fun t => !t.isStopped) ∘ PollerTask.plan = fun t => !t.isStopped := rfl
  simp only [hasSender, plan, List.any_map, hstopped]

theorem Alike.hasSender (h : w.Alike v) : w.hasSender = v.hasSender := by
  rw [← hasSender_plan, ← hasSender_plan v, show w.plan = v.plan from h]

theorem Alike.task (h : w.Alike v) {t : PollerTask} (ht : w.pollers[i]? = some t) :
    ∃ u, v.pollers[i]? = some u ∧ t.Alike u := by
  have hplans := congrArg (fun plans : List PollerTask => plans[i]?) h.pollers
  simp only [List.getElem?_map, ht, Option.map_some] at hplans
  obtain ⟨u, hu, hplan⟩ := Option.map_eq_some_iff.mp hplans.symm
  exact ⟨u, hu, hplan.symm⟩

theorem Alike.offer? (h : w.Alike v) (i : Nat) :
    w.pollers[i]?.bind PollerTask.offer? = v.pollers[i]?.bind PollerTask.offer? := by
  cases hw : w.pollers[i]? with
  | some t =>
    obtain ⟨u, hu, hsame⟩ := h.task hw
    rw [hu]
    exact hsame.offer?
  | none =>
    cases hv : v.pollers[i]? with
    | none => rfl
    | some u =>
      obtain ⟨t, ht, -⟩ := Alike.task h.symm hv
      cases hw.symm.trans ht

theorem Alike.tell (h : w.Alike v) (told told' : List Event) :
    (w.tell told).Alike (v.tell told') := h

theorem Alike.setPoller (h : w.Alike v) {t u : PollerTask} (hsame : t.Alike u) (i : Nat) :
    (w.setPoller i t).Alike (v.setPoller i u) := by
  have hset (w : World) (t : PollerTask) : (w.setPoller i t).plan = w.plan.setPoller i t.plan := by
    simp [plan, World.setPoller, List.map_set]
  unfold Alike
  rw [hset, hset, show w.plan = v.plan from h, show t.plan = u.plan from hsame]

theorem Alike.setAggregator (h : w.Alike v) (t : AggregatorTask) :
    (w.setAggregator t).Alike (v.setAggregator t) := by
  have hset (w : World) : (w.setAggregator t).plan = w.plan.setAggregator t := by
    unfold World.setAggregator
    split <;> rfl
  unfold Alike
  rw [hset, hset, show w.plan = v.plan from h]

/-- What is possible in a world is possible in every one like it, and leads to worlds that are alike
again. -/
theorem Alike.step (h : w.Alike v) (hstep : w.step m = some w') :
    ∃ v', v.step m = some v' ∧ w'.Alike v' := by
  cases m with
  | startPoller i =>
    obtain ⟨t, t', events, ht, hstart, rfl⟩ := step_startPoller_iff.mp hstep
    obtain ⟨u, hu, hsame⟩ := h.task ht
    rw [h.now] at hstart
    obtain ⟨u', events', hstart', hsame'⟩ := hsame.start hstart
    exact ⟨_, step_startPoller_iff.mpr ⟨u, u', events', hu, hstart', rfl⟩,
      (h.setPoller hsame' i).tell events events'⟩
  | beginFetch i =>
    obtain ⟨t, t', ht, hbegin, rfl⟩ := step_beginFetch_iff.mp hstep
    obtain ⟨u, hu, hsame⟩ := h.task ht
    rw [h.now] at hbegin
    obtain ⟨u', hbegin', hsame'⟩ := hsame.beginFetch hbegin
    exact ⟨_, step_beginFetch_iff.mpr ⟨u, u', hu, hbegin', rfl⟩, h.setPoller hsame' i⟩
  | endFetch i =>
    obtain ⟨t, t', events, ht, hend, rfl⟩ := step_endFetch_iff.mp hstep
    obtain ⟨u, hu, hsame⟩ := h.task ht
    rw [h.now] at hend
    obtain ⟨u', events', hend', hsame'⟩ := hsame.endFetch hend
    exact ⟨_, step_endFetch_iff.mpr ⟨u, u', events', hu, hend', rfl⟩,
      (h.setPoller hsame' i).tell events events'⟩
  | deliver i =>
    obtain ⟨t, report, ht, hoffer, hreceiving, hslot, rfl⟩ := step_deliver_iff.mp hstep
    obtain ⟨u, hu, hsame⟩ := h.task ht
    rw [hsame.offer?] at hoffer
    rw [h.receiving] at hreceiving
    rw [h.slot] at hslot
    have hdelivered : t.delivered.Alike u.delivered :=
      (congrArg (fun t : PollerTask => { t with phase := .idle }) hsame :)
    exact ⟨_, step_deliver_iff.mpr ⟨u, report, hu, hoffer, hreceiving, hslot, rfl⟩,
      (congrArg (fun w : World => { w with slot := some report }) (h.setPoller hdelivered i) :)⟩
  | abandon i =>
    obtain ⟨t, ht, hoffer, hreceiving, rfl⟩ := step_abandon_iff.mp hstep
    obtain ⟨u, hu, hsame⟩ := h.task ht
    rw [hsame.offer?] at hoffer
    rw [h.receiving] at hreceiving
    have hstopped : t.abandon.1.Alike u.abandon.1 :=
      (congrArg (fun t : PollerTask => { t with phase := .stopped }) hsame :)
    exact ⟨_, step_abandon_iff.mpr ⟨u, hu, hoffer, hreceiving, rfl⟩,
      (h.setPoller hstopped i).tell t.abandon.2 u.abandon.2⟩
  | noticePoller i =>
    obtain ⟨t, t', ht, hnotice, rfl⟩ := step_noticePoller_iff.mp hstep
    obtain ⟨u, hu, hsame⟩ := h.task ht
    rw [h.shutdown] at hnotice
    obtain ⟨u', hnotice', hsame'⟩ := hsame.notice hnotice
    exact ⟨_, step_noticePoller_iff.mpr ⟨u, u', hu, hnotice', rfl⟩, h.setPoller hsame' i⟩
  | startAggregator =>
    obtain ⟨t, t', events, ht, hstart, rfl⟩ := step_startAggregator_iff.mp hstep
    rw [h.aggregator] at ht
    rw [h.now, h.clockEnd] at hstart
    exact ⟨_, step_startAggregator_iff.mpr ⟨t, t', events, ht, hstart, rfl⟩, h.setAggregator t'⟩
  | receive =>
    obtain ⟨t, t', report, ht, hslot, hreceive, rfl⟩ := step_receive_iff.mp hstep
    rw [h.aggregator] at ht
    rw [h.slot] at hslot
    exact ⟨_, step_receive_iff.mpr ⟨t, t', report, ht, hslot, hreceive, rfl⟩,
      (congrArg (fun w : World => { w with slot := none }) (h.setAggregator t') :)⟩
  | closeReports =>
    obtain ⟨t, t', events, ht, hclose, hslot, hsender, rfl⟩ := step_closeReports_iff.mp hstep
    rw [h.aggregator] at ht
    rw [h.slot] at hslot
    rw [h.hasSender] at hsender
    exact ⟨_, step_closeReports_iff.mpr ⟨t, t', events, ht, hclose, hslot, hsender, rfl⟩,
      h.setAggregator t'⟩
  | tick =>
    obtain ⟨t, t', events, ht, htick, rfl⟩ := step_tick_iff.mp hstep
    rw [h.aggregator] at ht
    rw [h.now, h.timestamp] at htick
    exact ⟨_, step_tick_iff.mpr ⟨t, t', events, ht, htick, rfl⟩, h.setAggregator t'⟩
  | noticeAggregator =>
    obtain ⟨t, t', events, ht, hnotice, rfl⟩ := step_noticeAggregator_iff.mp hstep
    rw [h.aggregator] at ht
    rw [h.shutdown] at hnotice
    exact ⟨_, step_noticeAggregator_iff.mpr ⟨t, t', events, ht, hnotice, rfl⟩, h.setAggregator t'⟩
  | finish =>
    obtain ⟨t, how, ht, hhow, hresult, rfl⟩ := step_finish_iff.mp hstep
    rw [h.aggregator] at ht
    rw [h.result] at hresult
    refine ⟨_, step_finish_iff.mpr ⟨t, how, ht, hhow, hresult, rfl⟩, ?_⟩
    have hcancel : PollerTask.plan ∘ PollerTask.cancel = PollerTask.cancel ∘ PollerTask.plan := rfl
    have hpollers : (w.pollers.map PollerTask.cancel).map PollerTask.plan =
        (v.pollers.map PollerTask.cancel).map PollerTask.plan := by
      rw [List.map_map, List.map_map, hcancel, ← List.map_map, ← List.map_map, h.pollers]
    have hothers := congrArg (fun w : World => { w with result := some (resultOf how) }) h
    exact (congrArg₂ (fun (w : World) ts => { w with pollers := ts }) hothers hpollers :)
  | wait time =>
    obtain ⟨hle, rfl⟩ := step_wait_iff.mp hstep
    rw [h.now] at hle
    exact ⟨_, step_wait_iff.mpr ⟨hle, rfl⟩,
      (congrArg (fun w : World => { w with now := time }) h :)⟩
  | signal value =>
    obtain ⟨hkept, rfl⟩ := step_signal_iff.mp hstep
    rw [h.shutdown] at hkept
    exact ⟨_, step_signal_iff.mpr ⟨hkept, rfl⟩, (congrArg (fun w : World =>
      { w with shutdown := { w.shutdown with value, version := w.shutdown.version + 1 } }) h :)⟩
  | dropSignal =>
    cases step_dropSignal_iff.mp hstep
    exact ⟨_, rfl, (congrArg (fun w : World => { w with shutdown.dropped := true }) h :)⟩
  | send report =>
    obtain ⟨hroom, rfl⟩ := step_send_iff.mp hstep
    rw [h.sending, h.receiving, h.slot] at hroom
    exact ⟨_, step_send_iff.mpr ⟨hroom, rfl⟩,
      (congrArg (fun w : World => { w with slot := some report }) h :)⟩
  | closeSender =>
    cases step_closeSender_iff.mp hstep
    exact ⟨_, rfl, (congrArg (fun w : World => { w with sending := false }) h :)⟩
  | take =>
    obtain ⟨hslot, htake⟩ := Option.ite_none_right_eq_some.mp hstep
    cases htake
    rw [h.slot] at hslot
    exact ⟨_, if_pos hslot, (congrArg (fun w : World => { w with slot := none }) h :)⟩
  | closeReceiver =>
    cases hstep
    exact ⟨_, rfl, (congrArg (fun w : World => { w with receiving := false, slot := none }) h :)⟩

theorem Alike.run {ms : List Move} (h : w.Alike v) (hrun : w.run ms = some w') :
    ∃ v', v.run ms = some v' ∧ w'.Alike v' := by
  induction ms generalizing w v with
  | nil =>
    cases hrun
    exact ⟨v, rfl, h⟩
  | cons m ms ih =>
    obtain ⟨u, hmove, hrest⟩ := Option.bind_eq_some_iff.mp hrun
    obtain ⟨u', hmove', hsame⟩ := h.step hmove
    obtain ⟨v', hrest', hend⟩ := ih hsame hrest
    exact ⟨v', Option.bind_eq_some_iff.mpr ⟨u', hmove', hrest'⟩, hend⟩

theorem Alike.watch {α : Type} {see : World → Move → World → List α}
    (hsee : ∀ w v m w' v', w.Alike v → w'.Alike v' → see w m w' = see v m v') {ms : List Move}
    (h : w.Alike v) (hrun : w.run ms = some w') : w.watch see ms = v.watch see ms := by
  induction ms generalizing w v with
  | nil => rfl
  | cons m ms ih =>
    obtain ⟨u, hmove, hrest⟩ := Option.bind_eq_some_iff.mp hrun
    obtain ⟨u', hmove', hsame⟩ := h.step hmove
    rw [watch_cons hmove, watch_cons hmove', hsee w v m u u' h hsame, ih hsame hrest]

end

end World

end FleetTelemetry
