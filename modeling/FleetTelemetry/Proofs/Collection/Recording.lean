import FleetTelemetry.Proofs.Collection.Endings
import FleetTelemetry.Proofs.Collection.Plans

/-!
# What pollers record and report

As long as nobody touches the shutdown signal and reports are taken, a poller does the same with
each snapshot that its fetches bring: it attempts to record it and then offers it as a report. A
fetch that brings none, and an update that fails, make no difference to the rest.
-/

namespace FleetTelemetry.World

/-- The world of some pollers, and of an aggregator if there is one, before they have begun. -/
def ofTeam (epoch clockEnd : Nat) (sending : Bool) (pollers : List Poller)
    (a : Option Aggregator) : World :=
  { epoch
    clockEnd
    sending
    pollers := pollers.map fun poller => { poller }
    aggregator := a.map fun aggregator => { aggregator } }

/-- The reports that the poller with the number `i` comes to offer along a sequence of moves. -/
def offered (i : Nat) (w : World) (ms : List Move) : List Report :=
  w.watch (fun _ m w' =>
    if m = .endFetch i then (w'.pollers[i]?.bind PollerTask.offer?).toList else []) ms

/-- The reports that it puts into the channel. -/
def handed (i : Nat) (w : World) (ms : List Move) : List Report :=
  w.watch (fun v m _ =>
    if m = .deliver i then (v.pollers[i]?.bind PollerTask.offer?).toList else []) ms

section

variable {i : Nat} {w v v' : World} {ms : List Move} {m : Move}

private theorem offered_concat (hrun : w.run ms = some v) (hstep : v.step m = some v') :
    w.offered i (ms ++ [m]) = w.offered i ms ++
      if m = .endFetch i then (v'.pollers[i]?.bind PollerTask.offer?).toList else [] :=
  watch_concat hrun hstep

private theorem handed_concat (hrun : w.run ms = some v) (hstep : v.step m = some v') :
    w.handed i (ms ++ [m]) = w.handed i ms ++
      if m = .deliver i then (v.pollers[i]?.bind PollerTask.offer?).toList else [] :=
  watch_concat hrun hstep

end

/-- From here on the poller with the number `i` can come to the end of one more fetch, without a
signal and while reports are taken. -/
def CanFetch (i : Nat) (w : World) : Prop :=
  ∃ more w', w.run more = some w' ∧ w'.shutdown = w.shutdown ∧ w'.receiving = w.receiving ∧
    more.count (.endFetch i) = 1

/-! ## Worlds without disturbance -/

/-- Nobody has touched the signal, and reports are taken. -/
structure Undisturbed (w : World) : Prop where
  silent : w.shutdown = {}
  receiving : w.receiving = true

section

variable {w w' : World} {m : Move}

private theorem receiving_of_setAggregator {t : AggregatorTask}
    (h : (w.setAggregator t).receiving = true) : w.receiving = true := by
  unfold setAggregator at h
  split at h
  · cases h
  · exact h

private theorem receiving_of_step (hstep : w.step m = some w') (h : w'.receiving = true) :
    w.receiving = true := by
  cases m with
  | startPoller i =>
    obtain ⟨t, t', events, -, -, rfl⟩ := step_startPoller_iff.mp hstep
    exact h
  | beginFetch i =>
    obtain ⟨t, t', -, -, rfl⟩ := step_beginFetch_iff.mp hstep
    exact h
  | endFetch i =>
    obtain ⟨t, t', events, -, -, rfl⟩ := step_endFetch_iff.mp hstep
    exact h
  | deliver i =>
    obtain ⟨t, report, -, -, hreceiving, -, -⟩ := step_deliver_iff.mp hstep
    exact hreceiving
  | abandon i =>
    obtain ⟨t, -, -, -, rfl⟩ := step_abandon_iff.mp hstep
    exact h
  | noticePoller i =>
    obtain ⟨t, t', -, -, rfl⟩ := step_noticePoller_iff.mp hstep
    exact h
  | startAggregator =>
    obtain ⟨t, t', events, -, -, rfl⟩ := step_startAggregator_iff.mp hstep
    exact receiving_of_setAggregator h
  | receive =>
    obtain ⟨t, t', report, -, -, -, rfl⟩ := step_receive_iff.mp hstep
    exact receiving_of_setAggregator h
  | closeReports =>
    obtain ⟨t, t', events, -, -, -, -, rfl⟩ := step_closeReports_iff.mp hstep
    exact receiving_of_setAggregator h
  | tick =>
    obtain ⟨t, t', events, -, -, rfl⟩ := step_tick_iff.mp hstep
    exact receiving_of_setAggregator h
  | noticeAggregator =>
    obtain ⟨t, t', events, -, -, rfl⟩ := step_noticeAggregator_iff.mp hstep
    exact receiving_of_setAggregator h
  | finish =>
    obtain ⟨t, how, -, -, -, rfl⟩ := step_finish_iff.mp hstep
    exact h
  | wait time =>
    obtain ⟨-, rfl⟩ := step_wait_iff.mp hstep
    exact h
  | signal value =>
    obtain ⟨-, rfl⟩ := step_signal_iff.mp hstep
    exact h
  | dropSignal =>
    cases step_dropSignal_iff.mp hstep
    exact h
  | send report =>
    obtain ⟨⟨-, hreceiving, -⟩, -⟩ := step_send_iff.mp hstep
    exact hreceiving
  | closeSender =>
    cases step_closeSender_iff.mp hstep
    exact h
  | take =>
    obtain ⟨-, htake⟩ := Option.ite_none_right_eq_some.mp hstep
    cases htake
    exact h
  | closeReceiver =>
    cases hstep
    cases h

private theorem silent_of_step (hstep : w.step m = some w') (h : w'.shutdown = {}) :
    w.shutdown = {} := by
  cases step_cases hstep with
  | spares hspares => rw [← hspares.shutdown, h]
  | takes htakes => rw [← htakes.shutdown, h]
  | returns _ _ _ _ hw' =>
    rw [hw'] at h
    exact h
  | signals _ hw' =>
    rw [hw'] at h
    have hversion := congrArg Shutdown.version h
    cases hversion
  | drops _ hw' =>
    rw [hw'] at h
    have hdropped := congrArg Shutdown.dropped h
    cases hdropped

theorem Undisturbed.of_step (h : w'.Undisturbed) (hstep : w.step m = some w') : w.Undisturbed :=
  ⟨silent_of_step hstep h.silent, receiving_of_step hstep h.receiving⟩

/-- Reports are taken only as long as an aggregator goes on. -/
def Attended (w : World) : Prop := w.receiving = true → w.IsGoing

theorem Attended.step (h : w.Attended) (hstep : w.step m = some w') : w'.Attended := by
  intro hreceiving u hu
  have hgoing : w.IsGoing := h (receiving_of_step hstep hreceiving)
  cases step_cases hstep with
  | spares hspares => exact hgoing u (hspares.aggregator ▸ hu)
  | takes htakes =>
    by_contra hended
    cases htakes.after.symm.trans hu
    have hclosed := (htakes.ended hended).1
    cases hclosed.symm.trans hreceiving
  | returns _ ht hhow _ _ => cases (hgoing _ ht).symm.trans hhow
  | signals _ hw' | drops _ hw' =>
    rw [hw'] at hu
    exact hgoing u hu

theorem Becomes.works {i : Nat} {t t' : PollerTask} (h : w.Becomes i t m t') (hw : w.Undisturbed)
    (hgoing : w.IsGoing) :
    (m = .startPoller i ∧ ∃ events, t.start w.now = some (t', events)) ∨
    (m = .beginFetch i ∧ t.beginFetch w.now = some t') ∨
    (m = .endFetch i ∧ ∃ events, t.endFetch w.now = some (t', events)) ∨
    (m = .deliver i ∧ t' = t.delivered) ∨
    (m ∉ pollerMoves i ∧ t' = t) := by
  cases h with
  | start hstart => exact .inl ⟨rfl, _, hstart⟩
  | beginFetch hbegin => exact .inr (.inl ⟨rfl, hbegin⟩)
  | endFetch hend => exact .inr (.inr (.inl ⟨rfl, _, hend⟩))
  | deliver => exact .inr (.inr (.inr (.inl ⟨rfl, rfl⟩)))
  | abandon hreceiving => cases hw.receiving.symm.trans hreceiving
  | notice hnotice =>
    have hlearned := (PollerTask.notice_eq_some_iff.mp hnotice).2
    rw [hw.silent] at hlearned
    simp [Shutdown.notice] at hlearned
  | cancel hended =>
    obtain ⟨u, hu, hend⟩ := hended
    simp [hgoing u hu] at hend
  | other hm => exact .inr (.inr (.inr (.inr ⟨hm, rfl⟩)))

end

/-! ## One poller's work -/

/-- What a poller has recorded and reported after some of its fetches have ended. -/
structure Worked (p : Poller) (fetches : Nat) (offers hands : List Report) (t : PollerTask) :
    Prop where
  poller : t.poller = p.after fetches
  offers_eq : offers = (p.broughtBy fetches).map (Report.mk p.node)
  hands_eq : offers = hands ++ t.offer?.toList
  going : t.phase = .stopped → p.interval.nanoseconds = 0

section

variable {p : Poller} {w w' : World} {i fetches : Nat} {offers hands : List Report}
  {t t' : PollerTask} {m : Move}

private theorem Worked.of_offer (h : Worked p fetches offers hands t)
    (hpoller : t'.poller = t.poller)
    (hoffer : t'.offer? = t.offer?) (hgoing : t'.phase = .stopped → p.interval.nanoseconds = 0) :
    Worked p fetches offers hands t' where
  poller := hpoller.trans h.poller
  offers_eq := h.offers_eq
  hands_eq := by rw [hoffer, h.hands_eq]
  going := hgoing

theorem Worked.start {events : List Diagnostics.Event} {now : Nat}
    (h : Worked p fetches offers hands t) (hstart : t.start now = some (t', events)) :
    Worked p fetches offers hands t' := by
  obtain ⟨hcreated, hstart⟩ := PollerTask.start_eq_some_iff.mp hstart
  have hnone : t.offer? = none := by simp [PollerTask.offer?, hcreated]
  rcases hstart with ⟨hzero, rfl, -⟩ | ⟨-, rfl, -⟩
  · have hperiod : t.period = p.interval.nanoseconds := by
      rw [PollerTask.period, h.poller]
      rfl
    exact h.of_offer rfl hnone.symm fun _ => hperiod ▸ hzero
  · exact h.of_offer rfl hnone.symm (by simp)

theorem Worked.beginFetch {now : Nat} (h : Worked p fetches offers hands t)
    (hbegin : t.beginFetch now = some t') : Worked p fetches offers hands t' := by
  obtain ⟨hidle, -, rfl⟩ := PollerTask.beginFetch_eq_some_iff.mp hbegin
  have hnone : t.offer? = none := by simp [PollerTask.offer?, hidle]
  exact h.of_offer rfl hnone.symm (by simp)

theorem Worked.deliver (h : Worked p fetches offers hands t) :
    Worked p fetches offers (hands ++ t.offer?.toList) t.delivered where
  poller := h.poller
  offers_eq := h.offers_eq
  hands_eq := by simp [h.hands_eq, PollerTask.delivered, PollerTask.offer?]
  going := by simp [PollerTask.delivered]

theorem Worked.endFetch {events : List Diagnostics.Event} {now : Nat}
    (h : Worked p fetches offers hands t) (hend : t.endFetch now = some (t', events)) :
    Worked p (fetches + 1) (offers ++ t'.offer?.toList) hands t' := by
  obtain ⟨ends, hfetching, -, rfl, -⟩ := PollerTask.endFetch_eq_some_iff.mp hend
  have hnone : t.offer? = none := by simp [PollerTask.offer?, hfetching]
  have hpoller : t.poller.poll.2.1 = p.after (fetches + 1) := by rw [h.poller, p.after_poll]
  have hnext : t.poller.poll.1 = (p.after fetches).next? := by rw [h.poller, Poller.poll_fst]
  have hoffer : PollerTask.offer? { t with
      poller := t.poller.poll.2.1
      phase := PollerTask.phaseAfter t.poller.poll.2.1.node t.poller.poll.1 } =
        (p.after fetches).next?.map (Report.mk p.node) := by
    rw [hpoller, hnext]
    cases (p.after fetches).next? <;> rfl
  refine ⟨hpoller, ?_, ?_, ?_⟩
  · rw [hoffer, h.offers_eq, p.broughtBy_succ, List.map_append]
    cases (p.after fetches).next? <;> rfl
  · rw [h.hands_eq, hnone, Option.toList_none, List.append_nil]
  · intro hstopped
    cases hsnapshot : t.poller.poll.1 <;> simp [PollerTask.phaseAfter, hsnapshot] at hstopped

theorem Worked.step (h : Worked p fetches offers hands t) (hw : w.Undisturbed)
    (hgoing : w.IsGoing) (hturn : w.Becomes i t m t') :
    Worked p (fetches + if m = .endFetch i then 1 else 0)
      (offers ++ if m = .endFetch i then t'.offer?.toList else [])
      (hands ++ if m = .deliver i then t.offer?.toList else []) t' := by
  rcases hturn.works hw hgoing with ⟨rfl, events, hstart⟩ | ⟨rfl, hbegin⟩ | ⟨rfl, events, hend⟩ |
    ⟨rfl, rfl⟩ | ⟨hm, rfl⟩
  · simpa only [reduceCtorEq, if_false, List.append_nil, Nat.add_zero] using h.start hstart
  · simpa only [reduceCtorEq, if_false, List.append_nil, Nat.add_zero] using h.beginFetch hbegin
  · simpa only [reduceCtorEq, if_true, if_false, List.append_nil] using h.endFetch hend
  · simpa only [reduceCtorEq, if_true, if_false, List.append_nil, Nat.add_zero] using h.deliver
  · have hend : m ≠ .endFetch i := fun heq => hm (by simp [heq, pollerMoves])
    have hdeliver : m ≠ .deliver i := fun heq => hm (by simp [heq, pollerMoves])
    simpa only [hend, hdeliver, if_false, List.append_nil, Nat.add_zero] using h

private theorem Worked.getLast?_of_offer (h : Worked p fetches offers hands t) {report : Report}
    (hoffer : t.offer? = some report) :
    (p.broughtBy fetches).getLast? = some report.snapshot := by
  have hreports : (p.broughtBy fetches).map (Report.mk p.node) = hands ++ [report] := by
    rw [← h.offers_eq, h.hands_eq, hoffer, Option.toList_some]
  have hlast : (p.broughtBy fetches).getLast?.map (Report.mk p.node) = some report := by
    rw [← List.getLast?_map, hreports, List.getLast?_concat]
  obtain ⟨snapshot, hsnapshot, rfl⟩ := Option.map_eq_some_iff.mp hlast
  exact hsnapshot

theorem Worked.run {ms : List Move} (ht : w.pollers[i]? = some t) (hattended : w.Attended)
    (h : Worked p 0 [] [] t) (hrun : w.run ms = some w') (hw' : w'.Undisturbed) :
    ∃ t', w'.pollers[i]? = some t' ∧
      Worked p (ms.count (.endFetch i)) (w.offered i ms) (w.handed i ms) t' := by
  have hworked : w'.Attended ∧ (w'.Undisturbed → ∃ t', w'.pollers[i]? = some t' ∧
      Worked p (ms.count (.endFetch i)) (w.offered i ms) (w.handed i ms) t') := by
    -- What is silent and open at the end was so before every move, so the work is told only of
    -- such worlds.
    refine run_induction (motive := fun ms v => v.Attended ∧ (v.Undisturbed →
      ∃ t', v.pollers[i]? = some t' ∧
        Worked p (ms.count (.endFetch i)) (w.offered i ms) (w.handed i ms) t')) ?_ ?_ hrun
    · exact ⟨hattended, fun _ => ⟨t, ht, h⟩⟩
    · rintro ms v m v' hbefore hmove ⟨hattended, hworked⟩
      refine ⟨hattended.step hmove, fun hv' => ?_⟩
      have hv := hv'.of_step hmove
      obtain ⟨u, hu, hwork⟩ := hworked hv
      obtain ⟨u', hu', hturn⟩ := becomes_of_step hu hmove
      refine ⟨u', hu', ?_⟩
      have hstep := hwork.step hv (hattended hv.receiving) hturn
      rw [offered_concat hbefore hmove, handed_concat hbefore hmove, List.count_append,
        List.count_singleton, hu, hu']
      simpa only [Option.bind_some, beq_iff_eq] using hstep
  exact hworked.2 hw'

/-! ## Going on -/

/-- A move that is not the end of a fetch and touches neither the signal nor the receiver leads on.
-/
theorem CanFetch.of_step (h : CanFetch i w') (hstep : w.step m = some w')
    (hshutdown : w'.shutdown = w.shutdown) (hreceiving : w'.receiving = w.receiving)
    (hm : m ≠ .endFetch i) : CanFetch i w := by
  obtain ⟨more, v, hrun, hsilent, hopen, hcount⟩ := h
  refine ⟨m :: more, v, Option.bind_eq_some_iff.mpr ⟨w', hstep, hrun⟩, hsilent.trans hshutdown,
    hopen.trans hreceiving, ?_⟩
  rw [List.count_cons_of_ne hm, hcount]

private theorem canFetch_of_fetching {ends : Nat} (ht : w.pollers[i]? = some t)
    (hphase : t.phase = .fetching ends) : CanFetch i w := by
  have hwait : w.step (.wait (max w.now ends)) = some { w with now := max w.now ends } :=
    step_wait_iff.mpr ⟨Nat.le_max_left _ _, rfl⟩
  have hend : ∃ w', World.step { w with now := max w.now ends } (.endFetch i) = some w' ∧
      w'.shutdown = w.shutdown ∧ w'.receiving = w.receiving :=
    ⟨_, step_endFetch_iff.mpr ⟨t, _, _, ht, PollerTask.endFetch_eq_some_iff.mpr
      ⟨ends, hphase, Nat.le_max_right _ _, rfl, rfl⟩, rfl⟩, rfl, rfl⟩
  obtain ⟨w', hstep, hsilent, hopen⟩ := hend
  have hrun : w.run [.wait (max w.now ends), .endFetch i] = some w' := by
    simp only [World.run, hwait, Option.bind_some, hstep]
  exact ⟨_, w', hrun, hsilent, hopen, by simp⟩

private theorem canFetch_of_idle (ht : w.pollers[i]? = some t) (hphase : t.phase = .idle) :
    CanFetch i w := by
  have hwait : w.step (.wait (max w.now t.due)) = some { w with now := max w.now t.due } :=
    step_wait_iff.mpr ⟨Nat.le_max_left _ _, rfl⟩
  refine CanFetch.of_step ?_ hwait rfl rfl nofun
  refine CanFetch.of_step ?_ (step_beginFetch_iff.mpr ⟨t, _, ht,
    PollerTask.beginFetch_eq_some_iff.mpr ⟨hphase, Nat.le_max_right _ _, rfl⟩, rfl⟩) rfl rfl nofun
  exact canFetch_of_fetching (getElem?_setPoller_self ht) rfl

private theorem canFetch_of_offering {report : Report} (ht : w.pollers[i]? = some t)
    (hreceiving : w.receiving = true) (hphase : t.phase = .offering report) : CanFetch i w := by
  have hdeliver {v : World} (hv : v.pollers[i]? = some t) (hopen : v.receiving = true)
      (hroom : v.slot = none) : CanFetch i v := by
    refine CanFetch.of_step ?_ (step_deliver_iff.mpr ⟨t, report, hv,
      PollerTask.offer?_eq_some_iff.mpr hphase, hopen, hroom, rfl⟩) rfl rfl nofun
    exact canFetch_of_idle (getElem?_setPoller_self hv) rfl
  cases hslot : w.slot with
  | none => exact hdeliver ht hreceiving hslot
  | some waiting =>
    have htake : w.step .take = some { w with slot := none } := if_pos (by rw [hslot]; rfl)
    exact CanFetch.of_step (hdeliver (v := { w with slot := none }) ht hreceiving rfl) htake rfl rfl
      nofun

private theorem canFetch_of_going (ht : w.pollers[i]? = some t) (hreceiving : w.receiving = true)
    (hperiod : 0 < t.period) (hphase : t.phase ≠ .stopped) : CanFetch i w := by
  cases hcase : t.phase with
  | created =>
    refine CanFetch.of_step ?_ (step_startPoller_iff.mpr ⟨t, _, _, ht,
      PollerTask.start_eq_some_iff.mpr ⟨hcase, .inr ⟨hperiod, rfl, rfl⟩⟩, rfl⟩) rfl rfl nofun
    exact canFetch_of_idle (getElem?_setPoller_self ht) rfl
  | idle => exact canFetch_of_idle ht hcase
  | fetching ends => exact canFetch_of_fetching ht hcase
  | offering report => exact canFetch_of_offering ht hreceiving hcase
  | stopped => exact absurd hcase hphase

end

/-! ## Teams of pollers -/

private theorem attended_ofTeam (epoch clockEnd : Nat) (sending : Bool) (pollers : List Poller)
    (a : Option Aggregator) : (ofTeam epoch clockEnd sending pollers a).Attended := by
  intro _ t ht
  obtain ⟨aggregator, -, rfl⟩ := Option.map_eq_some_iff.mp ht
  rfl

private theorem alike_ofTeam {pollers others : List Poller}
    (h : others.map Poller.plan = pollers.map Poller.plan) (epoch clockEnd : Nat) (sending : Bool)
    (a : Option Aggregator) :
    (ofTeam epoch clockEnd sending pollers a).Alike (ofTeam epoch clockEnd sending others a) := by
  have hplans (team : List Poller) : (team.map fun poller : Poller => ({ poller } : PollerTask)).map
      PollerTask.plan = (team.map Poller.plan).map fun poller => { poller } := by
    rw [List.map_map, List.map_map]
    rfl
  unfold Alike plan ofTeam
  simp only [hplans, h]

section

variable {w v w' : World} {ms : List Move}

theorem Alike.offered (h : w.Alike v) (hrun : w.run ms = some w') (i : Nat) :
    w.offered i ms = v.offered i ms := by
  refine h.watch (fun w v m w' v' _ h' => ?_) hrun
  rw [h'.offer? i]

theorem Alike.handed (h : w.Alike v) (hrun : w.run ms = some w') (i : Nat) :
    w.handed i ms = v.handed i ms := by
  refine h.watch (fun w v m w' v' h _ => ?_) hrun
  rw [h.offer? i]

end

/-- In every run in which nobody touches the shutdown signal and reports are taken, each poller
works off what its fetches bring. Its series has taken one attempt for each snapshot, in the order
of the fetches and before the snapshot's report was offered, and keeps the values of those attempts
that did not fail. It has offered one report for each snapshot, in the same order and in its node's
name, and all of them but the one that still waits for room are in the channel or were taken from
it. Whatever its fetches brought, it can go on to the next one. And pollers that differ from these
only in their series make the same run with the same reports. -/
theorem snapshots_recorded_and_reported (epoch clockEnd : Nat) (sending : Bool)
    (pollers : List Poller) (a : Option Aggregator) (ms : List Move) (w : World)
    (hrun : (ofTeam epoch clockEnd sending pollers a).run ms = some w) (hsilent : w.shutdown = {})
    (hreceiving : w.receiving = true) :
    let team := ofTeam epoch clockEnd sending pollers a
    (∀ (i : Nat) p, pollers[i]? = some p → ∃ t, w.pollers[i]? = some t ∧
      let brought := p.broughtBy (ms.count (.endFetch i))
      t.poller.series = p.series.updateAll (brought.map Snapshot.seriesValues) ∧
      t.poller.series.attempts = p.series.attempts + brought.length ∧
      t.poller.series.updates.toList = p.series.updates.toList ++
        ((brought.map Snapshot.seriesValues).zipIdx p.series.attempts).filterMap (fun sample =>
          if (p.series.faultAt sample.2).isNone then some sample.1 else none) ∧
      team.offered i ms = brought.map (fun snapshot => { node := p.node, snapshot }) ∧
      team.offered i ms = team.handed i ms ++ t.offer?.toList ∧
      (∀ report, t.offer? = some report → brought.getLast? = some report.snapshot) ∧
      (0 < p.interval.nanoseconds → w.CanFetch i)) ∧
    ∀ others : List Poller, others.map Poller.plan = pollers.map Poller.plan →
      ∃ v, (ofTeam epoch clockEnd sending others a).run ms = some v ∧
        ∀ i, (ofTeam epoch clockEnd sending others a).offered i ms = team.offered i ms ∧
          (ofTeam epoch clockEnd sending others a).handed i ms = team.handed i ms := by
  intro team
  constructor
  · intro i p hp
    have hfirst : team.pollers[i]? = some { poller := p } := by
      simp [team, ofTeam, hp]
    have hworked : Worked p 0 [] [] { poller := p } := ⟨rfl, rfl, rfl, nofun⟩
    obtain ⟨t, ht, hwork⟩ :=
      hworked.run hfirst (attended_ofTeam epoch clockEnd sending pollers a) hrun
        ⟨hsilent, hreceiving⟩
    have hseries := congrArg Poller.series hwork.poller
    refine ⟨t, ht, hseries, ?_, ?_, hwork.offers_eq, hwork.hands_eq, fun report hoffer => ?_,
      fun hperiod => ?_⟩
    · rw [hseries]
      exact (SeriesPanel.updateAll_attempts _ _).trans (by rw [List.length_map])
    · rw [hseries]
      exact SeriesPanel.updateAll_updates _ _
    · exact hwork.getLast?_of_offer hoffer
    · refine canFetch_of_going ht hreceiving ?_ fun hstopped => ?_
      · rw [PollerTask.period, hwork.poller]
        exact hperiod
      · have hzero := hwork.going hstopped
        omega
  · intro others hothers
    have halike := alike_ofTeam hothers epoch clockEnd sending a
    obtain ⟨v, hrun', -⟩ := halike.run hrun
    exact ⟨v, hrun', fun i => ⟨(halike.offered hrun i).symm, (halike.handed hrun i).symm⟩⟩

/-- A poller with two fetches that fail between two that bring a snapshot. The first update of its
series fails. -/
def patchyPoller : Poller where
  node := "a"
  source :=
    { description := "a"
      outcome := fun
        | 0 => .ok { gas := 3 }
        | 1 => Http.refused
        | 2 => .error (.status 503)
        | _ => .ok { gas := 5 }
      delay := fun _ => 2 }
  series := { faultAt := fun k => if k = 0 then some .overflow else none }
  interval := ⟨10⟩

/-- Four fetches. The first report is taken, the second one waits for room. -/
def patchyMoves : List Move :=
  [.startPoller 0, .beginFetch 0, .wait 2, .endFetch 0, .deliver 0, .wait 10, .beginFetch 0,
    .wait 12, .endFetch 0, .take, .wait 20, .beginFetch 0, .wait 22, .endFetch 0, .wait 30,
    .beginFetch 0, .wait 32, .endFetch 0]

theorem snapshots_recorded_and_reported_patchy :
    ∃ w t, (ofTeam 0 clockRange false [patchyPoller] none).run patchyMoves = some w ∧
      w.shutdown = {} ∧
      w.receiving = true ∧ w.pollers[0]? = some t ∧ t.poller.series.attempts = 2 ∧
      t.poller.series.updates.toList = [Snapshot.seriesValues { gas := 5 }] ∧
      (ofTeam 0 clockRange false [patchyPoller] none).offered 0 patchyMoves =
        [⟨"a", { gas := 3 }⟩, ⟨"a", { gas := 5 }⟩] ∧
      (ofTeam 0 clockRange false [patchyPoller] none).handed 0 patchyMoves = [⟨"a", { gas := 3 }⟩] ∧
      w.CanFetch 0 := by
  obtain ⟨w, hrun⟩ :
      ∃ w, (ofTeam 0 clockRange false [patchyPoller] none).run patchyMoves = some w := ⟨_, rfl⟩
  have hw := hrun
  cases hw
  obtain ⟨hwork, -⟩ :=
    snapshots_recorded_and_reported 0 clockRange false [patchyPoller] none patchyMoves _ hrun rfl
      rfl
  obtain ⟨t, ht, -, hattempts, hupdates, hoffered, -, -, hgoing⟩ := hwork 0 patchyPoller rfl
  exact ⟨_, t, hrun, rfl, rfl, ht, hattempts, hupdates, hoffered, rfl, hgoing (by decide)⟩

end FleetTelemetry.World
