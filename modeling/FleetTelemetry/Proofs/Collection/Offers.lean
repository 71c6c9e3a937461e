import FleetTelemetry.Proofs.Collection.Delivery
import FleetTelemetry.Proofs.Collection.PollerTurns

/-!
# What becomes of a poller's reports

A poller that shares its channel with anybody offers each snapshot as a report. While the report
waits for room it is handed over, or dropped when the poller learns from the shutdown signal that it
is to go on. No snapshot is lost in another way as long as the poller has not stopped.
-/

namespace FleetTelemetry

/-- What becomes of a report that a poller offers and does not keep. -/
inductive Fate where
  | handedOver (report : Report)
  /-- The signal was set, but not for stopping, while the report waited for room. -/
  | dropped (report : Report)
  deriving DecidableEq, Repr

def Fate.report : Fate → Report
  | .handedOver report => report
  | .dropped report => report

namespace World

/-- The world of a poller before it has begun. Others may put reports into the channel and take
reports from it. -/
def ofPoller (epoch : Nat) (p : Poller) : World :=
  { epoch, sending := true, pollers := [{ poller := p }] }

/-- What a move makes of the report that a poller offers. -/
def fate? (w : World) : Move → Option Fate
  | .deliver i => do
    let t ← w.pollers[i]?
    let report ← t.offer?
    return .handedOver report
  | .noticePoller i => do
    let t ← w.pollers[i]?
    let report ← t.offer?
    if w.shutdown.notice t.seen = some .goOn then some (.dropped report) else none
  | _ => none

/-- What becomes of the reports along a sequence of moves. -/
def fates (w : World) : List Move → List Fate
  | [] => []
  | m :: ms =>
    match w.step m with
    | none => []
    | some w' => (w.fate? m).toList ++ w'.fates ms

theorem fates_cons {w w' : World} {m : Move} (h : w.step m = some w') (ms : List Move) :
    w.fates (m :: ms) = (w.fate? m).toList ++ w'.fates ms := by
  simp [fates, h]

/-! ## The moves of a world with one poller -/

structure Lone (w : World) (t : PollerTask) : Prop where
  pollers : w.pollers = [t]
  aggregator : w.aggregator = none

inductive LoneStep (w : World) (t : PollerTask) : Move → World → Prop where
  | start {t' : PollerTask} {events : List Diagnostics.Event}
      (h : t.start w.now = some (t', events)) :
      LoneStep w t (.startPoller 0) ({ w with pollers := [t'] }.tell events)
  | beginFetch {t' : PollerTask} (h : t.beginFetch w.now = some t') :
      LoneStep w t (.beginFetch 0) { w with pollers := [t'] }
  | endFetch {t' : PollerTask} {events : List Diagnostics.Event}
      (h : t.endFetch w.now = some (t', events)) :
      LoneStep w t (.endFetch 0) ({ w with pollers := [t'] }.tell events)
  | deliver {report : Report} (h : t.offer? = some report) (hreceiving : w.receiving = true)
      (hslot : w.slot = none) :
      LoneStep w t (.deliver 0) { w with pollers := [t.delivered], slot := some report }
  | abandon (h : t.offer?.isSome = true) (hreceiving : w.receiving = false) :
      LoneStep w t (.abandon 0) ({ w with pollers := [t.abandon.1] }.tell t.abandon.2)
  | notice {t' : PollerTask} (h : t.notice w.shutdown = some t') :
      LoneStep w t (.noticePoller 0) { w with pollers := [t'] }
  | wait {time : Nat} (h : w.now ≤ time) : LoneStep w t (.wait time) { w with now := time }
  | signal {value : Bool} (h : w.shutdown.dropped = false) :
      LoneStep w t (.signal value)
        { w with shutdown := { w.shutdown with value, version := w.shutdown.version + 1 } }
  | dropSignal : LoneStep w t .dropSignal { w with shutdown.dropped := true }
  | send {report : Report} (h : w.sending = true ∧ w.receiving = true ∧ w.slot = none) :
      LoneStep w t (.send report) { w with slot := some report }
  | closeSender : LoneStep w t .closeSender { w with sending := false }
  | take (h : w.slot.isSome = true) : LoneStep w t .take { w with slot := none }
  | closeReceiver : LoneStep w t .closeReceiver { w with receiving := false, slot := none }

section

variable {w w' : World} {t : PollerTask} {m : Move}

private theorem Lone.eq_of_getElem? (h : w.Lone t) {i : Nat} {u : PollerTask}
    (hu : w.pollers[i]? = some u) : i = 0 ∧ u = t := by
  rw [h.pollers] at hu
  cases i with
  | zero => exact ⟨rfl, (Option.some.inj hu).symm⟩
  | succ i => cases hu

theorem Lone.setPoller (h : w.Lone t) (t' : PollerTask) :
    w.setPoller 0 t' = { w with pollers := [t'] } := by
  simp [World.setPoller, h.pollers]

theorem Lone.of_step (h : w.Lone t) (hstep : w.step m = some w') : LoneStep w t m w' := by
  cases m with
  | startPoller i =>
    obtain ⟨u, t', events, hu, hstart, rfl⟩ := step_startPoller_iff.mp hstep
    obtain ⟨rfl, rfl⟩ := h.eq_of_getElem? hu
    rw [h.setPoller]
    exact .start hstart
  | beginFetch i =>
    obtain ⟨u, t', hu, hbegin, rfl⟩ := step_beginFetch_iff.mp hstep
    obtain ⟨rfl, rfl⟩ := h.eq_of_getElem? hu
    rw [h.setPoller]
    exact .beginFetch hbegin
  | endFetch i =>
    obtain ⟨u, t', events, hu, hend, rfl⟩ := step_endFetch_iff.mp hstep
    obtain ⟨rfl, rfl⟩ := h.eq_of_getElem? hu
    rw [h.setPoller]
    exact .endFetch hend
  | deliver i =>
    obtain ⟨u, report, hu, hoffer, hreceiving, hslot, rfl⟩ := step_deliver_iff.mp hstep
    obtain ⟨rfl, rfl⟩ := h.eq_of_getElem? hu
    rw [h.setPoller]
    exact .deliver hoffer hreceiving hslot
  | abandon i =>
    obtain ⟨u, hu, hoffer, hreceiving, rfl⟩ := step_abandon_iff.mp hstep
    obtain ⟨rfl, rfl⟩ := h.eq_of_getElem? hu
    rw [h.setPoller]
    exact .abandon hoffer hreceiving
  | noticePoller i =>
    obtain ⟨u, t', hu, hnotice, rfl⟩ := step_noticePoller_iff.mp hstep
    obtain ⟨rfl, rfl⟩ := h.eq_of_getElem? hu
    rw [h.setPoller]
    exact .notice hnotice
  | startAggregator =>
    obtain ⟨u, -, -, hu, -⟩ := step_startAggregator_iff.mp hstep
    cases h.aggregator.symm.trans hu
  | receive =>
    obtain ⟨u, -, -, hu, -⟩ := step_receive_iff.mp hstep
    cases h.aggregator.symm.trans hu
  | closeReports =>
    obtain ⟨u, -, -, hu, -⟩ := step_closeReports_iff.mp hstep
    cases h.aggregator.symm.trans hu
  | tick =>
    obtain ⟨u, -, -, hu, -⟩ := step_tick_iff.mp hstep
    cases h.aggregator.symm.trans hu
  | noticeAggregator =>
    obtain ⟨u, -, -, hu, -⟩ := step_noticeAggregator_iff.mp hstep
    cases h.aggregator.symm.trans hu
  | finish =>
    obtain ⟨u, -, hu, -⟩ := step_finish_iff.mp hstep
    cases h.aggregator.symm.trans hu
  | wait time =>
    obtain ⟨hle, rfl⟩ := step_wait_iff.mp hstep
    exact .wait hle
  | signal value =>
    obtain ⟨hkept, rfl⟩ := step_signal_iff.mp hstep
    exact .signal hkept
  | dropSignal =>
    cases step_dropSignal_iff.mp hstep
    exact .dropSignal
  | send report =>
    obtain ⟨hroom, rfl⟩ := step_send_iff.mp hstep
    exact .send hroom
  | closeSender =>
    cases step_closeSender_iff.mp hstep
    exact .closeSender
  | take =>
    obtain ⟨hslot, htake⟩ := Option.ite_none_right_eq_some.mp hstep
    cases htake
    exact .take hslot
  | closeReceiver =>
    cases hstep
    exact .closeReceiver

theorem LoneStep.step (hstep : LoneStep w t m w') (h : w.Lone t) : w.step m = some w' := by
  have ht : w.pollers[0]? = some t := by simp [h.pollers]
  cases hstep with
  | start hstart =>
    exact step_startPoller_iff.mpr ⟨t, _, _, ht, hstart, by rw [h.setPoller]⟩
  | beginFetch hbegin => exact step_beginFetch_iff.mpr ⟨t, _, ht, hbegin, by rw [h.setPoller]⟩
  | endFetch hend => exact step_endFetch_iff.mpr ⟨t, _, _, ht, hend, by rw [h.setPoller]⟩
  | deliver hoffer hreceiving hslot =>
    exact step_deliver_iff.mpr ⟨t, _, ht, hoffer, hreceiving, hslot, by rw [h.setPoller]⟩
  | abandon hoffer hreceiving =>
    exact step_abandon_iff.mpr ⟨t, ht, hoffer, hreceiving, by rw [h.setPoller]⟩
  | notice hnotice => exact step_noticePoller_iff.mpr ⟨t, _, ht, hnotice, by rw [h.setPoller]⟩
  | wait hle => exact step_wait_iff.mpr ⟨hle, rfl⟩
  | signal hkept => exact step_signal_iff.mpr ⟨hkept, rfl⟩
  | dropSignal => rfl
  | send hroom => exact step_send_iff.mpr ⟨hroom, rfl⟩
  | closeSender => rfl
  | take hslot => exact if_pos hslot
  | closeReceiver => rfl

theorem LoneStep.lone (hstep : LoneStep w t m w') (h : w.Lone t) : ∃ t', w'.Lone t' := by
  cases hstep with
  | start | beginFetch | endFetch | deliver | abandon | notice => exact ⟨_, rfl, h.aggregator⟩
  | _ => exact ⟨t, h.pollers, h.aggregator⟩

end

/-! ## The account of a poller's snapshots -/

/-- The snapshots of a poller's fetches are those of the reports whose fates are known, and what it
keeps. -/
structure Offers (p : Poller) (w : World) (t : PollerTask) (fates : List Fate) : Prop where
  lone : w.Lone t
  node : t.poller.node = p.node
  source : t.poller.source = p.source
  accounts : t.AccountsFor (fates.map Fate.report)
  known : ∀ fate ∈ fates, fate.report.node = p.node

section

variable {p : Poller} {w w' : World} {t : PollerTask} {fates : List Fate} {m : Move}

theorem Offers.ofPoller (epoch : Nat) (hfresh : p.fetches = 0) :
    Offers p (ofPoller epoch p) { poller := p } [] where
  lone := ⟨rfl, rfl⟩
  node := rfl
  source := rfl
  accounts := ⟨[], rfl, by simp [Poller.successes, hfresh]⟩
  known := nofun

theorem Offers.of_task (h : Offers p w t fates) {t' : PollerTask} (hlone : w'.Lone t')
    (hnode : t'.poller.node = t.poller.node) (hsource : t'.poller.source = t.poller.source)
    (haccounts : t'.AccountsFor (fates.map Fate.report)) : Offers p w' t' fates :=
  ⟨hlone, hnode.trans h.node, hsource.trans h.source, haccounts, h.known⟩

theorem Offers.settle (h : Offers p w t fates) {t' : PollerTask} (hlone : w'.Lone t')
    (hpoller : t'.poller = t.poller) (hphase : t'.phase = .idle) {fate : Fate}
    (hoffer : t.offer? = some fate.report) : Offers p w' t' (fates ++ [fate]) := by
  obtain ⟨hnode, kept, hkept, heq⟩ := h.accounts.delivered hoffer
  refine ⟨hlone, by rw [hpoller, h.node], by rw [hpoller, h.source], ⟨kept, ?_, ?_⟩, ?_⟩
  · simpa [PollerTask.Keeps, PollerTask.delivered, hphase] using hkept
  · rw [List.map_append, List.map_singleton, hpoller]
    exact heq
  · intro other hother
    rcases List.mem_append.mp hother with hother | hother
    · exact h.known other hother
    · cases List.mem_singleton.mp hother
      rw [hnode, h.node]

theorem Offers.step (h : Offers p w t fates) (hstep : w.step m = some w') :
    ∃ t', Offers p w' t' (fates ++ (w.fate? m).toList) := by
  -- Only handing over and looking at the signal decide the fate of a report.
  have hnone {t' : PollerTask} (h' : Offers p w' t' fates) (hfate : w.fate? m = none) :
      ∃ t', Offers p w' t' (fates ++ (w.fate? m).toList) := by
    rw [hfate]
    exact ⟨t', by simpa using h'⟩
  have hsettled {t' : PollerTask} {fate : Fate} (hfate : w.fate? m = some fate)
      (hlone : w'.Lone t') (hpoller : t'.poller = t.poller) (hphase : t'.phase = .idle)
      (hoffer : t.offer? = some fate.report) :
      ∃ t', Offers p w' t' (fates ++ (w.fate? m).toList) := by
    rw [hfate]
    exact ⟨t', h.settle hlone hpoller hphase hoffer⟩
  have ht : w.pollers[0]? = some t := by simp [h.lone.pollers]
  cases h.lone.of_step hstep with
  | start hstart =>
    obtain ⟨hpoller, haccounts⟩ := h.accounts.start hstart
    exact hnone (h.of_task ⟨rfl, h.lone.aggregator⟩ (by rw [hpoller]) (by rw [hpoller]) haccounts)
      rfl
  | beginFetch hbegin =>
    obtain ⟨hpoller, haccounts⟩ := h.accounts.beginFetch hbegin
    exact hnone (h.of_task ⟨rfl, h.lone.aggregator⟩ (by rw [hpoller]) (by rw [hpoller]) haccounts)
      rfl
  | endFetch hend =>
    obtain ⟨hnode, hsource, haccounts⟩ := h.accounts.endFetch hend
    exact hnone (h.of_task ⟨rfl, h.lone.aggregator⟩ hnode hsource haccounts) rfl
  | @deliver report hoffer hreceiving hslot =>
    have hfate : w.fate? (.deliver 0) = some (.handedOver report) := by simp [fate?, ht, hoffer]
    exact hsettled hfate ⟨rfl, h.lone.aggregator⟩ rfl rfl hoffer
  | abandon hoffer hreceiving =>
    exact hnone (h.of_task ⟨rfl, h.lone.aggregator⟩ rfl rfl h.accounts.abandon.2) rfl
  | notice hnotice =>
    obtain ⟨hwaits, ⟨hgo, rfl⟩ | ⟨hstop, rfl⟩⟩ := PollerTask.notice_eq_some_iff.mp hnotice
    · rcases hwaits with hidle | ⟨report, hoffering⟩
      · have hfate : w.fate? (.noticePoller 0) = none := by
          simp [fate?, ht, PollerTask.offer?, hidle]
        refine hnone (h.of_task ⟨rfl, h.lone.aggregator⟩ rfl rfl ?_) hfate
        refine h.accounts.of_keeps rfl fun kept hkept => ?_
        simpa [PollerTask.Keeps, hidle] using hkept
      · have hoffer := PollerTask.offer?_eq_some_iff.mpr hoffering
        have hfate : w.fate? (.noticePoller 0) = some (.dropped report) := by
          simp [fate?, ht, hoffer, hgo]
        exact hsettled hfate ⟨rfl, h.lone.aggregator⟩ rfl rfl hoffer
    · have hfate : w.fate? (.noticePoller 0) = none := by simp [fate?, ht, hstop]
      refine hnone (h.of_task ⟨rfl, h.lone.aggregator⟩ rfl rfl ?_) hfate
      exact h.accounts.of_stopped rfl rfl
  | wait | signal | dropSignal | send | closeSender | take | closeReceiver =>
    exact hnone { h with lone := ⟨h.lone.pollers, h.lone.aggregator⟩ } rfl

theorem Offers.run {ms : List Move} (h : Offers p w t fates) (hrun : w.run ms = some w') :
    ∃ t', Offers p w' t' (fates ++ w.fates ms) := by
  induction ms generalizing w t fates with
  | nil =>
    cases hrun
    exact ⟨t, by simpa [World.fates] using h⟩
  | cons m ms ih =>
    obtain ⟨v, hstep, hrest⟩ := Option.bind_eq_some_iff.mp hrun
    obtain ⟨u, hu⟩ := h.step hstep
    rw [fates_cons hstep, ← List.append_assoc]
    exact ih hu hrest

end

end World

end FleetTelemetry
