import FleetTelemetry.Collection.World

/-!
# What each move does

For every move of a task: when it is possible and which world comes out of it. What holds along a
run is proved from these facts, without a look at the definition of a step.
-/

namespace FleetTelemetry.World

open Diagnostics

/-! ## Replacing the parts of a world -/

section Parts

variable (w : World) (i : Nat) (t : PollerTask) (events : List Event)

@[simp] theorem now_tell : (w.tell events).now = w.now := rfl
@[simp] theorem slot_tell : (w.tell events).slot = w.slot := rfl
@[simp] theorem pollers_tell : (w.tell events).pollers = w.pollers := rfl
@[simp] theorem aggregator_tell : (w.tell events).aggregator = w.aggregator := rfl
@[simp] theorem shutdown_tell : (w.tell events).shutdown = w.shutdown := rfl
@[simp] theorem receiving_tell : (w.tell events).receiving = w.receiving := rfl
@[simp] theorem sending_tell : (w.tell events).sending = w.sending := rfl
@[simp] theorem result_tell : (w.tell events).result = w.result := rfl
@[simp] theorem epoch_tell : (w.tell events).epoch = w.epoch := rfl

@[simp] theorem now_setPoller : (w.setPoller i t).now = w.now := rfl
@[simp] theorem slot_setPoller : (w.setPoller i t).slot = w.slot := rfl
@[simp] theorem pollers_setPoller : (w.setPoller i t).pollers = w.pollers.set i t := rfl
@[simp] theorem aggregator_setPoller : (w.setPoller i t).aggregator = w.aggregator := rfl
@[simp] theorem shutdown_setPoller : (w.setPoller i t).shutdown = w.shutdown := rfl
@[simp] theorem receiving_setPoller : (w.setPoller i t).receiving = w.receiving := rfl

end Parts

section Aggregator

variable (w : World) (t : AggregatorTask)

@[simp] theorem now_setAggregator : (w.setAggregator t).now = w.now := by
  unfold setAggregator
  split <;> rfl

@[simp] theorem epoch_setAggregator : (w.setAggregator t).epoch = w.epoch := by
  unfold setAggregator
  split <;> rfl

@[simp] theorem pollers_setAggregator : (w.setAggregator t).pollers = w.pollers := by
  unfold setAggregator
  split <;> rfl

@[simp] theorem aggregator_setAggregator : (w.setAggregator t).aggregator = some t := by
  unfold setAggregator
  split <;> rfl

@[simp] theorem shutdown_setAggregator : (w.setAggregator t).shutdown = w.shutdown := by
  unfold setAggregator
  split <;> rfl

@[simp] theorem sending_setAggregator : (w.setAggregator t).sending = w.sending := by
  unfold setAggregator
  split <;> rfl

@[simp] theorem result_setAggregator : (w.setAggregator t).result = w.result := by
  unfold setAggregator
  split <;> rfl

theorem slot_setAggregator :
    (w.setAggregator t).slot = if t.end?.isSome then none else w.slot := by
  unfold setAggregator
  split <;> rfl

theorem setAggregator_of_going (h : t.end? = none) :
    w.setAggregator t = { w with aggregator := some t } := by
  simp [setAggregator, h]

theorem setAggregator_of_ended {how : AggregatorEnd} (h : t.end? = some how) :
    w.setAggregator t = { w with aggregator := some t, receiving := false, slot := none } := by
  simp [setAggregator, h]

end Aggregator

/-! ## Moves of pollers -/

section Moves

variable {w w' : World} {i : Nat}

theorem step_startPoller_iff : w.step (.startPoller i) = some w' ↔
    ∃ t t' events, w.pollers[i]? = some t ∧ t.start w.now = some (t', events) ∧
      w' = (w.setPoller i t').tell events := by
  simp only [step, Option.bind_eq_bind, Option.bind_eq_some_iff]
  constructor
  · rintro ⟨t, ht, ⟨t', events⟩, hstart, h⟩
    exact ⟨t, t', events, ht, hstart, (Option.some.inj h).symm⟩
  · rintro ⟨t, t', events, ht, hstart, rfl⟩
    exact ⟨t, ht, (t', events), hstart, rfl⟩

theorem step_beginFetch_iff : w.step (.beginFetch i) = some w' ↔
    ∃ t t', w.pollers[i]? = some t ∧ t.beginFetch w.now = some t' ∧ w' = w.setPoller i t' := by
  simp only [step, Option.bind_eq_bind, Option.bind_eq_some_iff]
  constructor
  · rintro ⟨t, ht, t', hbegin, h⟩
    exact ⟨t, t', ht, hbegin, (Option.some.inj h).symm⟩
  · rintro ⟨t, t', ht, hbegin, rfl⟩
    exact ⟨t, ht, t', hbegin, rfl⟩

theorem step_endFetch_iff : w.step (.endFetch i) = some w' ↔
    ∃ t t' events, w.pollers[i]? = some t ∧ t.endFetch w.now = some (t', events) ∧
      w' = (w.setPoller i t').tell events := by
  simp only [step, Option.bind_eq_bind, Option.bind_eq_some_iff]
  constructor
  · rintro ⟨t, ht, ⟨t', events⟩, hend, h⟩
    exact ⟨t, t', events, ht, hend, (Option.some.inj h).symm⟩
  · rintro ⟨t, t', events, ht, hend, rfl⟩
    exact ⟨t, ht, (t', events), hend, rfl⟩

theorem step_deliver_iff : w.step (.deliver i) = some w' ↔
    ∃ t report, w.pollers[i]? = some t ∧ t.offer? = some report ∧ w.receiving = true ∧
      w.slot = none ∧ w' = { w.setPoller i t.delivered with slot := some report } := by
  simp only [step, Option.bind_eq_bind, Option.bind_eq_some_iff]
  constructor
  · rintro ⟨t, ht, report, hoffer, h⟩
    split at h
    case isTrue hroom => exact ⟨t, report, ht, hoffer, hroom.1, hroom.2, (Option.some.inj h).symm⟩
    case isFalse => cases h
  · rintro ⟨t, report, ht, hoffer, hreceiving, hslot, rfl⟩
    refine ⟨t, ht, report, hoffer, ?_⟩
    rw [if_pos ⟨hreceiving, hslot⟩]
    rfl

theorem step_abandon_iff : w.step (.abandon i) = some w' ↔
    ∃ t, w.pollers[i]? = some t ∧ t.offer?.isSome = true ∧ w.receiving = false ∧
      w' = (w.setPoller i t.abandon.1).tell t.abandon.2 := by
  simp only [step, Option.bind_eq_bind, Option.bind_eq_some_iff]
  constructor
  · rintro ⟨t, ht, h⟩
    split at h
    case isTrue hgone =>
      exact ⟨t, ht, hgone.1, by simpa using hgone.2, (Option.some.inj h).symm⟩
    case isFalse => cases h
  · rintro ⟨t, ht, hoffer, hreceiving, rfl⟩
    refine ⟨t, ht, ?_⟩
    rw [if_pos ⟨hoffer, by simp [hreceiving]⟩]
    rfl

theorem step_noticePoller_iff : w.step (.noticePoller i) = some w' ↔
    ∃ t t', w.pollers[i]? = some t ∧ t.notice w.shutdown = some t' ∧ w' = w.setPoller i t' := by
  simp only [step, Option.bind_eq_bind, Option.bind_eq_some_iff]
  constructor
  · rintro ⟨t, ht, t', hnotice, h⟩
    exact ⟨t, t', ht, hnotice, (Option.some.inj h).symm⟩
  · rintro ⟨t, t', ht, hnotice, rfl⟩
    exact ⟨t, ht, t', hnotice, rfl⟩

/-! ## Moves of the aggregator -/

theorem step_startAggregator_iff : w.step .startAggregator = some w' ↔
    ∃ t t' events, w.aggregator = some t ∧ t.start w.now w.clockEnd = some (t', events) ∧
      w' = (w.setAggregator t').tell events := by
  simp only [step, Option.bind_eq_bind, Option.bind_eq_some_iff]
  constructor
  · rintro ⟨t, ht, ⟨t', events⟩, hstart, h⟩
    exact ⟨t, t', events, ht, hstart, (Option.some.inj h).symm⟩
  · rintro ⟨t, t', events, ht, hstart, rfl⟩
    exact ⟨t, ht, (t', events), hstart, rfl⟩

theorem step_receive_iff : w.step .receive = some w' ↔
    ∃ t t' report, w.aggregator = some t ∧ w.slot = some report ∧ t.receive report = some t' ∧
      w' = { w.setAggregator t' with slot := none } := by
  simp only [step, Option.bind_eq_bind, Option.bind_eq_some_iff]
  constructor
  · rintro ⟨t, ht, report, hslot, t', hreceive, h⟩
    exact ⟨t, t', report, ht, hslot, hreceive, (Option.some.inj h).symm⟩
  · rintro ⟨t, t', report, ht, hslot, hreceive, rfl⟩
    exact ⟨t, ht, report, hslot, t', hreceive, rfl⟩

theorem step_closeReports_iff : w.step .closeReports = some w' ↔
    ∃ t t' events, w.aggregator = some t ∧ t.closeReports = some (t', events) ∧ w.slot = none ∧
      w.hasSender = false ∧ w' = (w.setAggregator t').tell events := by
  simp only [step, Option.bind_eq_bind, Option.bind_eq_some_iff]
  constructor
  · rintro ⟨t, ht, ⟨t', events⟩, hclose, h⟩
    simp only at h
    split at h
    case isTrue hdone =>
      exact ⟨t, t', events, ht, hclose, hdone.1, by simpa using hdone.2, (Option.some.inj h).symm⟩
    case isFalse => cases h
  · rintro ⟨t, t', events, ht, hclose, hslot, hsender, rfl⟩
    refine ⟨t, ht, (t', events), hclose, ?_⟩
    rw [if_pos ⟨hslot, by simp [hsender]⟩]
    rfl

theorem step_tick_iff : w.step .tick = some w' ↔
    ∃ t t' events, w.aggregator = some t ∧ t.tick w.now w.timestamp = some (t', events) ∧
      w' = (w.setAggregator t').tell events := by
  simp only [step, Option.bind_eq_bind, Option.bind_eq_some_iff]
  constructor
  · rintro ⟨t, ht, ⟨t', events⟩, htick, h⟩
    exact ⟨t, t', events, ht, htick, (Option.some.inj h).symm⟩
  · rintro ⟨t, t', events, ht, htick, rfl⟩
    exact ⟨t, ht, (t', events), htick, rfl⟩

theorem step_noticeAggregator_iff : w.step .noticeAggregator = some w' ↔
    ∃ t t' events, w.aggregator = some t ∧ t.notice w.shutdown = some (t', events) ∧
      w' = (w.setAggregator t').tell events := by
  simp only [step, Option.bind_eq_bind, Option.bind_eq_some_iff]
  constructor
  · rintro ⟨t, ht, ⟨t', events⟩, hnotice, h⟩
    exact ⟨t, t', events, ht, hnotice, (Option.some.inj h).symm⟩
  · rintro ⟨t, t', events, ht, hnotice, rfl⟩
    exact ⟨t, ht, (t', events), hnotice, rfl⟩

theorem step_finish_iff : w.step .finish = some w' ↔
    ∃ t how, w.aggregator = some t ∧ t.end? = some how ∧ w.result = none ∧
      w' = { w with
        result := some (resultOf how)
        pollers := w.pollers.map PollerTask.cancel } := by
  simp only [step, Option.bind_eq_bind, Option.bind_eq_some_iff]
  constructor
  · rintro ⟨t, ht, how, hend, h⟩
    split at h
    case isTrue hresult =>
      exact ⟨t, how, ht, hend, Option.isNone_iff_eq_none.mp hresult, (Option.some.inj h).symm⟩
    case isFalse => cases h
  · rintro ⟨t, how, ht, hend, hresult, rfl⟩
    refine ⟨t, ht, how, hend, ?_⟩
    rw [hresult, if_pos (by rfl)]
    rfl

/-! ## Moves from outside -/

theorem step_wait_iff {time : Nat} : w.step (.wait time) = some w' ↔
    w.now ≤ time ∧ w' = { w with now := time } := by
  simp only [step, Option.ite_none_right_eq_some, Option.some.injEq]
  exact and_congr_right fun _ => eq_comm

theorem step_signal_iff {value : Bool} : w.step (.signal value) = some w' ↔
    w.shutdown.dropped = false ∧
      w' = { w with shutdown := { w.shutdown with value, version := w.shutdown.version + 1 } } := by
  simp only [step, Option.ite_none_left_eq_some, Option.some.injEq, Bool.not_eq_true]
  exact and_congr_right fun _ => eq_comm

theorem step_dropSignal_iff : w.step .dropSignal = some w' ↔
    w' = { w with shutdown := { w.shutdown with dropped := true } } := by
  simp only [step, Option.some.injEq]
  exact eq_comm

theorem step_send_iff {report : Report} : w.step (.send report) = some w' ↔
    (w.sending = true ∧ w.receiving = true ∧ w.slot = none) ∧
      w' = { w with slot := some report } := by
  simp only [step, Option.ite_none_right_eq_some, Option.some.injEq]
  exact and_congr_right fun _ => eq_comm

theorem step_closeSender_iff : w.step .closeSender = some w' ↔
    w' = { w with sending := false } := by
  simp only [step, Option.some.injEq]
  exact eq_comm

end Moves

end FleetTelemetry.World
