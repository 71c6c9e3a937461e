import FleetTelemetry.Proofs.Collection.Calls
import FleetTelemetry.Proofs.Collection.Moves
import FleetTelemetry.Proofs.Collection.Prompt

/-!
# A task behind the calls

The task of an aggregator is compared with calling the aggregator in the order of time. The task is
behind the calls by what it has not looked at yet: a report in the channel or a setting of the
shutdown signal. Each of its turns lets it catch up and leaves the calls as they are, except a tick,
which is one of the calls.
-/

namespace FleetTelemetry

namespace World

/-- What an aggregator's task has not looked at yet: the report in the channel, the last setting of
the shutdown signal, or the loss of the signal. -/
inductive Awaits (slot : Option Report) (shutdown : Shutdown) (seen : Nat) : InputKind → Prop where
  | report (hslot : slot ≠ none) : Awaits slot shutdown seen .report
  | goOn (hunseen : seen < shutdown.version) (hvalue : shutdown.value = false) :
      Awaits slot shutdown seen .goOn
  | stop (hunseen : seen < shutdown.version) (hvalue : shutdown.value = true) :
      Awaits slot shutdown seen .stop
  | drop (hseen : ¬ seen < shutdown.version) (hdropped : shutdown.dropped = true) :
      Awaits slot shutdown seen .drop

/-- A task that goes on, and the calls so far. The last tick was at `start`, or the task begins
then. -/
structure Alive (epoch period : Nat) (w : World) (inputs : List (Nat × Input)) (t : AggregatorTask)
    (r : Replay) (start : Nat) : Prop where
  task : w.aggregator = some t
  sameEpoch : w.epoch = epoch
  alone : w.pollers = []
  rhythm : t.period = period
  phase : (t.phase = .created ∧ w.now = start ∧ start + period < w.clockEnd) ∨
    (t.phase = .running ∧ t.due = start + period ∧ w.now ≤ start + period)
  receiving : w.receiving = true
  sending : w.sending = r.reportsOpen
  opened : w.sending = true ∨ w.slot ≠ none → t.reportsOpen = true
  aggregator : r.aggregator = w.slot.toList.foldl Aggregator.apply t.aggregator
  ended : (r.ended = none ∧ w.shutdown.notice t.seen ≠ some .stop) ∨
    (r.ended = some .stopped ∧ w.shutdown.notice t.seen = some .stop)
  seen : t.seen ≤ w.shutdown.version
  dropped : w.shutdown.dropped = true → r.ended ≠ none
  unfinished : w.result = none
  apart : w.slot ≠ none → w.shutdown.notice t.seen = none
  /-- What the task has not looked at yet came at this instant, which is not one of a tick. -/
  awaited : ∀ kind, Awaits w.slot w.shutdown t.seen kind →
    w.now < start + period ∧ ∀ x ∈ inputs, x.1 = w.now → x.2.kind = kind

structure Over (w : World) (t : AggregatorTask) (how : AggregatorEnd) (r : Replay) : Prop where
  task : w.aggregator = some t
  alone : w.pollers = []
  phase : t.phase = .ended how
  receiving : w.receiving = false
  ended : r.ended = some how
  aggregator : r.aggregator = t.aggregator
  result : w.result = none ∨ w.result = some (resultOf how)

section

variable {epoch period horizon start : Nat} {w w' : World} {inputs : List (Nat × Input)}
  {t : AggregatorTask} {r : Replay}

theorem awaits_of_notice {shutdown : Shutdown} {seen : Nat} {notice : Notice}
    (slot : Option Report) (h : shutdown.notice seen = some notice) :
    ∃ kind, Awaits slot shutdown seen kind ∧ kind ≠ .report ∧
      (notice = .stop → kind = .stop ∨ kind = .drop) := by
  unfold Shutdown.notice at h
  split at h
  case isTrue hunseen =>
    cases hvalue : shutdown.value with
    | false =>
      rw [hvalue] at h
      cases h
      exact ⟨.goOn, .goOn hunseen hvalue, by simp⟩
    | true =>
      rw [hvalue] at h
      cases h
      exact ⟨.stop, .stop hunseen hvalue, by simp⟩
  case isFalse hseen =>
    split at h
    case isTrue hdropped =>
      cases h
      exact ⟨.drop, .drop hseen hdropped, by simp⟩
    case isFalse => cases h

/-- The calls of a task that goes on are stopped only by something that it has not looked at. -/
theorem Alive.awaits_of_ended (h : Alive epoch period w inputs t r start)
    (hended : r.ended ≠ none) :
    ∃ kind, Awaits w.slot w.shutdown t.seen kind ∧ (kind = .stop ∨ kind = .drop) := by
  rcases h.ended with ⟨hnone, -⟩ | ⟨-, hnotice⟩
  · exact absurd hnone hended
  · obtain ⟨kind, hawaits, -, hkind⟩ := awaits_of_notice w.slot hnotice
    exact ⟨kind, hawaits, hkind rfl⟩

theorem Alive.end?_eq_none (h : Alive epoch period w inputs t r start) : t.end? = none := by
  rcases h.phase with ⟨hcreated, -⟩ | ⟨hrunning, -⟩
  · simp [AggregatorTask.end?, hcreated]
  · exact AggregatorTask.end?_of_running hrunning

private theorem Alive.startable (hperiod : 0 < period) (h : Alive epoch period w inputs t r start)
    (hphase : t.phase = .created) : w.now = start ∧ ¬ t.Unstartable w.now w.clockEnd := by
  rcases h.phase with ⟨-, hnow, hclock⟩ | ⟨hrunning, -⟩
  · refine ⟨hnow, ?_⟩
    unfold AggregatorTask.Unstartable
    rw [h.rhythm, hnow]
    omega
  · rw [hphase] at hrunning
    cases hrunning

/-! ## Turns of the task -/

theorem Alive.startAggregator (hperiod : 0 < period) (h : Alive epoch period w inputs t r start)
    (hstep : w.step .startAggregator = some w') :
    ∃ t', Alive epoch period w' inputs t' r start := by
  obtain ⟨u, t', events, hu, hstart, rfl⟩ := step_startAggregator_iff.mp hstep
  rw [h.task] at hu
  cases hu
  obtain ⟨hphase, hturn⟩ := AggregatorTask.start_eq_some_iff.mp hstart
  obtain ⟨hnow, hcan⟩ := h.startable hperiod hphase
  obtain ⟨hnever, -⟩ | ⟨-, rfl, -⟩ := hturn
  · exact absurd hnever hcan
  rw [setAggregator_of_going _ _ rfl]
  refine ⟨_, { h with task := rfl, phase := .inr ⟨rfl, ?_, ?_⟩ }⟩
  · rw [hnow, h.rhythm]
  · show w.now ≤ start + period
    omega

theorem Alive.receive (h : Alive epoch period w inputs t r start)
    (hstep : w.step .receive = some w') : ∃ t', Alive epoch period w' inputs t' r start := by
  obtain ⟨u, t', report, hu, hslot, hreceive, rfl⟩ := step_receive_iff.mp hstep
  rw [h.task] at hu
  cases hu
  obtain ⟨hphase, hopen, rfl⟩ := AggregatorTask.receive_eq_some_iff.mp hreceive
  rw [setAggregator_of_going]
  case h => exact AggregatorTask.end?_of_running hphase
  refine ⟨_, { h with
    task := rfl
    opened := fun _ => hopen
    aggregator := ?_
    apart := fun hne => absurd rfl hne
    awaited := ?_ }⟩
  · rw [h.aggregator, hslot]
    rfl
  · intro kind hkind
    refine h.awaited kind ?_
    cases hkind with
    | report hne => exact absurd rfl hne
    | goOn hunseen hvalue => exact .goOn hunseen hvalue
    | stop hunseen hvalue => exact .stop hunseen hvalue
    | drop hseen hdropped => exact .drop hseen hdropped

theorem Alive.closeReports (h : Alive epoch period w inputs t r start)
    (hstep : w.step .closeReports = some w') :
    ∃ t', Alive epoch period w' inputs t' r start := by
  obtain ⟨u, t', events, hu, hclose, hslot, hsender, rfl⟩ := step_closeReports_iff.mp hstep
  rw [h.task] at hu
  cases hu
  obtain ⟨hphase, hopen, rfl, -⟩ := AggregatorTask.closeReports_eq_some_iff.mp hclose
  rw [setAggregator_of_going]
  case h => exact AggregatorTask.end?_of_running hphase
  have hclosed : w.sending = false := (Bool.or_eq_false_iff.mp hsender).1
  refine ⟨_, { h with task := rfl, opened := ?_ }⟩
  rintro (hsending | hne)
  · exact absurd (hclosed.symm.trans hsending) (by decide)
  · exact absurd hslot hne

/-- After a signal that is not for stopping the task goes on; after any other it has ended, as the
calls have. -/
theorem Alive.noticeAggregator (h : Alive epoch period w inputs t r start)
    (hstep : w.step .noticeAggregator = some w') :
    ∃ t', Alive epoch period w' inputs t' r start ∨ Over w' t' .stopped r := by
  obtain ⟨u, t', events, hu, hnotice, rfl⟩ := step_noticeAggregator_iff.mp hstep
  rw [h.task] at hu
  cases hu
  have hslot : ∀ notice, w.shutdown.notice t.seen = some notice → w.slot = none := by
    intro notice hsome
    refine Classical.byContradiction fun hne => ?_
    rw [h.apart hne] at hsome
    cases hsome
  obtain ⟨hphase, ⟨hgo, rfl, -⟩ | ⟨hstop, rfl, -⟩⟩ := AggregatorTask.notice_eq_some_iff.mp hnotice
  · have hempty := hslot _ hgo
    have hended : r.ended = none := by
      rcases h.ended with ⟨hnone, -⟩ | ⟨-, hstop⟩
      · exact hnone
      · rw [hgo] at hstop
        cases hstop
    have hkept : w.shutdown.dropped = false := by
      refine Bool.eq_false_iff.mpr fun hdropped => ?_
      exact h.dropped hdropped hended
    have hnone : w.shutdown.notice w.shutdown.version = none := by
      simp [Shutdown.notice, hkept]
    rw [setAggregator_of_going]
    case h => exact AggregatorTask.end?_of_running hphase
    refine ⟨_, .inl { h with
      task := rfl
      ended := .inl ⟨hended, ?_⟩
      seen := Nat.le_refl _
      apart := fun _ => hnone
      awaited := ?_ }⟩
    · show w.shutdown.notice w.shutdown.version ≠ some .stop
      rw [hnone]
      simp
    · intro kind hkind
      cases hkind with
      | report hne => exact absurd hempty hne
      | goOn hunseen hvalue => exact absurd hunseen (Nat.lt_irrefl _)
      | stop hunseen hvalue => exact absurd hunseen (Nat.lt_irrefl _)
      | drop hseen hdropped =>
        exact absurd (hkept.symm.trans hdropped) (by decide)
  · have hempty := hslot _ hstop
    have hended : r.ended = some .stopped := by
      rcases h.ended with ⟨-, hne⟩ | ⟨hended, -⟩
      · exact absurd hstop hne
      · exact hended
    rw [setAggregator_of_ended _ _ rfl]
    refine ⟨_, .inr ⟨rfl, h.alone, rfl, rfl, hended, ?_, .inl h.unfinished⟩⟩
    rw [h.aggregator, hempty]
    rfl

private theorem Alive.nothing_awaited (h : Alive epoch period w inputs t r start)
    (hphase : t.phase = .running) (hdue : t.due ≤ w.now) :
    t.due = start + period ∧ w.now = start + period ∧
      ∀ kind, ¬ Awaits w.slot w.shutdown t.seen kind := by
  obtain ⟨hsince, hnow⟩ : t.due = start + period ∧ w.now = start + period := by
    rcases h.phase with ⟨hcreated, -⟩ | ⟨-, hsince, hle⟩
    · rw [hphase] at hcreated
      cases hcreated
    · omega
  refine ⟨hsince, hnow, ?_⟩
  intro kind hkind
  have hlt := (h.awaited kind hkind).1
  omega

/-- A tick of the task is a tick of the calls, and the next one is due a period later. -/
theorem Alive.tick (hperiod : 0 < period) (h : Alive epoch period w inputs t r start)
    (hstep : w.step .tick = some w') :
    w.now = start + period ∧ ∃ t',
      Alive epoch period w' inputs t' (r.perform epoch (.tick w.now)) (start + period) ∨
        ∃ how, Over w' t' how (r.perform epoch (.tick w.now)) := by
  obtain ⟨u, t', events, hu, htick, rfl⟩ := step_tick_iff.mp hstep
  rw [h.task] at hu
  cases hu
  obtain ⟨hphase, hdue, hnext, -⟩ := AggregatorTask.tick_eq_some_iff.mp htick
  obtain ⟨hsince, hnow, hnothing⟩ := h.nothing_awaited hphase hdue
  have hslot : w.slot = none := Classical.byContradiction fun hne => hnothing _ (.report hne)
  have hended : r.ended = none := by
    refine Classical.byContradiction fun hne => ?_
    obtain ⟨kind, hkind, -⟩ := h.awaits_of_ended hne
    exact hnothing kind hkind
  have haggregator : r.aggregator = t.aggregator := by
    rw [h.aggregator, hslot]
    rfl
  have hrhythm : nextDue t.period t.due w.now = start + period + period := by
    unfold nextDue
    rw [h.rhythm, hsince, if_neg (by omega)]
  have hinterval := (t.aggregator.tick_state ⟨w.now⟩ w.timestamp).2.2.2
  have hperform : r.perform epoch (.tick w.now) =
      { r with
        aggregator := (t.aggregator.tick ⟨w.now⟩ w.timestamp).2.1
        ended := (t.aggregator.tick ⟨w.now⟩ w.timestamp).1.end? } := by
    simp [Replay.perform, Replay.tick, hended, haggregator, timestamp, h.sameEpoch]
  rw [hperform]
  rw [AggregatorTask.phaseAfter_eq, hrhythm] at hnext
  generalize t.aggregator.tick ⟨w.now⟩ w.timestamp = call at hnext hinterval
  refine ⟨hnow, t', ?_⟩
  cases hend : call.1.end? with
  | none =>
    rw [hend] at hnext
    subst hnext
    rw [setAggregator_of_going _ _ rfl]
    have hquiet : w.shutdown.notice t.seen ≠ some .stop := by
      rcases h.ended with ⟨-, hne⟩ | ⟨hsome, -⟩
      · exact hne
      · rw [hended] at hsome
        cases hsome
    left
    refine { h with
      task := rfl
      rhythm := ?_
      phase := .inr ⟨rfl, rfl, ?_⟩
      aggregator := ?_
      ended := .inl ⟨rfl, hquiet⟩
      dropped := fun hdropped => absurd hended (h.dropped hdropped)
      awaited := fun kind hkind => absurd hkind (hnothing kind) }
    · show call.2.1.interval.nanoseconds = period
      rw [hinterval]
      exact h.rhythm
    · show w.now ≤ start + period + period
      omega
    · show call.2.1 = w.slot.toList.foldl Aggregator.apply call.2.1
      rw [hslot]
      rfl
  | some how =>
    rw [hend] at hnext
    subst hnext
    rw [setAggregator_of_ended _ _ rfl]
    exact .inr ⟨how, rfl, h.alone, rfl, rfl, rfl, rfl, .inl h.unfinished⟩

private theorem Alive.haste_lt_tick (hperiod : 0 < period)
    (h : Alive epoch period w inputs t r start) (hstep : w.step .tick = some w') :
    w'.haste < w.haste := by
  rw [haste_eq h.task]
  obtain ⟨u, t', events, hu, htick, rfl⟩ := step_tick_iff.mp hstep
  rw [h.task] at hu
  cases hu
  obtain ⟨hphase, hdue, hnext, -⟩ := AggregatorTask.tick_eq_some_iff.mp htick
  have hlater : decide (nextDue t.period t.due w.now ≤ w.now) = false := by
    refine decide_eq_false ?_
    unfold nextDue
    rw [h.rhythm]
    rcases h.phase with ⟨hcreated, -⟩ | ⟨-, hsince, hle⟩
    · rw [hphase] at hcreated
      cases hcreated
    · split <;> omega
  rw [AggregatorTask.phaseAfter_eq] at hnext
  cases hend : (t.aggregator.tick ⟨w.now⟩ w.timestamp).1.end? with
  | none =>
    rw [hend] at hnext
    subst hnext
    rw [setAggregator_of_going _ _ rfl, haste_tell, haste_eq rfl, hphase, decide_eq_true hdue]
    simp only [hasteOf, hlater, Bool.toNat_false, Bool.toNat_true]
    omega
  | some how =>
    rw [hend] at hnext
    subst hnext
    rw [setAggregator_of_ended _ _ rfl, haste_tell, haste_eq rfl, hphase]
    simp only [hasteOf, hlater, Option.isSome_none, Bool.toNat_false]
    omega

private theorem Alive.haste_lt_notice (h : Alive epoch period w inputs t r start)
    (hstep : w.step .noticeAggregator = some w') : w'.haste < w.haste := by
  rw [haste_eq h.task]
  obtain ⟨u, t', events, hu, hnotice, rfl⟩ := step_noticeAggregator_iff.mp hstep
  rw [h.task] at hu
  cases hu
  obtain ⟨hphase, ⟨hgo, rfl, -⟩ | ⟨hstop, rfl, -⟩⟩ := AggregatorTask.notice_eq_some_iff.mp hnotice
  · have hunseen : t.seen < w.shutdown.version := by
      unfold Shutdown.notice at hgo
      split at hgo
      case isTrue hunseen => exact hunseen
      case isFalse => split at hgo <;> cases hgo
    rw [setAggregator_of_going, haste_tell, haste_eq rfl, decide_eq_true hunseen]
    case h => exact AggregatorTask.end?_of_running hphase
    simp only [hasteOf, Nat.lt_irrefl, decide_false, Bool.toNat_false, Bool.toNat_true]
    omega
  · rw [setAggregator_of_ended _ _ rfl, haste_tell, haste_eq rfl, hphase]
    simp only [hasteOf, Nat.lt_irrefl, decide_false, Bool.toNat_false, Option.isSome_none]
    omega

theorem Alive.haste_lt (hperiod : 0 < period) (h : Alive epoch period w inputs t r start) {m : Move}
    (hm : m ∈ aggregatorMoves) (hstep : w.step m = some w') : w'.haste < w.haste := by
  simp only [aggregatorMoves, List.mem_cons, List.not_mem_nil, or_false] at hm
  rcases hm with rfl | rfl | rfl | rfl | rfl | rfl
  · obtain ⟨u, t', events, hu, hstart, rfl⟩ := step_startAggregator_iff.mp hstep
    rw [h.task] at hu
    cases hu
    obtain ⟨hphase, ⟨hnever, -⟩ | ⟨-, rfl, -⟩⟩ := AggregatorTask.start_eq_some_iff.mp hstart
    · exact absurd hnever (h.startable hperiod hphase).2
    have hlater : decide (w.now + t.period ≤ w.now) = false := by
      rw [h.rhythm]
      exact decide_eq_false (by omega)
    rw [haste_eq h.task, setAggregator_of_going _ _ rfl, haste_tell, haste_eq rfl, hphase]
    simp only [hasteOf, hlater, Bool.toNat_false]
    omega
  · obtain ⟨u, t', report, hu, hslot, hreceive, rfl⟩ := step_receive_iff.mp hstep
    rw [h.task] at hu
    cases hu
    obtain ⟨hphase, hopen, rfl⟩ := AggregatorTask.receive_eq_some_iff.mp hreceive
    rw [haste_eq h.task, setAggregator_of_going, haste_eq rfl, hslot]
    case h => exact AggregatorTask.end?_of_running hphase
    simp only [hasteOf, Option.isSome_none, Option.isSome_some, Bool.toNat_false, Bool.toNat_true]
    omega
  · obtain ⟨u, t', events, hu, hclose, hslot, -, rfl⟩ := step_closeReports_iff.mp hstep
    rw [h.task] at hu
    cases hu
    obtain ⟨hphase, hopen, rfl, -⟩ := AggregatorTask.closeReports_eq_some_iff.mp hclose
    rw [haste_eq h.task, setAggregator_of_going, haste_tell, haste_eq rfl, hopen]
    case h => exact AggregatorTask.end?_of_running hphase
    simp only [hasteOf, Bool.toNat_false, Bool.toNat_true]
    omega
  · exact h.haste_lt_tick hperiod hstep
  · exact h.haste_lt_notice hstep
  · obtain ⟨u, how, hu, hend, -⟩ := step_finish_iff.mp hstep
    rw [h.task] at hu
    cases hu
    rw [h.end?_eq_none] at hend
    cases hend

/-! ## Nothing to do -/

theorem Alive.of_idle (hperiod : 0 < period) (h : Alive epoch period w inputs t r start)
    (hidle : w.advance? = none) :
    t.phase = .running ∧ t.due = start + period ∧ w.now < start + period ∧ w.slot = none ∧
      w.shutdown.notice t.seen = none := by
  have hnone {m : Move} {w' : World} (hm : m ∈ aggregatorMoves) : w.step m ≠ some w' := by
    rw [(advance?_eq_none_iff h.alone).mp hidle m hm]
    exact nofun
  obtain ⟨hphase, hdue, hle⟩ :
      t.phase = .running ∧ t.due = start + period ∧ w.now ≤ start + period := by
    rcases h.phase with ⟨hcreated, -⟩ | hrunning
    · have hstep := step_startAggregator_iff.mpr ⟨t, _, _, h.task,
        AggregatorTask.start_eq_some_iff.mpr
          ⟨hcreated, .inr ⟨(h.startable hperiod hcreated).2, rfl, rfl⟩⟩, rfl⟩
      exact absurd hstep (hnone (by decide))
    · exact hrunning
  refine ⟨hphase, hdue, Nat.lt_of_le_of_ne hle fun heq => ?_, ?_, ?_⟩
  · have hstep := step_tick_iff.mpr ⟨t, _, _, h.task,
      AggregatorTask.tick_eq_some_iff.mpr ⟨hphase, by omega, rfl, rfl⟩, rfl⟩
    exact absurd hstep (hnone (by decide))
  · cases hslot : w.slot with
    | none => rfl
    | some report =>
      have hopen := h.opened (.inr (by simp [hslot]))
      have hstep := step_receive_iff.mpr ⟨t, _, report, h.task, hslot,
        AggregatorTask.receive_eq_some_iff.mpr ⟨hphase, hopen, rfl⟩, rfl⟩
      exact absurd hstep (hnone (by decide))
  · cases hsome : w.shutdown.notice t.seen with
    | none => rfl
    | some notice =>
      have hnotice : ∃ t' events, t.notice w.shutdown = some (t', events) := by
        cases notice with
        | goOn => exact ⟨_, _, AggregatorTask.notice_eq_some_iff.mpr
            ⟨hphase, .inl ⟨hsome, rfl, rfl⟩⟩⟩
        | stop => exact ⟨_, _, AggregatorTask.notice_eq_some_iff.mpr
            ⟨hphase, .inr ⟨hsome, rfl, rfl⟩⟩⟩
      obtain ⟨t', events, hnotice⟩ := hnotice
      have hstep := step_noticeAggregator_iff.mpr ⟨t, t', events, h.task, hnotice, rfl⟩
      exact absurd hstep (hnone (by decide))

theorem Alive.wakeTime_of_idle (hperiod : 0 < period)
    (h : Alive epoch period w inputs t r start) (hidle : w.advance? = none) :
    w.wakeTime = some (start + period) := by
  obtain ⟨hphase, hdue, -⟩ := h.of_idle hperiod hidle
  simp [wakeTime, h.alone, h.task, AggregatorTask.wakeTime, hphase, hdue]

theorem Alive.pass (hperiod : 0 < period) (h : Alive epoch period w inputs t r start)
    (hidle : w.advance? = none) {time : Nat} (hwake : ∀ wake ∈ w.wakeTime, time ≤ wake) :
    Alive epoch period { w with now := time } inputs t r start := by
  obtain ⟨hphase, hdue, -, hslot, hnotice⟩ := h.of_idle hperiod hidle
  refine { h with
    phase := .inr ⟨hphase, hdue, hwake _ (h.wakeTime_of_idle hperiod hidle)⟩
    awaited := ?_ }
  intro kind hkind
  unfold Shutdown.notice at hnotice
  cases hkind with
  | report hne => exact absurd hslot hne
  | goOn hunseen => simp [hunseen] at hnotice
  | stop hunseen => simp [hunseen] at hnotice
  | drop hseen hdropped =>
    rw [if_neg hseen, if_pos hdropped] at hnotice
    cases hnotice

/-! ## After the end of the task -/

section Over

variable {how : AggregatorEnd} (h : Over w t how r)
include h

theorem Over.end?_eq : t.end? = some how := by
  simp [AggregatorTask.end?, h.phase]

theorem Over.act {m : Move} (hm : m ∈ aggregatorMoves) (hstep : w.step m = some w') :
    Over w' t how r ∧ w.result = none ∧
      w' = { w with
        result := some (resultOf how)
        pollers := w.pollers.map PollerTask.cancel } := by
  have hphase := h.phase
  have hidle : ∀ {u : AggregatorTask}, w.aggregator = some u →
      u.phase ≠ .created ∧ u.phase ≠ .running := by
    intro u hu
    rw [h.task] at hu
    cases hu
    simp [hphase]
  simp only [aggregatorMoves, List.mem_cons, List.not_mem_nil, or_false] at hm
  rcases hm with rfl | rfl | rfl | rfl | rfl | rfl
  · obtain ⟨u, t', events, hu, hstart, -⟩ := step_startAggregator_iff.mp hstep
    exact absurd (AggregatorTask.start_eq_some_iff.mp hstart).1 (hidle hu).1
  · obtain ⟨u, t', report, hu, -, hreceive, -⟩ := step_receive_iff.mp hstep
    exact absurd (AggregatorTask.receive_eq_some_iff.mp hreceive).1 (hidle hu).2
  · obtain ⟨u, t', events, hu, hclose, -⟩ := step_closeReports_iff.mp hstep
    exact absurd (AggregatorTask.closeReports_eq_some_iff.mp hclose).1 (hidle hu).2
  · obtain ⟨u, t', events, hu, htick, -⟩ := step_tick_iff.mp hstep
    exact absurd (AggregatorTask.tick_eq_some_iff.mp htick).1 (hidle hu).2
  · obtain ⟨u, t', events, hu, hnotice, -⟩ := step_noticeAggregator_iff.mp hstep
    exact absurd (AggregatorTask.notice_eq_some_iff.mp hnotice).1 (hidle hu).2
  · obtain ⟨u, how', hu, hend, hresult, rfl⟩ := step_finish_iff.mp hstep
    rw [h.task] at hu
    cases hu
    rw [h.end?_eq] at hend
    cases hend
    refine ⟨{ h with alone := ?_, result := .inr rfl }, hresult, rfl⟩
    show w.pollers.map PollerTask.cancel = []
    rw [h.alone]
    rfl

theorem Over.haste_lt {m : Move} (hm : m ∈ aggregatorMoves) (hstep : w.step m = some w') :
    w'.haste < w.haste := by
  obtain ⟨hover, hresult, rfl⟩ := h.act hm hstep
  rw [haste_eq h.task, haste_eq hover.task, hresult]
  simp only [hasteOf, Option.isNone_some, Option.isNone_none, Bool.toNat_false, Bool.toNat_true]
  omega

theorem Over.wakeTime_eq : w.wakeTime = none := by
  simp [wakeTime, h.alone, h.task, AggregatorTask.wakeTime, h.phase]

theorem Over.result_of_idle (hidle : w.advance? = none) : w.result = some (resultOf how) := by
  rw [advance?_eq_none_iff h.alone] at hidle
  rcases h.result with hnone | hsome
  · have hstep := step_finish_iff.mpr ⟨t, how, h.task, h.end?_eq, hnone, rfl⟩
    rw [hidle _ (by decide)] at hstep
    cases hstep
  · exact hsome

end Over

end

end World

end FleetTelemetry
