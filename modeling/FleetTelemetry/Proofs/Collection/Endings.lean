import FleetTelemetry.Proofs.Collection.Faults
import FleetTelemetry.Proofs.Collection.Pipeline
import FleetTelemetry.Proofs.Collection.PollerTurns

/-!
# How a pipeline ends

The task of an aggregator ends for one of few causes: it was told to stop, the writer of a log
failed or crashed, the dashboard crashed, or its first tick could not be awaited, because there was
no time before it or the clock could not tell its time. Nothing that happens to a poller is among
them. When the run returns the pollers are stopped, and nothing changes any more.
-/

namespace FleetTelemetry

/-- Among some moves is the beginning of the aggregator's task, at a time from which the clock
cannot tell the time one period later. -/
def World.OutrunsClock (first : World) (period : Nat) (told : List Move) : Prop :=
  ∃ before after w, told = before ++ .startAggregator :: after ∧ first.run before = some w ∧
    w.clockEnd ≤ w.now + period

private theorem World.OutrunsClock.snoc {first : World} {period : Nat} {told : List Move}
    (h : first.OutrunsClock period told) (m : Move) :
    first.OutrunsClock period (told ++ [m]) := by
  obtain ⟨before, after, w, rfl, hrun, hlate⟩ := h
  exact ⟨before, after ++ [m], w, by simp, hrun, hlate⟩

/-- Why an aggregator's task ended as it did, when some moves had been made, the aggregator was left
as it is and the task may have begun too late for the clock. -/
inductive EndCause (told : List Move) (late : Prop) (a : Aggregator) : AggregatorEnd → Prop where
  | signal (h : .signal true ∈ told) : EndCause told late a .stopped
  | loss (h : .dropSignal ∈ told) : EndCause told late a .stopped
  | log {cause : LogError} {log : NodeLog} (hlog : a.logs[cause.node]? = some log)
      (hfailed : log.Failed cause.fault) : EndCause told late a (.failed (.log cause))
  | writer (h : a.logs.Crashed) : EndCause told late a .crashed
  | dashboard (h : a.panel.Crashed) : EndCause told late a .crashed
  | rhythm (h : a.interval.nanoseconds = 0) : EndCause told late a .crashed
  | clock (h : late) : EndCause told late a .crashed

namespace EndCause

open World (resultOf)

variable {told : List Move} {late : Prop} {a : Aggregator} {how : AggregatorEnd}

private theorem mono {told' : List Move} {late' : Prop} (h : EndCause told late a how)
    (hsub : told ⊆ told') (hlate : late → late') : EndCause told' late' a how := by
  cases h with
  | signal h => exact .signal (hsub h)
  | loss h => exact .loss (hsub h)
  | log hlog hfailed => exact .log hlog hfailed
  | writer h => exact .writer h
  | dashboard h => exact .dashboard h
  | rhythm h => exact .rhythm h
  | clock h => exact .clock (hlate h)

private theorem told_of_ok (h : EndCause told late a how) (hok : resultOf how = .ok ()) :
    .signal true ∈ told ∨ .dropSignal ∈ told := by
  cases h with
  | signal hsent => exact .inl hsent
  | loss hdropped => exact .inr hdropped
  | log | writer | dashboard | rhythm | clock => cases hok

private theorem failed_of_log (h : EndCause told late a how) {cause : LogError}
    (herror : resultOf how = .error (.log cause)) :
    ∃ log, a.logs[cause.node]? = some log ∧ log.Failed cause.fault := by
  cases h with
  | log hlog hfailed =>
    cases herror
    exact ⟨_, hlog, hfailed⟩
  | signal | loss | writer | dashboard | rhythm | clock => cases herror

private theorem crashed_of_task (h : EndCause told late a how)
    (htask : resultOf how = .error .task) :
    a.panel.Crashed ∨ a.logs.Crashed ∨ a.interval.nanoseconds = 0 ∨ late := by
  cases h with
  | dashboard hcrashed => exact .inl hcrashed
  | writer hcrashed => exact .inr (.inl hcrashed)
  | rhythm hzero => exact .inr (.inr (.inl hzero))
  | clock hlate => exact .inr (.inr (.inr hlate))
  | signal | loss | log => cases htask

private theorem ne_zeroDivisor (h : EndCause told late a how) (cause : ZeroDivisor) :
    resultOf how ≠ .error (.zeroDivisor cause) := by
  cases h <;> exact nofun

end EndCause

namespace AggregatorTask

/-- A turn of an aggregator's task in a world. -/
inductive Turn (w : World) (t t' : AggregatorTask) : Prop where
  | start {events : List Diagnostics.Event} (h : t.start w.now w.clockEnd = some (t', events))
  | receive {report : Report} (h : t.receive report = some t')
  | closeReports {events : List Diagnostics.Event} (h : t.closeReports = some (t', events))
  | tick {events : List Diagnostics.Event} (h : t.tick w.now w.timestamp = some (t', events))
  | notice {events : List Diagnostics.Event} (h : t.notice w.shutdown = some (t', events))

variable {told : List Move} {late : Prop}

private theorem endCause_of_tick {t : AggregatorTask} (hd : t.aggregator.divisors.Checked)
    (elapsed : Span)
    (timestamp : UInt64) {how : AggregatorEnd}
    (h : phaseAfter (t.aggregator.tick elapsed timestamp).1 = .ended how) :
    EndCause told late (t.aggregator.tick elapsed timestamp).2.1 how := by
  obtain ⟨-, hfailed, hcrashed⟩ := Aggregator.tick_spec hd elapsed timestamp
  cases houtcome : (t.aggregator.tick elapsed timestamp).1 with
  | idle => simp [houtcome, phaseAfter] at h
  | frame frame => simp [houtcome, phaseAfter] at h
  | failed e =>
    obtain ⟨cause, log, rfl, hlog, hfailed⟩ := hfailed e houtcome
    simp only [houtcome, phaseAfter, AggregatorPhase.ended.injEq] at h
    subst h
    exact .log hlog hfailed
  | crashed =>
    simp only [houtcome, phaseAfter, AggregatorPhase.ended.injEq] at h
    subst h
    rcases hcrashed houtcome with hcrashed | hcrashed
    · exact .dashboard hcrashed
    · exact .writer hcrashed

theorem Turn.end?_eq_none {w : World} {t t' : AggregatorTask} (h : t.Turn w t') :
    t.end? = none := by
  cases h with
  | start h => simp [end?, (start_eq_some_iff.mp h).1]
  | receive h => exact end?_of_running (receive_eq_some_iff.mp h).1
  | closeReports h => exact end?_of_running (closeReports_eq_some_iff.mp h).1
  | tick h => exact end?_of_running (tick_eq_some_iff.mp h).1
  | notice h => exact end?_of_running (notice_eq_some_iff.mp h).1

theorem Turn.endCause {w : World} {t t' : AggregatorTask} (h : t.Turn w t')
    (hd : t.aggregator.divisors.Checked)
    (hvalue : w.shutdown.value = true → .signal true ∈ told)
    (hdropped : w.shutdown.dropped = true → .dropSignal ∈ told)
    (hlate : t.phase = .created → w.clockEnd ≤ w.now + t.period → late) :
    t'.aggregator.Follows t.aggregator ∧
      ∀ how, t'.phase = .ended how → EndCause told late t'.aggregator how := by
  cases h with
  | start h =>
    obtain ⟨hcreated, ⟨hnever, rfl, -⟩ | ⟨-, rfl, -⟩⟩ := start_eq_some_iff.mp h
    · refine ⟨.refl _, fun how hhow => ?_⟩
      cases hhow
      rcases hnever with hzero | hclock
      · exact .rhythm hzero
      · exact .clock (hlate hcreated hclock)
    · exact ⟨.refl _, nofun⟩
  | receive h =>
    obtain ⟨hrunning, -, rfl⟩ := receive_eq_some_iff.mp h
    refine ⟨Aggregator.follows_apply _ _, fun how hhow => ?_⟩
    exact absurd (hrunning.symm.trans hhow) (by simp)
  | closeReports h =>
    obtain ⟨hrunning, -, rfl, -⟩ := closeReports_eq_some_iff.mp h
    refine ⟨.refl _, fun how hhow => ?_⟩
    exact absurd (hrunning.symm.trans hhow) (by simp)
  | tick h =>
    obtain ⟨-, -, rfl, -⟩ := tick_eq_some_iff.mp h
    exact ⟨(Aggregator.tick_spec hd _ _).1, fun how => endCause_of_tick hd _ _⟩
  | notice h =>
    obtain ⟨hrunning, ⟨-, rfl, -⟩ | ⟨hstop, rfl, -⟩⟩ := notice_eq_some_iff.mp h
    · refine ⟨.refl _, fun how hhow => ?_⟩
      exact absurd (hrunning.symm.trans hhow) (by simp)
    · refine ⟨.refl _, fun how hhow => ?_⟩
      cases hhow
      rcases Shutdown.notice_eq_stop_iff.mp hstop with ⟨-, hset⟩ | ⟨-, hlost⟩
      · exact .signal (hvalue hset)
      · exact .loss (hdropped hlost)

end AggregatorTask

namespace World

/-! ## What a move can do -/

/-- The aggregator's side of a world is as it was, a channel that nobody takes reports from is still
empty, and only a poller that goes on has changed. -/
structure Spares (w w' : World) : Prop where
  aggregator : w'.aggregator = w.aggregator
  shutdown : w'.shutdown = w.shutdown
  result : w'.result = w.result
  pollers : w'.pollers = w.pollers ∨ ∃ u ∈ w.pollers, u.phase ≠ .stopped
  closed : w.receiving = false → w.slot = none → w'.receiving = false ∧ w'.slot = none

/-- The aggregator's task has taken a turn, after which nobody takes reports if it has ended. -/
structure Takes (w w' : World) (t t' : AggregatorTask) : Prop where
  turn : t.Turn w t'
  before : w.aggregator = some t
  after : w'.aggregator = some t'
  shutdown : w'.shutdown = w.shutdown
  result : w'.result = w.result
  ended : t'.end? ≠ none → w'.receiving = false ∧ w'.slot = none

section

variable {w w' : World} {m : Move}

theorem Spares.setPoller {i : Nat} {t : PollerTask} (ht : w.pollers[i]? = some t)
    (hphase : t.phase ≠ .stopped) (t' : PollerTask) : w.Spares (w.setPoller i t') :=
  ⟨rfl, rfl, rfl, .inr ⟨t, List.mem_of_getElem? ht, hphase⟩, fun h h' => ⟨h, h'⟩⟩

theorem Spares.tell (h : w.Spares w') (events : List Diagnostics.Event) :
    w.Spares (w'.tell events) :=
  ⟨h.aggregator, h.shutdown, h.result, h.pollers, h.closed⟩

private theorem Takes.of_turn {t t' : AggregatorTask} (h : t.Turn w t') (ht : w.aggregator = some t)
    (events : List Diagnostics.Event) : w.Takes ((w.setAggregator t').tell events) t t' where
  turn := h
  before := ht
  after := by simp
  shutdown := by simp
  result := by simp
  ended hend := by
    obtain ⟨how, hhow⟩ := Option.ne_none_iff_exists'.mp hend
    rw [setAggregator_of_ended w t' hhow]
    exact ⟨rfl, rfl⟩

/-- The changes that a move can make: it spares the aggregator, is a turn of its task, lets the run
return or changes the signal. -/
inductive Change (w w' : World) (m : Move) : Prop where
  | spares (h : w.Spares w')
  | takes {t t' : AggregatorTask} (h : w.Takes w' t t')
      (hm : t.phase = .created → m = .startAggregator)
  | returns {t : AggregatorTask} {how : AggregatorEnd} (hm : m = .finish)
      (ht : w.aggregator = some t) (hhow : t.end? = some how) (hresult : w.result = none)
      (h : w' = { w with
        result := some (resultOf how)
        pollers := w.pollers.map PollerTask.cancel })
  | signals {value : Bool} (hm : m = .signal value)
      (h : w' =
        { w with shutdown := { w.shutdown with value, version := w.shutdown.version + 1 } })
  | drops (hm : m = .dropSignal) (h : w' = { w with shutdown.dropped := true })

theorem step_cases (hstep : w.step m = some w') : w.Change w' m := by
  cases m with
  | startPoller i =>
    obtain ⟨t, t', events, ht, hstart, rfl⟩ := step_startPoller_iff.mp hstep
    have hphase : t.phase ≠ .stopped := fun h => by simp [t.start_of_stopped h] at hstart
    exact .spares ((Spares.setPoller ht hphase t').tell events)
  | beginFetch i =>
    obtain ⟨t, t', ht, hbegin, rfl⟩ := step_beginFetch_iff.mp hstep
    have hphase : t.phase ≠ .stopped := fun h => by simp [t.beginFetch_of_stopped h] at hbegin
    exact .spares (.setPoller ht hphase t')
  | endFetch i =>
    obtain ⟨t, t', events, ht, hend, rfl⟩ := step_endFetch_iff.mp hstep
    have hphase : t.phase ≠ .stopped := fun h => by simp [t.endFetch_of_stopped h] at hend
    exact .spares ((Spares.setPoller ht hphase t').tell events)
  | deliver i =>
    obtain ⟨t, report, ht, hoffer, hreceiving, -, rfl⟩ := step_deliver_iff.mp hstep
    have hphase : t.phase ≠ .stopped := fun h => by simp [t.offer?_of_stopped h] at hoffer
    exact .spares ⟨rfl, rfl, rfl, .inr ⟨t, List.mem_of_getElem? ht, hphase⟩,
      fun h => absurd (h.symm.trans hreceiving) (by decide)⟩
  | abandon i =>
    obtain ⟨t, ht, hoffer, -, rfl⟩ := step_abandon_iff.mp hstep
    have hphase : t.phase ≠ .stopped := fun h => by simp [t.offer?_of_stopped h] at hoffer
    exact .spares ((Spares.setPoller ht hphase t.abandon.1).tell t.abandon.2)
  | noticePoller i =>
    obtain ⟨t, t', ht, hnotice, rfl⟩ := step_noticePoller_iff.mp hstep
    have hphase : t.phase ≠ .stopped := fun h => by simp [t.notice_of_stopped h] at hnotice
    exact .spares (.setPoller ht hphase t')
  | startAggregator =>
    obtain ⟨t, t', events, ht, hstart, rfl⟩ := step_startAggregator_iff.mp hstep
    exact .takes (.of_turn (.start hstart) ht events) fun _ => rfl
  | receive =>
    obtain ⟨t, t', report, ht, -, hreceive, rfl⟩ := step_receive_iff.mp hstep
    have htakes := Takes.of_turn (.receive hreceive) ht []
    have hrunning := (AggregatorTask.receive_eq_some_iff.mp hreceive).1
    exact .takes { htakes with ended := fun hend => ⟨(htakes.ended hend).1, rfl⟩ }
      fun hcreated => nomatch hrunning.symm.trans hcreated
  | closeReports =>
    obtain ⟨t, t', events, ht, hclose, -, -, rfl⟩ := step_closeReports_iff.mp hstep
    have hrunning := (AggregatorTask.closeReports_eq_some_iff.mp hclose).1
    exact .takes (.of_turn (.closeReports hclose) ht events)
      fun hcreated => nomatch hrunning.symm.trans hcreated
  | tick =>
    obtain ⟨t, t', events, ht, htick, rfl⟩ := step_tick_iff.mp hstep
    have hrunning := (AggregatorTask.tick_eq_some_iff.mp htick).1
    exact .takes (.of_turn (.tick htick) ht events)
      fun hcreated => nomatch hrunning.symm.trans hcreated
  | noticeAggregator =>
    obtain ⟨t, t', events, ht, hnotice, rfl⟩ := step_noticeAggregator_iff.mp hstep
    have hrunning := (AggregatorTask.notice_eq_some_iff.mp hnotice).1
    exact .takes (.of_turn (.notice hnotice) ht events)
      fun hcreated => nomatch hrunning.symm.trans hcreated
  | finish =>
    obtain ⟨t, how, ht, hhow, hresult, h⟩ := step_finish_iff.mp hstep
    exact .returns rfl ht hhow hresult h
  | wait time =>
    obtain ⟨-, rfl⟩ := step_wait_iff.mp hstep
    exact .spares ⟨rfl, rfl, rfl, .inl rfl, fun h h' => ⟨h, h'⟩⟩
  | signal value => exact .signals rfl (step_signal_iff.mp hstep).2
  | dropSignal => exact .drops rfl (step_dropSignal_iff.mp hstep)
  | send report =>
    obtain ⟨⟨-, hreceiving, -⟩, rfl⟩ := step_send_iff.mp hstep
    exact .spares ⟨rfl, rfl, rfl, .inl rfl, fun h => absurd (h.symm.trans hreceiving) (by decide)⟩
  | closeSender =>
    cases step_closeSender_iff.mp hstep
    exact .spares ⟨rfl, rfl, rfl, .inl rfl, fun h h' => ⟨h, h'⟩⟩
  | take =>
    obtain ⟨-, h⟩ := Option.ite_none_right_eq_some.mp hstep
    cases h
    exact .spares ⟨rfl, rfl, rfl, .inl rfl, fun h _ => ⟨h, rfl⟩⟩
  | closeReceiver =>
    cases hstep
    exact .spares ⟨rfl, rfl, rfl, .inl rfl, fun _ _ => ⟨rfl, rfl⟩⟩

/-! ## Why a run returns -/

/-- After some moves from a first world the aggregator's task has ended for a cause, if it has, and
the run has returned only then. -/
structure Accountable (first : World) (a : Aggregator) (told : List Move) (w : World) : Prop where
  moves : first.run told = some w
  task : ∃ t, w.aggregator = some t ∧ t.aggregator.Follows a ∧
    ∀ how, t.end? = some how →
      EndCause told (first.OutrunsClock a.interval.nanoseconds told) t.aggregator how ∧
        w.receiving = false ∧ w.slot = none
  signal : w.shutdown.value = true → .signal true ∈ told
  loss : w.shutdown.dropped = true → .dropSignal ∈ told
  going : w.IsGoing → w.result = none

variable {first : World} {a : Aggregator} {told : List Move}

theorem Accountable.ofPipeline (epoch clockEnd : Nat) (pollers : List Poller) (a : Aggregator) :
    Accountable (ofPipeline epoch clockEnd pollers a) a []
      (ofPipeline epoch clockEnd pollers a) where
  moves := rfl
  task := ⟨_, rfl, .refl a, nofun⟩
  signal := nofun
  loss := nofun
  going _ := rfl

private theorem run_snoc (h : first.run told = some w) (hstep : w.step m = some w') :
    first.run (told ++ [m]) = some w' := by
  induction told generalizing first with
  | nil =>
    cases h
    rw [List.nil_append, run, hstep]
    rfl
  | cons m' ms ih =>
    obtain ⟨v, hv, hrest⟩ := Option.bind_eq_some_iff.mp h
    rw [List.cons_append, run, hv]
    exact ih hrest

/-- One move: a cause that there was is still one, and a task that ends by it has one. -/
theorem Accountable.step (h : Accountable first a told w) (hd : a.divisors.Checked)
    (hstep : w.step m = some w') : Accountable first a (told ++ [m]) w' := by
  have hmoves := run_snoc h.moves hstep
  have hsub : told ⊆ told ++ [m] := List.subset_append_left told [m]
  have hlast : m ∈ told ++ [m] := List.mem_append_right told List.mem_cons_self
  have hsignal : w.shutdown.value = true → .signal true ∈ told ++ [m] :=
    fun hvalue => hsub (h.signal hvalue)
  have hloss : w.shutdown.dropped = true → .dropSignal ∈ told ++ [m] :=
    fun hdropped => hsub (h.loss hdropped)
  obtain ⟨t, ht, hfollows, hcause⟩ := h.task
  -- A task that has ended takes no turn, so its aggregator and the cause of its end stay.
  have hkept : ∀ how, t.end? = some how →
      EndCause (told ++ [m]) (first.OutrunsClock a.interval.nanoseconds (told ++ [m])) t.aggregator
        how ∧ w.receiving = false ∧ w.slot = none := by
    intro how hhow
    obtain ⟨hended, hclosed⟩ := hcause how hhow
    exact ⟨hended.mono hsub (·.snoc m), hclosed⟩
  cases step_cases hstep with
  | spares hspares =>
    refine ⟨hmoves, ⟨t, hspares.aggregator.trans ht, hfollows, fun how hhow => ?_⟩, ?_, ?_,
      fun hgoing => ?_⟩
    · obtain ⟨hended, hreceiving, hslot⟩ := hkept how hhow
      exact ⟨hended, hspares.closed hreceiving hslot⟩
    · rw [hspares.shutdown]
      exact hsignal
    · rw [hspares.shutdown]
      exact hloss
    · rw [hspares.result]
      exact h.going fun u hu => hgoing u (hspares.aggregator.trans hu)
  | @takes u u' htakes hm =>
    have htask : u = t := Option.some.inj (htakes.before.symm.trans ht)
    subst htask
    have hchecked : u.aggregator.divisors.Checked := hfollows.divisors ▸ hd
    have hlate : u.phase = .created → w.clockEnd ≤ w.now + u.period →
        first.OutrunsClock a.interval.nanoseconds (told ++ [m]) := by
      intro hcreated hclock
      rw [hm hcreated, ← hfollows.interval]
      exact ⟨told, [], w, rfl, h.moves, hclock⟩
    obtain ⟨hnext, hended⟩ := htakes.turn.endCause hchecked hsignal hloss hlate
    refine ⟨hmoves, ⟨u', htakes.after, hnext.trans hfollows, fun how hhow => ?_⟩, ?_, ?_,
      fun _ => ?_⟩
    · exact ⟨hended how (AggregatorTask.end?_eq_some_iff.mp hhow), htakes.ended (by simp [hhow])⟩
    · rw [htakes.shutdown]
      exact hsignal
    · rw [htakes.shutdown]
      exact hloss
    · rw [htakes.result]
      refine h.going fun v hv => ?_
      cases htakes.before.symm.trans hv
      exact htakes.turn.end?_eq_none
  | @returns u how hm hu hhow hresult hreturn =>
    subst hreturn
    refine ⟨hmoves, ⟨t, ht, hfollows, hkept⟩, hsignal, hloss, fun hgoing => ?_⟩
    cases (hgoing u hu).symm.trans hhow
  | @signals value hm hvalue =>
    subst hm hvalue
    refine ⟨hmoves, ⟨t, ht, hfollows, hkept⟩, fun hset => ?_, hloss, h.going⟩
    cases hset
    exact hlast
  | drops hm hdrop =>
    subst hm hdrop
    exact ⟨hmoves, ⟨t, ht, hfollows, hkept⟩, hsignal, fun _ => hlast, h.going⟩

theorem Accountable.run {ms : List Move} (h : Accountable first a told w)
    (hd : a.divisors.Checked) (hrun : w.run ms = some w') :
    Accountable first a (told ++ ms) w' := by
  induction ms generalizing w told with
  | nil =>
    cases hrun
    simpa using h
  | cons m ms ih =>
    obtain ⟨v, hstep, hrest⟩ := Option.bind_eq_some_iff.mp hrun
    have hrun := ih (h.step hd hstep) hrest
    rwa [List.append_assoc] at hrun

/-! ## After a run has returned -/

/-- A run has returned: its pollers are stopped, and nothing is in the channel any more. -/
structure Returned (w : World) : Prop where
  result : w.result ≠ none
  ended : ¬ w.IsGoing
  pollers : ∀ u ∈ w.pollers, u.phase = .stopped
  closed : w.receiving = false ∧ w.slot = none

/-- Nothing that belongs to the tasks has changed. -/
structure Same (w w' : World) : Prop where
  pollers : w'.pollers = w.pollers
  aggregator : w'.aggregator = w.aggregator
  slot : w'.slot = w.slot
  result : w'.result = w.result

theorem Returned.step (h : w.Returned) (hstep : w.step m = some w') :
    w'.Returned ∧ w.Same w' := by
  cases step_cases hstep with
  | spares hspares =>
    have hpollers : w'.pollers = w.pollers := by
      rcases hspares.pollers with hsame | ⟨u, hu, hphase⟩
      · exact hsame
      · exact absurd (h.pollers u hu) hphase
    have hclosed := hspares.closed h.closed.1 h.closed.2
    refine ⟨⟨?_, ?_, ?_, hclosed⟩, hpollers, hspares.aggregator, hclosed.2.trans h.closed.2.symm,
      hspares.result⟩
    · rw [hspares.result]
      exact h.result
    · exact fun hgoing => h.ended fun u hu => hgoing u (hspares.aggregator.trans hu)
    · rw [hpollers]
      exact h.pollers
  | @takes t t' htakes =>
    refine absurd (fun u hu => ?_) h.ended
    cases htakes.before.symm.trans hu
    exact htakes.turn.end?_eq_none
  | returns hm ht hhow hresult hreturn => exact absurd hresult h.result
  | signals hm hvalue =>
    subst hvalue
    exact ⟨⟨h.result, h.ended, h.pollers, h.closed⟩, rfl, rfl, rfl, rfl⟩
  | drops hm hdrop =>
    subst hdrop
    exact ⟨⟨h.result, h.ended, h.pollers, h.closed⟩, rfl, rfl, rfl, rfl⟩

theorem Returned.run {ms : List Move} (h : w.Returned) (hrun : w.run ms = some w') :
    w.Same w' := by
  induction ms generalizing w with
  | nil =>
    cases hrun
    exact ⟨rfl, rfl, rfl, rfl⟩
  | cons m ms ih =>
    obtain ⟨v, hstep, hrest⟩ := Option.bind_eq_some_iff.mp hrun
    obtain ⟨hv, hsame⟩ := h.step hstep
    have hlast := ih hv hrest
    exact ⟨hlast.pollers.trans hsame.pollers, hlast.aggregator.trans hsame.aggregator,
      hlast.slot.trans hsame.slot, hlast.result.trans hsame.result⟩

theorem Accountable.returned (h : Accountable first a told w) (hstep : w.step .finish = some w') :
    w'.Returned ∧ ∃ t how, w'.aggregator = some t ∧ w'.result = some (resultOf how) ∧
      t.aggregator.Follows a ∧
      EndCause told (first.OutrunsClock a.interval.nanoseconds told) t.aggregator how := by
  obtain ⟨t, how, ht, hhow, -, rfl⟩ := step_finish_iff.mp hstep
  obtain ⟨u, hu, hfollows, hcause⟩ := h.task
  cases ht.symm.trans hu
  obtain ⟨hended, hclosed⟩ := hcause how hhow
  refine ⟨⟨nofun, fun hgoing => ?_, ?_, hclosed⟩, t, how, ht, rfl, hfollows, hended⟩
  · cases (hgoing t ht).symm.trans hhow
  · intro u hu
    obtain ⟨v, -, rfl⟩ := List.mem_map.mp hu
    rfl

private theorem Accountable.isGoing (h : Accountable first a told w) (hsignal : .signal true ∉ told)
    (hloss : .dropSignal ∉ told) (hwriters : a.logs.Unfailing)
    (hpanel : ∀ attempt, a.panel.outcomeAt attempt ≠ .crashed)
    (hinterval : 0 < a.interval.nanoseconds)
    (hclock : ¬ first.OutrunsClock a.interval.nanoseconds told) : w.IsGoing := by
  intro t ht
  obtain ⟨u, hu, hfollows, hcause⟩ := h.task
  cases ht.symm.trans hu
  refine Option.eq_none_iff_forall_ne_some.mpr fun how hhow => ?_
  cases (hcause how hhow).1 with
  | signal hsent => exact hsignal hsent
  | loss hdropped => exact hloss hdropped
  | @log cause log hlog hfailed =>
    obtain ⟨attempt, -, houtcome⟩ := hfailed
    obtain ⟨before, hbefore, hsame, -⟩ := hfollows.writers cause.node log hlog
    rw [hsame, hwriters cause.node before hbefore attempt] at houtcome
    cases houtcome
  | writer hcrashed =>
    obtain ⟨node, log, hlog, attempt, -, houtcome⟩ := hcrashed
    obtain ⟨before, hbefore, hsame, -⟩ := hfollows.writers node log hlog
    rw [hsame, hwriters node before hbefore attempt] at houtcome
    cases houtcome
  | dashboard hcrashed =>
    obtain ⟨attempt, -, houtcome⟩ := hcrashed
    exact hpanel attempt (hfollows.outcomes ▸ houtcome)
  | rhythm hzero =>
    rw [hfollows.interval] at hzero
    omega
  | clock hlate => exact hclock hlate

end

/-! ## The ends of a pipeline -/

/-- A pipeline with checked divisors returns without an error only after it was told to stop, with
the error of a node's log only when that log's writer failed, and with the error of its task only
when the dashboard or the writer of a log crashed, when the aggregator has no time between its
ticks, or when its task began at a time from which the clock cannot tell the first tick; it never
returns for a divisor. All its pollers are then stopped, and whatever moves come after, none of its
tasks changes. Nothing else ends it, whatever fetches and series updates fail and whatever pollers
stop. -/
theorem pipeline_returns_for_cause (epoch clockEnd : Nat) (pollers : List Poller) (a : Aggregator)
    (hd : a.divisors.Checked) :
    let first := World.ofPipeline epoch clockEnd pollers a
    (∀ (ms : List Move) (v w : World), first.run ms = some v →
      v.step .finish = some w →
      ∃ t result, w.aggregator = some t ∧ t.aggregator.Follows a ∧ w.result = some result ∧
        (result = .ok () → .signal true ∈ ms ∨ .dropSignal ∈ ms) ∧
        (∀ node fault, result = .error (.log ⟨node, fault⟩) →
          ∃ log, t.aggregator.logs[node]? = some log ∧ log.Failed fault) ∧
        (result = .error .task →
          t.aggregator.panel.Crashed ∨ t.aggregator.logs.Crashed ∨
            a.interval.nanoseconds = 0 ∨ first.OutrunsClock a.interval.nanoseconds ms) ∧
        (∀ cause, result ≠ .error (.zeroDivisor cause)) ∧
        (∀ u ∈ w.pollers, u.phase = .stopped) ∧
        ∀ (ms' : List Move) (w' : World), w.run ms' = some w' →
          w'.pollers = w.pollers ∧ w'.aggregator = w.aggregator ∧ w'.slot = none ∧
            w'.result = w.result) ∧
    (∀ (ms : List Move) (w : World), first.run ms = some w →
      .signal true ∉ ms → .dropSignal ∉ ms → a.logs.Unfailing →
      (∀ attempt, a.panel.outcomeAt attempt ≠ .crashed) → 0 < a.interval.nanoseconds →
      ¬ first.OutrunsClock a.interval.nanoseconds ms → w.IsGoing ∧ w.result = none) := by
  intro first
  have haccountable : ∀ (ms : List Move) (w : World), first.run ms = some w →
      Accountable first a ms w := by
    intro ms w hrun
    have h := (Accountable.ofPipeline epoch clockEnd pollers a).run hd hrun
    rwa [List.nil_append] at h
  constructor
  · intro ms v w hrun hfinish
    obtain ⟨hreturned, t, how, ht, hresult, hfollows, hcause⟩ :=
      (haccountable ms v hrun).returned hfinish
    refine ⟨t, resultOf how, ht, hfollows, hresult, hcause.told_of_ok, ?_, ?_,
      hcause.ne_zeroDivisor, hreturned.pollers, fun ms' w' hrun' => ?_⟩
    · intro node fault herror
      exact hcause.failed_of_log herror
    · intro htask
      have hcrashed := hcause.crashed_of_task htask
      rwa [hfollows.interval] at hcrashed
    · have hsame := hreturned.run hrun'
      exact ⟨hsame.pollers, hsame.aggregator, hsame.slot.trans hreturned.closed.2, hsame.result⟩
  · intro ms w hrun hsignal hloss hwriters hpanel hinterval hclock
    have h := haccountable ms w hrun
    have hgoing := h.isGoing hsignal hloss hwriters hpanel hinterval hclock
    exact ⟨hgoing, h.going hgoing⟩

/-- A poller whose every fetch brings a snapshot. -/
def eagerPoller : Poller :=
  { node := "a", source := ⟨"a", fun _ => .ok {}, fun _ => 0⟩, interval := ⟨10⟩ }

def fullAggregator : Aggregator :=
  { roster := ⟨∅, 1, 0⟩
    divisors := ⟨1, 1, .full⟩
    logs := NodeLogs.ofNodes ["a"] fun _ => NodeLog.limited 0
    interval := ⟨20⟩ }

def fullMoves : List Move :=
  [.startPoller 0, .startAggregator, .beginFetch 0, .endFetch 0, .deliver 0, .receive, .wait 10,
    .beginFetch 0, .endFetch 0, .deliver 0, .receive, .wait 20, .tick]

theorem pipeline_returns_for_cause_full :
    fullAggregator.divisors.Checked ∧ ∃ v w t log,
      (World.ofPipeline 0 clockRange [eagerPoller] fullAggregator).run fullMoves = some v ∧
      v.step .finish = some w ∧ w.result = some (.error (.log ⟨"a", .diskFull⟩)) ∧
      w.aggregator = some t ∧ t.aggregator.logs["a"]? = some log ∧ log.Failed .diskFull := by
  have hcounts : Divisors.ofCounts 1 1 .full = .ok fullAggregator.divisors := rfl
  have hd := Divisors.checked_of_ofCounts hcounts
  obtain ⟨v, w, hrun, hfinish, herror⟩ :
      ∃ v w, (World.ofPipeline 0 clockRange [eagerPoller] fullAggregator).run fullMoves = some v ∧
        v.step .finish = some w ∧ w.result = some (.error (.log ⟨"a", .diskFull⟩)) :=
    ⟨_, _, rfl, rfl, rfl⟩
  obtain ⟨t, result, ht, -, hresult, -, hlog, -⟩ :=
    (pipeline_returns_for_cause 0 clockRange [eagerPoller] fullAggregator hd).1 fullMoves v w hrun
      hfinish
  obtain ⟨log, hfound, hfailed⟩ :=
    hlog "a" .diskFull (Option.some.inj (hresult.symm.trans herror))
  exact ⟨hd, v, w, t, log, hrun, hfinish, herror, ht, hfound, hfailed⟩

/-- An aggregator without time between its ticks, whose dashboard draws every frame. -/
def restlessAggregator : Aggregator :=
  { roster := ⟨∅, 1, 0⟩, divisors := ⟨1, 1, .full⟩, logs := ∅, interval := ⟨0⟩ }

/-- The task of an aggregator without time between its ticks crashes before any frame is drawn. -/
theorem restless_pipeline_crashes :
    restlessAggregator.divisors.Checked ∧
    (∀ attempt, restlessAggregator.panel.outcomeAt attempt ≠ .crashed) ∧
    ∃ v w t, (World.ofPipeline 0 clockRange [eagerPoller] restlessAggregator).run
        [.startAggregator] = some v ∧
      v.step .finish = some w ∧ w.result = some (.error .task) ∧ w.aggregator = some t ∧
      ¬ t.aggregator.panel.Crashed := by
  have hcounts : Divisors.ofCounts 1 1 .full = .ok restlessAggregator.divisors := rfl
  refine ⟨Divisors.checked_of_ofCounts hcounts, nofun, _, _, _, rfl, rfl, rfl, rfl, ?_⟩
  rintro ⟨attempt, hattempts, -⟩
  cases hattempts

end World

end FleetTelemetry
