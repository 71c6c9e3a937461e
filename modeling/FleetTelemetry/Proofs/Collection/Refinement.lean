import FleetTelemetry.Proofs.Collection.Arrivals

/-!
# The task of an aggregator does what the calls do

Every prompt run of an aggregator's task comes to the same frames, rows, deliveries and end as
calling the aggregator in the order of time, and there is such a run.
-/

namespace FleetTelemetry

namespace World

/-- Inputs that are still to come until a horizon, in the order of time; inputs of one instant are
of one kind. -/
structure Orderly (horizon now : Nat) (inputs : List (Nat × Input)) : Prop where
  inTime : now ≤ horizon
  sorted : inputs.Pairwise fun x y => x.1 ≤ y.1
  ahead : ∀ x ∈ inputs, now ≤ x.1
  within : ∀ x ∈ inputs, x.1 ≤ horizon
  kinds : ∀ x ∈ inputs, ∀ y ∈ inputs, x.1 = y.1 → x.2.kind = y.2.kind

/-- A world and its inputs agree with the calls that come to `all`, of which `delivered` is what has
become of the reports so far. -/
inductive Agrees (epoch period horizon : Nat) (all : Replay) (delivered : List Bool) (w : World)
    (inputs : List (Nat × Input)) : Prop where
  | alive (t : AggregatorTask) (r : Replay) (start : Nat)
      (h : Alive epoch period w inputs t r start)
      (hclear : r.Clear epoch (timeline period horizon start inputs) inputs)
      (hall : r.run epoch period horizon start inputs = all) (hdelivered : r.delivered = delivered)
  | finished (t : AggregatorTask) (how : AggregatorEnd) (r : Replay) (start : Nat)
      (h : Over w t how r)
      (hall : r.run epoch period horizon start inputs = all) (hdelivered : r.delivered = delivered)

/-- A world at rest has come to what the calls come to. -/
structure Settled (w : World) (all : Replay) : Prop where
  task : ∃ t, w.aggregator = some t ∧ t.aggregator = all.aggregator ∧ t.end? = all.ended
  result : w.result = all.ended.map resultOf

section

variable {epoch period horizon : Nat} {w w' final : World} {inputs inputs' : List (Nat × Input)}
  {all : Replay} {delivered new : List Bool}

theorem Agrees.alone (h : Agrees epoch period horizon all delivered w inputs) : w.pollers = [] := by
  cases h with
  | alive t r start h => exact h.alone
  | finished t how r start h => exact h.alone

theorem Orderly.tail {now : Nat} {x : Nat × Input} (h : Orderly horizon now (x :: inputs)) :
    Orderly horizon now inputs :=
  ⟨h.inTime, h.sorted.of_cons, fun y hy => h.ahead y (List.mem_cons_of_mem x hy),
    fun y hy => h.within y (List.mem_cons_of_mem x hy),
    fun y hy z hz => h.kinds y (List.mem_cons_of_mem x hy) z (List.mem_cons_of_mem x hz)⟩

theorem Orderly.turn (halone : w.pollers = []) (h : Orderly horizon w.now inputs)
    (hturn : Turn horizon w inputs new w' inputs') : Orderly horizon w'.now inputs' := by
  cases hturn with
  | act hm hstep =>
    have hnow : w'.now = w.now := now_of_step (ownMoves_of_alone halone ▸ hm) hstep
    rw [hnow]
    exact h
  | happen hkind =>
    rw [now_happen w hkind]
    exact h.tail
  | deliver hstep =>
    obtain ⟨-, rfl⟩ := step_send_iff.mp hstep
    exact h.tail
  | refuse hgone => exact h.tail
  | @pass _ time hidle hlater hhorizon hinput hwake =>
    refine ⟨hhorizon, h.sorted, fun x hx => ?_, h.within, h.kinds⟩
    cases inputs with
    | nil => cases hx
    | cons y ys =>
      have hy := hinput y rfl
      rcases List.mem_cons.mp hx with rfl | hx
      · exact hy
      · exact Nat.le_trans hy (List.rel_of_pairwise_cons h.sorted hx)

private theorem Agrees.of_alive_act {t : AggregatorTask} {r : Replay} {start : Nat}
    (hperiod : 0 < period) (h : Alive epoch period w inputs t r start)
    (hclear : r.Clear epoch (timeline period horizon start inputs) inputs)
    (hall : r.run epoch period horizon start inputs = all) (hdelivered : r.delivered = delivered)
    (horder : Orderly horizon w.now inputs) {m : Move} (hm : m ∈ w.ownMoves)
    (hstep : w.step m = some w') : Agrees epoch period horizon all delivered w' inputs := by
  have hsame : ∀ t', Alive epoch period w' inputs t' r start →
      Agrees epoch period horizon all delivered w' inputs :=
    fun t' h' => .alive t' r start h' hclear hall hdelivered
  have hm := ownMoves_of_alone h.alone ▸ hm
  simp only [aggregatorMoves, List.mem_cons, List.not_mem_nil, or_false] at hm
  rcases hm with rfl | rfl | rfl | rfl | rfl | rfl
  · obtain ⟨t', h'⟩ := h.startAggregator hperiod hstep
    exact hsame t' h'
  · obtain ⟨t', h'⟩ := h.receive hstep
    exact hsame t' h'
  · obtain ⟨t', h'⟩ := h.closeReports hstep
    exact hsame t' h'
  · obtain ⟨hnow, t', h'⟩ := h.tick hperiod hstep
    have hle : start + period ≤ horizon := hnow ▸ horder.inTime
    have hahead : ∀ x ∈ inputs, start + period ≤ x.1 := hnow ▸ horder.ahead
    have hclear := hclear.cons_tick hperiod hle hahead
    rw [Replay.run_cons_tick hperiod hle hahead] at hall
    rw [hnow] at h'
    have hsaid : (r.perform epoch (.tick (start + period))).delivered = delivered :=
      (Replay.delivered_perform_tick r _ _).trans hdelivered
    rcases h' with h' | ⟨how, h'⟩
    · exact .alive t' _ _ h' hclear hall hsaid
    · exact .finished t' how _ _ h' hall hsaid
  · obtain ⟨t', h' | h'⟩ := h.noticeAggregator hstep
    · exact hsame t' h'
    · exact .finished t' .stopped r start h' hall hdelivered
  · obtain ⟨u, how, hu, hend, -⟩ := step_finish_iff.mp hstep
    rw [h.task] at hu
    cases hu
    rw [h.end?_eq_none] at hend
    cases hend

private theorem Agrees.of_over_turn {t : AggregatorTask} {how : AggregatorEnd} {r : Replay}
    {start : Nat} (h : Over w t how r)
    (hall : r.run epoch period horizon start inputs = all) (hdelivered : r.delivered = delivered)
    (hturn : Turn horizon w inputs new w' inputs') :
    Agrees epoch period horizon all (delivered ++ new) w' inputs' := by
  have hended : r.ended.isSome := by simp [h.ended]
  cases hturn with
  | act hm hstep =>
    rw [List.append_nil]
    obtain ⟨h', -⟩ := h.act (ownMoves_of_alone h.alone ▸ hm) hstep
    exact .finished t how r start h' hall hdelivered
  | @happen rest input hkind =>
    rw [Replay.run_cons_of_ended hended] at hall
    have hsaid : (r.take input).delivered = delivered ++ [] := by
      rw [Replay.delivered_take hkind, hdelivered, List.append_nil]
    exact .finished t how _ start (h.happen input hkind) hall hsaid
  | deliver hstep =>
    obtain ⟨⟨-, hreceiving, -⟩, -⟩ := step_send_iff.mp hstep
    rw [h.receiving] at hreceiving
    cases hreceiving
  | @refuse rest report hgone =>
    rw [Replay.run_cons_of_ended hended, Replay.take_report_of_ended hended] at hall
    have h' : Over w t how { r with delivered := r.delivered ++ [false] } := { h with }
    exact .finished t how _ start h' hall (by rw [← hdelivered])
  | pass hidle hlater hhorizon hinput hwake =>
    rw [List.append_nil]
    exact .finished t how r start { h with } hall hdelivered

theorem Agrees.turn (hperiod : 0 < period) (h : Agrees epoch period horizon all delivered w inputs)
    (horder : Orderly horizon w.now inputs) (hturn : Turn horizon w inputs new w' inputs') :
    Agrees epoch period horizon all (delivered ++ new) w' inputs' := by
  cases h with
  | alive t r start h hclear hall hdelivered =>
    cases hturn with
    | act hm hstep =>
      rw [List.append_nil]
      exact .of_alive_act hperiod h hclear hall hdelivered horder hm hstep
    | @happen rest input hkind =>
      have hlt := h.now_lt hperiod horder.tail.ahead horder.inTime hclear
      have hkinds : ∀ x ∈ inputs', x.1 = w.now → x.2.kind = input.kind := fun x hx hnow =>
        horder.kinds x (List.mem_cons_of_mem _ hx) _ List.mem_cons_self hnow
      rw [Replay.run_cons_input hperiod hlt] at hall
      have hclear := hclear.cons_input hperiod hlt
      have hsaid : (r.take input).delivered = delivered ++ [] := by
        rw [Replay.delivered_take hkind, hdelivered, List.append_nil]
      cases input with
      | report report => exact absurd rfl hkind
      | close => exact .alive t _ start h.close hclear hall hsaid
      | goOn => exact .alive t _ start (h.goOn hlt hkinds) hclear hall hsaid
      | stop => exact .alive t _ start (h.stop hlt hkinds) hclear hall hsaid
      | drop => exact .alive t _ start (h.drop hlt hkinds) hclear hall hsaid
    | @deliver w' rest report hstep =>
      have hlt := h.now_lt hperiod horder.tail.ahead horder.inTime hclear
      have hkinds : ∀ x ∈ inputs', x.1 = w.now → x.2.kind = .report := fun x hx hnow =>
        horder.kinds x (List.mem_cons_of_mem _ hx) _ List.mem_cons_self hnow
      rw [Replay.run_cons_input hperiod hlt] at hall
      obtain ⟨h', hsaid⟩ := h.deliver hlt hkinds hstep
      exact .alive t _ start h' (hclear.cons_input hperiod hlt) hall (hdelivered ▸ hsaid)
    | @refuse rest report hgone =>
      have hlt := h.now_lt hperiod horder.tail.ahead horder.inTime hclear
      rw [Replay.run_cons_input hperiod hlt] at hall
      obtain ⟨h', hsaid⟩ := h.refuse hgone
      exact .alive t _ start h' (hclear.cons_input hperiod hlt) hall (hdelivered ▸ hsaid)
    | pass hidle hlater hhorizon hinput hwake =>
      rw [List.append_nil]
      exact .alive t r start (h.pass hperiod hidle hwake) hclear hall hdelivered
  | finished t how r start h hall hdelivered =>
    exact .of_over_turn h hall hdelivered hturn

private theorem Agrees.settled (hperiod : 0 < period)
    (h : Agrees epoch period horizon all delivered w [])
    (hidle : w.advance? = none) (hnow : w.now = horizon) :
    Settled w all ∧ all.delivered = delivered := by
  cases h with
  | alive t r start h hclear hall hdelivered =>
    obtain ⟨-, -, hlt, hslot, hnotice⟩ := h.of_idle hperiod hidle
    have hsame : r = all := by
      rw [← hall, Replay.run, timeline_of_lt hperiod (by omega)]
      rfl
    subst hsame
    have hended : r.ended = none := by
      rcases h.ended with ⟨hnone, -⟩ | ⟨-, hstop⟩
      · exact hnone
      · rw [hnotice] at hstop
        cases hstop
    refine ⟨⟨⟨t, h.task, ?_, ?_⟩, ?_⟩, hdelivered⟩
    · rw [h.aggregator, hslot]
      rfl
    · rw [h.end?_eq_none, hended]
    · rw [h.unfinished, hended]
      rfl
  | finished t how r start h hall hdelivered =>
    have hsame : r = all := by
      rw [← hall, Replay.run, Replay.foldl_perform_of_ended (by simp [h.ended]),
        filterMap_input_timeline]
      rfl
    subst hsame
    refine ⟨⟨⟨t, h.task, h.aggregator.symm, ?_⟩, ?_⟩, hdelivered⟩
    · rw [h.end?_eq, h.ended]
    · rw [h.result_of_idle hidle, h.ended]
      rfl

theorem Agrees.run (hperiod : 0 < period) (h : Agrees epoch period horizon all delivered w inputs)
    (horder : Orderly horizon w.now inputs) (hrun : PromptRun horizon w inputs new final) :
    Settled final all ∧ all.delivered = delivered ++ new := by
  induction hrun generalizing delivered with
  | done hidle hnow =>
    rw [List.append_nil]
    exact h.settled hperiod hidle hnow
  | turn hturn hrest ih =>
    have halone := h.alone
    rw [← List.append_assoc]
    exact ih (h.turn hperiod horder hturn) (horder.turn halone hturn)

private theorem Agrees.now_lt_wake (hperiod : 0 < period)
    (h : Agrees epoch period horizon all delivered w inputs) (hidle : w.advance? = none) :
    ∀ wake ∈ w.wakeTime, w.now < wake := by
  intro wake hwake
  cases h with
  | alive t r start h =>
    rw [h.wakeTime_of_idle hperiod hidle] at hwake
    cases hwake
    exact (h.of_idle hperiod hidle).2.2.1
  | finished t how r start h =>
    rw [h.wakeTime_eq] at hwake
    cases hwake

private theorem exists_pass (inputs : List (Nat × Input)) {limit : Nat}
    (hidle : w.advance? = none) (hwake : ∀ wake ∈ w.wakeTime, w.now < wake)
    (hlater : w.now < limit) (hhorizon : limit ≤ horizon)
    (hinput : ∀ x ∈ inputs.head?, limit ≤ x.1) :
    ∃ time, Turn horizon w inputs [] { w with now := time } inputs ∧
      horizon - time < horizon - w.now := by
  cases hnext : w.wakeTime with
  | none =>
    refine ⟨limit, .pass hidle hlater hhorizon hinput (by simp [hnext]), ?_⟩
    omega
  | some wake =>
    have hlt := hwake wake hnext
    refine ⟨min limit wake, .pass hidle (by omega) (by omega) (fun x hx => ?_) ?_, ?_⟩
    · have hx := hinput x hx
      omega
    · intro wake' hwake'
      rw [hnext] at hwake'
      cases hwake'
      omega
    · omega

private theorem Agrees.exists_input (hperiod : 0 < period) {input : Input}
    (h : Agrees epoch period horizon all delivered w ((w.now, input) :: inputs))
    (hidle : w.advance? = none) :
    ∃ new w', Turn horizon w ((w.now, input) :: inputs) new w' inputs ∧ w'.now = w.now := by
  by_cases hkind : input.kind = .report
  · obtain ⟨report, rfl⟩ : ∃ report, input = .report report := by
      cases input with
      | report report => exact ⟨report, rfl⟩
      | _ => cases hkind
    cases h with
    | alive t r start h =>
      obtain ⟨-, -, -, hslot, -⟩ := h.of_idle hperiod hidle
      cases hsending : w.sending with
      | false => exact ⟨_, w, .refuse (.inl hsending), rfl⟩
      | true =>
        exact ⟨_, _, .deliver (step_send_iff.mpr ⟨⟨hsending, h.receiving, hslot⟩, rfl⟩), rfl⟩
    | finished t how r start h => exact ⟨_, w, .refuse (.inr h.receiving), rfl⟩
  · exact ⟨_, _, .happen hkind, now_happen w hkind⟩

/-- Before the end of a prompt run there is always a turn, and it brings the end nearer: time
passes, an input comes, or there is less to do at the instant. -/
theorem Agrees.exists_turn (hperiod : 0 < period)
    (h : Agrees epoch period horizon all delivered w inputs)
    (horder : Orderly horizon w.now inputs) :
    (inputs = [] ∧ w.advance? = none ∧ w.now = horizon) ∨
      ∃ new w' inputs', Turn horizon w inputs new w' inputs' ∧
        Prod.Lex (· < ·) (Prod.Lex (· < ·) (· < ·))
          (horizon - w'.now, inputs'.length, w'.haste)
          (horizon - w.now, inputs.length, w.haste) := by
  cases hadvance : w.advance? with
  | some w' =>
    obtain ⟨m, hm, hstep⟩ := List.exists_of_findSome?_eq_some hadvance
    have hown := ownMoves_of_alone h.alone ▸ hm
    have hless : w'.haste < w.haste := by
      cases h with
      | alive t r start h => exact h.haste_lt hperiod hown hstep
      | finished t how r start h => exact h.haste_lt hown hstep
    refine .inr ⟨[], w', inputs, .act hm hstep, ?_⟩
    rw [now_of_step hown hstep]
    exact .right _ (.right _ hless)
  | none =>
    have hwake := h.now_lt_wake hperiod hadvance
    cases inputs with
    | nil =>
      by_cases hnow : w.now = horizon
      · exact .inl ⟨rfl, rfl, hnow⟩
      · have hlater := Nat.lt_of_le_of_ne horder.inTime hnow
        obtain ⟨time, hturn, hless⟩ :=
          exists_pass [] hadvance hwake hlater (Nat.le_refl horizon) (by simp)
        exact .inr ⟨[], _, [], hturn, .left _ _ hless⟩
    | cons x rest =>
      obtain ⟨time, input⟩ := x
      by_cases hnow : time = w.now
      · subst hnow
        obtain ⟨new, w', hturn, hsame⟩ := h.exists_input hperiod hadvance
        refine .inr ⟨new, w', rest, hturn, ?_⟩
        rw [hsame]
        exact .right _ (.left _ _ (Nat.lt_succ_self _))
      · have hahead := horder.ahead _ List.mem_cons_self
        have hlater : w.now < time := Nat.lt_of_le_of_ne hahead (Ne.symm hnow)
        obtain ⟨time', hturn, hless⟩ := exists_pass ((time, input) :: rest) hadvance hwake hlater
          (horder.within _ List.mem_cons_self) (by simp)
        exact .inr ⟨[], _, _, hturn, .left _ _ hless⟩

private theorem Agrees.exists_run {delivered : List Bool} {w : World} {inputs : List (Nat × Input)}
    (hperiod : 0 < period) (h : Agrees epoch period horizon all delivered w inputs)
    (horder : Orderly horizon w.now inputs) :
    ∃ new final, PromptRun horizon w inputs new final := by
  rcases h.exists_turn hperiod horder with ⟨rfl, hidle, hnow⟩ | ⟨new, w', inputs', hturn, hless⟩
  · exact ⟨[], w, .done hidle hnow⟩
  · have h' := h.turn hperiod horder hturn
    obtain ⟨more, final, hrest⟩ := h'.exists_run hperiod (horder.turn h.alone hturn)
    exact ⟨new ++ more, final, .turn hturn hrest⟩
termination_by (horizon - w.now, inputs.length, w.haste)
decreasing_by exact hless

theorem Agrees.launch {clockEnd start : Nat} {a : Aggregator}
    (hrhythm : a.interval.nanoseconds = period) (hclock : start + period < clockEnd)
    (hclear : ({ aggregator := a } : Replay).Clear epoch (timeline period horizon start inputs)
      inputs) :
    Agrees epoch period horizon
      (({ aggregator := a } : Replay).run epoch period horizon start inputs) []
      (launch epoch clockEnd start a) inputs := by
  refine .alive { aggregator := a } { aggregator := a } start ?_ hclear rfl rfl
  refine
    { task := rfl
      sameEpoch := rfl
      alone := rfl
      rhythm := hrhythm
      phase := .inl ⟨rfl, rfl, hclock⟩
      receiving := rfl
      sending := rfl
      opened := fun _ => rfl
      aggregator := rfl
      ended := .inl ⟨rfl, fun hstop => by cases hstop⟩
      seen := Nat.le_refl 0
      dropped := by rintro ⟨⟩
      unfinished := rfl
      apart := fun _ => rfl
      awaited := ?_ }
  intro kind hkind
  cases hkind with
  | report hne => exact absurd rfl hne
  | goOn hunseen => exact absurd hunseen (Nat.lt_irrefl 0)
  | stop hunseen => exact absurd hunseen (Nat.lt_irrefl 0)
  | drop hseen hdropped => cases hdropped

end

/-- For inputs that come in the order of time, of which those of one instant are of one kind and
none comes at the instant of a tick that is reached, and for a clock that can tell the times of all
ticks up to the first one after the horizon: there is a prompt run of the aggregator's task, and
every such run draws the frames, writes the rows, delivers the reports and ends as calling the
aggregator does, for each report before the stop and before the last of them and at each tick before
the stop. No report is taken in after the stop, and neither the news that no more reports will come
nor a signal that is not for stopping changes anything. -/
theorem promptRun_eq_calls (epoch clockEnd start horizon : Nat) (a : Aggregator)
    (inputs : List (Nat × Input)) (hperiod : 0 < a.interval.nanoseconds)
    (hclock : ∀ k, start + k * a.interval.nanoseconds ≤ horizon →
      start + (k + 1) * a.interval.nanoseconds < clockEnd)
    (hhorizon : start ≤ horizon)
    (hsorted : inputs.Pairwise fun x y => x.1 ≤ y.1)
    (htimes : ∀ x ∈ inputs, start ≤ x.1 ∧ x.1 ≤ horizon)
    (hkinds : ∀ x ∈ inputs, ∀ y ∈ inputs, x.1 = y.1 → x.2.kind = y.2.kind)
    (hclear : ({ aggregator := a } : Replay).Clear epoch
      (timeline a.interval.nanoseconds horizon start inputs) inputs) :
    let calls := ({ aggregator := a } : Replay).run epoch a.interval.nanoseconds horizon start
    (∃ delivered final,
      PromptRun horizon (launch epoch clockEnd start a) inputs delivered final) ∧
    (∀ delivered final, PromptRun horizon (launch epoch clockEnd start a) inputs delivered final →
      Settled final (calls inputs) ∧ delivered = (calls inputs).delivered) ∧
    (∀ earlier later, timeline a.interval.nanoseconds horizon start inputs = earlier ++ later →
      (earlier.foldl (Replay.perform epoch) { aggregator := a }).ended.isSome →
      (calls inputs).delivered =
        (earlier.foldl (Replay.perform epoch) { aggregator := a }).delivered ++
          List.replicate (later.countP (·.kind? = some .report)) false) ∧
    (inputs.Pairwise (fun x y => x.2.kind = .close → y.2.kind ≠ .report) →
      Replay.Same (calls (inputs.filter fun x => x.2.kind ≠ .close ∧ x.2.kind ≠ .goOn))
        (calls inputs)) := by
  intro calls
  have hfirst : start + a.interval.nanoseconds < clockEnd := by
    simpa using hclock 0 (by simpa using hhorizon)
  have hagrees : Agrees epoch a.interval.nanoseconds horizon (calls inputs) []
      (launch epoch clockEnd start a) inputs := Agrees.launch rfl hfirst hclear
  have horder : Orderly horizon (launch epoch clockEnd start a).now inputs :=
    ⟨hhorizon, hsorted, fun x hx => (htimes x hx).1, fun x hx => (htimes x hx).2, hkinds⟩
  refine ⟨hagrees.exists_run hperiod horder, ?_, ?_, Replay.same_run_filter hsorted⟩
  · intro delivered final hrun
    obtain ⟨hsettled, hdelivered⟩ := hagrees.run hperiod horder hrun
    exact ⟨hsettled, hdelivered.symm⟩
  · intro earlier later heq hended
    have hcalls : calls inputs = later.foldl (Replay.perform epoch)
        (earlier.foldl (Replay.perform epoch) { aggregator := a }) := by
      rw [← List.foldl_append, ← heq]
      rfl
    rw [hcalls]
    exact Replay.delivered_foldl_of_ended hended later

def briskAggregator : Aggregator :=
  { roster := ⟨∅, 0, 0⟩, divisors := ⟨1, 1, .full⟩, logs := ∅, interval := ⟨10⟩ }

/-- Two reports with a signal to go on between them, the stop and a report after it. -/
def briefInputs : List (Nat × Input) :=
  [(3, .report ⟨"a", {}⟩), (7, .goOn), (12, .report ⟨"a", {}⟩), (24, .stop),
    (31, .report ⟨"a", {}⟩)]

theorem promptRun_eq_calls_brief :
    ∃ delivered final,
      PromptRun 35 (launch 0 clockRange 0 briskAggregator) briefInputs delivered final ∧
      Settled final (({ aggregator := briskAggregator } : Replay).run 0 10 35 0 briefInputs) ∧
      delivered =
        (({ aggregator := briskAggregator } : Replay).run 0 10 35 0 briefInputs).delivered := by
  have hclear : ({ aggregator := briskAggregator } : Replay).Clear 0
      (timeline briskAggregator.interval.nanoseconds 35 0 briefInputs) briefInputs :=
    Replay.clear_of_forall (by decide)
  have hclock : ∀ k, 0 + k * briskAggregator.interval.nanoseconds ≤ 35 →
      0 + (k + 1) * briskAggregator.interval.nanoseconds < clockRange := by
    intro k hk
    have hperiod : briskAggregator.interval.nanoseconds = 10 := rfl
    have hrange : clockRange = 9223372036854775808000000000 := rfl
    rw [hperiod] at hk ⊢
    omega
  obtain ⟨⟨delivered, final, hrun⟩, hsettled, -⟩ := promptRun_eq_calls 0 clockRange 0 35
    briskAggregator briefInputs (by decide) hclock (by decide) (by decide) (by decide) (by decide)
    hclear
  exact ⟨delivered, final, hrun, hsettled delivered final hrun⟩

/-! ## A task that cannot begin -/

/-- A task that has not begun, and whose first tick cannot be awaited. -/
structure Stillborn (a : Aggregator) (w : World) : Prop where
  task : w.aggregator = some { aggregator := a }
  alone : w.pollers = []
  never : ({ aggregator := a } : AggregatorTask).Unstartable w.now w.clockEnd
  unfinished : w.result = none

section

variable {horizon : Nat} {w w' final : World} {inputs inputs' : List (Nat × Input)}
  {a : Aggregator} {new delivered : List Bool}

private theorem Stillborn.act (h : Stillborn a w) {m : Move} (hm : m ∈ aggregatorMoves)
    (hstep : w.step m = some w') :
    ∃ t, Over w' t .crashed { aggregator := a, ended := some .crashed } := by
  have htask {u : AggregatorTask} (hu : w.aggregator = some u) : u = { aggregator := a } :=
    Option.some.inj (hu.symm.trans h.task)
  simp only [aggregatorMoves, List.mem_cons, List.not_mem_nil, or_false] at hm
  rcases hm with rfl | rfl | rfl | rfl | rfl | rfl
  · obtain ⟨u, t', events, hu, hstart, rfl⟩ := step_startAggregator_iff.mp hstep
    cases htask hu
    obtain ⟨-, ⟨-, rfl, -⟩ | ⟨hcan, -⟩⟩ := AggregatorTask.start_eq_some_iff.mp hstart
    · rw [setAggregator_of_ended _ _ rfl]
      exact ⟨_, rfl, h.alone, rfl, rfl, rfl, rfl, .inl h.unfinished⟩
    · exact absurd h.never hcan
  · obtain ⟨u, t', report, hu, -, hreceive, -⟩ := step_receive_iff.mp hstep
    cases htask hu
    cases (AggregatorTask.receive_eq_some_iff.mp hreceive).1
  · obtain ⟨u, t', events, hu, hclose, -⟩ := step_closeReports_iff.mp hstep
    cases htask hu
    cases (AggregatorTask.closeReports_eq_some_iff.mp hclose).1
  · obtain ⟨u, t', events, hu, htick, -⟩ := step_tick_iff.mp hstep
    cases htask hu
    cases (AggregatorTask.tick_eq_some_iff.mp htick).1
  · obtain ⟨u, t', events, hu, hnotice, -⟩ := step_noticeAggregator_iff.mp hstep
    cases htask hu
    cases (AggregatorTask.notice_eq_some_iff.mp hnotice).1
  · obtain ⟨u, how, hu, hend, -⟩ := step_finish_iff.mp hstep
    cases htask hu
    cases hend

private theorem Stillborn.advance?_ne_none (h : Stillborn a w) : w.advance? ≠ none := by
  intro hidle
  rw [advance?_eq_none_iff h.alone] at hidle
  have hstep := step_startAggregator_iff.mpr ⟨_, _, _, h.task,
    AggregatorTask.start_eq_some_iff.mpr ⟨rfl, .inl ⟨h.never, rfl, rfl⟩⟩, rfl⟩
  rw [hidle _ (by decide)] at hstep
  cases hstep

private theorem Stillborn.turn (h : Stillborn a w) (hturn : Turn horizon w inputs new w' inputs') :
    Stillborn a w' ∨ ∃ t, Over w' t .crashed { aggregator := a, ended := some .crashed } := by
  cases hturn with
  | act hm hstep => exact .inr (h.act (ownMoves_of_alone h.alone ▸ hm) hstep)
  | happen hkind =>
    obtain ⟨shutdown, sending, hworld⟩ := exists_happen w hkind
    rw [hworld]
    exact .inl { h with }
  | deliver hstep =>
    obtain ⟨-, rfl⟩ := step_send_iff.mp hstep
    exact .inl { h with }
  | refuse => exact .inl h
  | pass hidle => exact absurd hidle h.advance?_ne_none

private theorem Over.turn {t : AggregatorTask} {how : AggregatorEnd} {r : Replay}
    (h : Over w t how r) (hturn : Turn horizon w inputs new w' inputs') :
    ∃ r', Over w' t how r' := by
  cases hturn with
  | act hm hstep => exact ⟨r, (h.act (ownMoves_of_alone h.alone ▸ hm) hstep).1⟩
  | happen hkind => exact ⟨_, h.happen _ hkind⟩
  | deliver hstep =>
    obtain ⟨⟨-, hreceiving, -⟩, -⟩ := step_send_iff.mp hstep
    cases h.receiving.symm.trans hreceiving
  | refuse => exact ⟨r, h⟩
  | pass => exact ⟨r, { h with }⟩

private theorem Over.returns {t : AggregatorTask} {how : AggregatorEnd} {r : Replay}
    (h : Over w t how r) (hrun : PromptRun horizon w inputs delivered final) :
    final.aggregator = some t ∧ final.result = some (resultOf how) := by
  induction hrun generalizing r with
  | done hidle => exact ⟨h.task, h.result_of_idle hidle⟩
  | turn hturn _ ih =>
    obtain ⟨r', h'⟩ := h.turn hturn
    exact ih h'

/-- A task whose first tick cannot be awaited, because there is no time before it or because the
clock cannot tell its time, crashes as soon as it begins: whatever inputs come, every prompt run
returns the error of the task and leaves the aggregator, its logs and its dashboard as they were. -/
theorem promptRun_of_unstartable (epoch : Nat) {clockEnd start : Nat}
    (hnever : ({ aggregator := a } : AggregatorTask).Unstartable start clockEnd)
    (hrun : PromptRun horizon (launch epoch clockEnd start a) inputs delivered final) :
    final.result = some (.error .task) ∧ ∃ t, final.aggregator = some t ∧ t.aggregator = a := by
  have hbegins : Stillborn a (launch epoch clockEnd start a) := ⟨rfl, rfl, hnever, rfl⟩
  generalize launch epoch clockEnd start a = w at hrun hbegins
  induction hrun with
  | done hidle => exact absurd hidle hbegins.advance?_ne_none
  | turn hturn hrest ih =>
    rcases hbegins.turn hturn with hbegins' | ⟨t, hover⟩
    · exact ih hbegins'
    · obtain ⟨htask, hresult⟩ := hover.returns hrest
      exact ⟨hresult, t, htask, hover.aggregator.symm⟩

end

end World

end FleetTelemetry
