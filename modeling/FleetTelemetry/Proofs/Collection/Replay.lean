import FleetTelemetry.Collection.World

/-!
# Calling an aggregator in the order of time

An aggregator without a task: it is called for every report and for every tick of a clock, one after
another in the order of time, until something stops it. Nothing waits here for anything, so this
says what a task with its channels and its signal is to come to.
-/

namespace FleetTelemetry

open Diagnostics

/-- Something that comes to an aggregator from outside. -/
inductive Input where
  | report (report : Report)
  | close
  /-- The shutdown signal is set, but not for stopping. -/
  | goOn
  | stop
  | drop

inductive InputKind where
  | report
  | close
  | goOn
  | stop
  | drop
  deriving DecidableEq, Repr

namespace Input

def kind : Input → InputKind
  | .report _ => .report
  | .close => .close
  | .goOn => .goOn
  | .stop => .stop
  | .drop => .drop

def move : Input → Move
  | .report r => .send r
  | .close => .closeSender
  | .goOn => .signal false
  | .stop => .signal true
  | .drop => .dropSignal

end Input

/-- How an aggregator is called. -/
inductive Occasion where
  | tick (time : Nat)
  | input (time : Nat) (input : Input)

namespace Occasion

def time : Occasion → Nat
  | .tick t => t
  | .input t _ => t

def input? : Occasion → Option (Nat × Input)
  | .tick _ => none
  | .input t i => some (t, i)

def kind? (o : Occasion) : Option InputKind := o.input?.map (·.2.kind)

def ofInput (x : Nat × Input) : Occasion := .input x.1 x.2

end Occasion

/-- The times of the ticks after some start, as many as come until a horizon. -/
def tickTimes (period horizon start : Nat) : List Nat :=
  (List.range ((horizon - start) / period)).map fun k => start + (k + 1) * period

/-- Ticks and inputs in the order of time. -/
def timeline (period horizon start : Nat) (inputs : List (Nat × Input)) : List Occasion :=
  ((tickTimes period horizon start).map .tick).merge (inputs.map .ofInput) fun a b =>
    decide (a.time ≤ b.time)

/-- How a tick ends a run, if it does. -/
def TickOutcome.end? : TickOutcome → Option AggregatorEnd
  | .idle => none
  | .frame _ => none
  | .failed e => some (.failed e)
  | .crashed => some .crashed

theorem AggregatorTask.phaseAfter_eq (outcome : TickOutcome) :
    phaseAfter outcome = match outcome.end? with
      | none => .running
      | some how => .ended how := by
  cases outcome <;> rfl

/-- An aggregator that is called, and what has become of the calls. -/
structure Replay where
  aggregator : Aggregator
  reportsOpen : Bool := true
  ended : Option AggregatorEnd := none
  /-- For every report whether it was taken in. -/
  delivered : List Bool := []

namespace Replay

/-- A tick of an aggregator that nothing has stopped. -/
def tick (r : Replay) (elapsed : Span) (timestamp : UInt64) : Replay :=
  if r.ended.isSome then r
  else
    match r.aggregator.tick elapsed timestamp with
    | (outcome, aggregator, _) => { r with aggregator, ended := outcome.end? }

/-- Takes in an input. Reports count before the stop and before no more of them are said to come;
the stop is the first of whatever stops. -/
def take (r : Replay) : Input → Replay
  | .report report =>
    if r.ended = none ∧ r.reportsOpen then
      { r with aggregator := r.aggregator.apply report, delivered := r.delivered ++ [true] }
    else { r with delivered := r.delivered ++ [false] }
  | .close => { r with reportsOpen := false }
  | .goOn => r
  | .stop => { r with ended := r.ended <|> some .stopped }
  | .drop => { r with ended := r.ended <|> some .stopped }

/-- One call. -/
def perform (epoch : Nat) (r : Replay) : Occasion → Replay
  | .tick time => r.tick ⟨time⟩ (UInt64.ofNat (epoch + time / Span.perSecond))
  | .input _ input => r.take input

/-- All calls until a horizon, in the order of time. -/
def run (epoch period horizon start : Nat) (r : Replay) (inputs : List (Nat × Input)) : Replay :=
  (timeline period horizon start inputs).foldl (perform epoch) r

theorem delivered_perform_tick (r : Replay) (epoch time : Nat) :
    (r.perform epoch (.tick time)).delivered = r.delivered := by
  show (r.tick _ _).delivered = r.delivered
  unfold tick
  split <;> rfl

theorem delivered_take {r : Replay} {input : Input} (h : input.kind ≠ .report) :
    (r.take input).delivered = r.delivered := by
  cases input with
  | report report => exact absurd rfl h
  | close => rfl
  | goOn => rfl
  | stop => rfl
  | drop => rfl

/-- None of some inputs comes at the instant of a tick that is reached before the stop. -/
def Clear (epoch : Nat) (r : Replay) (occasions : List Occasion) (inputs : List (Nat × Input)) :
    Prop :=
  ∀ earlier time later, occasions = earlier ++ .tick time :: later →
    (earlier.foldl (perform epoch) r).ended = none → ∀ x ∈ inputs, x.1 ≠ time

theorem Clear.tail {epoch : Nat} {r : Replay} {o : Occasion} {occasions : List Occasion}
    {inputs inputs' : List (Nat × Input)} (h : r.Clear epoch (o :: occasions) inputs)
    (hsub : ∀ x ∈ inputs', x ∈ inputs) : (r.perform epoch o).Clear epoch occasions inputs' := by
  intro earlier time later heq hended x hx
  exact h (o :: earlier) time later (by rw [heq]; rfl) hended x (hsub x hx)

end Replay

/-! ## The order of time -/

section Timeline

variable {period horizon start : Nat} {inputs : List (Nat × Input)}

private theorem tickTimes_of_lt (hperiod : 0 < period) (h : horizon < start + period) :
    tickTimes period horizon start = [] := by
  have hzero : (horizon - start) / period = 0 := Nat.div_eq_of_lt (by omega)
  simp [tickTimes, hzero]

private theorem tickTimes_of_le (hperiod : 0 < period) (h : start + period ≤ horizon) :
    tickTimes period horizon start =
      (start + period) :: tickTimes period horizon (start + period) := by
  have hcount : (horizon - start) / period = (horizon - (start + period)) / period + 1 := by
    rw [Nat.div_eq_sub_div hperiod (by omega), Nat.sub_sub]
  have hshift : ∀ k, start + (k + 1 + 1) * period = start + period + (k + 1) * period := by
    intro k
    rw [Nat.succ_mul (k + 1)]
    omega
  simp [tickTimes, hcount, List.range_succ_eq_map, Function.comp_def, hshift]

private theorem timeline_cons_input {x : Nat × Input} (hperiod : 0 < period)
    (h : x.1 < start + period) :
    timeline period horizon start (x :: inputs) =
      .ofInput x :: timeline period horizon start inputs := by
  unfold timeline
  by_cases hle : start + period ≤ horizon
  · rw [tickTimes_of_le hperiod hle, List.map_cons, List.map_cons, List.cons_merge_cons_neg]
    show ¬ decide (start + period ≤ x.1) = true
    simpa using h
  · rw [tickTimes_of_lt hperiod (by omega), List.map_nil, List.nil_merge, List.nil_merge,
      List.map_cons]

theorem timeline_cons_tick (hperiod : 0 < period) (hle : start + period ≤ horizon)
    (h : ∀ x ∈ inputs, start + period ≤ x.1) :
    timeline period horizon start inputs =
      .tick (start + period) :: timeline period horizon (start + period) inputs := by
  unfold timeline
  rw [tickTimes_of_le hperiod hle]
  cases inputs with
  | nil => simp
  | cons x inputs =>
    rw [List.map_cons, List.map_cons, List.cons_merge_cons_pos]
    show decide (start + period ≤ x.1) = true
    simpa using h x List.mem_cons_self

theorem timeline_of_lt (hperiod : 0 < period) (h : horizon < start + period) :
    timeline period horizon start inputs = inputs.map .ofInput := by
  unfold timeline
  rw [tickTimes_of_lt hperiod h, List.map_nil, List.nil_merge]

private theorem filterMap_merge {α β : Type} (f : α → Option β) (le : α → α → Bool) {xs : List α}
    (ys : List α) (hxs : ∀ x ∈ xs, f x = none) :
    (xs.merge ys le).filterMap f = ys.filterMap f := by
  induction xs generalizing ys with
  | nil => rw [List.nil_merge]
  | cons x xs ihx =>
    have hx := hxs x List.mem_cons_self
    have hrest : ∀ z ∈ xs, f z = none := fun z hz => hxs z (List.mem_cons_of_mem x hz)
    induction ys with
    | nil => simpa [List.filterMap_eq_nil_iff] using hxs
    | cons y ys ihy =>
      rw [List.cons_merge_cons]
      split
      · rw [List.filterMap_cons_none hx, ihx _ hrest]
      · rw [List.filterMap_cons, ihy, List.filterMap_cons]

private theorem filter_merge {α : Type} (p : α → Bool) (le : α → α → Bool)
    (htrans : ∀ a b c, le a b = true → le b c = true → le a c = true) {xs ys : List α}
    (hxs : ∀ x ∈ xs, p x = true) (hys : ys.Pairwise fun a b => le a b = true) :
    (xs.merge ys le).filter p = xs.merge (ys.filter p) le := by
  induction xs generalizing ys with
  | nil => rw [List.nil_merge, List.nil_merge]
  | cons x xs ihx =>
    have hx := hxs x List.mem_cons_self
    have hrest : ∀ z ∈ xs, p z = true := fun z hz => hxs z (List.mem_cons_of_mem x hz)
    induction ys with
    | nil => simpa [List.filter_eq_self] using hxs
    | cons y ys ihy =>
      obtain ⟨hy, hsorted⟩ := List.pairwise_cons.mp hys
      rw [List.cons_merge_cons]
      split
      case isTrue hle =>
        rw [List.filter_cons_of_pos hx, ihx hrest hys]
        -- the head of the filtered list comes no earlier than the one of the whole list
        cases hfilter : (y :: ys).filter p with
        | nil => rw [List.merge_right, List.merge_right]
        | cons z zs =>
          have hz : z ∈ y :: ys := (List.mem_filter.mp (hfilter ▸ List.mem_cons_self)).1
          have hxz : le x z = true := by
            rcases List.mem_cons.mp hz with rfl | hz
            · exact hle
            · exact htrans x y z hle (hy z hz)
          rw [List.cons_merge_cons_pos _ _ _ hxz]
      case isFalse hle =>
        rw [List.filter_cons, List.filter_cons, ihy hsorted]
        split
        · rw [List.cons_merge_cons_neg _ _ _ hle]
        · rfl

theorem filterMap_input_timeline :
    (timeline period horizon start inputs).filterMap Occasion.input? = inputs := by
  unfold timeline
  rw [filterMap_merge]
  · simp [List.filterMap_map, Function.comp_def, Occasion.ofInput, Occasion.input?]
  · intro x hx
    obtain ⟨time, -, rfl⟩ := List.mem_map.mp hx
    rfl

private theorem timeline_filter (hsorted : inputs.Pairwise fun x y => x.1 ≤ y.1)
    (p : Nat × Input → Bool) :
    timeline period horizon start (inputs.filter p) =
      (timeline period horizon start inputs).filter fun o => (o.input?.map p).getD true := by
  unfold timeline
  rw [filter_merge]
  · simp [List.filter_map, Function.comp_def, Occasion.ofInput, Occasion.input?]
  · intro a b c hab hbc
    simp only [decide_eq_true_eq] at hab hbc ⊢
    exact Nat.le_trans hab hbc
  · intro x hx
    obtain ⟨time, -, rfl⟩ := List.mem_map.mp hx
    rfl
  · rw [List.pairwise_map]
    refine hsorted.imp fun {x y} hxy => ?_
    show decide (x.1 ≤ y.1) = true
    exact decide_eq_true hxy

/-! ## One call after another -/

section Calls

variable {epoch : Nat} {r : Replay} {x : Nat × Input}

theorem Replay.clear_of_forall
    (h : ∀ time ∈ tickTimes period horizon start, ∀ x ∈ inputs, x.1 ≠ time) :
    r.Clear epoch (timeline period horizon start inputs) inputs := by
  intro earlier time later heq _ x hx
  have hmem : Occasion.tick time ∈ timeline period horizon start inputs := by simp [heq]
  rcases List.mem_merge.mp hmem with htick | hinput
  · obtain ⟨time', htime', htick⟩ := List.mem_map.mp htick
    cases htick
    exact h time htime' x hx
  · obtain ⟨y, -, hy⟩ := List.mem_map.mp hinput
    cases hy

theorem Replay.run_cons_input (hperiod : 0 < period) (h : x.1 < start + period) :
    r.run epoch period horizon start (x :: inputs) =
      (r.take x.2).run epoch period horizon start inputs := by
  unfold Replay.run
  rw [timeline_cons_input hperiod h]
  rfl

theorem Replay.Clear.cons_input (hperiod : 0 < period) (h : x.1 < start + period)
    (hclear : r.Clear epoch (timeline period horizon start (x :: inputs)) (x :: inputs)) :
    (r.take x.2).Clear epoch (timeline period horizon start inputs) inputs := by
  rw [timeline_cons_input hperiod h] at hclear
  exact hclear.tail fun y hy => List.mem_cons_of_mem x hy

theorem Replay.run_cons_tick (hperiod : 0 < period) (hle : start + period ≤ horizon)
    (h : ∀ x ∈ inputs, start + period ≤ x.1) :
    r.run epoch period horizon start inputs =
      (r.perform epoch (.tick (start + period))).run epoch period horizon (start + period)
        inputs := by
  unfold Replay.run
  rw [timeline_cons_tick hperiod hle h]
  rfl

theorem Replay.Clear.cons_tick (hperiod : 0 < period) (hle : start + period ≤ horizon)
    (h : ∀ x ∈ inputs, start + period ≤ x.1)
    (hclear : r.Clear epoch (timeline period horizon start inputs) inputs) :
    (r.perform epoch (.tick (start + period))).Clear epoch
      (timeline period horizon (start + period) inputs) inputs := by
  rw [timeline_cons_tick hperiod hle h] at hclear
  exact hclear.tail fun y hy => hy

end Calls

end Timeline

/-! ## After the stop -/

namespace Replay

variable {epoch : Nat} {r : Replay}

theorem perform_of_ended (h : r.ended.isSome) (o : Occasion) :
    (r.perform epoch o).aggregator = r.aggregator ∧ (r.perform epoch o).ended = r.ended := by
  obtain ⟨how, hhow⟩ := Option.isSome_iff_exists.mp h
  cases o with
  | tick time => simp [perform, tick, h]
  | input time input =>
    cases input with
    | report report => simp [perform, take, hhow]
    | close => exact ⟨rfl, rfl⟩
    | goOn => exact ⟨rfl, rfl⟩
    | stop => simp [perform, take, hhow]
    | drop => simp [perform, take, hhow]

theorem foldl_perform_of_ended (h : r.ended.isSome) (occasions : List Occasion) :
    occasions.foldl (perform epoch) r =
      (occasions.filterMap Occasion.input?).foldl (fun r x => r.take x.2) r := by
  induction occasions generalizing r with
  | nil => rfl
  | cons o occasions ih =>
    have hended : (r.perform epoch o).ended.isSome := by rw [(perform_of_ended h o).2, h]
    rw [List.foldl_cons, ih hended]
    cases o with
    | tick time =>
      rw [List.filterMap_cons_none rfl]
      simp [perform, tick, h]
    | input time input => rfl

theorem take_report_of_ended (h : r.ended.isSome) (report : Report) :
    r.take (.report report) = { r with delivered := r.delivered ++ [false] } := by
  obtain ⟨how, hhow⟩ := Option.isSome_iff_exists.mp h
  simp [take, hhow]

theorem run_cons_of_ended {period horizon start : Nat} {x : Nat × Input}
    {inputs : List (Nat × Input)} (h : r.ended.isSome) :
    r.run epoch period horizon start (x :: inputs) =
      (r.take x.2).run epoch period horizon start inputs := by
  have hended : (r.take x.2).ended.isSome := by
    have htake : (r.take x.2).ended = r.ended :=
      (@perform_of_ended epoch r h (.input x.1 x.2)).2
    rw [htake, h]
  unfold run
  rw [foldl_perform_of_ended h, foldl_perform_of_ended hended, filterMap_input_timeline,
    filterMap_input_timeline, List.foldl_cons]

theorem delivered_foldl_of_ended (h : r.ended.isSome) (occasions : List Occasion) :
    (occasions.foldl (perform epoch) r).delivered =
      r.delivered ++ List.replicate (occasions.countP (·.kind? = some .report)) false := by
  induction occasions generalizing r with
  | nil => simp
  | cons o occasions ih =>
    have hended : (r.perform epoch o).ended.isSome := by rw [(perform_of_ended h o).2, h]
    rw [List.foldl_cons, ih hended, List.countP_cons]
    by_cases hreport : o.kind? = some .report
    · obtain ⟨time, report, rfl⟩ : ∃ time report, o = .input time (.report report) := by
        cases o with
        | tick time => cases hreport
        | input time input =>
          cases input with
          | report report => exact ⟨time, report, rfl⟩
          | _ => cases hreport
      have htake : (r.perform epoch (.input time (.report report))).delivered =
          r.delivered ++ [false] := by
        rw [perform, take_report_of_ended h]
      rw [htake, List.append_assoc, if_pos (by simpa using hreport), List.replicate_succ]
      rfl
    · have hsame : (r.perform epoch o).delivered = r.delivered := by
        cases o with
        | tick time => exact delivered_perform_tick r epoch time
        | input time input =>
          exact delivered_take fun hkind => hreport (congrArg some hkind)
      rw [hsame, if_neg (by simpa using hreport), Nat.add_zero]

/-! ## What changes nothing -/

/-- The same aggregator, stopped in the same way, and the same outcomes of reports. -/
structure Same (s r : Replay) : Prop where
  aggregator : s.aggregator = r.aggregator
  ended : s.ended = r.ended
  delivered : s.delivered = r.delivered

private theorem Same.perform {s : Replay} (h : Same s r) (o : Occasion)
    (hopen : o.kind? = some .report → s.reportsOpen = r.reportsOpen) :
    Same (s.perform epoch o) (r.perform epoch o) := by
  obtain ⟨aggregator, opened, ended, delivered⟩ := s
  obtain ⟨aggregator', opened', ended', delivered'⟩ := r
  obtain ⟨rfl, rfl, rfl⟩ := h
  cases o with
  | tick time =>
    simp only [Replay.perform, tick]
    split <;> exact ⟨rfl, rfl, rfl⟩
  | input time input =>
    cases input with
    | report report =>
      cases hopen rfl
      exact ⟨rfl, rfl, rfl⟩
    | close => exact ⟨rfl, rfl, rfl⟩
    | goOn => exact ⟨rfl, rfl, rfl⟩
    | stop => exact ⟨rfl, rfl, rfl⟩
    | drop => exact ⟨rfl, rfl, rfl⟩

private theorem reportsOpen_perform {o : Occasion} (h : o.kind? ≠ some .close) :
    (r.perform epoch o).reportsOpen = r.reportsOpen := by
  cases o with
  | tick time =>
    show (r.tick _ _).reportsOpen = r.reportsOpen
    unfold tick
    split <;> rfl
  | input time input =>
    cases input with
    | report report =>
      simp only [perform, take]
      split <;> rfl
    | close => exact absurd rfl h
    | goOn => rfl
    | stop => rfl
    | drop => rfl

private theorem Same.foldl_filter {s : Replay} (h : Same s r) (occasions : List Occasion)
    (hopen : s.reportsOpen = r.reportsOpen ∨ ∀ o ∈ occasions, o.kind? ≠ some .report)
    (hlast : occasions.Pairwise fun o o' => o.kind? = some .close → o'.kind? ≠ some .report) :
    Same
      ((occasions.filter fun o => o.kind? ≠ some .close ∧ o.kind? ≠ some .goOn).foldl
        (Replay.perform epoch) s)
      (occasions.foldl (Replay.perform epoch) r) := by
  -- once the reports are closed on one side only, no report comes that could tell the sides apart
  induction occasions generalizing s r with
  | nil => exact h
  | cons o occasions ih =>
    obtain ⟨hlater, hlast⟩ := List.pairwise_cons.mp hlast
    rw [List.foldl_cons]
    by_cases hclose : o.kind? = some .close
    · rw [List.filter_cons_of_neg (by simp [hclose])]
      refine ih ?_ (.inr fun o' ho' => hlater o' ho' hclose) hlast
      obtain ⟨time, rfl⟩ : ∃ time, o = .input time .close := by
        cases o with
        | tick time => cases hclose
        | input time input => cases input with
          | close => exact ⟨time, rfl⟩
          | _ => cases hclose
      exact ⟨h.aggregator, h.ended, h.delivered⟩
    have hopen' : (s.reportsOpen = r.reportsOpen) ∨ ∀ o' ∈ occasions, o'.kind? ≠ some .report :=
      hopen.imp id fun hnone o' ho' => hnone o' (List.mem_cons_of_mem o ho')
    by_cases hgoOn : o.kind? = some .goOn
    · rw [List.filter_cons_of_neg (by simp [hgoOn])]
      refine ih ?_ ?_ hlast
      all_goals
        obtain ⟨time, rfl⟩ : ∃ time, o = .input time .goOn := by
          cases o with
          | tick time => cases hgoOn
          | input time input => cases input with
            | goOn => exact ⟨time, rfl⟩
            | _ => cases hgoOn
      · exact h
      · exact hopen'
    · rw [List.filter_cons_of_pos (by simp [hclose, hgoOn]), List.foldl_cons]
      refine ih (h.perform o fun hreport => ?_) ?_ hlast
      · rcases hopen with hsame | hnone
        · exact hsame
        · exact absurd hreport (hnone o List.mem_cons_self)
      · rw [reportsOpen_perform hclose, reportsOpen_perform hclose]
        exact hopen'

theorem same_run_filter {period horizon start : Nat} {inputs : List (Nat × Input)}
    (hsorted : inputs.Pairwise fun x y => x.1 ≤ y.1)
    (hlast : inputs.Pairwise fun x y => x.2.kind = .close → y.2.kind ≠ .report) :
    Same
      (r.run epoch period horizon start
        (inputs.filter fun x => x.2.kind ≠ .close ∧ x.2.kind ≠ .goOn))
      (r.run epoch period horizon start inputs) := by
  unfold run
  rw [timeline_filter hsorted]
  have hfilter : (fun o : Occasion => (o.input?.map fun x : Nat × Input =>
      decide (x.2.kind ≠ .close ∧ x.2.kind ≠ .goOn)).getD true) =
      fun o => decide (o.kind? ≠ some .close ∧ o.kind? ≠ some .goOn) := by
    funext o
    cases o with
    | tick time => rfl
    | input time input => cases input <;> rfl
  rw [hfilter]
  refine Same.foldl_filter ⟨rfl, rfl, rfl⟩ _ (.inl rfl) ?_
  rw [← @filterMap_input_timeline period horizon start inputs, List.pairwise_filterMap] at hlast
  refine hlast.imp fun {o o'} hpair hclose hreport => ?_
  obtain ⟨x, hx, hxkind⟩ := Option.map_eq_some_iff.mp hclose
  obtain ⟨y, hy, hykind⟩ := Option.map_eq_some_iff.mp hreport
  exact hpair x hx y hy hxkind hykind

end Replay

end FleetTelemetry
