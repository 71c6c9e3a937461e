import FleetTelemetry.Collection.Aggregator
import FleetTelemetry.Proofs.Collection.Logs
import FleetTelemetry.Proofs.Fleet.Averaging
import FleetTelemetry.Proofs.Fleet.History

/-!
# Calls of an aggregator

An aggregator is called with reports and ticks in any order. The state after some calls depends on
the reports among them only, and a log on the ticks at which the state was warm.
-/

namespace FleetTelemetry.Aggregator

open Diagnostics

/-- A call of an aggregator. -/
inductive Call where
  | apply (report : Report)
  | tick (elapsed : Span) (timestamp : UInt64)

def perform (a : Aggregator) : Call → Aggregator
  | .apply report => a.apply report
  | .tick elapsed timestamp => (a.tick elapsed timestamp).2.1

def performAll (a : Aggregator) (calls : List Call) : Aggregator :=
  calls.foldl perform a

/-- What the ticks among some calls come to, with what they tell. -/
def answers (a : Aggregator) : List Call → List (TickOutcome × List Event)
  | [] => []
  | .apply report :: calls => (a.apply report).answers calls
  | .tick elapsed timestamp :: calls =>
    let (outcome, next, events) := a.tick elapsed timestamp
    (outcome, events) :: next.answers calls

/-- What the ticks among some calls come to. -/
def outcomes (a : Aggregator) (calls : List Call) : List TickOutcome :=
  (a.answers calls).map Prod.fst

def Call.report? : Call → Option Report
  | .apply report => some report
  | .tick .. => none

def Call.isTick : Call → Bool
  | .apply _ => false
  | .tick .. => true

def Call.keeps (p : Report → Bool) : Call → Bool
  | .apply report => p report
  | .tick .. => true

/-- The reports among some calls, in order. -/
def reportsIn (calls : List Call) : List Report := calls.filterMap Call.report?

@[simp] theorem reportsIn_apply (report : Report) (calls : List Call) :
    reportsIn (.apply report :: calls) = report :: reportsIn calls := rfl

@[simp] theorem reportsIn_tick (elapsed : Span) (timestamp : UInt64) (calls : List Call) :
    reportsIn (.tick elapsed timestamp :: calls) = reportsIn calls := rfl

/-- A tick among some calls: the time that it writes and the reports that came before it. -/
structure TickPoint where
  timestamp : UInt64
  before : List Report

/-- The ticks among some calls that come after earlier reports. -/
def ticksAfter : List Report → List Call → List TickPoint
  | _, [] => []
  | before, .apply report :: calls => ticksAfter (before ++ [report]) calls
  | before, .tick _ timestamp :: calls => ⟨timestamp, before⟩ :: ticksAfter before calls

/-- The ticks among some calls that come after some node's second report. -/
def warmTicks (calls : List Call) : List TickPoint :=
  (ticksAfter [] calls).filter fun tick => Warm tick.before

/-- The last snapshot that a node has reported before a tick; zeros if there is none. -/
def TickPoint.lastSample (tick : TickPoint) (node : String) : Snapshot :=
  (snapshotsOf tick.before node).getLast?.getD {}

/-- The row that a tick writes for a node. -/
def TickPoint.row (tick : TickPoint) (node : String) : LogRow :=
  { timestamp := tick.timestamp, sample := tick.lastSample node }

/-! ## The ticks among some calls -/

theorem ticksAfter_append (before : List Report) (calls calls' : List Call) :
    ticksAfter before (calls ++ calls') =
      ticksAfter before calls ++ ticksAfter (before ++ reportsIn calls) calls' := by
  induction calls generalizing before with
  | nil => simp [ticksAfter, reportsIn]
  | cons call calls ih =>
    cases call with
    | apply report => simp [ticksAfter, ih]
    | tick elapsed timestamp => simp [ticksAfter, ih]

theorem length_ticksAfter (before : List Report) (calls : List Call) :
    (ticksAfter before calls).length = (calls.filter Call.isTick).length := by
  induction calls generalizing before with
  | nil => rfl
  | cons call calls ih =>
    cases call with
    | apply report => exact ih _
    | tick elapsed timestamp => exact congrArg (· + 1) (ih before)

theorem ticksAfter_filter_keeps (p : Report → Bool) (before : List Report) (calls : List Call) :
    ticksAfter (before.filter p) (calls.filter (Call.keeps p)) =
      (ticksAfter before calls).map fun tick => { tick with before := tick.before.filter p } := by
  induction calls generalizing before with
  | nil => rfl
  | cons call calls ih =>
    cases call with
    | tick elapsed timestamp => exact congrArg (_ :: ·) (ih before)
    | apply report =>
      have hstep := ih (before ++ [report])
      rw [List.filter_append] at hstep
      by_cases h : p report = true
      · simpa [Call.keeps, h, ticksAfter] using hstep
      · simpa [Call.keeps, h, ticksAfter] using hstep

theorem map_before_ticksAfter {calls calls' : List Call} (before : List Report)
    (h : calls.map Call.report? = calls'.map Call.report?) :
    (ticksAfter before calls).map (·.before) = (ticksAfter before calls').map (·.before) := by
  induction calls generalizing before calls' with
  | nil =>
    rw [List.map_nil, eq_comm, List.map_eq_nil_iff] at h
    rw [h]
  | cons call calls ih =>
    cases calls' with
    | nil => cases h
    | cons call' calls' =>
      obtain ⟨hcall, hrest⟩ := List.cons.inj h
      cases call <;> cases call' <;> cases hcall
      · exact ih _ hrest
      · exact congrArg (before :: ·) (ih before hrest)

theorem reportsIn_filter_keeps (p : Report → Bool) (calls : List Call) :
    reportsIn (calls.filter (Call.keeps p)) = (reportsIn calls).filter p := by
  induction calls with
  | nil => rfl
  | cons call calls ih =>
    cases call with
    | tick elapsed timestamp => exact ih
    | apply report => by_cases h : p report = true <;> simp [Call.keeps, h, ih]

private theorem isPrefix_of_mem_ticksAfter {before : List Report} {calls : List Call}
    {tick : TickPoint}
    (h : tick ∈ ticksAfter before calls) : before <+: tick.before := by
  induction calls generalizing before with
  | nil => simp [ticksAfter] at h
  | cons call calls ih =>
    cases call with
    | apply report => exact (List.prefix_append before [report]).trans (ih h)
    | tick elapsed timestamp =>
      rcases List.mem_cons.mp h with rfl | h
      · exact List.prefix_rfl
      · exact ih h

theorem pairwise_ticksAfter (before : List Report) (calls : List Call) :
    (ticksAfter before calls).Pairwise fun tick later => tick.before <+: later.before := by
  induction calls generalizing before with
  | nil => exact .nil
  | cons call calls ih =>
    cases call with
    | apply report => exact ih _
    | tick elapsed timestamp => exact .cons (fun _ h => isPrefix_of_mem_ticksAfter h) (ih before)

theorem warm_of_isPrefix {before after : List Report} (hp : before <+: after) (h : Warm before) :
    Warm after := by
  obtain ⟨rest, rfl⟩ := hp
  exact h.append rest

/-! ## The aggregator after some calls -/

/-- The aggregator has taken in some reports, its divisors are checked, and no writer fails. -/
structure Steady (a : Aggregator) (before : List Report) : Prop where
  tracks : a.state.Tracks before
  checked : a.divisors.Checked
  unfailing : a.logs.Unfailing

theorem tick_state (a : Aggregator) (elapsed : Span) (timestamp : UInt64) :
    (a.tick elapsed timestamp).2.1.state = a.state ∧
      (a.tick elapsed timestamp).2.1.roster = a.roster ∧
      (a.tick elapsed timestamp).2.1.divisors = a.divisors ∧
      (a.tick elapsed timestamp).2.1.interval = a.interval := by
  unfold tick
  split
  · exact ⟨rfl, rfl, rfl, rfl⟩
  · split
    · exact ⟨rfl, rfl, rfl, rfl⟩
    · split
      · exact ⟨rfl, rfl, rfl, rfl⟩
      · exact ⟨rfl, rfl, rfl, rfl⟩
      · unfold draw
        split <;> exact ⟨rfl, rfl, rfl, rfl⟩

private theorem tick_of_cold {a : Aggregator} (h : a.state.isWarm = false) (elapsed : Span)
    (timestamp : UInt64) : (a.tick elapsed timestamp).2.1 = a := by
  simp [tick, h]

theorem tick_of_warm {a : Aggregator} (h : a.state.isWarm = true) {elapsed : Span} {frame : Frame}
    (hframe : Frame.ofState a.divisors a.roster a.state elapsed = .ok frame) (timestamp : UInt64) :
    a.tick elapsed timestamp =
      match a.logs.writeTick timestamp a.state.current with
      | (.failed cause, logs) => (.failed (.log cause), { a with logs }, [])
      | (.crashed, logs) => (.crashed, { a with logs }, [])
      | (.written, logs) => draw { a with logs } frame := by
  simp only [tick, h, hframe]
  rfl

theorem logs_draw (a : Aggregator) (frame : Frame) : (a.draw frame).2.1.logs = a.logs := by
  unfold draw
  split <;> rfl

private theorem logs_tick_of_warm {a : Aggregator} (h : a.state.isWarm = true)
    (hd : a.divisors.Checked)
    (hl : a.logs.Unfailing) (elapsed : Span) (timestamp : UInt64) :
    (a.tick elapsed timestamp).2.1.logs = (a.logs.writeTick timestamp a.state.current).2 := by
  obtain ⟨frame, hframe⟩ := Frame.ofState_eq_ok hd a.roster a.state elapsed
  have hwrite : a.logs.writeTick timestamp a.state.current =
      (.written, (a.logs.writeTick timestamp a.state.current).2) :=
    Prod.ext (NodeLogs.writeTick_of_unfailing hl timestamp a.state.current).1 rfl
  rw [tick_of_warm h hframe, hwrite]
  exact logs_draw _ frame

theorem Steady.perform {a : Aggregator} {before : List Report} (h : a.Steady before) (call : Call) :
    (a.perform call).Steady (before ++ call.report?.toList) := by
  cases call with
  | apply report => exact ⟨h.tracks.apply report, h.checked, h.unfailing⟩
  | tick elapsed timestamp =>
    obtain ⟨hstate, -, hdivisors, -⟩ := tick_state a elapsed timestamp
    refine ⟨?_, hdivisors ▸ h.checked, ?_⟩
    · change (a.tick elapsed timestamp).2.1.state.Tracks (before ++ [])
      rw [hstate, List.append_nil]
      exact h.tracks
    cases hwarm : a.state.isWarm with
    | false =>
      rw [Aggregator.perform, tick_of_cold hwarm]
      exact h.unfailing
    | true =>
      rw [Aggregator.perform, logs_tick_of_warm hwarm h.checked h.unfailing]
      exact h.unfailing.writeTick timestamp a.state.current

theorem Steady.performAll {a : Aggregator} {before : List Report} (h : a.Steady before)
    (calls : List Call) : (a.performAll calls).Steady (before ++ reportsIn calls) := by
  induction calls generalizing a before with
  | nil => simpa [Aggregator.performAll, reportsIn] using h
  | cons call calls ih =>
    have hrest := ih (h.perform call)
    rw [List.append_assoc] at hrest
    cases call with
    | apply report => exact hrest
    | tick elapsed timestamp => exact hrest

/-- The rows of a node's log. -/
def rowsOf (a : Aggregator) (node : String) : Option (List LogRow) :=
  a.logs[node]?.map fun log => log.rows.toList

private theorem Steady.rowsOf_perform {a : Aggregator} {before : List Report} (h : a.Steady before)
    (call : Call) (node : String) :
    (a.perform call).rowsOf node = (a.rowsOf node).map
      (· ++ ((ticksAfter before [call]).filter fun tick => Warm tick.before).map (·.row node)) := by
  cases call with
  | apply report =>
    simp [Aggregator.perform, Aggregator.apply, rowsOf, ticksAfter, Function.comp_def]
  | tick elapsed timestamp =>
    cases hwarm : a.state.isWarm with
    | false =>
      have hcold : ¬ Warm before := by
        rw [← h.tracks.isWarm_iff, hwarm]
        decide
      rw [Aggregator.perform, tick_of_cold hwarm]
      simp [ticksAfter, hcold]
    | true =>
      have hw : Warm before := h.tracks.isWarm_iff.mp hwarm
      have hrow : LogRow.ofNode timestamp a.state.current node =
          (TickPoint.mk timestamp before).row node := by
        simp [LogRow.ofNode, TickPoint.row, TickPoint.lastSample, h.tracks.current]
      unfold rowsOf
      rw [Aggregator.perform, logs_tick_of_warm hwarm h.checked h.unfailing,
        (NodeLogs.writeTick_of_unfailing h.unfailing timestamp a.state.current).2, hrow]
      simp [ticksAfter, hw, Function.comp_def]

theorem Steady.rowsOf_performAll {a : Aggregator} {before : List Report} (h : a.Steady before)
    (calls : List Call) (node : String) :
    (a.performAll calls).rowsOf node = (a.rowsOf node).map
      (· ++ ((ticksAfter before calls).filter fun tick => Warm tick.before).map (·.row node)) := by
  induction calls generalizing a before with
  | nil => simp [Aggregator.performAll, ticksAfter]
  | cons call calls ih =>
    change ((a.perform call).performAll calls).rowsOf node = _
    have hsplit : ticksAfter before (call :: calls) = ticksAfter before [call] ++
        ticksAfter (before ++ call.report?.toList) calls := by
      have happend := ticksAfter_append before [call] calls
      cases call with
      | apply report => exact happend
      | tick elapsed timestamp => exact happend
    rw [ih (h.perform call), h.rowsOf_perform call, hsplit]
    simp [Function.comp_def]

end FleetTelemetry.Aggregator
