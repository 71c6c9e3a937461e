import FleetTelemetry.Collection.Schedule
import FleetTelemetry.Proofs.Collection.Moves
import FleetTelemetry.Proofs.Collection.Replay
import FleetTelemetry.Proofs.Collection.Turns

/-!
# Prompt runs

A prompt run is one in which handling an event takes no time: time passes only when no task can do
anything, and no further than to the next input or to the next moment at which a task goes on by
itself. Which of several things that are possible at one instant comes first is left open.
-/

namespace FleetTelemetry.World

/-- An aggregator's task before it begins, with both ends of its report channel in use. -/
def launch (epoch clockEnd start : Nat) (a : Aggregator) : World :=
  { now := start, epoch, clockEnd, sending := true, aggregator := some { aggregator := a } }

/-- One turn of a prompt run: a world and the inputs that are still to come to it, what becomes of
reports that are sent, and the world and the inputs after it. -/
inductive Turn (horizon : Nat) :
    World → List (Nat × Input) → List Bool → World → List (Nat × Input) → Prop where
  /-- A task makes a move. -/
  | act {w w' : World} {inputs : List (Nat × Input)} {m : Move} (hm : m ∈ w.ownMoves)
      (hstep : w.step m = some w') : Turn horizon w inputs [] w' inputs
  /-- Something other than a report comes at its time. -/
  | happen {w : World} {inputs : List (Nat × Input)} {input : Input}
      (hkind : input.kind ≠ .report) :
      Turn horizon w ((w.now, input) :: inputs) [] (w.happen input.move) inputs
  /-- A report that was sent finds room in the channel. -/
  | deliver {w w' : World} {inputs : List (Nat × Input)} {report : Report}
      (hstep : w.step (.send report) = some w') :
      Turn horizon w ((w.now, .report report) :: inputs) [true] w' inputs
  /-- A report cannot be sent because one of the ends of the channel is gone. -/
  | refuse {w : World} {inputs : List (Nat × Input)} {report : Report}
      (hgone : w.sending = false ∨ w.receiving = false) :
      Turn horizon w ((w.now, .report report) :: inputs) [false] w inputs
  /-- Time passes when no task can do anything. -/
  | pass {w : World} {inputs : List (Nat × Input)} {time : Nat} (hidle : w.advance? = none)
      (hlater : w.now < time) (hhorizon : time ≤ horizon)
      (hinput : ∀ x ∈ inputs.head?, time ≤ x.1) (hwake : ∀ wake ∈ w.wakeTime, time ≤ wake) :
      Turn horizon w inputs [] { w with now := time } inputs

/-- A prompt run until a horizon: which of the reports were delivered, and the world at its end. -/
inductive PromptRun (horizon : Nat) : World → List (Nat × Input) → List Bool → World → Prop where
  | done {w : World} (hidle : w.advance? = none) (hnow : w.now = horizon) :
      PromptRun horizon w [] [] w
  | turn {w w' final : World} {inputs inputs' : List (Nat × Input)} {delivered more : List Bool}
      (hturn : Turn horizon w inputs delivered w' inputs')
      (hrest : PromptRun horizon w' inputs' more final) :
      PromptRun horizon w inputs (delivered ++ more) final

theorem ownMoves_of_alone {w : World} (halone : w.pollers = []) : w.ownMoves = aggregatorMoves := by
  simp [ownMoves, halone]

theorem advance?_eq_none_iff {w : World} (halone : w.pollers = []) :
    w.advance? = none ↔ ∀ m ∈ aggregatorMoves, w.step m = none := by
  unfold advance?
  rw [List.findSome?_eq_none_iff, ownMoves_of_alone halone]

theorem now_of_step {w w' : World} {m : Move} (hm : m ∈ aggregatorMoves)
    (hstep : w.step m = some w') : w'.now = w.now := by
  simp only [aggregatorMoves, List.mem_cons, List.not_mem_nil, or_false] at hm
  rcases hm with rfl | rfl | rfl | rfl | rfl | rfl
  · obtain ⟨t, t', events, -, -, rfl⟩ := step_startAggregator_iff.mp hstep
    simp
  · obtain ⟨t, t', report, -, -, -, rfl⟩ := step_receive_iff.mp hstep
    simp
  · obtain ⟨t, t', events, -, -, -, -, rfl⟩ := step_closeReports_iff.mp hstep
    simp
  · obtain ⟨t, t', events, -, -, rfl⟩ := step_tick_iff.mp hstep
    simp
  · obtain ⟨t, t', events, -, -, rfl⟩ := step_noticeAggregator_iff.mp hstep
    simp
  · obtain ⟨t, how, -, -, -, rfl⟩ := step_finish_iff.mp hstep
    rfl

/-- How much a task in some phase can still do at one instant: its phases, and whether reports are
open, a tick is due, a setting of the signal is unseen, a report is in the channel and the run has
not returned. -/
def hasteOf (phase : AggregatorPhase) (opened due unseen full unfinished : Bool) : Nat :=
  (match phase with
    | .created => 2
    | .running => 1
    | .ended _ => 0) +
  opened.toNat + due.toNat + unseen.toNat + full.toNat + unfinished.toNat

/-- How much an aggregator's task and its run can still do at one instant. -/
def haste (w : World) : Nat :=
  match w.aggregator with
  | none => 0
  | some t => hasteOf t.phase t.reportsOpen (decide (t.due ≤ w.now))
      (decide (t.seen < w.shutdown.version)) w.slot.isSome w.result.isNone

theorem haste_tell (w : World) (events : List Diagnostics.Event) :
    (w.tell events).haste = w.haste := rfl

theorem haste_eq {w : World} {t : AggregatorTask} (h : w.aggregator = some t) :
    w.haste = hasteOf t.phase t.reportsOpen (decide (t.due ≤ w.now))
      (decide (t.seen < w.shutdown.version)) w.slot.isSome w.result.isNone := by
  simp [haste, h]

end FleetTelemetry.World
