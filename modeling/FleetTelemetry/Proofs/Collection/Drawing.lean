import FleetTelemetry.Proofs.Collection.Calls
import Mathlib.Data.List.Forall2

/-!
# What drawing changes

A tick decides on everything but the picture before it draws. So runs whose dashboards do not crash
come to the same, whatever dashboards they have, and a dashboard is left by a run as it is left by
drawing the frames of this run one after another.
-/

namespace FleetTelemetry

open Diagnostics

def TickOutcome.frame? : TickOutcome → Option Frame
  | .frame found => some found
  | _ => none

namespace DashboardPanel

/-- Drawing never ends the program. -/
def Enduring (panel : DashboardPanel) : Prop := ∀ attempt, panel.outcomeAt attempt ≠ .crashed

/-- A dashboard that fails at some attempts and shows the frames of all others. -/
def flaky (fails : Nat → Option FileFault) : DashboardPanel :=
  { outcomeAt := fun attempt => (fails attempt).elim .drawn .failed }

def drawAll (panel : DashboardPanel) (frames : List Frame) : DashboardPanel :=
  frames.foldl (fun panel frame => (panel.draw frame).2) panel

def warnings (panel : DashboardPanel) : List Event :=
  match panel.outcomeAt panel.attempts with
  | .failed fault => [Aggregator.drawFailedEvent fault]
  | _ => []

variable {panel : DashboardPanel}

private theorem outcomeAt_draw (panel : DashboardPanel) (frame : Frame) :
    (panel.draw frame).2.outcomeAt = panel.outcomeAt := by
  unfold draw
  split <;> rfl

private theorem attempts_draw (panel : DashboardPanel) (frame : Frame) :
    (panel.draw frame).2.attempts = panel.attempts + 1 := by
  unfold draw
  split <;> rfl

private theorem shown_draw (panel : DashboardPanel) (frame : Frame) :
    (panel.draw frame).2.shown.toList = panel.shown.toList ++
      if panel.outcomeAt panel.attempts = .drawn then [frame] else [] := by
  unfold draw
  split
  case h_1 hdrawn => simp [hdrawn]
  case h_2 hnot =>
    have hnot : panel.outcomeAt panel.attempts ≠ .drawn := hnot
    simp [hnot]

private theorem outcomeAt_drawAll (panel : DashboardPanel) (frames : List Frame) :
    (panel.drawAll frames).outcomeAt = panel.outcomeAt := by
  induction frames generalizing panel with
  | nil => rfl
  | cons frame frames ih => exact (ih _).trans (outcomeAt_draw panel frame)

private theorem drawAll_append (panel : DashboardPanel) (frames frames' : List Frame) :
    panel.drawAll (frames ++ frames') = (panel.drawAll frames).drawAll frames' :=
  List.foldl_append

private theorem Enduring.drawAll (h : panel.Enduring) (frames : List Frame) :
    (panel.drawAll frames).Enduring := by
  intro attempt
  rw [outcomeAt_drawAll]
  exact h attempt

private theorem enduring_flaky (fails : Nat → Option FileFault) : (flaky fails).Enduring := by
  intro attempt
  cases h : fails attempt <;> simp [flaky, h]

private theorem shown_drawAll (panel : DashboardPanel) (frames : List Frame) :
    (panel.drawAll frames).shown.toList = panel.shown.toList ++
      ((frames.zipIdx panel.attempts).filter fun x => panel.outcomeAt x.2 = .drawn).map
        Prod.fst := by
  induction frames generalizing panel with
  | nil => simp [drawAll]
  | cons frame frames ih =>
    change ((panel.draw frame).2.drawAll frames).shown.toList = _
    rw [ih, shown_draw, attempts_draw, outcomeAt_draw, List.zipIdx_cons, List.filter_cons]
    by_cases h : panel.outcomeAt panel.attempts = .drawn <;> simp [h]

private theorem shown_drawAll_flaky (fails : Nat → Option FileFault) (frames : List Frame) :
    ((flaky fails).drawAll frames).shown.toList =
      (frames.zipIdx.filter fun x => (fails x.2).isNone).map Prod.fst := by
  rw [shown_drawAll]
  refine congrArg (List.map Prod.fst) (List.filter_congr fun x _ => ?_)
  cases h : fails x.2 <;> simp [flaky, h]

end DashboardPanel

namespace Aggregator

def withPanel (a : Aggregator) (panel : DashboardPanel) : Aggregator := { a with panel }

/-- The frames that are made by some calls, each of which is to be drawn. -/
def frames (a : Aggregator) (calls : List Call) : List Frame :=
  (a.outcomes calls).filterMap TickOutcome.frame?

/-- An answer that differs from another one at most in the warning that a frame was not drawn. -/
def SameButWarning (answer warned : TickOutcome × List Event) : Prop :=
  warned.1 = answer.1 ∧
    (warned.2 = answer.2 ∨ ∃ fault, warned.2 = answer.2 ++ [drawFailedEvent fault])

variable {a : Aggregator} {panel panel' : DashboardPanel}

/-! ## One tick -/

private theorem draw_withPanel (h : panel.Enduring) (a : Aggregator) (frame : Frame) :
    (a.withPanel panel).draw frame =
      (.frame frame, a.withPanel (panel.draw frame).2, panel.warnings) := by
  have hcrash := h panel.attempts
  cases houtcome : panel.outcomeAt panel.attempts with
  | drawn => simp [draw, withPanel, DashboardPanel.draw, DashboardPanel.warnings, houtcome]
  | failed fault => simp [draw, withPanel, DashboardPanel.draw, DashboardPanel.warnings, houtcome]
  | crashed => exact absurd houtcome hcrash

private theorem tick_withPanel (a : Aggregator) (elapsed : Span) (timestamp : UInt64) :
    ∃ (outcome : TickOutcome) (next : Aggregator) (events : List Event),
      ∀ panel : DashboardPanel, panel.Enduring →
        (a.withPanel panel).tick elapsed timestamp =
          (outcome, next.withPanel (panel.drawAll outcome.frame?.toList),
            events ++ outcome.frame?.toList.flatMap fun _ => panel.warnings) := by
  cases hwarm : a.state.isWarm with
  | false =>
    refine ⟨.idle, a, [skippedEvent], fun panel _ => ?_⟩
    simp [tick, withPanel, hwarm, TickOutcome.frame?, DashboardPanel.drawAll]
  | true =>
    cases hframe : Frame.ofState a.divisors a.roster a.state elapsed with
    | error cause =>
      refine ⟨.failed (.zeroDivisor cause), a, [], fun panel _ => ?_⟩
      simp [tick, withPanel, hwarm, hframe, TickOutcome.frame?, DashboardPanel.drawAll]
    | ok frame =>
      rcases hwrite : a.logs.writeTick timestamp a.state.current with ⟨- | cause | -, logs⟩
      case failed =>
        refine ⟨.failed (.log cause), { a with logs }, [], fun panel _ => ?_⟩
        simp [tick, withPanel, hwarm, hframe, hwrite, TickOutcome.frame?, DashboardPanel.drawAll]
      case crashed =>
        refine ⟨.crashed, { a with logs }, [], fun panel _ => ?_⟩
        simp [tick, withPanel, hwarm, hframe, hwrite, TickOutcome.frame?, DashboardPanel.drawAll]
      case written =>
        refine ⟨.frame frame, { a with logs }, [], fun panel hpanel => ?_⟩
        have htick : (a.withPanel panel).tick elapsed timestamp =
            (({ a with logs } : Aggregator).withPanel panel).draw frame := by
          simp [tick, withPanel, hwarm, hframe, hwrite]
        rw [htick, draw_withPanel hpanel]
        simp [TickOutcome.frame?, DashboardPanel.drawAll]

/-! ## Runs -/

/-- Runs with different dashboards come to the same and end in the same but for the dashboard, which
has then drawn the frames of the run. -/
theorem performAll_withPanel (a : Aggregator) (h : panel.Enduring) (h' : panel'.Enduring)
    (calls : List Call) :
    (a.withPanel panel').outcomes calls = (a.withPanel panel).outcomes calls ∧
      (a.withPanel panel').performAll calls = ((a.withPanel panel).performAll calls).withPanel
        (panel'.drawAll ((a.withPanel panel).frames calls)) := by
  induction calls generalizing a panel panel' with
  | nil => exact ⟨rfl, rfl⟩
  | cons call calls ih =>
    cases call with
    | apply report => exact ih (a.apply report) h h'
    | tick elapsed timestamp =>
      obtain ⟨outcome, next, events, htick⟩ := tick_withPanel a elapsed timestamp
      obtain ⟨houtcomes, hafter⟩ := ih next (h.drawAll outcome.frame?.toList)
        (h'.drawAll outcome.frame?.toList)
      constructor
      · simp only [outcomes, answers, htick panel h, htick panel' h', List.map_cons]
        exact congrArg (outcome :: ·) houtcomes
      · have hframes : (a.withPanel panel).frames (.tick elapsed timestamp :: calls) =
            outcome.frame?.toList ++
              (next.withPanel (panel.drawAll outcome.frame?.toList)).frames calls := by
          cases hframe : outcome.frame? <;> simp [frames, outcomes, answers, htick panel h, hframe]
        rw [hframes, DashboardPanel.drawAll_append]
        simpa only [performAll, List.foldl_cons, perform, htick panel h, htick panel' h']
          using hafter

private theorem answers_withPanel (a : Aggregator) (h : ∀ attempt, panel.outcomeAt attempt = .drawn)
    (h' : panel'.Enduring) (calls : List Call) :
    List.Forall₂ SameButWarning ((a.withPanel panel).answers calls)
      ((a.withPanel panel').answers calls) := by
  induction calls generalizing a panel panel' with
  | nil => exact .nil
  | cons call calls ih =>
    cases call with
    | apply report => exact ih (a.apply report) h h'
    | tick elapsed timestamp =>
      obtain ⟨outcome, next, events, htick⟩ := tick_withPanel a elapsed timestamp
      have hdrawn (frames : List Frame) (attempt : Nat) :
          (panel.drawAll frames).outcomeAt attempt = .drawn := by
        rw [DashboardPanel.outcomeAt_drawAll, h]
      have hquiet : panel.warnings = [] := by simp [DashboardPanel.warnings, h]
      have hrest := ih next (hdrawn outcome.frame?.toList) (h'.drawAll outcome.frame?.toList)
      have hpanel : panel.Enduring := fun attempt => by simp [h]
      simp only [answers, htick panel hpanel, htick panel' h', hquiet]
      refine .cons ⟨rfl, ?_⟩ hrest
      cases outcome.frame? with
      | none => exact .inl rfl
      | some frame =>
        cases houtcome : panel'.outcomeAt panel'.attempts with
        | drawn => exact .inl (by simp [DashboardPanel.warnings, houtcome])
        | failed fault => exact .inr ⟨fault, by simp [DashboardPanel.warnings, houtcome]⟩
        | crashed => exact absurd houtcome (h' _)

/-- Whatever draws fail, the run is the one in which every draw succeeds, but for what is shown and
for a warning at each failure. After any calls, from any state and with any logs, the state and the
logs are the same, and every tick on the way has come to the same frame or error. The dashboard on
which every draw succeeds has shown all frames, the other one all but those whose draw failed. -/
theorem failed_draws_change_only_what_is_shown (a : Aggregator) (fails : Nat → Option FileFault)
    (calls : List Call) :
    let bright := a.withPanel {}
    let dim := a.withPanel (.flaky fails)
    (dim.performAll calls).state = (bright.performAll calls).state ∧
    (dim.performAll calls).logs = (bright.performAll calls).logs ∧
    dim.performAll calls = (bright.performAll calls).withPanel (dim.performAll calls).panel ∧
    dim.outcomes calls = bright.outcomes calls ∧
    (bright.performAll calls).panel.shown.toList = bright.frames calls ∧
    (dim.performAll calls).panel.shown.toList =
      ((bright.frames calls).zipIdx.filter fun x => (fails x.2).isNone).map Prod.fst ∧
    List.Forall₂ SameButWarning (bright.answers calls) (dim.answers calls) := by
  intro bright dim
  have hbright : ({} : DashboardPanel).Enduring := fun _ => nofun
  have hdim := DashboardPanel.enduring_flaky fails
  obtain ⟨-, hself⟩ := performAll_withPanel a hbright hbright calls
  obtain ⟨houtcomes, hafter⟩ := performAll_withPanel a hbright hdim calls
  refine ⟨?_, ?_, ?_, houtcomes, ?_, ?_, answers_withPanel a (fun _ => rfl) hdim calls⟩
  · exact congrArg (·.state) hafter
  · exact congrArg (·.logs) hafter
  · exact hafter.trans (congrArg _ (congrArg (·.panel) hafter).symm)
  · have hshown := congrArg (·.panel.shown.toList) hself
    refine hshown.trans ?_
    change (DashboardPanel.drawAll {} (bright.frames calls)).shown.toList = bright.frames calls
    rw [DashboardPanel.shown_drawAll]
    simp
  · have hshown := congrArg (·.panel.shown.toList) hafter
    exact hshown.trans (DashboardPanel.shown_drawAll_flaky fails (bright.frames calls))

end Aggregator

end FleetTelemetry
