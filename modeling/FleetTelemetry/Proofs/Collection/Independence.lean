import FleetTelemetry.Proofs.Collection.Frames
import Mathlib.Data.List.Forall2

/-!
# Nodes that do not disturb each other

Runs that differ in the reports of one node, and have the same warm ticks, do the same for all other
nodes: what is known of these, what is logged for them and what is shown of them is the same.
-/

namespace FleetTelemetry

def Frame.rowOf? (frame : Frame) (node : String) : Option NodeRow :=
  frame.nodes.find? (·.name = node)

private theorem Frame.rowOf?_eq {divisors : Divisors} {roster : Roster} {state : FleetState}
    {elapsed : Span} {frame : Frame} {reports : List Report}
    (h : ofState divisors roster state elapsed = .ok frame) (htracks : state.Tracks reports)
    (node : String) : frame.rowOf? node =
      (snapshotsOf reports node).getLast?.map (NodeRow.ofSnapshot roster node) := by
  have hrows := mem_nodes_iff h htracks
  cases hlast : (snapshotsOf reports node).getLast? with
  | none =>
    apply List.find?_eq_none.mpr
    intro row hrow hname
    have hmem := ((hrows row).mp hrow).1
    rw [of_decide_eq_true hname, mem_reporters_iff_ne_nil] at hmem
    exact hmem (List.getLast?_eq_none_iff.mp hlast)
  | some last =>
    have hmem : node ∈ reporters reports := by
      rw [mem_reporters_iff_ne_nil, ← List.getLast?_isSome, hlast]
      rfl
    have hown : lastOf reports node = last := by rw [lastOf, hlast, Option.getD_some]
    have hthere : NodeRow.ofSnapshot roster node last ∈ frame.nodes := by
      rw [hrows]
      exact ⟨hmem, by rw [← hown]; rfl⟩
    unfold rowOf?
    cases hfind : frame.nodes.find? fun row => decide (row.name = node) with
    | none =>
      have hnone := List.find?_eq_none.mp hfind _ hthere
      exact absurd rfl (of_decide_eq_false (Bool.eq_false_iff.mpr hnone))
    | some row =>
      have hname : row.name = node := by simpa using List.find?_some hfind
      have hrow := ((hrows row).mp (List.mem_of_find?_eq_some hfind)).2
      rw [hname, hown] at hrow
      rw [hrow, Option.map_some]

namespace Aggregator

/-- The reports of other nodes and the ticks, which are all alike, among some calls. -/
def besides (node : String) (calls : List Call) : List (Option Report) :=
  (calls.filter (Call.keeps fun report => report.node ≠ node)).map Call.report?

/-- What the ticks among some calls have of a node before them, and whether they are warm. -/
def seenOf (node : String) (ticks : List TickPoint) : List (Bool × List Snapshot) :=
  ticks.map fun tick => (decide (Warm tick.before), snapshotsOf tick.before node)

section

variable {node other : String} {calls calls' : List Call}

private theorem snapshotsOf_besides (hne : other ≠ node) (reports : List Report) :
    snapshotsOf (reports.filter fun report => report.node ≠ node) other =
      snapshotsOf reports other :=
  snapshotsOf_filter fun report _ hnode => by simp [hnode, hne]

private theorem snapshotsOf_reportsIn (hne : other ≠ node)
    (h : besides node calls = besides node calls') :
    snapshotsOf (reportsIn calls) other = snapshotsOf (reportsIn calls') other := by
  have hreports (calls : List Call) : (besides node calls).filterMap id =
      (reportsIn calls).filter fun report => report.node ≠ node := by
    rw [← reportsIn_filter_keeps, besides, List.filterMap_map]
    rfl
  rw [← snapshotsOf_besides hne, ← snapshotsOf_besides hne (reportsIn calls'), ← hreports, h,
    hreports]

private theorem seenOf_eq (hne : other ≠ node) (h : besides node calls = besides node calls')
    (hwarm : (ticksAfter [] calls).map (fun tick => decide (Warm tick.before)) =
      (ticksAfter [] calls').map fun tick => decide (Warm tick.before)) :
    seenOf other (ticksAfter [] calls) = seenOf other (ticksAfter [] calls') := by
  have hbefore (calls : List Call) :
      (ticksAfter [] calls).map (fun tick => snapshotsOf tick.before other) =
        ((ticksAfter [] (calls.filter (Call.keeps fun report => report.node ≠ node))).map
          (·.before)).map fun before => snapshotsOf before other := by
    have hticks := ticksAfter_filter_keeps (fun report => report.node ≠ node) [] calls
    rw [List.filter_nil] at hticks
    rw [hticks, List.map_map, List.map_map]
    exact List.map_congr_left fun tick _ => (snapshotsOf_besides hne tick.before).symm
  have hsnapshots : (ticksAfter [] calls).map (fun tick => snapshotsOf tick.before other) =
      (ticksAfter [] calls').map fun tick => snapshotsOf tick.before other := by
    rw [hbefore, hbefore, map_before_ticksAfter [] h]
  rw [seenOf, seenOf, ← List.zip_map', ← List.zip_map', hwarm, hsnapshots]

private theorem samples_eq_seenOf (ticks : List TickPoint) :
    ((ticks.filter fun tick => Warm tick.before).map (·.row other)).map (·.sample) =
      ((seenOf other ticks).filter Prod.fst).map fun seen => seen.2.getLast?.getD {} := by
  rw [seenOf, List.filter_map, List.map_map, List.map_map]
  rfl

end

/-! ## What ticks come to -/

/-- What a tick comes to while no writer fails: nothing before the warm-up, and then a frame with
the last snapshots before the tick, unless the dashboard crashes. -/
inductive Answers (roster : Roster) (tick : TickPoint) : TickOutcome → Prop where
  | idle (h : ¬ Warm tick.before) : Answers roster tick .idle
  | frame {frame : Frame} (h : Warm tick.before) (hrows : ∀ node, frame.rowOf? node =
      (snapshotsOf tick.before node).getLast?.map (NodeRow.ofSnapshot roster node)) :
      Answers roster tick (.frame frame)
  | crashed (h : Warm tick.before) : Answers roster tick .crashed

private theorem Steady.answers_tick {a : Aggregator} {before : List Report} (h : a.Steady before)
    (elapsed : Span) (timestamp : UInt64) :
    Answers a.roster ⟨timestamp, before⟩ (a.tick elapsed timestamp).1 := by
  rcases tick_cases h.checked elapsed timestamp with ⟨hcold, htick⟩ |
    ⟨frame, hwarm, hframe, ⟨cause, logs, hwrite, -⟩ | ⟨logs, hwrite, -⟩ | ⟨logs, -, htick⟩⟩
  · rw [htick]
    refine .idle fun hwarm => ?_
    rw [h.tracks.isWarm_iff.mpr hwarm] at hcold
    cases hcold
  · have hok := (NodeLogs.writeTick_of_unfailing h.unfailing timestamp a.state.current).1
    rw [hwrite] at hok
    cases hok
  · have hok := (NodeLogs.writeTick_of_unfailing h.unfailing timestamp a.state.current).1
    rw [hwrite] at hok
    cases hok
  · rw [htick]
    have hwarm := h.tracks.isWarm_iff.mp hwarm
    rcases (draw_spec { a with logs } frame).2 with hdrawn | ⟨hcrash, -⟩
    · rw [hdrawn]
      exact .frame hwarm (Frame.rowOf?_eq hframe h.tracks)
    · rw [hcrash]
      exact .crashed hwarm

private theorem Steady.forall₂_outcomes {a : Aggregator} {before : List Report}
    (h : a.Steady before)
    (calls : List Call) :
    List.Forall₂ (Answers a.roster) (ticksAfter before calls) (a.outcomes calls) := by
  induction calls generalizing a before with
  | nil => exact .nil
  | cons call calls ih =>
    have hrest := ih (h.perform call)
    cases call with
    | apply report => exact hrest
    | tick elapsed timestamp =>
      rw [Call.report?, Option.toList_none, List.append_nil, Aggregator.perform,
        (tick_state a elapsed timestamp).2.1] at hrest
      exact .cons (h.answers_tick elapsed timestamp) hrest

/-- Two ticks show the same of a node: neither fails, both are idle or none is, and if both have
frames, the node has the same row in them. A dashboard may still crash at one of them. -/
inductive ShowSame (node : String) : TickOutcome → TickOutcome → Prop where
  | idle : ShowSame node .idle .idle
  | frames {frame frame' : Frame} (h : frame.rowOf? node = frame'.rowOf? node) :
      ShowSame node (.frame frame) (.frame frame')
  | crashed : ShowSame node .crashed .crashed
  | crashedFirst {frame : Frame} : ShowSame node .crashed (.frame frame)
  | crashedSecond {frame : Frame} : ShowSame node (.frame frame) .crashed

private theorem Answers.showSame {roster : Roster} {tick tick' : TickPoint}
    {outcome outcome' : TickOutcome}
    {node : String} (h : Answers roster tick outcome) (h' : Answers roster tick' outcome')
    (hwarm : Warm tick.before ↔ Warm tick'.before)
    (hseen : snapshotsOf tick.before node = snapshotsOf tick'.before node) :
    ShowSame node outcome outcome' := by
  cases h with
  | idle hcold =>
    cases h' with
    | idle => exact .idle
    | frame h' => exact absurd (hwarm.mpr h') hcold
    | crashed h' => exact absurd (hwarm.mpr h') hcold
  | frame h hrows =>
    cases h' with
    | idle hcold => exact absurd (hwarm.mp h) hcold
    | frame _ hrows' => exact .frames (by rw [hrows, hrows', hseen])
    | crashed => exact .crashedSecond
  | crashed h =>
    cases h' with
    | idle hcold => exact absurd (hwarm.mp h) hcold
    | frame => exact .crashedFirst
    | crashed => exact .crashed

private theorem showSame_of_seenOf {roster : Roster} {node : String} {ticks ticks' : List TickPoint}
    {outcomes outcomes' : List TickOutcome} (h : List.Forall₂ (Answers roster) ticks outcomes)
    (h' : List.Forall₂ (Answers roster) ticks' outcomes')
    (hseen : seenOf node ticks = seenOf node ticks') :
    List.Forall₂ (ShowSame node) outcomes outcomes' := by
  induction h generalizing ticks' outcomes' with
  | nil =>
    cases h' with
    | nil => exact .nil
    | cons => cases hseen
  | cons hfirst _ ih =>
    cases h' with
    | nil => cases hseen
    | cons hfirst' hrest' =>
      obtain ⟨hpair, hrest⟩ := List.cons.inj hseen
      obtain ⟨hwarm, hsnapshots⟩ := Prod.mk.inj hpair
      exact .cons (hfirst.showSame hfirst' (decide_eq_decide.mp hwarm) hsnapshots) (ih hrest' hrest)

/-- Two runs of a fleet whose writers do not fail, with the same calls but for the reports of one
node, however these were added, removed, changed or moved, and with the same warm ticks, cannot be
told apart at any other node. After each step that the runs have in common the node's last snapshots
are the same, its log has the same rows but for their times, and it has the same row in every frame.
-/
theorem node_disturbs_no_other (roster : Roster) (divisors : Divisors) (writer : String → NodeLog)
    (panel panel' : DashboardPanel) (interval : Span) (node : String) (calls calls' : List Call)
    (hd : divisors.Checked) (hw : ∀ name ∈ roster.names, (writer name).Unfailing)
    (hsame : besides node calls = besides node calls')
    (hwarm : (ticksAfter [] calls).map (fun tick => decide (Warm tick.before)) =
      (ticksAfter [] calls').map fun tick => decide (Warm tick.before)) :
    let a := launch roster divisors writer panel interval
    let a' := launch roster divisors writer panel' interval
    ∀ other, other ≠ node →
      (∀ earlier earlier', earlier <+: calls → earlier' <+: calls' →
        besides node earlier = besides node earlier' →
        (a.performAll earlier).state.current[other]? =
          (a'.performAll earlier').state.current[other]? ∧
        (a.performAll earlier).state.previous[other]? =
          (a'.performAll earlier').state.previous[other]?) ∧
      ((a.performAll calls).rowsOf other).map (fun rows => rows.map (·.sample)) =
        ((a'.performAll calls').rowsOf other).map (fun rows => rows.map (·.sample)) ∧
      List.Forall₂ (ShowSame other) (a.outcomes calls) (a'.outcomes calls') := by
  intro a a' other hne
  have hstart : a.Steady [] := steady_launch panel interval hd hw
  have hstart' : a'.Steady [] := steady_launch panel' interval hd hw
  have hseen := seenOf_eq hne hsame hwarm
  refine ⟨?_, ?_, ?_⟩
  · intro earlier earlier' _ _ hcommon
    have htracks := (hstart.performAll earlier).tracks
    have htracks' := (hstart'.performAll earlier').tracks
    have hreports := snapshotsOf_reportsIn hne hcommon
    rw [List.nil_append] at htracks htracks'
    rw [htracks.current, htracks'.current, htracks.previous, htracks'.previous, hreports]
    exact ⟨rfl, rfl⟩
  · rw [hstart.rowsOf_performAll calls other, hstart'.rowsOf_performAll calls' other]
    have hrows : a.rowsOf other = a'.rowsOf other := rfl
    rw [hrows, Option.map_map, Option.map_map]
    refine congrArg (fun f => (a'.rowsOf other).map f) (funext fun rows => ?_)
    simp only [Function.comp_apply, List.map_append, samples_eq_seenOf, hseen]
  · exact showSame_of_seenOf (hstart.forall₂_outcomes calls) (hstart'.forall₂_outcomes calls') hseen

def noisyCalls : List Call :=
  [.apply ⟨"a", { gas := 1 }⟩, .apply ⟨"c", { gas := 9 }⟩, .apply ⟨"a", { gas := 2 }⟩,
    .apply ⟨"c", { token := true }⟩, .tick ⟨1⟩ 10, .apply ⟨"c", {}⟩, .apply ⟨"a", { gas := 4 }⟩,
    .tick ⟨2⟩ 11]

def quietCalls : List Call :=
  [.apply ⟨"a", { gas := 1 }⟩, .apply ⟨"a", { gas := 2 }⟩, .tick ⟨1⟩ 12,
    .apply ⟨"a", { gas := 4 }⟩, .apply ⟨"c", { gas := 5 }⟩, .tick ⟨2⟩ 20]

theorem node_disturbs_no_other_noisy :
    let noisy := launch pairRoster pairDivisors (fun _ => {}) {} ⟨0⟩
    let quiet := launch pairRoster pairDivisors (fun _ => {})
      { outcomeAt := fun _ => .failed .notFound } ⟨0⟩
    pairDivisors.Checked ∧ besides "c" noisyCalls = besides "c" quietCalls ∧
    ((noisy.performAll noisyCalls).rowsOf "a").map (fun rows => rows.map (·.sample)) =
      ((quiet.performAll quietCalls).rowsOf "a").map (fun rows => rows.map (·.sample)) ∧
    List.Forall₂ (ShowSame "a") (noisy.outcomes noisyCalls) (quiet.outcomes quietCalls) := by
  intro noisy quiet
  have hd : pairDivisors.Checked := rfl
  have hsame : besides "c" noisyCalls = besides "c" quietCalls := rfl
  obtain ⟨-, hrows, hshow⟩ := node_disturbs_no_other pairRoster pairDivisors (fun _ => {}) {}
    { outcomeAt := fun _ => .failed .notFound } ⟨0⟩ "c" noisyCalls quietCalls hd
    (fun _ _ _ => rfl) hsame (by decide) "a" (by decide)
  exact ⟨hd, hsame, hrows, hshow⟩

end Aggregator

end FleetTelemetry
