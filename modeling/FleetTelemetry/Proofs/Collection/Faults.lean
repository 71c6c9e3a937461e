import FleetTelemetry.Proofs.Collection.Calls

/-!
# Ticks that fail

When divisors are checked, a tick fails only because the writer of some log does and crashes only
because such a writer or the dashboard does. Each time the failed attempt is the last one of its log
or dashboard, and what writers and dashboard do at each attempt stays as it was.
-/

namespace FleetTelemetry

/-- The writer of a log failed at the last attempt to append a row. -/
def NodeLog.Failed (log : NodeLog) (fault : FileFault) : Prop :=
  ∃ attempt, log.attempts = attempt + 1 ∧ log.outcomeAt attempt = .failed fault

/-- The writer of a log crashed at the last attempt to append a row. -/
def NodeLog.Crashed (log : NodeLog) : Prop :=
  ∃ attempt, log.attempts = attempt + 1 ∧ log.outcomeAt attempt = .crashed

/-- A dashboard crashed at the last attempt to draw a frame. -/
def DashboardPanel.Crashed (panel : DashboardPanel) : Prop :=
  ∃ attempt, panel.attempts = attempt + 1 ∧ panel.outcomeAt attempt = .crashed

namespace NodeLogs

/-- The writer of some log crashed at the last attempt to append a row. -/
def Crashed (logs : NodeLogs) : Prop :=
  ∃ (node : String) (log : NodeLog), logs[node]? = some log ∧ log.Crashed

def Continue (logs earlier : NodeLogs) : Prop :=
  ∀ (node : String) (log : NodeLog), logs[node]? = some log →
    ∃ before, earlier[node]? = some before ∧ log.outcomeAt = before.outcomeAt ∧
      before.attempts ≤ log.attempts

theorem Continue.refl (logs : NodeLogs) : logs.Continue logs :=
  fun _ log hlog => ⟨log, hlog, rfl, Nat.le_refl _⟩

theorem Continue.trans {logs middle earlier : NodeLogs} (h : logs.Continue middle)
    (h' : middle.Continue earlier) : logs.Continue earlier := by
  intro node log hlog
  obtain ⟨between, hbetween, hwriter, hle⟩ := h node log hlog
  obtain ⟨before, hbefore, hwriter', hle'⟩ := h' node between hbetween
  exact ⟨before, hbefore, hwriter.trans hwriter', Nat.le_trans hle' hle⟩

theorem Continue.insert {logs : NodeLogs} {node : String} {log next : NodeLog}
    (hlog : logs[node]? = some log) (hwriter : next.outcomeAt = log.outcomeAt)
    (hattempts : log.attempts ≤ next.attempts) :
    NodeLogs.Continue (logs.insert node next) logs := by
  intro other found hfound
  rw [Std.ExtTreeMap.getElem?_insert] at hfound
  by_cases hnode : node = other
  · subst hnode
    simp only [Std.compare_self, if_true, Option.some.injEq] at hfound
    subst hfound
    exact ⟨log, hlog, hwriter, hattempts⟩
  · simp only [Std.compare_eq_iff_eq, hnode, if_false] at hfound
    exact ⟨found, hfound, rfl, Nat.le_refl _⟩

/-- What rows are not appended for is the fault or the crash of a writer at its last attempt. -/
inductive Cause (logs : NodeLogs) : WriteOutcome → Prop
  | written : Cause logs .written
  | failed {cause : LogError} {log : NodeLog} (hlog : logs[cause.node]? = some log)
      (hfailed : log.Failed cause.fault) : Cause logs (.failed cause)
  | crashed (h : logs.Crashed) : Cause logs .crashed

private theorem appendRows_spec (row : String → LogRow) {nodes : List String} {logs : NodeLogs}
    (hnodes : ∀ node ∈ nodes, node ∈ logs) :
    (appendRows row nodes logs).2.Continue logs ∧
      (appendRows row nodes logs).2.Cause (appendRows row nodes logs).1 := by
  induction nodes generalizing logs with
  | nil => exact ⟨Continue.refl logs, .written⟩
  | cons node rest ih =>
    obtain ⟨log, hlog⟩ : ∃ log, logs[node]? = some log :=
      ⟨_, Std.ExtTreeMap.getElem?_eq_some_getElem (hnodes node List.mem_cons_self)⟩
    have hnext : ∀ next : NodeLog, next.outcomeAt = log.outcomeAt →
        next.attempts = log.attempts + 1 → NodeLogs.Continue (logs.insert node next) logs :=
      fun next hwriter hattempts => .insert hlog hwriter (hattempts ▸ Nat.le_succ _)
    cases houtcome : log.outcomeAt log.attempts with
    | appended =>
      let next := log.extend (row node)
      have hstep := appendRows_cons_of_appended row rest hlog houtcome
      have hrest : ∀ other ∈ rest, other ∈ logs.insert node next := fun other hother =>
        Std.ExtTreeMap.mem_insert.mpr (.inr (hnodes other (List.mem_cons_of_mem node hother)))
      obtain ⟨hcontinue, hcause⟩ := ih hrest
      rw [hstep]
      exact ⟨hcontinue.trans (hnext next rfl rfl), hcause⟩
    | failed fault =>
      rw [appendRows_cons_of_failed row rest hlog houtcome]
      exact ⟨hnext _ rfl rfl,
        .failed Std.ExtTreeMap.getElem?_insert_self ⟨log.attempts, rfl, houtcome⟩⟩
    | crashed =>
      rw [appendRows_cons_of_crashed row rest hlog houtcome]
      exact ⟨hnext _ rfl rfl,
        .crashed ⟨node, _, Std.ExtTreeMap.getElem?_insert_self, log.attempts, rfl, houtcome⟩⟩

theorem writeTick_spec (logs : NodeLogs) (timestamp : UInt64) (current : SnapshotMap) :
    (logs.writeTick timestamp current).2.Continue logs ∧
      (logs.writeTick timestamp current).2.Cause (logs.writeTick timestamp current).1 :=
  appendRows_spec _ fun _ hnode => Std.ExtTreeMap.mem_keys.mp hnode

end NodeLogs

namespace Aggregator

/-- The aggregator is an earlier one after more calls: its divisors, its interval and what its
writers and its dashboard do at each attempt are the same. -/
structure Follows (a earlier : Aggregator) : Prop where
  divisors : a.divisors = earlier.divisors
  interval : a.interval = earlier.interval
  outcomes : a.panel.outcomeAt = earlier.panel.outcomeAt
  draws : earlier.panel.attempts ≤ a.panel.attempts
  writers : a.logs.Continue earlier.logs

theorem Follows.refl (a : Aggregator) : a.Follows a :=
  ⟨rfl, rfl, rfl, Nat.le_refl _, .refl a.logs⟩

theorem Follows.trans {a middle earlier : Aggregator} (h : a.Follows middle)
    (h' : middle.Follows earlier) : a.Follows earlier where
  divisors := h.divisors.trans h'.divisors
  interval := h.interval.trans h'.interval
  outcomes := h.outcomes.trans h'.outcomes
  draws := Nat.le_trans h'.draws h.draws
  writers := h.writers.trans h'.writers

theorem follows_apply (a : Aggregator) (report : Report) : (a.apply report).Follows a :=
  ⟨rfl, rfl, rfl, Nat.le_refl _, .refl a.logs⟩

/-- With checked divisors a tick of a cold state does nothing. One of a warm state has a frame, and
fails or crashes at the logs or writes and draws. -/
theorem tick_cases {a : Aggregator} (hd : a.divisors.Checked) (elapsed : Span)
    (timestamp : UInt64) :
    (a.state.isWarm = false ∧ a.tick elapsed timestamp = (.idle, a, [skippedEvent])) ∨
    ∃ frame, a.state.isWarm = true ∧
      Frame.ofState a.divisors a.roster a.state elapsed = .ok frame ∧
      ((∃ cause logs, a.logs.writeTick timestamp a.state.current = (.failed cause, logs) ∧
        a.tick elapsed timestamp = (.failed (.log cause), { a with logs }, [])) ∨
      (∃ logs, a.logs.writeTick timestamp a.state.current = (.crashed, logs) ∧
        a.tick elapsed timestamp = (.crashed, { a with logs }, [])) ∨
      ∃ logs, a.logs.writeTick timestamp a.state.current = (.written, logs) ∧
        a.tick elapsed timestamp = draw { a with logs } frame) := by
  cases hwarm : a.state.isWarm with
  | false => exact .inl ⟨rfl, by simp [tick, hwarm]⟩
  | true =>
    obtain ⟨frame, hframe⟩ := Frame.ofState_eq_ok hd a.roster a.state elapsed
    have htick := tick_of_warm hwarm hframe timestamp
    refine .inr ⟨frame, rfl, hframe, ?_⟩
    rcases hwrite : a.logs.writeTick timestamp a.state.current with ⟨- | cause | -, logs⟩
    · rw [hwrite] at htick
      exact .inr (.inr ⟨logs, rfl, htick⟩)
    · rw [hwrite] at htick
      exact .inl ⟨cause, logs, rfl, htick⟩
    · rw [hwrite] at htick
      exact .inr (.inl ⟨logs, rfl, htick⟩)

/-- Drawing is one more attempt of the dashboard. The tick has its frame, unless the dashboard
crashes. -/
theorem draw_spec (a : Aggregator) (frame : Frame) :
    (a.draw frame).2.1.Follows a ∧ ((a.draw frame).1 = .frame frame ∨
      (a.draw frame).1 = .crashed ∧ (a.draw frame).2.1.panel.Crashed) := by
  cases houtcome : a.panel.outcomeAt a.panel.attempts with
  | drawn =>
    simp only [draw, DashboardPanel.draw, houtcome]
    exact ⟨⟨rfl, rfl, rfl, Nat.le_succ _, .refl a.logs⟩, .inl trivial⟩
  | failed fault =>
    simp only [draw, DashboardPanel.draw, houtcome]
    exact ⟨⟨rfl, rfl, rfl, Nat.le_succ _, .refl a.logs⟩, .inl trivial⟩
  | crashed =>
    simp only [draw, DashboardPanel.draw, houtcome]
    exact ⟨⟨rfl, rfl, rfl, Nat.le_succ _, .refl a.logs⟩, .inr ⟨trivial, _, rfl, houtcome⟩⟩

/-- A tick fails with the fault of some writer at its last attempt, and crashes with such a writer
or with the dashboard at its last attempt. -/
theorem tick_spec {a : Aggregator} (hd : a.divisors.Checked) (elapsed : Span)
    (timestamp : UInt64) :
    (a.tick elapsed timestamp).2.1.Follows a ∧
    (∀ e, (a.tick elapsed timestamp).1 = .failed e → ∃ cause log, e = .log cause ∧
      (a.tick elapsed timestamp).2.1.logs[cause.node]? = some log ∧ log.Failed cause.fault) ∧
    ((a.tick elapsed timestamp).1 = .crashed →
      (a.tick elapsed timestamp).2.1.panel.Crashed ∨
        (a.tick elapsed timestamp).2.1.logs.Crashed) := by
  obtain ⟨hcontinue, hcause⟩ := a.logs.writeTick_spec timestamp a.state.current
  rcases tick_cases hd elapsed timestamp with ⟨-, htick⟩ |
    ⟨frame, -, -, ⟨cause, logs, hwrite, htick⟩ | ⟨logs, hwrite, htick⟩ | ⟨logs, hwrite, htick⟩⟩
  · rw [htick]
    exact ⟨.refl a, nofun, nofun⟩
  · rw [hwrite] at hcontinue hcause
    cases hcause with
    | failed hlog hfailed =>
      rw [htick]
      refine ⟨⟨rfl, rfl, rfl, Nat.le_refl _, hcontinue⟩, fun e he => ?_, nofun⟩
      cases he
      exact ⟨cause, _, rfl, hlog, hfailed⟩
  · rw [hwrite] at hcontinue hcause
    cases hcause with
    | crashed hcrashed =>
      rw [htick]
      exact ⟨⟨rfl, rfl, rfl, Nat.le_refl _, hcontinue⟩, nofun, fun _ => .inr hcrashed⟩
  · rw [hwrite] at hcontinue
    obtain ⟨hfollows, hdrawn⟩ := draw_spec { a with logs } frame
    rw [htick]
    refine ⟨hfollows.trans ⟨rfl, rfl, rfl, Nat.le_refl _, hcontinue⟩, ?_⟩
    rcases hdrawn with hframe | ⟨hcrash, hcrashed⟩
    · rw [hframe]
      exact ⟨nofun, nofun⟩
    · rw [hcrash]
      exact ⟨nofun, fun _ => .inl hcrashed⟩

end Aggregator

end FleetTelemetry
