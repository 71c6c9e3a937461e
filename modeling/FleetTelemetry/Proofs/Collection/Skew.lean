import FleetTelemetry.Proofs.Collection.Endings
import FleetTelemetry.Proofs.Collection.Lockstep
import FleetTelemetry.Proofs.Text.ByteOrder

/-!
# Logs whose writers fail

A tick writes to the logs in the order of their names, stops at the first writer that fails or
crashes and then ends its task. So at each moment some first logs may be one row ahead of the
others, and a log that is ahead of another when a tick has failed stays so.
-/

namespace FleetTelemetry

namespace NodeLogs

variable {row : String → LogRow} {logs final : NodeLogs} {names nodes : List String}

/-! ## The rows of one tick -/

/-- The writer of a node's log accepted its next row. -/
def Accepts (row : String → LogRow) (logs final : NodeLogs) (node : String) : Prop :=
  ∃ log, logs[node]? = some log ∧ log.outcomeAt log.attempts = .appended ∧
    final[node]? = some (log.extend (row node))

/-- The writer of a node's log failed or crashed at its next row, and the log has the rows that it
had. -/
def Refuses (logs final : NodeLogs) (node : String) (outcome : AppendOutcome) : Prop :=
  ∃ log, logs[node]? = some log ∧ log.outcomeAt log.attempts = outcome ∧
    final[node]? = some { log with attempts := log.attempts + 1 }

/-- What the writing of rows comes to when the writer of a node does not append its row. -/
inductive Stop (node : String) : AppendOutcome → WriteOutcome → Prop where
  | failed (fault : FileFault) : Stop node (.failed fault) (.failed ⟨node, fault⟩)
  | crashed : Stop node .crashed .crashed

/-- Rows were appended to the logs of some nodes in turn, up to the first node whose writer did not
append its row. -/
inductive Appended (row : String → LogRow) (logs final : NodeLogs) (nodes : List String) :
    WriteOutcome → Prop where
  | all (h : ∀ node ∈ nodes, Accepts row logs final node) : Appended row logs final nodes .written
  | stopped {before after : List String} {node : String} {outcome : AppendOutcome}
      {result : WriteOutcome} (hstop : Stop node outcome result)
      (hnodes : nodes = before ++ node :: after)
      (hbefore : ∀ other ∈ before, Accepts row logs final other)
      (hnode : Refuses logs final node outcome)
      (hafter : ∀ other ∈ after, final[other]? = logs[other]?) :
      Appended row logs final nodes result

private theorem getElem?_appendRows_of_notMem {node : String} (h : node ∉ nodes) :
    (appendRows row nodes logs).2[node]? = logs[node]? := by
  induction nodes generalizing logs with
  | nil => rfl
  | cons first rest ih =>
    obtain ⟨hne, hrest⟩ : node ≠ first ∧ node ∉ rest := by simpa using h
    have hinsert (log : NodeLog) : (logs.insert first log)[node]? = logs[node]? :=
      getElem?_insert_of_ne log (Ne.symm hne)
    rw [appendRows]
    rcases (logs[first]?.getD {}).append (row first) with ⟨- | fault | -, log⟩
    · exact (ih hrest).trans (hinsert log)
    · exact hinsert log
    · exact hinsert log

private theorem keys_appendRows (h : ∀ node ∈ nodes, node ∈ logs) :
    (appendRows row nodes logs).2.keys = logs.keys := by
  induction nodes generalizing logs with
  | nil => rfl
  | cons first rest ih =>
    have hmem (log : NodeLog) (node : String) : node ∈ logs.insert first log ↔ node ∈ logs := by
      rw [Std.ExtTreeMap.mem_insert, Std.compare_eq_iff_eq]
      exact or_iff_right_of_imp fun heq => heq ▸ h first List.mem_cons_self
    have hkeys (log : NodeLog) : (logs.insert first log).keys = logs.keys :=
      Text.keys_eq_of_mem_iff (hmem log)
    rw [appendRows]
    rcases (logs[first]?.getD {}).append (row first) with ⟨- | fault | -, log⟩
    · have hrest : ∀ node ∈ rest, node ∈ logs.insert first log := fun node hnode =>
        (hmem log node).mpr (h node (List.mem_cons_of_mem first hnode))
      exact (ih hrest).trans (hkeys log)
    · exact hkeys log
    · exact hkeys log

theorem Appended.cons {first : String} {next : NodeLog} {result : WriteOutcome}
    (h : Appended row (logs.insert first next) final nodes result)
    (haccepts : Accepts row logs final first) (hfirst : first ∉ nodes) :
    Appended row logs final (first :: nodes) result := by
  have hsame : ∀ other ∈ nodes, (logs.insert first next)[other]? = logs[other]? :=
    fun other hmem => getElem?_insert_of_ne next fun heq => hfirst (heq ▸ hmem)
  have haccepted : ∀ other ∈ nodes, Accepts row (logs.insert first next) final other →
      Accepts row logs final other := by
    rintro other hmem ⟨log, hlog, hrest⟩
    exact ⟨log, (hsame other hmem).symm.trans hlog, hrest⟩
  cases h with
  | all hall =>
    exact .all (List.forall_mem_cons.mpr
      ⟨haccepts, fun node hnode => haccepted node hnode (hall node hnode)⟩)
  | @stopped before after node outcome _ hstop hnodes hbefore hnode hafter =>
    subst hnodes
    obtain ⟨log, hlog, hrefused⟩ := hnode
    have hrefuses : Refuses logs final node outcome :=
      ⟨log, (hsame node (by simp)).symm.trans hlog, hrefused⟩
    refine .stopped hstop (List.cons_append (a := first)).symm ?_ hrefuses ?_
    · exact List.forall_mem_cons.mpr ⟨haccepts, fun other hmem =>
        haccepted other (List.mem_append_left _ hmem) (hbefore other hmem)⟩
    · exact fun other hmem => (hafter other hmem).trans (hsame other (by simp [hmem]))

private theorem appended_appendRows (row : String → LogRow) (hn : nodes.Nodup)
    (h : ∀ node ∈ nodes, node ∈ logs) :
    Appended row logs (appendRows row nodes logs).2 nodes (appendRows row nodes logs).1 := by
  -- the logs change along the induction, so the later rows are found in logs with the first one
  induction nodes generalizing logs with
  | nil => exact .all nofun
  | cons first rest ih =>
    obtain ⟨hfirst, hrest⟩ := List.nodup_cons.mp hn
    obtain ⟨log, hlog⟩ : ∃ log, logs[first]? = some log :=
      ⟨_, Std.ExtTreeMap.getElem?_eq_some_getElem (h first List.mem_cons_self)⟩
    have hstopped {outcome : AppendOutcome} {result : WriteOutcome}
        (hstop : Stop first outcome result)
        (houtcome : log.outcomeAt log.attempts = outcome) :
        Appended row logs (logs.insert first { log with attempts := log.attempts + 1 })
          (first :: rest) result := by
      refine .stopped hstop (List.nil_append (first :: rest)).symm nofun ?_ fun other hmem => ?_
      · exact ⟨log, hlog, houtcome, Std.ExtTreeMap.getElem?_insert_self⟩
      · exact getElem?_insert_of_ne _ fun heq => hfirst (heq ▸ hmem)
    cases houtcome : log.outcomeAt log.attempts with
    | failed fault =>
      rw [appendRows_cons_of_failed row rest hlog houtcome]
      exact hstopped (.failed fault) houtcome
    | crashed =>
      rw [appendRows_cons_of_crashed row rest hlog houtcome]
      exact hstopped .crashed houtcome
    | appended =>
      rw [appendRows_cons_of_appended row rest hlog houtcome]
      refine (ih hrest fun node hnode => ?_).cons ⟨log, hlog, houtcome, ?_⟩ hfirst
      · exact Std.ExtTreeMap.mem_insert.mpr (.inr (h node (List.mem_cons_of_mem first hnode)))
      · exact (getElem?_appendRows_of_notMem hfirst).trans Std.ExtTreeMap.getElem?_insert_self

/-! ## Rows ahead -/

/-- The number of rows of a node's log. -/
def rowCount (logs : NodeLogs) (node : String) : Option Nat := logs[node]?.map (·.rows.size)

/-- Some first nodes have one row more than the others. -/
def Staggered (logs : NodeLogs) (names : List String) : Prop :=
  ∃ ahead behind count, names = ahead ++ behind ∧
    (∀ node ∈ ahead, logs.rowCount node = some (count + 1)) ∧
    ∀ node ∈ behind, logs.rowCount node = some count

/-- All nodes have the same number of rows. -/
def Level (logs : NodeLogs) (names : List String) : Prop :=
  ∃ count, ∀ node ∈ names, logs.rowCount node = some count

private theorem Level.staggered (h : logs.Level names) : logs.Staggered names := by
  obtain ⟨count, hcount⟩ := h
  exact ⟨[], names, count, rfl, nofun, hcount⟩

private theorem Staggered.rowCount_le (h : logs.Staggered names) :
    ∀ node ∈ names, ∀ other ∈ names, ∃ rows others, logs.rowCount node = some rows ∧
      logs.rowCount other = some others ∧ rows ≤ others + 1 := by
  obtain ⟨ahead, behind, count, rfl, hahead, hbehind⟩ := h
  have hrows : ∀ node ∈ ahead ++ behind, ∃ rows, logs.rowCount node = some rows ∧
      count ≤ rows ∧ rows ≤ count + 1 := by
    intro node hnode
    rcases List.mem_append.mp hnode with hmem | hmem
    · exact ⟨count + 1, hahead node hmem, by omega⟩
    · exact ⟨count, hbehind node hmem, by omega⟩
  intro node hnode other hother
  obtain ⟨rows, hrow, -, hle⟩ := hrows node hnode
  obtain ⟨others, hothers, hge, -⟩ := hrows other hother
  exact ⟨rows, others, hrow, hothers, by omega⟩

private theorem Accepts.rowCount {node : String} (h : Accepts row logs final node) :
    final.rowCount node = (logs.rowCount node).map (· + 1) := by
  obtain ⟨log, hlog, -, hfinal⟩ := h
  simp [NodeLogs.rowCount, hlog, hfinal]

private theorem Refuses.rowCount {node : String} {outcome : AppendOutcome}
    (h : Refuses logs final node outcome) : final.rowCount node = logs.rowCount node := by
  obtain ⟨log, hlog, -, hfinal⟩ := h
  simp [NodeLogs.rowCount, hlog, hfinal]

private theorem rowCount_congr {node : String} (h : final[node]? = logs[node]?) :
    final.rowCount node = logs.rowCount node := by
  rw [rowCount, rowCount, h]

private theorem Level.of_appended (h : logs.Level names)
    (happended : Appended row logs final names .written) : final.Level names := by
  obtain ⟨count, hcount⟩ := h
  cases happended with
  | all hall =>
    refine ⟨count + 1, fun node hnode => ?_⟩
    rw [(hall node hnode).rowCount, hcount node hnode, Option.map_some]
  | stopped hstop => cases hstop

private theorem Appended.staggered {result : WriteOutcome} {first rest : List String}
    (h : Appended row logs final first result) (hlevel : logs.Level (first ++ rest))
    (hrest : ∀ node ∈ rest, final[node]? = logs[node]?) : final.Staggered (first ++ rest) := by
  obtain ⟨count, hcount⟩ := hlevel
  have haccepted {node : String} (hmem : node ∈ first ++ rest)
      (haccepts : Accepts row logs final node) : final.rowCount node = some (count + 1) := by
    rw [haccepts.rowCount, hcount node hmem, Option.map_some]
  have hkept : ∀ node ∈ rest, final.rowCount node = some count := fun node hnode =>
    (rowCount_congr (hrest node hnode)).trans (hcount node (List.mem_append_right first hnode))
  cases h with
  | all hall =>
    refine ⟨first, rest, count, rfl, fun node hnode => ?_, hkept⟩
    exact haccepted (List.mem_append_left rest hnode) (hall node hnode)
  | @stopped before after node outcome _ _ hnodes hbefore hnode hafter =>
    subst hnodes
    refine ⟨before, node :: after ++ rest, count, List.append_assoc .., ?_, ?_⟩
    · intro other hmem
      exact haccepted (by simp [hmem]) (hbefore other hmem)
    · intro other hmem
      rcases List.mem_append.mp hmem with hmem | hmem
      · rw [← hcount other (List.mem_append_left rest (List.mem_append_right before hmem))]
        rcases List.mem_cons.mp hmem with rfl | hmem
        · exact hnode.rowCount
        · exact rowCount_congr (hafter other hmem)
      · exact hkept other hmem

private theorem Level.staggered_appendRows_take (h : logs.Level logs.keys) (row : String → LogRow)
    (attempts : Nat) :
    (appendRows row (logs.keys.take attempts) logs).2.Staggered logs.keys := by
  have hnodup : (logs.keys.take attempts ++ logs.keys.drop attempts).Nodup := by
    rw [List.take_append_drop]
    exact Std.ExtTreeMap.nodup_keys
  obtain ⟨hfirst, -, hdisjoint⟩ := List.nodup_append.mp hnodup
  have hmem : ∀ node ∈ logs.keys.take attempts, node ∈ logs := fun node hnode =>
    Std.ExtTreeMap.mem_keys.mp (List.mem_of_mem_take hnode)
  have hstaggered := (appended_appendRows row hfirst hmem).staggered
    (by rwa [List.take_append_drop attempts]) fun node hnode =>
      getElem?_appendRows_of_notMem fun htaken => hdisjoint node htaken node hnode rfl
  rwa [List.take_append_drop] at hstaggered

private theorem appended_writeTick (logs : NodeLogs) (timestamp : UInt64) (current : SnapshotMap) :
    (logs.writeTick timestamp current).2.keys = logs.keys ∧
      Appended (LogRow.ofNode timestamp current) logs (logs.writeTick timestamp current).2 logs.keys
        (logs.writeTick timestamp current).1 :=
  have hkeys : ∀ node ∈ logs.keys, node ∈ logs := fun _ hnode => Std.ExtTreeMap.mem_keys.mp hnode
  ⟨keys_appendRows hkeys, appended_appendRows _ Std.ExtTreeMap.nodup_keys hkeys⟩

end NodeLogs

namespace AggregatorTask

open NodeLogs (Appended)

/-! ## The rows of a task -/

/-- The logs of a task are those of some nodes, and level until the task has ended. -/
structure Balanced (names : List String) (t : AggregatorTask) : Prop where
  checked : t.aggregator.divisors.Checked
  keys : t.aggregator.logs.keys = names
  staggered : t.aggregator.logs.Staggered names
  level : t.end? = none → t.aggregator.logs.Level names

/-- What a tick does after its rows came to an outcome: it fails only by a log, and draws only when
they are written. -/
inductive Wrote (t t' : AggregatorTask) : WriteOutcome → Prop where
  | written (hphase : ∀ e, t'.phase ≠ .ended (.failed e)) : Wrote t t' .written
  | failed {cause : LogError} (hphase : t'.phase = .ended (.failed (.log cause)))
      (hpanel : t'.aggregator.panel = t.aggregator.panel) : Wrote t t' (.failed cause)
  | crashed (hphase : t'.phase = .ended .crashed)
      (hpanel : t'.aggregator.panel = t.aggregator.panel) : Wrote t t' .crashed

variable {w : World} {t t' : AggregatorTask} {names : List String}

/-- A tick leaves balanced logs balanced. In a cold state it leaves the aggregator and goes on, and
in a warm one it appends its rows. -/
theorem Balanced.tick (h : t.Balanced names) {now : Nat} {timestamp : UInt64}
    {events : List Diagnostics.Event} (htick : t.tick now timestamp = some (t', events)) :
    let row := LogRow.ofNode timestamp t.aggregator.state.current
    t'.Balanced names ∧
      (t.aggregator.state.isWarm = false ∧ t'.phase = .running ∨
        ∃ outcome, Appended row t.aggregator.logs t'.aggregator.logs names outcome ∧
          Wrote t t' outcome) := by
  intro row
  obtain ⟨hrunning, -, rfl, -⟩ := tick_eq_some_iff.mp htick
  have hlevel := h.level (end?_of_running hrunning)
  obtain ⟨hkeys, happended⟩ :=
    t.aggregator.logs.appended_writeTick timestamp t.aggregator.state.current
  rw [h.keys] at hkeys happended
  -- rows that a writer has stopped leave staggered logs, and the task has ended with them
  have hstaggered : (t.aggregator.logs.writeTick timestamp t.aggregator.state.current).2.Staggered
      names := by
    rw [← List.append_nil names] at hlevel ⊢
    exact happended.staggered hlevel nofun
  rcases Aggregator.tick_cases h.checked ⟨now⟩ timestamp with ⟨hcold, hidle⟩ |
    ⟨frame, -, -, ⟨cause, logs, hwrite, hfail⟩ | ⟨logs, hwrite, hcrash⟩ | ⟨logs, hwrite, hdraw⟩⟩
  · rw [hidle]
    exact ⟨⟨h.checked, h.keys, h.staggered, fun _ => hlevel⟩, .inl ⟨hcold, rfl⟩⟩
  · rw [hwrite] at hkeys happended hstaggered
    rw [hfail]
    exact ⟨⟨h.checked, hkeys, hstaggered, nofun⟩, .inr ⟨_, happended, .failed rfl rfl⟩⟩
  · rw [hwrite] at hkeys happended hstaggered
    rw [hcrash]
    exact ⟨⟨h.checked, hkeys, hstaggered, nofun⟩, .inr ⟨_, happended, .crashed rfl rfl⟩⟩
  · rw [hwrite] at hkeys happended
    obtain ⟨hfollows, hdrawn⟩ := Aggregator.draw_spec { t.aggregator with logs } frame
    have hlogs : (Aggregator.draw { t.aggregator with logs } frame).2.1.logs = logs :=
      Aggregator.logs_draw _ frame
    have hnext : logs.Level names := hlevel.of_appended happended
    rw [hdraw]
    generalize Aggregator.draw { t.aggregator with logs } frame = drawn at hfollows hdrawn hlogs ⊢
    obtain ⟨outcome, next, told⟩ := drawn
    subst hlogs
    have hchecked : next.divisors.Checked := by
      rw [hfollows.divisors]
      exact h.checked
    refine ⟨⟨hchecked, hkeys, hnext.staggered, fun _ => hnext⟩,
      .inr ⟨_, happended, .written fun e he => ?_⟩⟩
    rcases hdrawn with rfl | ⟨rfl, -⟩ <;> cases he

theorem Balanced.turn (h : t.Balanced names) (hturn : t.Turn w t') : t'.Balanced names := by
  have hlevel := h.level hturn.end?_eq_none
  -- every turn but a tick leaves the logs as they are
  cases hturn with
  | start hstart =>
    obtain ⟨-, ⟨-, rfl, -⟩ | ⟨-, rfl, -⟩⟩ := start_eq_some_iff.mp hstart <;>
      exact ⟨h.checked, h.keys, h.staggered, fun _ => hlevel⟩
  | receive hreceive =>
    obtain ⟨-, -, rfl⟩ := receive_eq_some_iff.mp hreceive
    exact ⟨h.checked, h.keys, h.staggered, fun _ => hlevel⟩
  | closeReports hclose =>
    obtain ⟨-, -, rfl, -⟩ := closeReports_eq_some_iff.mp hclose
    exact ⟨h.checked, h.keys, h.staggered, fun _ => hlevel⟩
  | tick htick => exact (h.tick htick).1
  | notice hnotice =>
    obtain ⟨-, ⟨-, rfl, -⟩ | ⟨-, rfl, -⟩⟩ := notice_eq_some_iff.mp hnotice <;>
      exact ⟨h.checked, h.keys, h.staggered, fun _ => hlevel⟩

end AggregatorTask

namespace World

open NodeLogs (Accepts Refuses appendRows)

variable {w w' : World} {t : AggregatorTask} {m : Move} {ms : List Move} {names : List String}

/-! ## The rows of a run -/

/-- The logs that there are at some moment: those of the aggregator between two moves and, while its
tick writes rows, those after the first few attempts. -/
inductive Moment (w : World) : NodeLogs → Prop where
  | between {t : AggregatorTask} (ht : w.aggregator = some t) : Moment w t.aggregator.logs
  | writing {t : AggregatorTask} {w' : World} (ht : w.aggregator = some t)
      (htick : w.step .tick = some w') (hwarm : t.aggregator.state.isWarm = true)
      (attempts : Nat) :
      Moment w (appendRows (LogRow.ofNode w.timestamp t.aggregator.state.current)
        (t.aggregator.logs.keys.take attempts) t.aggregator.logs).2

/-- The aggregator's task has balanced logs, and a run that has returned has done so with the task's
end. -/
def Balanced (names : List String) (w : World) : Prop :=
  ∃ t, w.aggregator = some t ∧ t.Balanced names ∧
    ∀ result, w.result = some result → ∃ how, t.end? = some how ∧ result = resultOf how

theorem Balanced.step (h : w.Balanced names) (hstep : w.step m = some w') : w'.Balanced names := by
  obtain ⟨t, ht, hbalanced, hresult⟩ := h
  cases step_cases hstep with
  | spares hspares =>
    refine ⟨t, hspares.aggregator.trans ht, hbalanced, ?_⟩
    rw [hspares.result]
    exact hresult
  | @takes u u' htakes =>
    obtain rfl : u = t := Option.some.inj (htakes.before.symm.trans ht)
    refine ⟨u', htakes.after, hbalanced.turn htakes.turn, fun result hreturned => ?_⟩
    obtain ⟨how, hhow, -⟩ := hresult result (htakes.result.symm.trans hreturned)
    cases htakes.turn.end?_eq_none.symm.trans hhow
  | @returns u how hm hu hhow _ hreturn =>
    subst hreturn
    obtain rfl : u = t := Option.some.inj (hu.symm.trans ht)
    refine ⟨u, hu, hbalanced, fun result hreturned => ?_⟩
    cases hreturned
    exact ⟨how, hhow, rfl⟩
  | signals hm hvalue =>
    subst hvalue
    exact ⟨t, ht, hbalanced, hresult⟩
  | drops hm hdrop =>
    subst hdrop
    exact ⟨t, ht, hbalanced, hresult⟩

theorem Balanced.run (h : w.Balanced names) (hrun : w.run ms = some w') : w'.Balanced names := by
  induction ms generalizing w with
  | nil =>
    cases hrun
    exact h
  | cons m ms ih =>
    obtain ⟨v, hstep, hrest⟩ := Option.bind_eq_some_iff.mp hrun
    exact ih (h.step hstep) hrest

private theorem tick_of_step {t' : AggregatorTask} (ht : w.aggregator = some t)
    (hstep : w.step .tick = some w') (ht' : w'.aggregator = some t') :
    ∃ events, t.tick w.now w.timestamp = some (t', events) ∧ w'.result = w.result := by
  obtain ⟨u, u', events, hu, htick, rfl⟩ := step_tick_iff.mp hstep
  cases hu.symm.trans ht
  rw [aggregator_tell, aggregator_setAggregator] at ht'
  cases ht'
  exact ⟨events, htick, by simp⟩

private theorem aggregator_step_of_ended {how : AggregatorEnd} (ht : w.aggregator = some t)
    (hend : t.end? = some how) (hstep : w.step m = some w') : w'.aggregator = some t := by
  cases step_cases hstep with
  | spares hspares => exact hspares.aggregator.trans ht
  | takes htakes =>
    cases htakes.before.symm.trans ht
    cases htakes.turn.end?_eq_none.symm.trans hend
  | returns _ _ _ _ hreturn => rw [hreturn, ht]
  | signals _ hvalue => rw [hvalue, ht]
  | drops _ hdrop => rw [hdrop, ht]

private theorem aggregator_run_of_ended {how : AggregatorEnd} (ht : w.aggregator = some t)
    (hend : t.end? = some how) (hrun : w.run ms = some w') : w'.aggregator = some t := by
  induction ms generalizing w with
  | nil =>
    cases hrun
    exact ht
  | cons m ms ih =>
    obtain ⟨v, hstep, hrest⟩ := Option.bind_eq_some_iff.mp hrun
    exact ih (aggregator_step_of_ended ht hend hstep) hrest

private theorem Balanced.result_of_going (h : w.Balanced names) (ht : w.aggregator = some t)
    (hend : t.end? = none) : w.result = none := by
  obtain ⟨u, hu, -, hresult⟩ := h
  cases hu.symm.trans ht
  refine Option.eq_none_iff_forall_ne_some.mpr fun result hreturned => ?_
  obtain ⟨how, hhow, -⟩ := hresult result hreturned
  cases hend.symm.trans hhow

private theorem Balanced.result_of_ended {how : AggregatorEnd} (h : w.Balanced names)
    (ht : w.aggregator = some t) (hend : t.end? = some how) :
    ∀ result, w.result = some result → result = resultOf how := by
  obtain ⟨u, hu, -, hresult⟩ := h
  cases hu.symm.trans ht
  intro result hreturned
  obtain ⟨how', hhow, rfl⟩ := hresult result hreturned
  cases hhow.symm.trans hend
  rfl

private theorem Balanced.staggered (h : w.Balanced names) {logs : NodeLogs}
    (hmoment : w.Moment logs) :
    logs.Staggered names := by
  obtain ⟨t, ht, hbalanced, -⟩ := h
  cases hmoment with
  | between hu =>
    cases hu.symm.trans ht
    exact hbalanced.staggered
  | writing hu htick _ attempts =>
    cases hu.symm.trans ht
    obtain ⟨u, u', events, hu', hturn, -⟩ := step_tick_iff.mp htick
    cases hu'.symm.trans ht
    have hend := AggregatorTask.Turn.end?_eq_none (.tick hturn)
    have hlevel := hbalanced.level hend
    rw [← hbalanced.keys] at hlevel ⊢
    exact hlevel.staggered_appendRows_take _ attempts

private theorem balanced_launch {roster : Roster} {divisors : Divisors} {writer : String → NodeLog}
    {panel : DashboardPanel} {interval : Span} (hd : divisors.Checked)
    (hr : ∀ node ∈ roster.names, (writer node).rows = #[])
    (ht : w.aggregator = some
      { aggregator := Aggregator.launch roster divisors writer panel interval })
    (hresult : w.result = none) : w.Balanced roster.names := by
  have hlevel : (NodeLogs.ofNodes roster.names writer).Level roster.names := by
    refine ⟨0, fun node hnode => ?_⟩
    simp [NodeLogs.rowCount, NodeLogs.getElem?_ofNodes, hnode, hr node hnode]
  have hkeys : (NodeLogs.ofNodes roster.names writer).keys = roster.names := by
    refine Text.keys_eq_of_mem_iff fun node => ?_
    rw [Std.ExtTreeMap.mem_iff_isSome_getElem?, NodeLogs.getElem?_ofNodes,
      ← Std.ExtTreeMap.mem_keys]
    change _ ↔ node ∈ roster.names
    by_cases hnode : node ∈ roster.names <;> simp [hnode]
  refine ⟨_, ht, ⟨hd, hkeys, hlevel.staggered, fun _ => hlevel⟩, fun result hreturned => ?_⟩
  cases hresult.symm.trans hreturned

/-- Whatever writers and the dashboard do, the logs of a fleet are never more than one row apart,
and those with one row more are the first ones in the byte order of names. A tick that does not fail
has appended one row to every log, unless the state is not warm or a writer has crashed. One that
fails does so by the first writer in that order that fails. The logs before it have got the tick's
row, it and those after it have not, and nothing is drawn. The run then returns that error, and no
move changes the logs or the dashboard any more. -/
theorem logs_one_row_apart (roster : Roster) (divisors : Divisors) (writer : String → NodeLog)
    (panel : DashboardPanel) (interval : Span) (start : World) (hd : divisors.Checked)
    (hr : ∀ node ∈ roster.names, (writer node).rows = #[])
    (ht : start.aggregator = some
      { aggregator := Aggregator.launch roster divisors writer panel interval })
    (hresult : start.result = none) :
    roster.names.Pairwise Text.ByteLess ∧
    ∀ (ms : List Move) (w : World), start.run ms = some w →
      (∀ logs, w.Moment logs → logs.Staggered roster.names ∧
        ∀ node ∈ roster.names, ∀ other ∈ roster.names, ∃ rows others,
          logs.rowCount node = some rows ∧ logs.rowCount other = some others ∧
            rows ≤ others + 1) ∧
      ∀ t w' t', w.aggregator = some t → w.step .tick = some w' → w'.aggregator = some t' →
        let row := LogRow.ofNode w.timestamp t.aggregator.state.current
        (t.aggregator.state.isWarm = true → (∀ e, t'.phase ≠ .ended (.failed e)) →
          (∀ node ∈ roster.names, Accepts row t.aggregator.logs t'.aggregator.logs node) ∨
          ∃ before node after, roster.names = before ++ node :: after ∧
            t'.phase = .ended .crashed ∧
            (∀ earlier ∈ before, Accepts row t.aggregator.logs t'.aggregator.logs earlier) ∧
            Refuses t.aggregator.logs t'.aggregator.logs node .crashed ∧
            (∀ later ∈ after, t'.aggregator.logs[later]? = t.aggregator.logs[later]?) ∧
            t'.aggregator.panel = t.aggregator.panel) ∧
        ∀ e, t'.phase = .ended (.failed e) →
        ∃ before node after fault, roster.names = before ++ node :: after ∧
          e = .log ⟨node, fault⟩ ∧
          (∀ earlier ∈ before, Accepts row t.aggregator.logs t'.aggregator.logs earlier) ∧
          Refuses t.aggregator.logs t'.aggregator.logs node (.failed fault) ∧
          (∀ later ∈ after, t'.aggregator.logs[later]? = t.aggregator.logs[later]?) ∧
          t'.aggregator.panel = t.aggregator.panel ∧
          (∃ v, w'.step .finish = some v ∧ v.result = some (.error e)) ∧
          ∀ (ms' : List Move) (v : World), w'.run ms' = some v → v.aggregator = some t' ∧
            ∀ result, v.result = some result → result = .error e := by
  refine ⟨Text.pairwise_byteLess_keys roster.nodes, fun ms w hrun => ?_⟩
  have hrows := (balanced_launch hd hr ht hresult).run hrun
  refine ⟨fun logs hmoment => ?_, ?_⟩
  · have hstaggered := hrows.staggered hmoment
    exact ⟨hstaggered, hstaggered.rowCount_le⟩
  intro t w' t' htask hstep htask' row
  obtain ⟨events, htick, hsame⟩ := tick_of_step htask hstep htask'
  have hnone : w'.result = none :=
    hsame.trans (hrows.result_of_going htask (AggregatorTask.Turn.end?_eq_none (.tick htick)))
  have hrows' := hrows.step hstep
  obtain ⟨u, hu, hbalanced, -⟩ := hrows
  cases hu.symm.trans htask
  obtain ⟨-, ⟨hcold, hgoing⟩ | ⟨outcome, happended, hwrote⟩⟩ := hbalanced.tick htick
  · refine ⟨fun hwarm => ?_, fun e hfailed => ?_⟩
    · cases hcold.symm.trans hwarm
    · cases hgoing.symm.trans hfailed
  refine ⟨fun _ hnever => ?_, fun e hfailed => ?_⟩
  · cases hwrote with
    | written =>
      cases happended with
      | all hall => exact .inl hall
      | stopped hstop => cases hstop
    | failed hphase => exact absurd hphase (hnever _)
    | crashed hphase hpanel =>
      cases happended with
      | stopped hstop hnames hbefore hnode hafter =>
        cases hstop
        exact .inr ⟨_, _, _, hnames, hphase, hbefore, hnode, hafter, hpanel⟩
  · cases hwrote with
    | written hphase => exact absurd hfailed (hphase e)
    | crashed hphase => cases hphase.symm.trans hfailed
    | failed hphase hpanel =>
      cases hphase.symm.trans hfailed
      have hend := AggregatorTask.end?_eq_some_iff.mpr hfailed
      cases happended with
      | stopped hstop hnames hbefore hnode hafter =>
        cases hstop
        refine ⟨_, _, _, _, hnames, rfl, hbefore, hnode, hafter, hpanel, ?_, ?_⟩
        · exact ⟨_, step_finish_iff.mpr ⟨t', _, htask', hend, hnone, rfl⟩, rfl⟩
        · intro ms' v hrun'
          have hkept := aggregator_run_of_ended htask' hend hrun'
          exact ⟨hkept, (hrows'.run hrun').result_of_ended hkept hend⟩

/-- A fleet of two nodes of which the second has no room for a row. -/
def narrowAggregator : Aggregator :=
  Aggregator.launch Aggregator.pairRoster Aggregator.pairDivisors
    (fun node => if node = "a" then {} else NodeLog.limited 0) {} ⟨20⟩

def narrowMoves : List Move :=
  [.startAggregator, .send ⟨"a", {}⟩, .receive, .send ⟨"a", {}⟩, .receive, .wait 20]

def narrowStart : World :=
  { sending := true, aggregator := some { aggregator := narrowAggregator } }

theorem logs_one_row_apart_narrow :
    ∃ w w' v t t', narrowStart.run narrowMoves = some w ∧ w.step .tick = some w' ∧
      w.aggregator = some t ∧ w'.aggregator = some t' ∧
      w'.step .finish = some v ∧ v.result = some (.error (.log ⟨"c", .diskFull⟩)) ∧
      t'.aggregator.logs.rowCount "a" = some 1 ∧ t'.aggregator.logs.rowCount "c" = some 0 ∧
      t'.aggregator.logs.Staggered ["a", "c"] ∧
      t'.aggregator.panel = t.aggregator.panel := by
  obtain ⟨w, w', t, t', hrun, hstep, hafter, ht, ht', hfailed, ha, hc⟩ :
      ∃ w w' t t', narrowStart.run narrowMoves = some w ∧ w.step .tick = some w' ∧
        narrowStart.run (narrowMoves ++ [.tick]) = some w' ∧
        w.aggregator = some t ∧ w'.aggregator = some t' ∧
        t'.phase = .ended (.failed (.log ⟨"c", .diskFull⟩)) ∧
        t'.aggregator.logs.rowCount "a" = some 1 ∧ t'.aggregator.logs.rowCount "c" = some 0 :=
    ⟨_, _, _, _, rfl, rfl, rfl, rfl, rfl, rfl, rfl, rfl⟩
  have hd : Aggregator.pairDivisors.Checked := rfl
  obtain ⟨-, hall⟩ := logs_one_row_apart Aggregator.pairRoster Aggregator.pairDivisors
    (fun node => if node = "a" then {} else NodeLog.limited 0) {} ⟨20⟩ narrowStart hd
    (fun node _ => by split <;> rfl) rfl rfl
  obtain ⟨-, hticks⟩ := hall narrowMoves w hrun
  obtain ⟨-, -, -, -, -, -, -, -, -, hpanel, ⟨v, hfinish, hresult⟩, -⟩ :=
    (hticks t w' t' ht hstep ht').2 _ hfailed
  obtain ⟨hmoments, -⟩ := hall (narrowMoves ++ [.tick]) w' hafter
  exact ⟨w, w', v, t, t', hrun, hstep, ht, ht', hfinish, hresult, ha, hc,
    (hmoments _ (.between ht')).1, hpanel⟩

end World

end FleetTelemetry
