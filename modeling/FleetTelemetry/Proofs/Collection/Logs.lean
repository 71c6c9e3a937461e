import FleetTelemetry.Collection.Logs

/-!
# Logs whose writers do not fail

A tick then appends one row to every log and leaves the set of logs as it is.
-/

namespace FleetTelemetry

namespace NodeLog

/-- The writer of a log accepts every row. -/
def Unfailing (log : NodeLog) : Prop := ∀ attempt, log.outcomeAt attempt = .appended

def extend (log : NodeLog) (row : LogRow) : NodeLog :=
  { log with rows := log.rows.push row, attempts := log.attempts + 1 }

@[simp] theorem rows_extend (log : NodeLog) (row : LogRow) :
    (log.extend row).rows = log.rows.push row := rfl

theorem Unfailing.extend {log : NodeLog} (h : log.Unfailing) (row : LogRow) :
    (log.extend row).Unfailing := h

end NodeLog

namespace NodeLogs

/-- Every writer accepts every row. -/
def Unfailing (logs : NodeLogs) : Prop :=
  ∀ (node : String) (log : NodeLog), logs[node]? = some log → log.Unfailing

theorem getElem?_ofNodes (nodes : List String) (log : String → NodeLog) (node : String) :
    (ofNodes nodes log)[node]? = if node ∈ nodes then some (log node) else none := by
  have general : ∀ (nodes : List String) (logs : NodeLogs),
      (nodes.foldl (fun logs node => logs.insert node (log node)) logs)[node]? =
        if node ∈ nodes then some (log node) else logs[node]? := by
    intro nodes
    induction nodes with
    | nil => simp
    | cons first rest ih =>
      intro logs
      rw [List.foldl_cons, ih]
      by_cases hfirst : first = node
      · simp [hfirst]
      · simp [Std.ExtTreeMap.getElem?_insert, hfirst, Ne.symm hfirst]
  have h := general nodes ∅
  simpa [ofNodes] using h

theorem getElem?_insert_of_ne {logs : NodeLogs} {node other : String} (log : NodeLog)
    (h : node ≠ other) : (logs.insert node log)[other]? = logs[other]? := by
  simp [Std.ExtTreeMap.getElem?_insert, h]

section

variable (row : String → LogRow) {node : String} (rest : List String) {logs : NodeLogs}
  {log : NodeLog} (hlog : logs[node]? = some log)

include hlog

theorem appendRows_cons_of_appended (h : log.outcomeAt log.attempts = .appended) :
    appendRows row (node :: rest) logs =
      appendRows row rest (logs.insert node (log.extend (row node))) := by
  simp only [appendRows, hlog, Option.getD_some, NodeLog.append, h]
  rfl

theorem appendRows_cons_of_failed {fault : FileFault}
    (h : log.outcomeAt log.attempts = .failed fault) :
    appendRows row (node :: rest) logs =
      (.failed { node, fault }, logs.insert node { log with attempts := log.attempts + 1 }) := by
  simp only [appendRows, hlog, Option.getD_some, NodeLog.append, h]

theorem appendRows_cons_of_crashed (h : log.outcomeAt log.attempts = .crashed) :
    appendRows row (node :: rest) logs =
      (.crashed, logs.insert node { log with attempts := log.attempts + 1 }) := by
  simp only [appendRows, hlog, Option.getD_some, NodeLog.append, h]

end

private theorem appendRows_of_unfailing (row : String → LogRow) {nodes : List String}
    (hn : nodes.Nodup)
    {logs : NodeLogs} (hm : ∀ node ∈ nodes, ∃ log, logs[node]? = some log ∧ log.Unfailing) :
    (appendRows row nodes logs).1 = .written ∧
      ∀ node : String, (appendRows row nodes logs).2[node]? =
        if node ∈ nodes then logs[node]?.map (·.extend (row node)) else logs[node]? := by
  induction nodes generalizing logs with
  | nil => simp [appendRows]
  | cons first rest ih =>
    obtain ⟨hfirst, hrest⟩ := List.nodup_cons.mp hn
    obtain ⟨log, hlog, hu⟩ := hm first (List.mem_cons_self ..)
    have hstep := appendRows_cons_of_appended row rest hlog (hu log.attempts)
    have hm' : ∀ node ∈ rest, ∃ log',
        (logs.insert first (log.extend (row first)))[node]? = some log' ∧ log'.Unfailing := by
      intro node hnode
      have hne : first ≠ node := fun e => hfirst (e ▸ hnode)
      obtain ⟨log', hlog', hu'⟩ := hm node (List.mem_cons_of_mem _ hnode)
      exact ⟨log', (getElem?_insert_of_ne _ hne).trans hlog', hu'⟩
    obtain ⟨hok, hget⟩ := ih hrest hm'
    rw [hstep]
    refine ⟨hok, fun node => ?_⟩
    rw [hget node]
    by_cases hnode : first = node
    · subst hnode
      simp [hfirst, hlog]
    · simp [Std.ExtTreeMap.getElem?_insert, hnode, Ne.symm hnode]

theorem writeTick_of_unfailing {logs : NodeLogs} (h : logs.Unfailing) (timestamp : UInt64)
    (current : SnapshotMap) :
    (logs.writeTick timestamp current).1 = .written ∧
      ∀ node : String, (logs.writeTick timestamp current).2[node]? =
        logs[node]?.map (·.extend (LogRow.ofNode timestamp current node)) := by
  have hm : ∀ node ∈ logs.keys, ∃ log, logs[node]? = some log ∧ log.Unfailing := by
    intro node hnode
    have hmem : node ∈ logs := Std.ExtTreeMap.mem_keys.mp hnode
    exact ⟨logs[node], Std.ExtTreeMap.getElem?_eq_some_getElem hmem,
      h node _ (Std.ExtTreeMap.getElem?_eq_some_getElem hmem)⟩
  obtain ⟨hok, hget⟩ :=
    appendRows_of_unfailing (LogRow.ofNode timestamp current) Std.ExtTreeMap.nodup_keys hm
  refine ⟨hok, fun node => ?_⟩
  rw [writeTick, hget node]
  by_cases hnode : node ∈ logs.keys
  · rw [if_pos hnode]
  · have hnone : logs[node]? = none :=
      Std.ExtTreeMap.getElem?_eq_none fun hmem => hnode (Std.ExtTreeMap.mem_keys.mpr hmem)
    simp [hnone]

theorem Unfailing.writeTick {logs : NodeLogs} (h : logs.Unfailing) (timestamp : UInt64)
    (current : SnapshotMap) : (logs.writeTick timestamp current).2.Unfailing := by
  intro node log hlog
  rw [(writeTick_of_unfailing h timestamp current).2, Option.map_eq_some_iff] at hlog
  obtain ⟨log', hlog', rfl⟩ := hlog
  exact (h node log' hlog').extend _

end NodeLogs

end FleetTelemetry
