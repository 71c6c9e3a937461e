import FleetTelemetry.Proofs.Collection.Calls
import FleetTelemetry.Proofs.Collection.Delivery
import FleetTelemetry.Proofs.Collection.Turns

/-!
# Pipelines

A pipeline is a world of pollers with different nodes and one aggregator. As long as its aggregator
goes on and nothing is sent on the shutdown channel, no snapshot is lost and none is applied twice,
and the fetches are never more than a few snapshots ahead of what was applied.
-/

namespace FleetTelemetry

/-- A move of a pipeline to which no signal is sent: its tasks take their turns, time passes, and
the senders of signals and of reports may go away. Nobody but the aggregator takes reports. -/
def Move.isUnsignalled : Move → Bool
  | .signal _ => false
  | .take => false
  | .closeReceiver => false
  | _ => true

namespace World

/-- The world of a pipeline before its tasks have begun. -/
def ofPipeline (epoch clockEnd : Nat) (pollers : List Poller) (a : Aggregator) : World :=
  { epoch
    clockEnd
    pollers := pollers.map fun poller => { poller }
    aggregator := some { aggregator := a } }

/-- The aggregator's task has not ended. -/
def IsGoing (w : World) : Prop :=
  ∀ t, w.aggregator = some t → t.end? = none

/-- The reports that the aggregator takes in along a sequence of moves. -/
def received (w : World) : List Move → List Report
  | [] => []
  | m :: ms =>
    match w.step m with
    | none => []
    | some w' => (if m = .receive then w.slot.toList else []) ++ w'.received ms

/-- Every snapshot is accounted for: what the pollers have fetched was applied, is in the channel or
is still with its poller. -/
structure Conserves (pollers : List Poller) (a : Aggregator) (w : World) (applied : List Report) :
    Prop where
  polls : ∀ i : Nat, w.pollers[i]?.map (fun t => (t.poller.node, t.poller.source)) =
    pollers[i]?.map fun p => (p.node, p.source)
  accounts : ∀ (i : Nat) t, w.pollers[i]? = some t → t.AccountsFor (applied ++ w.slot.toList)
  known : ∀ report ∈ applied ++ w.slot.toList, ∃ p ∈ pollers, report.node = p.node
  aggregates : ∃ t, w.aggregator = some t ∧
    t.aggregator.state = applied.foldl FleetState.apply a.state
  unsignalled : w.shutdown.version = 0
  closed : w.sending = false

section

variable {pollers : List Poller} {a : Aggregator} {w w' : World} {applied : List Report}

theorem Conserves.ofPipeline (hfresh : ∀ p ∈ pollers, p.fetches = 0) (epoch clockEnd : Nat) :
    Conserves pollers a (ofPipeline epoch clockEnd pollers a) [] where
  polls i := by
    simp only [World.ofPipeline, List.getElem?_map, Option.map_map]
    rfl
  accounts i t ht := by
    simp only [World.ofPipeline, List.getElem?_map, Option.map_eq_some_iff] at ht
    obtain ⟨p, hp, rfl⟩ := ht
    have hzero := hfresh p (List.mem_of_getElem? hp)
    refine ⟨[], rfl, ?_⟩
    simp [Poller.successes, hzero, World.ofPipeline]
  known report hreport := by simp [World.ofPipeline] at hreport
  aggregates := ⟨_, rfl, rfl⟩
  unsignalled := rfl
  closed := rfl

private theorem Conserves.node_ne (h : Conserves pollers a w applied)
    (hnames : (pollers.map (·.node)).Nodup) {i j : Nat} {t u : PollerTask}
    (ht : w.pollers[i]? = some t) (hu : w.pollers[j]? = some u) (hij : i ≠ j) :
    t.poller.node ≠ u.poller.node := by
  have hname : ∀ (k : Nat) v, w.pollers[k]? = some v →
      (pollers.map (·.node))[k]? = some v.poller.node := by
    intro k v hv
    have hpoll := h.polls k
    rw [hv] at hpoll
    obtain ⟨p, hp, heq⟩ := Option.map_eq_some_iff.mp hpoll.symm
    rw [List.getElem?_map, hp]
    exact congrArg some (congrArg Prod.fst heq)
  intro hnode
  have hi := hname i t ht
  have hj := hname j u hu
  have hlt : i < (pollers.map (·.node)).length := (List.getElem?_eq_some_iff.mp hi).1
  refine hij ((List.getElem?_inj hlt hnames).mp ?_)
  rw [hi, hj, hnode]

private theorem Conserves.setPoller (h : Conserves pollers a w applied) {i : Nat}
    {t t' : PollerTask} (ht : w.pollers[i]? = some t) (hnode : t'.poller.node = t.poller.node)
    (hsource : t'.poller.source = t.poller.source)
    (haccounts : t'.AccountsFor (applied ++ w.slot.toList)) :
    Conserves pollers a (w.setPoller i t') applied where
  polls j := by
    rw [← h.polls j, pollers_setPoller, List.getElem?_set]
    split
    case isTrue hij =>
      subst hij
      rw [if_pos (List.getElem?_eq_some_iff.mp ht).1, ht]
      simp [hnode, hsource]
    case isFalse => rfl
  accounts j u hu := by
    rw [pollers_setPoller, List.getElem?_set] at hu
    split at hu
    case isTrue hij =>
      subst hij
      rw [if_pos (List.getElem?_eq_some_iff.mp ht).1] at hu
      cases hu
      exact haccounts
    case isFalse => exact h.accounts j u hu
  known := h.known
  aggregates := h.aggregates
  unsignalled := h.unsignalled
  closed := h.closed

private theorem Conserves.tell (h : Conserves pollers a w applied)
    (events : List Diagnostics.Event) : Conserves pollers a (w.tell events) applied :=
  ⟨h.polls, h.accounts, h.known, h.aggregates, h.unsignalled, h.closed⟩

private theorem Conserves.setAggregator (h : Conserves pollers a w applied)
    {t t' : AggregatorTask} (ht : w.aggregator = some t) (hgoing : t'.end? = none)
    (hstate : t'.aggregator.state = t.aggregator.state) :
    Conserves pollers a (w.setAggregator t') applied := by
  have hslot : (w.setAggregator t').slot = w.slot := by
    rw [slot_setAggregator, hgoing]
    rfl
  obtain ⟨u, hu, hfold⟩ := h.aggregates
  rw [ht] at hu
  cases hu
  constructor
  · simpa using h.polls
  · simpa [hslot] using h.accounts
  · simpa [hslot] using h.known
  · exact ⟨t', by simp, hstate.trans hfold⟩
  · simpa using h.unsignalled
  · simpa using h.closed

private theorem Conserves.deliver (h : Conserves pollers a w applied)
    (hnames : (pollers.map (·.node)).Nodup) {i : Nat} {t : PollerTask} {report : Report}
    (ht : w.pollers[i]? = some t) (hoffer : t.offer? = some report) (hslot : w.slot = none) :
    Conserves pollers a { w.setPoller i t.delivered with slot := some report } applied := by
  have haccounts := h.accounts i t ht
  rw [hslot, Option.toList_none, List.append_nil] at haccounts
  obtain ⟨hnode, hdelivered⟩ := haccounts.delivered hoffer
  have hpolls : ∀ j : Nat, (w.pollers.set i t.delivered)[j]?.map
      (fun t => (t.poller.node, t.poller.source)) = w.pollers[j]?.map
      fun t => (t.poller.node, t.poller.source) := by
    intro j
    rw [List.getElem?_set]
    split
    case isTrue hij =>
      subst hij
      rw [if_pos (List.getElem?_eq_some_iff.mp ht).1, ht]
      rfl
    case isFalse => rfl
  constructor
  · intro j
    exact (hpolls j).trans (h.polls j)
  · intro j u hu
    rw [pollers_setPoller, List.getElem?_set] at hu
    split at hu
    case isTrue hij =>
      subst hij
      rw [if_pos (List.getElem?_eq_some_iff.mp ht).1] at hu
      cases hu
      exact hdelivered
    case isFalse hij =>
      have hother := h.accounts j u hu
      rw [hslot, Option.toList_none, List.append_nil] at hother
      exact hother.concat (hnode ▸ h.node_ne hnames ht hu hij)
  · intro r hr
    rcases List.mem_append.mp hr with hr | hr
    · exact h.known r (List.mem_append_left _ hr)
    · have hr : r = report := by simpa using hr
      have hpoll := h.polls i
      rw [ht] at hpoll
      obtain ⟨p, hp, heq⟩ := Option.map_eq_some_iff.mp hpoll.symm
      refine ⟨p, List.mem_of_getElem? hp, ?_⟩
      rw [hr, hnode]
      exact (congrArg Prod.fst heq).symm
  · exact h.aggregates
  · exact h.unsignalled
  · exact h.closed

private theorem Conserves.receive (h : Conserves pollers a w applied) {t t' : AggregatorTask}
    {report : Report} (ht : w.aggregator = some t) (hslot : w.slot = some report)
    (hreceive : t.receive report = some t') :
    Conserves pollers a { w.setAggregator t' with slot := none } (applied ++ [report]) := by
  obtain ⟨hphase, -, rfl⟩ := AggregatorTask.receive_eq_some_iff.mp hreceive
  have haccounts := h.accounts
  have hknown := h.known
  rw [hslot, Option.toList_some] at haccounts hknown
  obtain ⟨u, hu, hfold⟩ := h.aggregates
  rw [ht] at hu
  cases hu
  constructor
  · simpa using h.polls
  · simpa using haccounts
  · simpa using hknown
  · refine ⟨_, aggregator_setAggregator _ _, ?_⟩
    rw [List.foldl_append, ← hfold]
    rfl
  · simpa using h.unsignalled
  · simpa using h.closed

/-- An aggregator's task that has ended stays so: if it goes on after a move, it did before. -/
theorem IsGoing.of_step {m : Move} (hgoing : w'.IsGoing) (hstep : w.step m = some w') :
    w.IsGoing := by
  have hphase : ∀ {t : AggregatorTask}, w.aggregator = some t → t.end? = none → w.IsGoing := by
    intro t ht hend u hu
    rw [ht] at hu
    cases hu
    exact hend
  cases m with
  | startPoller i =>
    obtain ⟨t, t', events, -, -, rfl⟩ := step_startPoller_iff.mp hstep
    exact hgoing
  | beginFetch i =>
    obtain ⟨t, t', -, -, rfl⟩ := step_beginFetch_iff.mp hstep
    exact hgoing
  | endFetch i =>
    obtain ⟨t, t', events, -, -, rfl⟩ := step_endFetch_iff.mp hstep
    exact hgoing
  | deliver i =>
    obtain ⟨t, report, -, -, -, -, rfl⟩ := step_deliver_iff.mp hstep
    exact hgoing
  | abandon i =>
    obtain ⟨t, -, -, -, rfl⟩ := step_abandon_iff.mp hstep
    exact hgoing
  | noticePoller i =>
    obtain ⟨t, t', -, -, rfl⟩ := step_noticePoller_iff.mp hstep
    exact hgoing
  | startAggregator =>
    obtain ⟨t, t', events, ht, hstart, -⟩ := step_startAggregator_iff.mp hstep
    exact hphase ht (by simp [AggregatorTask.end?, (AggregatorTask.start_eq_some_iff.mp hstart).1])
  | receive =>
    obtain ⟨t, t', report, ht, -, hreceive, -⟩ := step_receive_iff.mp hstep
    have hrunning := (AggregatorTask.receive_eq_some_iff.mp hreceive).1
    exact hphase ht (AggregatorTask.end?_of_running hrunning)
  | closeReports =>
    obtain ⟨t, t', events, ht, hclose, -⟩ := step_closeReports_iff.mp hstep
    have hrunning := (AggregatorTask.closeReports_eq_some_iff.mp hclose).1
    exact hphase ht (AggregatorTask.end?_of_running hrunning)
  | tick =>
    obtain ⟨t, t', events, ht, htick, -⟩ := step_tick_iff.mp hstep
    have hrunning := (AggregatorTask.tick_eq_some_iff.mp htick).1
    exact hphase ht (AggregatorTask.end?_of_running hrunning)
  | noticeAggregator =>
    obtain ⟨t, t', events, ht, hnotice, -⟩ := step_noticeAggregator_iff.mp hstep
    have hrunning := (AggregatorTask.notice_eq_some_iff.mp hnotice).1
    exact hphase ht (AggregatorTask.end?_of_running hrunning)
  | finish =>
    obtain ⟨t, how, -, -, -, rfl⟩ := step_finish_iff.mp hstep
    exact hgoing
  | wait time =>
    obtain ⟨-, rfl⟩ := step_wait_iff.mp hstep
    exact hgoing
  | signal value =>
    obtain ⟨-, rfl⟩ := step_signal_iff.mp hstep
    exact hgoing
  | dropSignal =>
    cases step_dropSignal_iff.mp hstep
    exact hgoing
  | send report =>
    obtain ⟨-, rfl⟩ := step_send_iff.mp hstep
    exact hgoing
  | closeSender =>
    cases step_closeSender_iff.mp hstep
    exact hgoing
  | take =>
    obtain ⟨-, h⟩ := Option.ite_none_right_eq_some.mp hstep
    cases h
    exact hgoing
  | closeReceiver =>
    cases hstep
    exact hgoing

theorem Conserves.step (h : Conserves pollers a w applied)
    (hnames : (pollers.map (·.node)).Nodup) {m : Move} (hm : m.isUnsignalled = true)
    (hstep : w.step m = some w') (hgoing : w'.IsGoing) :
    Conserves pollers a w' (applied ++ if m = .receive then w.slot.toList else []) := by
  cases m with
  | startPoller i =>
    obtain ⟨t, t', events, ht, hstart, rfl⟩ := step_startPoller_iff.mp hstep
    obtain ⟨hpoller, haccounts⟩ := (h.accounts i t ht).start hstart
    simpa using (h.setPoller ht (by rw [hpoller]) (by rw [hpoller]) haccounts).tell events
  | beginFetch i =>
    obtain ⟨t, t', ht, hbegin, rfl⟩ := step_beginFetch_iff.mp hstep
    obtain ⟨hpoller, haccounts⟩ := (h.accounts i t ht).beginFetch hbegin
    simpa using h.setPoller ht (by rw [hpoller]) (by rw [hpoller]) haccounts
  | endFetch i =>
    obtain ⟨t, t', events, ht, hend, rfl⟩ := step_endFetch_iff.mp hstep
    obtain ⟨hnode, hsource, haccounts⟩ := (h.accounts i t ht).endFetch hend
    simpa using (h.setPoller ht hnode hsource haccounts).tell events
  | deliver i =>
    obtain ⟨t, report, ht, hoffer, -, hslot, rfl⟩ := step_deliver_iff.mp hstep
    simpa using h.deliver hnames ht hoffer hslot
  | abandon i =>
    obtain ⟨t, ht, -, -, rfl⟩ := step_abandon_iff.mp hstep
    obtain ⟨hpoller, haccounts⟩ := (h.accounts i t ht).abandon
    simpa using (h.setPoller ht (by rw [hpoller]) (by rw [hpoller]) haccounts).tell t.abandon.2
  | noticePoller i =>
    obtain ⟨t, t', ht, hnotice, rfl⟩ := step_noticePoller_iff.mp hstep
    obtain ⟨hpoller, haccounts⟩ := (h.accounts i t ht).notice h.unsignalled hnotice
    simpa using h.setPoller ht (by rw [hpoller]) (by rw [hpoller]) haccounts
  | startAggregator =>
    obtain ⟨t, t', events, ht, hstart, rfl⟩ := step_startAggregator_iff.mp hstep
    have hend := hgoing t' (by simp)
    have hsame : t'.aggregator = t.aggregator := by
      rcases (AggregatorTask.start_eq_some_iff.mp hstart).2 with ⟨-, rfl, -⟩ | ⟨-, rfl, -⟩ <;> rfl
    simpa using (h.setAggregator ht hend (by rw [hsame])).tell events
  | receive =>
    obtain ⟨t, t', report, ht, hslot, hreceive, rfl⟩ := step_receive_iff.mp hstep
    simpa [hslot] using h.receive ht hslot hreceive
  | closeReports =>
    obtain ⟨t, t', events, ht, hclose, -, -, rfl⟩ := step_closeReports_iff.mp hstep
    have hend := hgoing t' (by simp)
    obtain ⟨-, -, rfl, -⟩ := AggregatorTask.closeReports_eq_some_iff.mp hclose
    simpa using (h.setAggregator ht hend rfl).tell events
  | tick =>
    obtain ⟨t, t', events, ht, htick, rfl⟩ := step_tick_iff.mp hstep
    have hend := hgoing t' (by simp)
    obtain ⟨-, -, rfl, -⟩ := AggregatorTask.tick_eq_some_iff.mp htick
    have hstate := (t.aggregator.tick_state ⟨w.now⟩ w.timestamp).1
    simpa using (h.setAggregator ht hend hstate).tell events
  | noticeAggregator =>
    obtain ⟨t, t', events, ht, hnotice, rfl⟩ := step_noticeAggregator_iff.mp hstep
    have hend := hgoing t' (by simp)
    have hsame : t'.aggregator = t.aggregator := by
      rcases (AggregatorTask.notice_eq_some_iff.mp hnotice).2 with ⟨-, rfl, -⟩ | ⟨-, rfl, -⟩ <;> rfl
    simpa using (h.setAggregator ht hend (by rw [hsame])).tell events
  | finish =>
    obtain ⟨t, how, ht, hend, -, rfl⟩ := step_finish_iff.mp hstep
    have hnone := hgoing t ht
    rw [hend] at hnone
    cases hnone
  | wait time =>
    obtain ⟨-, rfl⟩ := step_wait_iff.mp hstep
    simpa using (⟨h.polls, h.accounts, h.known, h.aggregates, h.unsignalled, h.closed⟩ :
      Conserves pollers a { w with now := time } applied)
  | dropSignal =>
    cases step_dropSignal_iff.mp hstep
    simpa using (⟨h.polls, h.accounts, h.known, h.aggregates, h.unsignalled, h.closed⟩ :
      Conserves pollers a { w with shutdown := { w.shutdown with dropped := true } } applied)
  | send report =>
    obtain ⟨⟨hsending, -⟩, -⟩ := step_send_iff.mp hstep
    rw [h.closed] at hsending
    cases hsending
  | closeSender =>
    cases step_closeSender_iff.mp hstep
    simpa using (⟨h.polls, h.accounts, h.known, h.aggregates, h.unsignalled, rfl⟩ :
      Conserves pollers a { w with sending := false } applied)
  | signal value => cases hm
  | take => cases hm
  | closeReceiver => cases hm

private theorem IsGoing.of_run {ms : List Move} (hgoing : w'.IsGoing) (hrun : w.run ms = some w') :
    w.IsGoing := by
  induction ms generalizing w with
  | nil =>
    cases hrun
    exact hgoing
  | cons m ms ih =>
    obtain ⟨v, hstep, hrest⟩ := Option.bind_eq_some_iff.mp hrun
    exact (ih hrest).of_step hstep

theorem Conserves.run {ms : List Move} (h : Conserves pollers a w applied)
    (hnames : (pollers.map (·.node)).Nodup) (hms : ∀ m ∈ ms, m.isUnsignalled = true)
    (hrun : w.run ms = some w') (hgoing : w'.IsGoing) :
    Conserves pollers a w' (applied ++ w.received ms) := by
  induction ms generalizing w applied with
  | nil =>
    cases hrun
    simpa [received] using h
  | cons m ms ih =>
    obtain ⟨v, hstep, hrest⟩ := Option.bind_eq_some_iff.mp hrun
    have hv := h.step hnames (hms m List.mem_cons_self) hstep (hgoing.of_run hrest)
    have hrun := ih hv (fun n hn => hms n (List.mem_cons_of_mem m hn)) hrest
    rw [List.append_assoc] at hrun
    simpa [received, hstep] using hrun

private theorem sum_le_sum_add_length {α : Type} (xs : List α) (f g : α → Nat)
    (h : ∀ x ∈ xs, f x ≤ g x + 1) : (xs.map f).sum ≤ (xs.map g).sum + xs.length := by
  induction xs with
  | nil => simp
  | cons x xs ih =>
    have hx := h x List.mem_cons_self
    have hxs := ih fun y hy => h y (List.mem_cons_of_mem x hy)
    simp only [List.map_cons, List.sum_cons, List.length_cons]
    omega

theorem Conserves.nodes (h : Conserves pollers a w applied) :
    w.pollers.map (·.poller.node) = pollers.map (·.node) := by
  refine List.ext_getElem? fun i => ?_
  have hpoll := congrArg (Option.map Prod.fst) (h.polls i)
  simpa [List.getElem?_map, Option.map_map, Function.comp_def] using hpoll

private theorem Conserves.total_le (h : Conserves pollers a w applied)
    (hnames : (pollers.map (·.node)).Nodup) :
    (w.pollers.map fun t => t.poller.successes.length).sum ≤
      applied.length + pollers.length + 1 := by
  have haccounts := h.accounts
  have hhanded : (applied ++ w.slot.toList).length ≤ applied.length + 1 := by
    cases w.slot <;> simp
  generalize applied ++ w.slot.toList = handed at haccounts hhanded
  have heach : ∀ t ∈ w.pollers,
      t.poller.successes.length ≤ (snapshotsOf handed t.poller.node).length + 1 := by
    intro t ht
    obtain ⟨i, hi⟩ := List.getElem?_of_mem ht
    obtain ⟨kept, hkept, heq⟩ := haccounts i t hi
    have hlength := hkept.length_le
    rw [heq, List.length_append]
    omega
  have hsum := sum_le_sum_add_length w.pollers _ _ heach
  have hnodes := sum_length_snapshotsOf_le hnames handed
  rw [← h.nodes, List.map_map] at hnodes
  have hlength : w.pollers.length = pollers.length := by
    simpa using congrArg List.length h.nodes
  simp only [Function.comp_def] at hnodes
  omega

/-- In a pipeline of pollers with different nodes, as long as its aggregator goes on and nothing is
sent on the shutdown channel, whatever the order of the moves: each report that the aggregator takes
in is applied once, and for each node the snapshots of its fetches are, in order, those that were
applied, the one in the channel if it is of that node, and at most one that its poller holds. -/
theorem pipeline_conserves_snapshots (epoch clockEnd : Nat) (pollers : List Poller)
    (a : Aggregator) (ms : List Move) (w : World) (hnames : (pollers.map (·.node)).Nodup)
    (hfresh : ∀ p ∈ pollers, p.fetches = 0) (hms : ∀ m ∈ ms, m.isUnsignalled = true)
    (hrun : (World.ofPipeline epoch clockEnd pollers a).run ms = some w) (hgoing : w.IsGoing) :
    let applied := (World.ofPipeline epoch clockEnd pollers a).received ms
    (∃ t, w.aggregator = some t ∧
      t.aggregator.state = applied.foldl FleetState.apply a.state) ∧
    (∀ report ∈ applied, ∃ p ∈ pollers, report.node = p.node) ∧
    (∀ (i : Nat) p, pollers[i]? = some p → ∃ t held,
      w.pollers[i]? = some t ∧ t.poller.node = p.node ∧ t.poller.source = p.source ∧
      t.Keeps held ∧ held.length ≤ 1 ∧
      t.poller.successes =
        snapshotsOf applied p.node ++ snapshotsOf w.slot.toList p.node ++ held ∧
      snapshotsOf applied p.node <+: t.poller.successes ∧
      t.poller.successes.length ≤ (snapshotsOf applied p.node).length + 2) ∧
    (w.pollers.map fun t => t.poller.successes.length).sum ≤
      applied.length + pollers.length + 1 := by
  intro applied
  have h : Conserves pollers a w applied := by
    have hrest := (Conserves.ofPipeline hfresh epoch clockEnd (a := a)).run hnames hms hrun hgoing
    rwa [List.nil_append] at hrest
  refine ⟨h.aggregates, ?_, ?_, h.total_le hnames⟩
  · intro report hreport
    exact h.known report (List.mem_append_left _ hreport)
  · intro i p hp
    have hpoll := h.polls i
    rw [hp] at hpoll
    obtain ⟨t, ht, hsame⟩ := Option.map_eq_some_iff.mp hpoll
    have hnode : t.poller.node = p.node := congrArg Prod.fst hsame
    have hsource : t.poller.source = p.source := congrArg Prod.snd hsame
    obtain ⟨held, hheld, heq⟩ := h.accounts i t ht
    rw [hnode, snapshotsOf_append] at heq
    have hslot : (snapshotsOf w.slot.toList p.node).length ≤ 1 := by
      have hfilter :=
        List.length_filter_le (fun r : Report => decide (r.node = p.node)) w.slot.toList
      have hroom : w.slot.toList.length ≤ 1 := by cases w.slot <;> simp
      simp only [snapshotsOf, List.length_map]
      omega
    refine ⟨t, held, ht, hnode, hsource, hheld, hheld.length_le, heq, ?_, ?_⟩
    · rw [heq, List.append_assoc]
      exact List.prefix_append _ _
    · have hlength := hheld.length_le
      rw [heq, List.length_append, List.length_append]
      omega

def pairPollers : List Poller :=
  [{ node := "a", source := ⟨"a", fun _ => .ok {}, fun _ => 0⟩, interval := ⟨10⟩ },
    { node := "c"
      source := ⟨"c", fun k => if k % 2 = 0 then Http.refused else .ok {}, fun _ => 3⟩
      interval := ⟨5⟩ }]

/-- An order of moves after which one report was applied, one is in the channel and one is held. -/
def pairMoves : List Move :=
  [.startPoller 0, .startPoller 1, .startAggregator, .beginFetch 0, .beginFetch 1, .endFetch 0,
    .deliver 0, .wait 4, .endFetch 1, .wait 10, .receive, .beginFetch 0, .beginFetch 1, .endFetch 0,
    .deliver 0, .wait 13, .endFetch 1]

def pairAggregator : Aggregator :=
  { roster := ⟨∅, 0, 0⟩, divisors := ⟨1, 1, .full⟩, logs := ∅, interval := ⟨100⟩ }

theorem pipeline_conserves_snapshots_pair :
    ∃ w, (World.ofPipeline 0 clockRange pairPollers pairAggregator).run pairMoves = some w ∧
      w.IsGoing ∧
      ((World.ofPipeline 0 clockRange pairPollers pairAggregator).received pairMoves).length = 1 ∧
      (w.pollers.map fun t => t.poller.successes.length) = [2, 1] ∧
      (w.pollers.map fun t => t.poller.successes.length).sum ≤
        ((World.ofPipeline 0 clockRange pairPollers pairAggregator).received pairMoves).length +
          pairPollers.length + 1 := by
  obtain ⟨w, hw⟩ : ∃ w,
      (World.ofPipeline 0 clockRange pairPollers pairAggregator).run pairMoves = some w := ⟨_, rfl⟩
  have hgoing : w.IsGoing := by
    intro t ht
    cases hw
    cases ht
    rfl
  have hlengths : (w.pollers.map fun t => t.poller.successes.length) = [2, 1] := by
    cases hw
    rfl
  obtain ⟨-, -, -, htotal⟩ := pipeline_conserves_snapshots 0 clockRange pairPollers pairAggregator
    pairMoves w (by decide) (by decide) (by decide) hw hgoing
  exact ⟨w, hw, hgoing, rfl, hlengths, htotal⟩

end

end World

end FleetTelemetry
