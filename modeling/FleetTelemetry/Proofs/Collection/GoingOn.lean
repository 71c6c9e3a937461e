import FleetTelemetry.Proofs.Collection.Offers

/-!
# Signals for going on

A setting of the shutdown signal that is not for stopping does one thing to a poller: when the
poller looks at it, the report that waits for room is dropped. A run in which this does not happen
is still a run without those settings and without the looks at them, and the poller hands over the
same reports in it.
-/

namespace FleetTelemetry

/-- A move that is neither a setting of the signal for going on nor a poller's look at the
signal. -/
def Move.isSolid : Move → Bool
  | .signal value => value
  | .noticePoller _ => false
  | _ => true

namespace Shutdown

/-- A signal `quiet`, of which a task has seen the first `seen` settings, is for stopping as
`shutdown` is after the first `before` settings, and leaves the task no setting for going on to
see. -/
structure Hushes (quiet : Shutdown) (seen : Nat) (shutdown : Shutdown) (before : Nat) : Prop where
  value : quiet.value = shutdown.value
  dropped : quiet.dropped = shutdown.dropped
  known : before ≤ shutdown.version
  quietKnown : seen ≤ quiet.version
  stop : shutdown.value = true → (before < shutdown.version ↔ seen < quiet.version)
  goOn : shutdown.value = false → ¬ seen < quiet.version

variable {quiet shutdown : Shutdown} {seen before : Nat}

private theorem Hushes.notice_stop (h : quiet.Hushes seen shutdown before)
    (hstop : shutdown.notice before = some .stop) : quiet.notice seen = some .stop := by
  refine notice_eq_stop_iff.mpr ?_
  rcases notice_eq_stop_iff.mp hstop with ⟨hunseen, hvalue⟩ | ⟨hseen, hdropped⟩
  · exact .inl ⟨(h.stop hvalue).mp hunseen, h.value.trans hvalue⟩
  · refine .inr ⟨?_, h.dropped.trans hdropped⟩
    cases hvalue : shutdown.value with
    | true => exact mt (h.stop hvalue).mpr hseen
    | false => exact h.goOn hvalue

theorem Hushes.see (h : quiet.Hushes seen shutdown before) :
    quiet.Hushes quiet.version shutdown shutdown.version :=
  ⟨h.value, h.dropped, Nat.le_refl _, Nat.le_refl _, fun _ => by simp, fun _ => Nat.lt_irrefl _⟩

private theorem Hushes.see_goOn (h : quiet.Hushes seen shutdown before)
    (hvalue : shutdown.value = false) :
    quiet.Hushes seen shutdown shutdown.version where
  value := h.value
  dropped := h.dropped
  known := Nat.le_refl _
  quietKnown := h.quietKnown
  stop htrue := by simp [hvalue] at htrue
  goOn := h.goOn

private theorem Hushes.set_goOn (h : quiet.Hushes seen shutdown before)
    (hvalue : shutdown.value = false) :
    quiet.Hushes seen { shutdown with value := false, version := shutdown.version + 1 } before where
  value := h.value.trans hvalue
  dropped := h.dropped
  known := Nat.le_succ_of_le h.known
  quietKnown := h.quietKnown
  stop := nofun
  goOn _ := h.goOn hvalue

private theorem Hushes.set_stop (h : quiet.Hushes seen shutdown before) :
    Hushes { quiet with value := true, version := quiet.version + 1 } seen
      { shutdown with value := true, version := shutdown.version + 1 } before where
  value := rfl
  dropped := h.dropped
  known := Nat.le_succ_of_le h.known
  quietKnown := Nat.le_succ_of_le h.quietKnown
  stop _ := iff_of_true (Nat.lt_succ_of_le h.known) (Nat.lt_succ_of_le h.quietKnown)
  goOn := nofun

theorem Hushes.drop (h : quiet.Hushes seen shutdown before) :
    Hushes { quiet with dropped := true } seen { shutdown with dropped := true } before :=
  { h with dropped := rfl }

end Shutdown

namespace PollerTask

/-! ## What a task does without a look at the signal -/

variable {t t' : PollerTask} {events : List Diagnostics.Event} {now : Nat}

private theorem start_of_seen (h : t.start now = some (t', events)) (seen : Nat) :
    t'.seen = t.seen ∧ { t with seen }.start now = some ({ t' with seen }, events) := by
  obtain ⟨hcreated, ⟨hzero, rfl, rfl⟩ | ⟨hpos, rfl, rfl⟩⟩ := start_eq_some_iff.mp h
  · exact ⟨rfl, start_eq_some_iff.mpr ⟨hcreated, .inl ⟨hzero, rfl, rfl⟩⟩⟩
  · exact ⟨rfl, start_eq_some_iff.mpr ⟨hcreated, .inr ⟨hpos, rfl, rfl⟩⟩⟩

private theorem beginFetch_of_seen (h : t.beginFetch now = some t') (seen : Nat) :
    t'.seen = t.seen ∧ { t with seen }.beginFetch now = some { t' with seen } := by
  obtain ⟨hidle, hdue, rfl⟩ := beginFetch_eq_some_iff.mp h
  exact ⟨rfl, beginFetch_eq_some_iff.mpr ⟨hidle, hdue, rfl⟩⟩

private theorem endFetch_of_seen (h : t.endFetch now = some (t', events)) (seen : Nat) :
    t'.seen = t.seen ∧ { t with seen }.endFetch now = some ({ t' with seen }, events) := by
  obtain ⟨ends, hfetching, hends, rfl, rfl⟩ := endFetch_eq_some_iff.mp h
  exact ⟨rfl, endFetch_eq_some_iff.mpr ⟨ends, hfetching, hends, rfl, rfl⟩⟩

end PollerTask

namespace World

/-! ## A run without the settings for going on -/

/-- A world in which the signal and what the poller has seen of it are others. -/
def hush (w : World) (t : PollerTask) (quiet : Shutdown) (seen : Nat) : World :=
  { w with shutdown := quiet, pollers := [{ t with seen }] }

structure Hushed (w : World) (t : PollerTask) (quiet : Shutdown) (seen : Nat) : Prop where
  lone : w.Lone t
  signal : quiet.Hushes seen w.shutdown t.seen

section

variable {w w' : World} {t : PollerTask} {quiet : Shutdown} {seen : Nat} {m : Move}

theorem Hushed.ofPoller (epoch : Nat) (p : Poller) :
    Hushed (ofPoller epoch p) { poller := p } {} 0 where
  lone := ⟨rfl, rfl⟩
  signal := ⟨rfl, rfl, Nat.le_refl _, Nat.le_refl _, fun _ => Iff.rfl, fun _ => Nat.lt_irrefl _⟩

private theorem Hushed.quiet_lone (h : w.Hushed t quiet seen) :
    (w.hush t quiet seen).Lone { t with seen } :=
  ⟨rfl, h.lone.aggregator⟩

theorem Hushed.of_task (h : w.Hushed t quiet seen) {t' : PollerTask} (hlone : w'.Lone t')
    (hseen : t'.seen = t.seen) (hshutdown : w'.shutdown = w.shutdown) :
    w'.Hushed t' quiet seen := by
  refine ⟨hlone, ?_⟩
  rw [hseen, hshutdown]
  exact h.signal

/-- One move in which no report is dropped: it can be made under the quiet signal too, or it is not
solid and can be left out. -/
theorem Hushed.step (h : w.Hushed t quiet seen) (hstep : w.step m = some w')
    (hkept : ∀ report, w.fate? m ≠ some (.dropped report))
    (hvalue : m = .signal false → w.shutdown.value = false) :
    ∃ t' quiet' seen', w'.Hushed t' quiet' seen' ∧
      ((m.isSolid = false ∧ w.fate? m = none ∧
          w'.hush t' quiet' seen' = w.hush t quiet seen) ∨
        (m ≠ .signal false ∧ (w.hush t quiet seen).fate? m = w.fate? m ∧
          (w.hush t quiet seen).step m = some (w'.hush t' quiet' seen'))) := by
  have ht : w.pollers[0]? = some t := by simp [h.lone.pollers]
  cases h.lone.of_step hstep with
  | start hstart =>
    obtain ⟨hseen, hquiet⟩ := PollerTask.start_of_seen hstart seen
    exact ⟨_, quiet, seen, h.of_task ⟨rfl, h.lone.aggregator⟩ hseen rfl,
      .inr ⟨by simp, rfl, LoneStep.step (.start hquiet) h.quiet_lone⟩⟩
  | beginFetch hbegin =>
    obtain ⟨hseen, hquiet⟩ := PollerTask.beginFetch_of_seen hbegin seen
    exact ⟨_, quiet, seen, h.of_task ⟨rfl, h.lone.aggregator⟩ hseen rfl,
      .inr ⟨by simp, rfl, LoneStep.step (.beginFetch hquiet) h.quiet_lone⟩⟩
  | endFetch hend =>
    obtain ⟨hseen, hquiet⟩ := PollerTask.endFetch_of_seen hend seen
    exact ⟨_, quiet, seen, h.of_task ⟨rfl, h.lone.aggregator⟩ hseen rfl,
      .inr ⟨by simp, rfl, LoneStep.step (.endFetch hquiet) h.quiet_lone⟩⟩
  | @deliver report hoffer hreceiving hslot =>
    have hquiet : { t with seen }.offer? = some report := hoffer
    refine ⟨t.delivered, quiet, seen, h.of_task ⟨rfl, h.lone.aggregator⟩ rfl rfl,
      .inr ⟨by simp, ?_, LoneStep.step (.deliver hquiet hreceiving hslot) h.quiet_lone⟩⟩
    simp [fate?, ht, hush, hoffer, hquiet]
  | abandon hoffer hreceiving =>
    have hquiet : { t with seen }.offer?.isSome = true := hoffer
    exact ⟨t.abandon.1, quiet, seen, h.of_task ⟨rfl, h.lone.aggregator⟩ rfl rfl,
      .inr ⟨by simp, rfl, LoneStep.step (.abandon hquiet hreceiving) h.quiet_lone⟩⟩
  | notice hnotice =>
    obtain ⟨hwaits, ⟨hgo, rfl⟩ | ⟨hstop, rfl⟩⟩ := PollerTask.notice_eq_some_iff.mp hnotice
    · -- Only a task that waits for a tick may go on: one that offers a report would drop it.
      have hidle : t.phase = .idle := by
        rcases hwaits with hidle | ⟨report, hoffering⟩
        · exact hidle
        · refine absurd ?_ (hkept report)
          simp [fate?, ht, PollerTask.offer?_eq_some_iff.mpr hoffering, hgo]
      refine ⟨_, quiet, seen, ⟨⟨rfl, h.lone.aggregator⟩,
        h.signal.see_goOn (Shutdown.notice_eq_goOn_iff.mp hgo).2⟩, .inl ⟨rfl, ?_, ?_⟩⟩
      · simp [fate?, ht, PollerTask.offer?, hidle]
      · simp [hush, ← hidle]
    · have hquiet : quiet.notice seen = some .stop := h.signal.notice_stop hstop
      have hlook : { t with seen }.notice quiet =
          some { t with seen := quiet.version, phase := .stopped } :=
        PollerTask.notice_eq_some_iff.mpr ⟨hwaits, .inr ⟨hquiet, rfl⟩⟩
      refine ⟨_, quiet, quiet.version, ⟨⟨rfl, h.lone.aggregator⟩, h.signal.see⟩,
        .inr ⟨by simp, ?_, LoneStep.step (.notice hlook) h.quiet_lone⟩⟩
      simp [fate?, ht, hush, hstop, hquiet]
  | wait hle =>
    exact ⟨t, quiet, seen, h.of_task ⟨h.lone.pollers, h.lone.aggregator⟩ rfl rfl,
      .inr ⟨by simp, rfl, LoneStep.step (.wait hle) h.quiet_lone⟩⟩
  | @signal value hheld =>
    have hlone : Lone { w with
        shutdown := { w.shutdown with value, version := w.shutdown.version + 1 } } t :=
      ⟨h.lone.pollers, h.lone.aggregator⟩
    cases value with
    | false =>
      exact ⟨t, quiet, seen, ⟨hlone, h.signal.set_goOn (hvalue rfl)⟩, .inl ⟨rfl, rfl, rfl⟩⟩
    | true =>
      have hquiet : quiet.dropped = false := h.signal.dropped.trans hheld
      exact ⟨t, { quiet with value := true, version := quiet.version + 1 }, seen,
        ⟨hlone, h.signal.set_stop⟩,
        .inr ⟨by simp, rfl, LoneStep.step (.signal hquiet) h.quiet_lone⟩⟩
  | dropSignal =>
    exact ⟨t, { quiet with dropped := true }, seen,
      ⟨⟨h.lone.pollers, h.lone.aggregator⟩, h.signal.drop⟩,
      .inr ⟨by simp, rfl, LoneStep.step .dropSignal h.quiet_lone⟩⟩
  | send hroom =>
    exact ⟨t, quiet, seen, h.of_task ⟨h.lone.pollers, h.lone.aggregator⟩ rfl rfl,
      .inr ⟨by simp, rfl, LoneStep.step (.send hroom) h.quiet_lone⟩⟩
  | closeSender =>
    exact ⟨t, quiet, seen, h.of_task ⟨h.lone.pollers, h.lone.aggregator⟩ rfl rfl,
      .inr ⟨by simp, rfl, LoneStep.step .closeSender h.quiet_lone⟩⟩
  | take hslot =>
    exact ⟨t, quiet, seen, h.of_task ⟨h.lone.pollers, h.lone.aggregator⟩ rfl rfl,
      .inr ⟨by simp, rfl, LoneStep.step (.take hslot) h.quiet_lone⟩⟩
  | closeReceiver =>
    exact ⟨t, quiet, seen, h.of_task ⟨h.lone.pollers, h.lone.aggregator⟩ rfl rfl,
      .inr ⟨by simp, rfl, LoneStep.step .closeReceiver h.quiet_lone⟩⟩

private theorem LoneStep.value_eq_true (h : LoneStep w t m w') (hvalue : w'.shutdown.value = true) :
    w.shutdown.value = true ∨ m = .signal true := by
  cases h with
  | @signal value =>
    cases hvalue
    exact .inr rfl
  | _ => exact .inl hvalue

/-- A sequence of moves in which no report is dropped can be made without the settings for going
on. -/
theorem Hushed.run {ms : List Move} (h : w.Hushed t quiet seen) (hrun : w.run ms = some w')
    (hkept : ∀ fate ∈ w.fates ms, ∃ report, fate = .handedOver report)
    (horder : ms.Pairwise fun m later => m = .signal true → later ≠ .signal false)
    (hvalue : w.shutdown.value = true → .signal false ∉ ms) :
    ∃ ms' t' quiet' seen', w'.Hushed t' quiet' seen' ∧ ms'.Sublist ms ∧ .signal false ∉ ms' ∧
      ms'.filter Move.isSolid = ms.filter Move.isSolid ∧
      (w.hush t quiet seen).run ms' = some (w'.hush t' quiet' seen') ∧
      (w.hush t quiet seen).fates ms' = w.fates ms := by
  -- Along the moves the two worlds differ in the signal only, and a setting for going on can only
  -- come while the signal is not for stopping.
  induction ms generalizing w t quiet seen with
  | nil =>
    cases hrun
    exact ⟨[], t, quiet, seen, h, .slnil, nofun, rfl, rfl, rfl⟩
  | cons m ms ih =>
    obtain ⟨v, hstep, hrest⟩ := Option.bind_eq_some_iff.mp hrun
    rw [fates_cons hstep] at hkept ⊢
    obtain ⟨hlater, horder⟩ := List.pairwise_cons.mp horder
    have hnow : m = .signal false → w.shutdown.value = false := by
      rintro rfl
      cases hset : w.shutdown.value with
      | true => exact absurd List.mem_cons_self (hvalue hset)
      | false => rfl
    have hfate : ∀ report, w.fate? m ≠ some (.dropped report) := by
      intro report hdropped
      obtain ⟨other, hother⟩ := hkept (.dropped report) (by simp [hdropped])
      cases hother
    have hnext : v.shutdown.value = true → .signal false ∉ ms := by
      intro hset hmem
      rcases (h.lone.of_step hstep).value_eq_true hset with hset | rfl
      · exact hvalue hset (List.mem_cons_of_mem m hmem)
      · exact hlater _ hmem rfl rfl
    obtain ⟨u, quiet', seen', hu, hmove⟩ := h.step hstep hfate hnow
    obtain ⟨ms', t', quiet'', seen'', ht', hsub, hfree, hsolid, hrun', hfates⟩ :=
      ih hu hrest (fun fate hmem => hkept fate (List.mem_append_right _ hmem)) horder hnext
    rcases hmove with ⟨hloose, hnone, heq⟩ | ⟨hne, hsame, hquiet⟩
    · rw [heq] at hrun' hfates
      refine ⟨ms', t', quiet'', seen'', ht', hsub.cons m, hfree, ?_, hrun', ?_⟩
      · rw [List.filter_cons_of_neg (by simp [hloose])]
        exact hsolid
      · simpa [hnone] using hfates
    · refine ⟨m :: ms', t', quiet'', seen'', ht', hsub.cons_cons m, ?_, ?_, ?_, ?_⟩
      · rintro (_ | ⟨_, hmem⟩)
        · exact hne rfl
        · exact hfree hmem
      · simp only [List.filter_cons, hsolid]
      · simpa [World.run, hquiet] using hrun'
      · rw [fates_cons hquiet, hsame, hfates]

/-! ## When a report is dropped -/

private theorem fate?_eq_dropped {report : Report} (h : w.fate? m = some (.dropped report)) :
    ∃ i u, m = .noticePoller i ∧ w.pollers[i]? = some u ∧
      u.seen < w.shutdown.version ∧ w.shutdown.value = false := by
  unfold fate? at h
  split at h
  case h_1 i =>
    simp only [Option.bind_eq_bind, Option.bind_eq_some_iff] at h
    obtain ⟨u, -, offered, -, heq⟩ := h
    cases heq
  case h_2 i =>
    simp only [Option.bind_eq_bind, Option.bind_eq_some_iff] at h
    obtain ⟨u, hu, offered, -, heq⟩ := h
    obtain ⟨hgo, -⟩ := Option.ite_none_right_eq_some.mp heq
    exact ⟨i, u, rfl, hu, Shutdown.notice_eq_goOn_iff.mp hgo⟩
  case h_3 => cases h

private theorem LoneStep.unset (h : LoneStep w t m w') (hm : m ≠ .signal false)
    (hunset : w.shutdown.value = false → w.shutdown.version = 0) :
    w'.shutdown.value = false → w'.shutdown.version = 0 := by
  cases h with
  | @signal value =>
    cases value with
    | false => exact absurd rfl hm
    | true => exact nofun
  | _ => exact hunset

private theorem Lone.handedOver_of_unset {ms : List Move} (h : w.Lone t)
    (hunset : w.shutdown.value = false → w.shutdown.version = 0) (hms : .signal false ∉ ms) :
    ∀ fate ∈ w.fates ms, ∃ report, fate = .handedOver report := by
  induction ms generalizing w t with
  | nil => exact nofun
  | cons m ms ih =>
    intro fate hfate
    cases hstep : w.step m with
    | none => simp [fates, hstep] at hfate
    | some v =>
      have hmove := h.of_step hstep
      rw [fates_cons hstep] at hfate
      rcases List.mem_append.mp hfate with hfate | hfate
      · cases fate with
        | handedOver report => exact ⟨report, rfl⟩
        | dropped report =>
          obtain ⟨-, u, -, -, hunseen, hvalue⟩ := fate?_eq_dropped (Option.mem_toList.mp hfate)
          rw [hunset hvalue] at hunseen
          exact absurd hunseen (Nat.not_lt_zero _)
      · have hm : m ≠ .signal false := fun heq => hms (heq ▸ List.mem_cons_self)
        obtain ⟨u, hu⟩ := hmove.lone h
        exact ih hu (hmove.unset hm hunset) (fun hmem => hms (List.mem_cons_of_mem m hmem)) fate
          hfate

end

/-! ## The reports of a poller -/

private theorem snapshotsOf_fates {fates : List Fate} {node : String}
    (h : ∀ fate ∈ fates, fate.report.node = node) :
    snapshotsOf (fates.map Fate.report) node = fates.map (·.report.snapshot) := by
  have hall : (fates.map Fate.report).filter (fun report => decide (report.node = node)) =
      fates.map Fate.report := by
    refine List.filter_eq_self.mpr fun report hreport => ?_
    obtain ⟨fate, hfate, rfl⟩ := List.mem_map.mp hreport
    exact decide_eq_true (h fate hfate)
  rw [snapshotsOf, hall, List.map_map]
  rfl

/-- Whatever the order of the moves, every snapshot that a poller's fetches bring was handed over,
or dropped when the poller saw a setting of the signal for going on while the report waited for
room, or is still with the poller; a poller that has stopped may have lost one more. Nothing is
dropped without such a setting. If nothing is dropped, and no setting for going on comes after one
for stopping, the settings for going on do nothing: without them and without some looks at the
signal the same moves lead to the same world but for the signal, and the same reports are handed
over. -/
theorem poller_drops_only_when_told_to_go_on (epoch : Nat) (p : Poller) (ms : List Move) (w : World)
    (hfresh : p.fetches = 0) (hrun : (World.ofPoller epoch p).run ms = some w) :
    let fates := (World.ofPoller epoch p).fates ms
    (∃ t kept, w.pollers = [t] ∧ t.poller.node = p.node ∧ t.poller.source = p.source ∧
      (∀ fate ∈ fates, fate.report.node = p.node) ∧ t.Keeps kept ∧
      t.poller.successes = fates.map (·.report.snapshot) ++ kept) ∧
    (.signal false ∉ ms → ∀ fate ∈ fates, ∃ report, fate = .handedOver report) ∧
    ((∀ fate ∈ fates, ∃ report, fate = .handedOver report) →
      (ms.Pairwise fun m later => m = .signal true → later ≠ .signal false) →
      ∃ ms' t quiet seen, ms'.Sublist ms ∧ .signal false ∉ ms' ∧
        ms'.filter Move.isSolid = ms.filter Move.isSolid ∧ w.pollers = [t] ∧
        (World.ofPoller epoch p).run ms' =
          some { w with shutdown := quiet, pollers := [{ t with seen }] } ∧
        (World.ofPoller epoch p).fates ms' = fates) := by
  intro fates
  refine ⟨?_, ?_, ?_⟩
  · obtain ⟨t, ht⟩ := (Offers.ofPoller epoch hfresh).run hrun
    rw [List.nil_append] at ht
    obtain ⟨kept, hkept, heq⟩ := ht.accounts
    rw [ht.node, snapshotsOf_fates ht.known] at heq
    exact ⟨t, kept, ht.lone.pollers, ht.node, ht.source, ht.known, hkept, heq⟩
  · exact Lone.handedOver_of_unset (t := { poller := p }) ⟨rfl, rfl⟩ fun _ => rfl
  · intro hkept horder
    obtain ⟨ms', t, quiet, seen, ht, hsub, hfree, hsolid, hrun', hfates⟩ :=
      (Hushed.ofPoller epoch p).run hrun hkept horder nofun
    exact ⟨ms', t, quiet, seen, hsub, hfree, hsolid, ht.lone.pollers, hrun', hfates⟩

def countingPoller : Poller :=
  { node := "a"
    source := ⟨"a", fun k => .ok { generatedTransactions := UInt64.ofNat (k + 1) }, fun _ => 0⟩
    interval := ⟨10⟩ }

/-- A setting for going on that comes while the poller waits for its second tick. -/
def idleMoves : List Move :=
  [.startPoller 0, .beginFetch 0, .endFetch 0, .deliver 0, .wait 5, .signal false, .noticePoller 0,
    .take, .wait 10, .beginFetch 0, .endFetch 0, .deliver 0]

theorem poller_drops_only_when_told_to_go_on_idle :
    ∃ w ms', (World.ofPoller 0 countingPoller).run idleMoves = some w ∧ .signal false ∉ ms' ∧
      (World.ofPoller 0 countingPoller).fates ms' =
        [.handedOver ⟨"a", { generatedTransactions := 1 }⟩,
          .handedOver ⟨"a", { generatedTransactions := 2 }⟩] := by
  obtain ⟨w, hrun⟩ : ∃ w, (World.ofPoller 0 countingPoller).run idleMoves = some w := ⟨_, rfl⟩
  have hfates : (World.ofPoller 0 countingPoller).fates idleMoves =
      [.handedOver ⟨"a", { generatedTransactions := 1 }⟩,
        .handedOver ⟨"a", { generatedTransactions := 2 }⟩] := rfl
  obtain ⟨-, -, hquiet⟩ :=
    poller_drops_only_when_told_to_go_on 0 countingPoller idleMoves w rfl hrun
  rw [hfates] at hquiet
  obtain ⟨ms', -, -, -, -, hfree, -, -, -, hsame⟩ := hquiet (by simp) (by decide)
  exact ⟨w, ms', hrun, hfree, hsame⟩

/-- A setting for going on that comes while the poller's second report waits for room. -/
def waitingMoves : List Move :=
  [.startPoller 0, .beginFetch 0, .endFetch 0, .deliver 0, .wait 10, .beginFetch 0, .endFetch 0,
    .wait 15, .signal false, .noticePoller 0, .wait 16, .take]

/-- The same without the setting: there is room for the second report at last. -/
def patientMoves : List Move :=
  [.startPoller 0, .beginFetch 0, .endFetch 0, .deliver 0, .wait 10, .beginFetch 0, .endFetch 0,
    .wait 15, .wait 16, .take, .deliver 0]

/-- A setting for going on makes a poller drop a report that it hands over without the setting. -/
theorem going_on_drops_waiting_report :
    ∃ w u, (World.ofPoller 0 countingPoller).run waitingMoves = some w ∧
      (World.ofPoller 0 countingPoller).run patientMoves = some u ∧
      (w.pollers.map fun t => t.poller.series.updates.size) = [2] ∧
      (u.pollers.map fun t => t.poller.series.updates.size) = [2] ∧
      (World.ofPoller 0 countingPoller).fates waitingMoves =
        [.handedOver ⟨"a", { generatedTransactions := 1 }⟩,
          .dropped ⟨"a", { generatedTransactions := 2 }⟩] ∧
      (World.ofPoller 0 countingPoller).fates patientMoves =
        [.handedOver ⟨"a", { generatedTransactions := 1 }⟩,
          .handedOver ⟨"a", { generatedTransactions := 2 }⟩] :=
  ⟨_, _, rfl, rfl, rfl, rfl, rfl, rfl⟩

end World

end FleetTelemetry
