import FleetTelemetry.Proofs.Collection.Alive

/-!
# What comes to a task from outside

An input puts the calls ahead of the task by one thing that the task has not looked at, unless the
task has ended or the input means nothing to it.
-/

namespace FleetTelemetry

namespace World

section

variable {epoch period horizon start : Nat} {w w' : World} {inputs : List (Nat × Input)}
  {t : AggregatorTask} {r : Replay}

theorem Alive.now_lt {input : Input} (hperiod : 0 < period)
    (h : Alive epoch period w ((w.now, input) :: inputs) t r start)
    (hahead : ∀ x ∈ inputs, w.now ≤ x.1) (hhorizon : w.now ≤ horizon)
    (hclear : r.Clear epoch (timeline period horizon start ((w.now, input) :: inputs))
      ((w.now, input) :: inputs)) : w.now < start + period := by
  by_cases hended : r.ended = none
  · rcases h.phase with ⟨-, hnow⟩ | ⟨-, -, hle⟩
    · omega
    · refine Nat.lt_of_le_of_ne hle fun heq => ?_
      have hcome : ∀ x ∈ (w.now, input) :: inputs, start + period ≤ x.1 := by
        simpa [← heq] using hahead
      have htick := timeline_cons_tick hperiod (heq ▸ hhorizon) hcome
      exact hclear [] _ _ htick hended _ List.mem_cons_self heq
  · obtain ⟨kind, hkind, -⟩ := h.awaits_of_ended hended
    exact (h.awaited kind hkind).1

section Input

variable {input : Input} (h : Alive epoch period w ((w.now, input) :: inputs) t r start)
include h

private theorem Alive.kind_of_awaits {kind : InputKind}
    (hkind : Awaits w.slot w.shutdown t.seen kind) : input.kind = kind :=
  (h.awaited kind hkind).2 _ List.mem_cons_self rfl

private theorem Alive.slot_eq_none (hkind : input.kind ≠ .report) : w.slot = none :=
  Classical.byContradiction fun hne => hkind (h.kind_of_awaits (.report hne))

end Input

theorem Alive.close (h : Alive epoch period w ((w.now, .close) :: inputs) t r start) :
    Alive epoch period (w.happen .closeSender) inputs t (r.take .close) start :=
  { h with
    sending := rfl
    opened := by
      rintro (hsending | hne)
      · cases hsending
      · exact h.opened (.inr hne)
    awaited := fun kind hkind =>
      ⟨(h.awaited kind hkind).1,
        fun x hx => (h.awaited kind hkind).2 x (List.mem_cons_of_mem _ hx)⟩ }

theorem Alive.goOn (h : Alive epoch period w ((w.now, .goOn) :: inputs) t r start)
    (hlt : w.now < start + period)
    (hkinds : ∀ x ∈ inputs, x.1 = w.now → x.2.kind = .goOn) :
    Alive epoch period (w.happen (.signal false)) inputs t (r.take .goOn) start := by
  have hended : r.ended = none := by
    refine Classical.byContradiction fun hne => ?_
    obtain ⟨kind, hkind, rfl | rfl⟩ := h.awaits_of_ended hne <;> cases h.kind_of_awaits hkind
  have hkept : w.shutdown.dropped = false :=
    Bool.eq_false_iff.mpr fun hdropped => h.dropped hdropped hended
  have hslot := h.slot_eq_none (by decide)
  have hunseen := Nat.lt_succ_of_le h.seen
  have hhappen : w.happen (.signal false) =
      { w with shutdown := ⟨false, w.shutdown.version + 1, w.shutdown.dropped⟩ } := by
    unfold happen
    rw [step_signal_iff.mpr ⟨hkept, rfl⟩]
    rfl
  rw [hhappen]
  refine { h with
    ended := .inl ⟨hended, ?_⟩
    seen := Nat.le_of_lt hunseen
    apart := fun hne => absurd hslot hne
    awaited := ?_ }
  · simp [Shutdown.notice, hunseen]
  · intro kind hkind
    cases hkind with
    | report hne => exact absurd hslot hne
    | goOn => exact ⟨hlt, hkinds⟩
    | stop _ hvalue => cases hvalue
    | drop hseen => exact absurd hunseen hseen

theorem Alive.stop (h : Alive epoch period w ((w.now, .stop) :: inputs) t r start)
    (hlt : w.now < start + period)
    (hkinds : ∀ x ∈ inputs, x.1 = w.now → x.2.kind = .stop) :
    Alive epoch period (w.happen (.signal true)) inputs t (r.take .stop) start := by
  have hslot := h.slot_eq_none (by decide)
  have hunseen := Nat.lt_succ_of_le h.seen
  have hended : (r.take .stop).ended = some .stopped := by
    rcases h.ended with ⟨hnone, -⟩ | ⟨hsome, -⟩ <;> simp [Replay.take, *]
  cases hkept : w.shutdown.dropped with
  | true =>
    -- nobody can set the signal any more, and the calls are stopped
    have hstopped : r.ended = some .stopped := by
      rcases h.ended with ⟨hnone, -⟩ | ⟨hsome, -⟩
      · exact absurd hnone (h.dropped hkept)
      · exact hsome
    have hhappen : w.happen (.signal true) = w := by simp [happen, step, hkept]
    have htake : r.take .stop = r := by
      cases r
      simp_all [Replay.take]
    rw [hhappen, htake]
    exact { h with
      awaited := fun kind hkind => ⟨hlt, fun x hx hnow =>
        (hkinds x hx hnow).trans (h.kind_of_awaits hkind)⟩ }
  | false =>
    have hhappen : w.happen (.signal true) =
        { w with shutdown := ⟨true, w.shutdown.version + 1, w.shutdown.dropped⟩ } := by
      unfold happen
      rw [step_signal_iff.mpr ⟨hkept, rfl⟩]
      rfl
    rw [hhappen]
    refine { h with
      ended := .inr ⟨hended, ?_⟩
      seen := Nat.le_of_lt hunseen
      dropped := fun _ => by simp [hended]
      apart := fun hne => absurd hslot hne
      awaited := ?_ }
    · simp [Shutdown.notice, hunseen]
    · intro kind hkind
      cases hkind with
      | report hne => exact absurd hslot hne
      | goOn _ hvalue => cases hvalue
      | stop => exact ⟨hlt, hkinds⟩
      | drop hseen => exact absurd hunseen hseen

theorem Alive.drop (h : Alive epoch period w ((w.now, .drop) :: inputs) t r start)
    (hlt : w.now < start + period)
    (hkinds : ∀ x ∈ inputs, x.1 = w.now → x.2.kind = .drop) :
    Alive epoch period (w.happen .dropSignal) inputs t (r.take .drop) start := by
  have hslot := h.slot_eq_none (by decide)
  have hended : (r.take .drop).ended = some .stopped := by
    rcases h.ended with ⟨hnone, -⟩ | ⟨hsome, -⟩ <;> simp [Replay.take, *]
  have hseen : ¬ t.seen < w.shutdown.version := by
    intro hunseen
    cases hvalue : w.shutdown.value with
    | false => cases h.kind_of_awaits (.goOn hunseen hvalue)
    | true => cases h.kind_of_awaits (.stop hunseen hvalue)
  refine { h with
    ended := .inr ⟨hended, ?_⟩
    dropped := fun _ => by simp [hended]
    apart := fun hne => absurd hslot hne
    awaited := ?_ }
  · show Shutdown.notice { w.shutdown with dropped := true } t.seen = some .stop
    simp [Shutdown.notice, hseen]
  · intro kind hkind
    cases hkind with
    | report hne => exact absurd hslot hne
    | goOn hunseen => exact absurd hunseen hseen
    | stop hunseen => exact absurd hunseen hseen
    | drop => exact ⟨hlt, hkinds⟩

theorem Alive.deliver {report : Report}
    (h : Alive epoch period w ((w.now, .report report) :: inputs) t r start)
    (hlt : w.now < start + period) (hkinds : ∀ x ∈ inputs, x.1 = w.now → x.2.kind = .report)
    (hstep : w.step (.send report) = some w') :
    Alive epoch period w' inputs t (r.take (.report report)) start ∧
      (r.take (.report report)).delivered = r.delivered ++ [true] := by
  obtain ⟨⟨hsending, -, hslot⟩, rfl⟩ := step_send_iff.mp hstep
  have hended : r.ended = none := by
    refine Classical.byContradiction fun hne => ?_
    obtain ⟨kind, hkind, rfl | rfl⟩ := h.awaits_of_ended hne <;> cases h.kind_of_awaits hkind
  have hnotice : w.shutdown.notice t.seen = none := by
    cases hsome : w.shutdown.notice t.seen with
    | none => rfl
    | some notice =>
      obtain ⟨kind, hkind, hne, -⟩ := awaits_of_notice w.slot hsome
      exact absurd (h.kind_of_awaits hkind).symm hne
  have htake : r.take (.report report) =
      { r with
        aggregator := r.aggregator.apply report
        delivered := r.delivered ++ [true] } := by
    simp [Replay.take, hended, ← h.sending, hsending]
  rw [htake]
  refine ⟨{ h with
    opened := fun _ => h.opened (.inl hsending)
    aggregator := ?_
    apart := fun _ => hnotice
    awaited := ?_ }, rfl⟩
  · show r.aggregator.apply report = t.aggregator.apply report
    rw [h.aggregator, hslot]
    rfl
  · intro kind hkind
    have hreport : kind = .report := by
      cases hkind with
      | report => rfl
      | goOn hunseen hvalue => exact (h.kind_of_awaits (.goOn hunseen hvalue)).symm
      | stop hunseen hvalue => exact (h.kind_of_awaits (.stop hunseen hvalue)).symm
      | drop hseen hdropped => exact (h.kind_of_awaits (.drop hseen hdropped)).symm
    exact ⟨hlt, hreport ▸ hkinds⟩

/-- A report that cannot be sent to a task that goes on comes after the last of them. -/
theorem Alive.refuse {report : Report}
    (h : Alive epoch period w ((w.now, .report report) :: inputs) t r start)
    (hgone : w.sending = false ∨ w.receiving = false) :
    Alive epoch period w inputs t (r.take (.report report)) start ∧
      (r.take (.report report)).delivered = r.delivered ++ [false] := by
  have hclosed : r.reportsOpen = false := by
    rcases hgone with hsending | hreceiving
    · rw [← h.sending, hsending]
    · rw [h.receiving] at hreceiving
      cases hreceiving
  have htake : r.take (.report report) = { r with delivered := r.delivered ++ [false] } := by
    simp [Replay.take, hclosed]
  rw [htake]
  refine ⟨{ h with awaited := fun kind hkind => ?_ }, rfl⟩
  obtain ⟨hlt, hsame⟩ := h.awaited kind hkind
  exact ⟨hlt, fun x hx => hsame x (List.mem_cons_of_mem _ hx)⟩

theorem exists_happen (w : World) {input : Input} (hkind : input.kind ≠ .report) :
    ∃ shutdown sending, w.happen input.move = { w with shutdown, sending } := by
  have hsignal (value : Bool) : ∃ shutdown, w.happen (.signal value) = { w with shutdown } := by
    unfold happen
    cases hstep : w.step (.signal value) with
    | none => exact ⟨w.shutdown, rfl⟩
    | some v =>
      obtain ⟨-, rfl⟩ := step_signal_iff.mp hstep
      exact ⟨_, rfl⟩
  cases input with
  | report report => exact absurd rfl hkind
  | close => exact ⟨w.shutdown, false, rfl⟩
  | goOn =>
    obtain ⟨shutdown, hshutdown⟩ := hsignal false
    exact ⟨shutdown, w.sending, hshutdown⟩
  | stop =>
    obtain ⟨shutdown, hshutdown⟩ := hsignal true
    exact ⟨shutdown, w.sending, hshutdown⟩
  | drop => exact ⟨_, w.sending, rfl⟩

theorem now_happen (w : World) {input : Input} (hkind : input.kind ≠ .report) :
    (w.happen input.move).now = w.now := by
  obtain ⟨shutdown, sending, h⟩ := exists_happen w hkind
  rw [h]

theorem Over.happen {how : AggregatorEnd} (h : Over w t how r) (input : Input)
    (hkind : input.kind ≠ .report) :
    Over (w.happen input.move) t how (r.take input) := by
  have hended := h.ended
  obtain ⟨haggregator, htake⟩ :
      (r.take input).aggregator = r.aggregator ∧ (r.take input).ended = r.ended :=
    @Replay.perform_of_ended 0 r (by simp [hended]) (.input 0 input)
  obtain ⟨shutdown, sending, hworld⟩ := exists_happen w hkind
  rw [hworld]
  exact
    { h with
      ended := htake.trans hended
      aggregator := haggregator.trans h.aggregator }

end

end World

end FleetTelemetry
