import FleetTelemetry.Proofs.Collection.Fetches
import FleetTelemetry.Proofs.Collection.Offers
import FleetTelemetry.Proofs.Collection.Watching
import Mathlib.Data.List.NodupEquivFin

/-!
# The pace of a poller

A tick that comes late shifts the ticks after it, so the fetches of a poller keep their distance:
between two of them lie as many intervals as ticks, less at most the lateness that a tick is
forgiven. A poller that was held up does not make up for it.
-/

namespace FleetTelemetry

/-! ## Times that keep a distance -/

/-- Times that follow one another at a period or more, but for the lateness of one of them. -/
def Paced (period : Nat) (times : List Nat) : Prop :=
  ∀ j k a b : Nat, times[j]? = some a → times[j + k]? = some b →
    a + k * period ≤ b + latenessBound

def DueAfter (period due : Nat) (times : List Nat) : Prop :=
  ∀ j a : Nat, times[j]? = some a → a + (times.length - j) * period ≤ due + latenessBound

section

variable {period due now : Nat} {times : List Nat}

private theorem due_add_le_nextDue : due + period ≤ nextDue period due now := by
  unfold nextDue
  split <;> omega

private theorem now_add_le_nextDue : now + period ≤ nextDue period due now + latenessBound := by
  unfold nextDue
  split <;> omega

theorem Paced.concat (h : Paced period times) (hdue : DueAfter period due times)
    (hnow : due ≤ now) :
    Paced period (times ++ [now]) ∧ DueAfter period (nextDue period due now) (times ++ [now]) := by
  have hnext : due + period ≤ nextDue period due now := due_add_le_nextDue
  constructor
  · -- The new tick is at least as late as it was due, and the due time kept the distance.
    intro j k a b ha hb
    rcases Nat.lt_trichotomy (j + k) times.length with hlt | heq | hgt
    · rw [List.getElem?_append_left (by omega)] at ha hb
      exact h j k a b ha hb
    · rw [heq, List.getElem?_concat_length] at hb
      cases hb
      cases k with
      | zero =>
        rw [Nat.add_zero] at heq
        rw [heq, List.getElem?_concat_length] at ha
        cases ha
        omega
      | succ k =>
        rw [List.getElem?_append_left (by omega)] at ha
        have hbound := hdue j a ha
        have hk : times.length - j = k + 1 := by omega
        rw [hk] at hbound
        omega
    · rw [List.getElem?_eq_none (by simp; omega)] at hb
      cases hb
  · -- From an old tick there is one period more to the next due time; from the new one just one.
    intro j a ha
    rw [List.length_append, List.length_singleton]
    rcases Nat.lt_or_ge j times.length with hlt | hge
    · rw [List.getElem?_append_left hlt] at ha
      have hbound := hdue j a ha
      have hj : times.length + 1 - j = (times.length - j) + 1 := by omega
      rw [hj, Nat.add_mul, Nat.one_mul]
      omega
    · have hj : j = times.length := by
        have hlast := (List.getElem?_eq_some_iff.mp ha).1
        rw [List.length_append, List.length_singleton] at hlast
        omega
      rw [hj, List.getElem?_concat_length] at ha
      cases ha
      have hlate : now + period ≤ nextDue period due now + latenessBound := now_add_le_nextDue
      rw [hj, Nat.add_sub_cancel_left, Nat.one_mul]
      exact hlate

theorem Paced.sublist {fewer : List Nat} (h : Paced period times) (hsub : fewer.Sublist times) :
    Paced period fewer := by
  obtain ⟨place, hplace⟩ := List.sublist_iff_exists_orderEmbedding_getElem?_eq.mp hsub
  intro j k a b ha hb
  have hmono : k + place j ≤ place (k + j) := place.strictMono.add_le_nat k j
  obtain ⟨gap, hgap⟩ : ∃ gap, place (j + k) = place j + gap :=
    ⟨place (j + k) - place j, by rw [Nat.add_comm j k]; omega⟩
  have hk : k ≤ gap := by rw [Nat.add_comm j k] at hgap; omega
  rw [hplace] at ha hb
  rw [hgap] at hb
  have hdistance := h (place j) gap a b ha hb
  have hperiods : k * period ≤ gap * period := Nat.mul_le_mul_right period hk
  omega

private theorem Paced.length_window_le (h : Paced period times) {start length k : Nat}
    (hlength : length + latenessBound ≤ k * period) :
    (times.filter fun time => start ≤ time && time < start + length).length ≤ k := by
  refine Nat.le_of_not_lt fun hmany => ?_
  -- The first of the times in the stretch and the one after the allowed number are too close.
  have hwindow := h.sublist (List.filter_sublist (p := fun time =>
    start ≤ time && time < start + length))
  have hmem : ∀ time ∈ times.filter fun time => start ≤ time && time < start + length,
      start ≤ time ∧ time < start + length := by
    intro time htime
    simpa using (List.mem_filter.mp htime).2
  generalize times.filter (fun time => start ≤ time && time < start + length) = inside
    at hwindow hmany hmem
  have hfirst := (hmem inside[0] (List.getElem_mem _)).1
  have hlast := (hmem inside[k] (List.getElem_mem _)).2
  have hdistance := hwindow 0 k inside[0] inside[k] (List.getElem?_eq_getElem _)
    (by rw [Nat.zero_add]; exact List.getElem?_eq_getElem hmany)
  omega

end

/-! ## The fetches of a poller -/

namespace World

/-- When the fetches of the poller with the number `i` begin along a sequence of moves. -/
def fetchStarts (i : Nat) (w : World) (ms : List Move) : List Nat :=
  w.watch (fun v m _ => if m = .beginFetch i then [v.now] else []) ms

/-- The fetches of a poller keep their distance, and so does the tick that it waits for. -/
structure KeepsPace (period : Nat) (starts : List Nat) (t : PollerTask) : Prop where
  period_eq : t.period = period
  fresh : t.phase = .created → starts = []
  paced : Paced period starts
  dueAfter : DueAfter period t.due starts

section

variable {w w' : World} {i period : Nat} {t t' : PollerTask} {starts : List Nat} {m : Move}

private theorem KeepsPace.of_due (h : KeepsPace period starts t) (hperiod : t'.period = t.period)
    (hdue : t'.due = t.due) (hphase : t'.phase ≠ .created) : KeepsPace period starts t' where
  period_eq := hperiod.trans h.period_eq
  fresh hcreated := absurd hcreated hphase
  paced := h.paced
  dueAfter := by
    rw [hdue]
    exact h.dueAfter

theorem KeepsPace.start {events : List Diagnostics.Event} {now : Nat}
    (h : KeepsPace period starts t) (hstart : t.start now = some (t', events)) :
    KeepsPace period starts t' := by
  obtain ⟨hcreated, ⟨-, rfl, -⟩ | ⟨-, rfl, -⟩⟩ := PollerTask.start_eq_some_iff.mp hstart
  · exact h.of_due rfl rfl nofun
  · -- Nothing was fetched before the clock is set.
    have hnone := h.fresh hcreated
    subst hnone
    exact ⟨h.period_eq, nofun, h.paced, nofun⟩

theorem KeepsPace.beginFetch {now : Nat} (h : KeepsPace period starts t)
    (hbegin : t.beginFetch now = some t') : KeepsPace period (starts ++ [now]) t' := by
  obtain ⟨-, hnow, rfl⟩ := PollerTask.beginFetch_eq_some_iff.mp hbegin
  obtain ⟨hpaced, hdue⟩ := h.paced.concat h.dueAfter hnow
  rw [← h.period_eq] at hdue ⊢
  exact ⟨rfl, nofun, h.period_eq ▸ hpaced, hdue⟩

theorem KeepsPace.step (h : KeepsPace period starts t) (hturn : w.Becomes i t m t') :
    KeepsPace period (starts ++ if m = .beginFetch i then [w.now] else []) t' := by
  by_cases hm : m = .beginFetch i
  · subst hm
    rw [if_pos rfl]
    cases hturn with
    | beginFetch hbegin => exact h.beginFetch hbegin
    | other hm => simp [pollerMoves] at hm
  · rw [if_neg hm, List.append_nil]
    cases hturn with
    | start hstart => exact h.start hstart
    | beginFetch => exact absurd rfl hm
    | endFetch hend =>
      obtain ⟨ends, -, -, rfl, -⟩ := PollerTask.endFetch_eq_some_iff.mp hend
      have hinterval : t.poller.poll.2.1.interval = t.poller.interval := by rw [Poller.poll_poller]
      refine h.of_due (congrArg Span.nanoseconds hinterval) rfl ?_
      cases t.poller.poll.1 <;> simp [PollerTask.phaseAfter]
    | deliver => exact h.of_due rfl rfl (by simp [PollerTask.delivered])
    | abandon => exact h.of_due rfl rfl (by simp [PollerTask.abandon])
    | cancel => exact h.of_due rfl rfl (by simp [PollerTask.cancel])
    | notice hnotice =>
      obtain ⟨-, ⟨-, rfl⟩ | ⟨-, rfl⟩⟩ := PollerTask.notice_eq_some_iff.mp hnotice
      · exact h.of_due rfl rfl (by simp)
      · exact h.of_due rfl rfl (by simp)
    | other => exact h

theorem KeepsPace.run {ms : List Move} (ht : w.pollers[i]? = some t)
    (h : KeepsPace t.period [] t) (hrun : w.run ms = some w') :
    Paced t.period (w.fetchStarts i ms) := by
  have hpace : ∃ u, w'.pollers[i]? = some u ∧ KeepsPace t.period (w.fetchStarts i ms) u := by
    refine run_induction (motive := fun ms v => ∃ u, v.pollers[i]? = some u ∧
      KeepsPace t.period (w.fetchStarts i ms) u) ⟨t, ht, h⟩ ?_ hrun
    rintro ms v m v' hbefore hmove ⟨u, hu, hpace⟩
    obtain ⟨u', hu', hturn⟩ := becomes_of_step hu hmove
    refine ⟨u', hu', ?_⟩
    rw [fetchStarts, watch_concat hbefore hmove]
    exact hpace.step hturn
  obtain ⟨u, -, hpace⟩ := hpace
  exact hpace.paced

end

/-- The fetches of a poller keep their pace through every run, whatever its fetches bring and how
long they take, and however long its reports wait for room: between the beginnings of two fetches
lie as many intervals as the later one comes after the earlier one, less at most the lateness that
one tick is forgiven. So a poller that was held up does not catch up: no stretch of time has more
fetches than fit into it. -/
theorem fetchStarts_paced (w w' : World) (i : Nat) (t : PollerTask) (ms : List Move)
    (ht : w.pollers[i]? = some t) (hrun : w.run ms = some w') :
    (∀ j k a b : Nat, (w.fetchStarts i ms)[j]? = some a → (w.fetchStarts i ms)[j + k]? = some b →
      a + k * t.period ≤ b + 5 * Span.perMilli) ∧
    ∀ start length k : Nat, length + 5 * Span.perMilli ≤ k * t.period →
      ((w.fetchStarts i ms).filter fun time =>
        start ≤ time && time < start + length).length ≤ k := by
  have hpaced : Paced t.period (w.fetchStarts i ms) :=
    KeepsPace.run ht ⟨rfl, fun _ => rfl, nofun, nofun⟩ hrun
  exact ⟨hpaced, fun start length k hlength => hpaced.length_window_le hlength⟩

/-- A poller that asks every hundred milliseconds. Its first fetch takes two hundred and fifty. -/
def stallingPoller : Poller where
  node := "a"
  source := ⟨"a", fun _ => Http.refused, fun k => if k = 0 then 250 * Span.perMilli else 0⟩
  interval := ⟨100 * Span.perMilli⟩

/-- The tick after the first one is late and shifts those after it, but the third one may be late by
four milliseconds without doing so. -/
def stallingMoves : List Move :=
  [.startPoller 0, .beginFetch 0, .wait (250 * Span.perMilli), .endFetch 0, .beginFetch 0,
    .endFetch 0, .wait (354 * Span.perMilli), .beginFetch 0, .endFetch 0,
    .wait (450 * Span.perMilli), .beginFetch 0]

theorem fetchStarts_paced_stalling :
    (ofPoller 0 stallingPoller).fetchStarts 0 stallingMoves =
      [0, 250 * Span.perMilli, 354 * Span.perMilli, 450 * Span.perMilli] ∧
    354 * Span.perMilli + 1 * stallingPoller.interval.nanoseconds ≤
      450 * Span.perMilli + 5 * Span.perMilli := by
  have hstarts : (ofPoller 0 stallingPoller).fetchStarts 0 stallingMoves =
      [0, 250 * Span.perMilli, 354 * Span.perMilli, 450 * Span.perMilli] := rfl
  obtain ⟨w, hrun⟩ : ∃ w, (ofPoller 0 stallingPoller).run stallingMoves = some w := ⟨_, rfl⟩
  obtain ⟨hdistance, -⟩ :=
    fetchStarts_paced _ w 0 { poller := stallingPoller } stallingMoves rfl hrun
  exact ⟨hstarts, hdistance 2 1 _ _ (by rw [hstarts]; rfl) (by rw [hstarts]; rfl)⟩

end World

end FleetTelemetry
