import FleetTelemetry.Collection.Poller

/-!
# What a fetch does

A fetch that brings a snapshot makes one attempt to record it in the series. The snapshot is passed
on whatever becomes of the attempt.
-/

namespace FleetTelemetry

namespace SeriesPanel

/-- Attempts to record the values of samples, one after another. -/
def updateAll (series : SeriesPanel) (samples : List (List UInt64)) : SeriesPanel :=
  samples.foldl (fun series values => (series.update values).2) series

variable (series : SeriesPanel) (values : List UInt64) (samples later : List (List UInt64))

private theorem updateAll_cons :
    series.updateAll (values :: samples) = (series.update values).2.updateAll samples := rfl

private theorem updateAll_append :
    series.updateAll (samples ++ later) = (series.updateAll samples).updateAll later :=
  List.foldl_append

private theorem update_faultAt : (series.update values).2.faultAt = series.faultAt := by
  unfold update
  split <;> rfl

private theorem update_attempts : (series.update values).2.attempts = series.attempts + 1 := by
  unfold update
  split <;> rfl

private theorem update_updates : (series.update values).2.updates.toList = series.updates.toList ++
    (if (series.faultAt series.attempts).isNone then some values else none).toList := by
  unfold update
  cases series.faultAt series.attempts with
  | some fault => simp
  | none => simp

theorem updateAll_attempts :
    (series.updateAll samples).attempts = series.attempts + samples.length := by
  induction samples generalizing series with
  | nil => rfl
  | cons values samples ih =>
    rw [updateAll_cons, ih, update_attempts, List.length_cons]
    omega

theorem updateAll_updates : (series.updateAll samples).updates.toList =
    series.updates.toList ++ (samples.zipIdx series.attempts).filterMap fun sample =>
      if (series.faultAt sample.2).isNone then some sample.1 else none := by
  induction samples generalizing series with
  | nil => simp [updateAll]
  | cons values samples ih =>
    rw [updateAll_cons, ih, update_updates, update_faultAt, update_attempts, List.append_assoc,
      List.zipIdx_cons, List.filterMap_cons]
    cases series.faultAt series.attempts with
    | none => rfl
    | some fault => rfl

end SeriesPanel

namespace Poller

variable (p : Poller)

def next? : Option Snapshot := (p.source.outcome p.fetches).toOption

theorem poll_fst : p.poll.1 = p.next? := by
  unfold poll next?
  cases p.source.outcome p.fetches with
  | error e => rfl
  | ok s =>
    dsimp only
    split <;> rfl

theorem poll_poller : p.poll.2.1 = { p with
    fetches := p.fetches + 1
    series := p.series.updateAll (p.next?.toList.map Snapshot.seriesValues) } := by
  unfold poll next?
  cases p.source.outcome p.fetches with
  | error e => rfl
  | ok s =>
    rcases hupdate : p.series.update s.seriesValues with ⟨_ | fault, series⟩
    · simp [Except.toOption, SeriesPanel.updateAll, hupdate]
    · simp [Except.toOption, SeriesPanel.updateAll, hupdate]

/-- The snapshots that the next fetches bring, as many as there are. -/
def broughtBy (fetches : Nat) : List Snapshot :=
  (List.range fetches).filterMap fun k => (p.source.outcome (p.fetches + k)).toOption

def after (fetches : Nat) : Poller :=
  { p with
    fetches := p.fetches + fetches
    series := p.series.updateAll ((p.broughtBy fetches).map Snapshot.seriesValues) }

variable (fetches : Nat)

theorem broughtBy_succ :
    p.broughtBy (fetches + 1) = p.broughtBy fetches ++ (p.after fetches).next?.toList := by
  simp only [broughtBy, List.range_succ, List.filterMap_append, next?, after]
  cases h : (p.source.outcome (p.fetches + fetches)).toOption with
  | none => simp [h]
  | some s => simp [h]

theorem after_poll : (p.after fetches).poll.2.1 = p.after (fetches + 1) := by
  rw [poll_poller]
  simp only [after, broughtBy_succ, List.map_append, SeriesPanel.updateAll_append, Nat.add_assoc]

end Poller

end FleetTelemetry
