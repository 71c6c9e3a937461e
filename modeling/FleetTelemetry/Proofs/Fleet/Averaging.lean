import FleetTelemetry.Fleet.Frame
import FleetTelemetry.Proofs.Outcomes

/-!
# Checked divisors

Divisors that have been checked once have a divisor for every field, so averages and frames are
always defined for them. A check that fails tells the first field without one.
-/

namespace FleetTelemetry

theorem FleetField.mem_all (field : FleetField) : field ∈ all := by
  cases field <;> decide

namespace PerField

private theorem tryOfFn_eq_ok {α ε : Type} {f : FleetField → Except ε α} {g : FleetField → α}
    (h : ∀ field, f field = .ok (g field)) : tryOfFn f = .ok (ofFn g) := by
  simp only [tryOfFn, h]
  rfl

private theorem get_of_tryOfFn {α ε : Type} {f : FleetField → Except ε α} {figures : PerField α}
    (h : tryOfFn f = .ok figures) (field : FleetField) : f field = .ok (figures.get field) := by
  unfold tryOfFn at h
  obtain ⟨generated, h1, h⟩ := bind_eq_ok.mp h
  obtain ⟨confirmed, h2, h⟩ := bind_eq_ok.mp h
  obtain ⟨chainDepth, h3, h⟩ := bind_eq_ok.mp h
  obtain ⟨proposeLatency, h4, h⟩ := bind_eq_ok.mp h
  obtain ⟨signLatency, h5, h⟩ := bind_eq_ok.mp h
  obtain ⟨submitLatency, h6, h⟩ := bind_eq_ok.mp h
  obtain ⟨gas, h7, h⟩ := bind_eq_ok.mp h
  cases h
  cases field <;> assumption

private theorem exists_of_tryOfFn_eq_error {α ε : Type} {f : FleetField → Except ε α} {e : ε}
    (h : tryOfFn f = .error e) : ∃ before field after, FleetField.all = before ++ field :: after ∧
      f field = .error e ∧ ∀ other ∈ before, ∃ a, f other = .ok a := by
  unfold tryOfFn at h
  rcases bind_eq_error.mp h with h | ⟨_, h1, h⟩
  · exact ⟨[], .generated, _, rfl, h, by simp⟩
  rcases bind_eq_error.mp h with h | ⟨_, h2, h⟩
  · exact ⟨[.generated], .confirmed, _, rfl, h, by simp [h1]⟩
  rcases bind_eq_error.mp h with h | ⟨_, h3, h⟩
  · exact ⟨[.generated, .confirmed], .chainDepth, _, rfl, h, by simp [h1, h2]⟩
  rcases bind_eq_error.mp h with h | ⟨_, h4, h⟩
  · exact ⟨[.generated, .confirmed, .chainDepth], .proposeLatency, _, rfl, h,
      by simp [h1, h2, h3]⟩
  rcases bind_eq_error.mp h with h | ⟨_, h5, h⟩
  · exact ⟨[.generated, .confirmed, .chainDepth, .proposeLatency], .signLatency, _, rfl, h,
      by simp [h1, h2, h3, h4]⟩
  rcases bind_eq_error.mp h with h | ⟨_, h6, h⟩
  · exact ⟨[.generated, .confirmed, .chainDepth, .proposeLatency, .signLatency], .submitLatency, _,
      rfl, h, by simp [h1, h2, h3, h4, h5]⟩
  rcases bind_eq_error.mp h with h | ⟨_, -, h⟩
  · exact ⟨[.generated, .confirmed, .chainDepth, .proposeLatency, .signLatency, .submitLatency],
      .gas, _, rfl, h, by simp [h1, h2, h3, h4, h5, h6]⟩
  · cases h

end PerField

namespace Divisors

/-- Divisors as they come out of a check: every field has one. -/
def Checked (d : Divisors) : Prop := d.check = .ok d

theorem checked_of_check {d d' : Divisors} (h : d.check = .ok d') : d'.Checked := by
  obtain ⟨figures, -, hd⟩ := bind_eq_ok.mp h
  have hd : d = d' := Except.ok.inj hd
  subst hd
  exact h

theorem checked_of_ofCounts {scale side : Nat} {profile : AveragingProfile} {d : Divisors}
    (h : ofCounts scale side profile = .ok d) : d.Checked :=
  checked_of_check h

theorem Checked.count {d : Divisors} (h : d.Checked) :
    ∃ count : FleetField → Nat, ∀ field, d.count field = .ok (count field) := by
  obtain ⟨figures, hfigures, -⟩ := bind_eq_ok.mp h
  exact ⟨figures.get, PerField.get_of_tryOfFn hfigures⟩

theorem Checked.average {d : Divisors} (h : d.Checked) (totals : Totals) :
    ∃ averages, d.average totals = .ok averages := by
  obtain ⟨count, hcount⟩ := h.count
  refine ⟨_, PerField.tryOfFn_eq_ok (g := fun field =>
    Float.ofNat (totals.get field) / Float.ofNat (count field)) ?_⟩
  intro field
  simp only [averageField, hcount field]
  rfl

private theorem count_eq_error_iff {d : Divisors} {field : FleetField} {e : ZeroDivisor} :
    d.count field = .error e ↔ d.size (d.profile.divisor field) = 0 ∧
      e = { field, divisor := d.profile.divisor field } := by
  by_cases h : d.size (d.profile.divisor field) = 0
  · simp [count, h, eq_comm]
  · simp [count, h]

/-- Divisors that fail the check have no size for the field that is told, and one for each field
before it. -/
theorem exists_of_check_eq_error {d : Divisors} {e : ZeroDivisor} (h : d.check = .error e) :
    ∃ before field after, FleetField.all = before ++ field :: after ∧
      d.size (d.profile.divisor field) = 0 ∧ e = { field, divisor := d.profile.divisor field } ∧
      ∀ other ∈ before, d.size (d.profile.divisor other) ≠ 0 := by
  rcases bind_eq_error.mp h with h | ⟨_, _, h⟩
  · obtain ⟨before, field, after, hall, hfield, hbefore⟩ := PerField.exists_of_tryOfFn_eq_error h
    obtain ⟨hzero, he⟩ := count_eq_error_iff.mp hfield
    refine ⟨before, field, after, hall, hzero, he, fun other hother hnone => ?_⟩
    obtain ⟨number, hnumber⟩ := hbefore other hother
    have herror := count_eq_error_iff.mpr ⟨hnone, rfl⟩
    rw [hnumber] at herror
    cases herror
  · cases h

theorem Checked.size_ne_zero {d : Divisors} (h : d.Checked) (field : FleetField) :
    d.size (d.profile.divisor field) ≠ 0 := by
  intro hzero
  obtain ⟨count, hcount⟩ := h.count
  have herror := count_eq_error_iff.mpr ⟨hzero, rfl⟩
  rw [hcount field] at herror
  cases herror

end Divisors

theorem Frame.ofState_eq_ok {d : Divisors} (h : d.Checked) (roster : Roster) (state : FleetState)
    (elapsed : Span) : ∃ frame, Frame.ofState d roster state elapsed = .ok frame := by
  obtain ⟨current, hcurrent⟩ := h.average (Totals.sum state.current.values)
  obtain ⟨previous, hprevious⟩ := h.average (Totals.sum state.previous.values)
  simp only [Frame.ofState, hcurrent, hprevious]
  exact ⟨_, rfl⟩

end FleetTelemetry
