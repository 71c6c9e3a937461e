import FleetTelemetry.Proofs.Settings.Checks
import FleetTelemetry.Proofs.Time.Reading

/-!
# Intervals and the headers of series

The interval of checked settings goes into the header of every series, once as it is and once
doubled, in whole seconds of 64 bits. Nothing is lost on the way below 2 ^ 63 seconds. From there on
the doubled interval does not fit, and from 2 ^ 64 seconds on the interval is not even a span; the
checks notice neither.
-/

namespace FleetTelemetry

/-! ## Headers -/

namespace SeriesStore

variable {files files' : Files} {path : String} {fields : List SeriesField} {step : Span}
  {rows : UInt64} {number : Nat}

private theorem exists_newHeader (fields : List SeriesField) (hrows : rows ≠ 0)
    (hstep : step.seconds < 2 ^ 63) :
    ∃ header, newHeader fields step rows = .ok header ∧
      header.step.toNat = max 1 step.seconds ∧
      header.heartbeat.toNat = 2 * header.step.toNat ∧ header.rows = rows ∧
      header.fields = fields := by
  have hshort : max 1 step.seconds < 2 ^ 63 := max_lt (by decide) hstep
  have hbound : numberBound = 2 ^ 64 := rfl
  have hdouble : ¬numberBound ≤ 2 * max 1 step.seconds := by omega
  have hsingle : (UInt64.ofNat (max 1 step.seconds)).toNat = max 1 step.seconds :=
    UInt64.toNat_ofNat_of_lt' (by rw [UInt64.size]; omega)
  refine ⟨_, by rw [newHeader, if_neg hrows, if_neg hdouble], hsingle, ?_, rfl, rfl⟩
  show (UInt64.ofNat (2 * max 1 step.seconds)).toNat = 2 * (UInt64.ofNat _).toNat
  rw [hsingle, UInt64.toNat_ofNat_of_lt' (by rw [UInt64.size]; omega)]

theorem exists_create (hrows : rows ≠ 0) (hstep : step.seconds < 2 ^ 63)
    (hcreate : files.create path = .ok (number, files')) :
    ∃ store after, create files path fields step rows = .ok (store, after) ∧
      store.header.step.toNat = max 1 step.seconds ∧
      store.header.heartbeat.toNat = 2 * store.header.step.toNat ∧ store.header.rows = rows ∧
      store.header.fields = fields := by
  obtain ⟨header, hheader, hfacts⟩ := exists_newHeader fields hrows hstep
  let store : SeriesStore := { path, header, content := number, lastUpdate := none, stored := 0 }
  refine ⟨store, files'.append number (SeriesData.print { header, rows := [] }), ?_, hfacts⟩
  simp only [create, hheader, hcreate, store]

private theorem create_eq_overflow (hrows : rows ≠ 0) (hstep : 2 ^ 63 ≤ step.seconds) :
    create files path fields step rows = .error .overflow := by
  have hbound : numberBound = 2 ^ 64 := rfl
  have hdouble : numberBound ≤ 2 * max 1 step.seconds := by omega
  simp only [create, newHeader, if_neg hrows, if_pos hdouble]

end SeriesStore

/-! ## Intervals -/

namespace Settings

variable {settings : Settings} {interval : Span}

private theorem pollInterval_eq_ok_iff :
    settings.pollInterval = .ok interval ↔ Span.read settings.interval = .span interval := by
  unfold pollInterval
  cases Span.read settings.interval <;> simp

private theorem pollInterval_eq_overflow_iff :
    settings.pollInterval = .error .overflow ↔ Span.read settings.interval = .overflow := by
  unfold pollInterval
  cases Span.read settings.interval <;> simp

private theorem checkLayout_ne_overflow (layout : RosterLayout) :
    checkLayout layout ≠ .error .overflow := by
  unfold checkLayout
  split
  · nofun
  · split <;> nofun

private theorem check_eq_overflow_iff :
    settings.check = .error .overflow ↔ settings.pollInterval = .error .overflow := by
  unfold check
  cases settings.pollInterval with
  | error cause => simp only [bind, Except.bind, Except.error.injEq]
  | ok interval =>
    refine iff_of_false ?_ nofun
    simp only [bind, Except.bind]
    split
    · nofun
    · split
      · nofun
      · exact checkLayout_ne_overflow settings.roster

/-- What becomes of an interval. The checks break on it when it denotes 2 ^ 64 seconds or more. When
they accept it, it is at least a second and the span nearest to the number of seconds that it
denotes. With fewer than 2 ^ 63 whole seconds it makes a store of any capacity wherever the file can
be made, with its whole seconds and their exact double in the header; with more of them every
attempt to make a store breaks. -/
theorem checked_interval_fits_header (settings : Settings) :
    (settings.check = .error .overflow ↔
      ∃ q, DenotesSeconds settings.interval q ∧ 2 ^ 64 ≤ q) ∧
    ∀ interval, settings.check = .ok () → settings.pollInterval = .ok interval →
      (∃ q, DenotesSeconds settings.interval q ∧
        |(interval.nanoseconds : ℚ) - q * 10 ^ 9| ≤ 1 / 2) ∧
      1 ≤ interval.seconds ∧ interval.seconds < 2 ^ 64 ∧
      ∀ files path fields rows number files', rows ≠ 0 →
        files.create path = .ok (number, files') →
        (interval.seconds < 2 ^ 63 →
          ∃ store after, SeriesStore.create files path fields interval rows = .ok (store, after) ∧
            store.header.step.toNat = max 1 interval.seconds ∧
            store.header.heartbeat.toNat = 2 * store.header.step.toNat ∧
            store.header.rows = rows ∧ store.header.fields = fields) ∧
        (2 ^ 63 ≤ interval.seconds →
          SeriesStore.create files path fields interval rows = .error .overflow) := by
  refine ⟨?_, ?_⟩
  · rw [check_eq_overflow_iff, pollInterval_eq_overflow_iff]
    exact Span.read_eq_overflow_iff
  · intro interval hcheck hinterval
    have hreads := Span.readsAs_read settings.interval
    rw [pollInterval_eq_ok_iff.mp hinterval] at hreads
    obtain ⟨_, hagain, hlong⟩ := (check_eq_ok_iff.mp hcheck).interval
    cases hinterval.symm.trans hagain
    cases hreads with
    | span hdenotes _ _ hseconds hnear =>
      refine ⟨⟨_, hdenotes, hnear⟩, ?_, hseconds, ?_⟩
      · exact (Nat.le_div_iff_mul_le (by decide)).mpr hlong
      · intro files path fields rows number files' hrows hcreate
        exact ⟨fun hshort => SeriesStore.exists_create hrows hshort hcreate,
          fun hstep => SeriesStore.create_eq_overflow hrows hstep⟩

def longestSettings : Settings where
  interval := "9223372036854774784"

/-- The next longer double is 2 ^ 63. -/
theorem checked_interval_fits_header_longest :
    longestSettings.check = .ok () ∧
      longestSettings.pollInterval = .ok (Span.ofSeconds 9223372036854774784) ∧
      (9223372036854774784 : Nat) < 2 ^ 63 ∧ (1 : UInt64) ≠ 0 ∧
      ∃ number files', Files.empty.create "n.series" = .ok (number, files') ∧
        ∃ store after,
          SeriesStore.create Files.empty "n.series" telemetryFields
            (Span.ofSeconds 9223372036854774784) 1 = .ok (store, after) ∧
          store.header.step.toNat = 9223372036854774784 ∧
          store.header.heartbeat.toNat = 18446744073709549568 := by
  have hread : Span.read "9223372036854774784" = .span (.ofSeconds 9223372036854774784) := by
    decide +kernel
  have hinterval : longestSettings.pollInterval = .ok (.ofSeconds 9223372036854774784) :=
    pollInterval_eq_ok_iff.mpr hread
  have hcheck : longestSettings.check = .ok () :=
    check_eq_ok_iff.mpr ⟨⟨_, hinterval, by decide⟩, by decide, checkLayout_eq_ok_iff.mp rfl⟩
  have hcreate : ∃ number files', Files.empty.create "n.series" = .ok (number, files') :=
    ⟨_, _, rfl⟩
  obtain ⟨number, files', hcreate⟩ := hcreate
  have hshort : (Span.ofSeconds 9223372036854774784).seconds < 2 ^ 63 := by decide
  obtain ⟨-, -, -, hmakes⟩ :=
    (checked_interval_fits_header longestSettings).2 _ hcheck hinterval
  obtain ⟨store, after, hstore, hstep, hheartbeat, -⟩ :=
    (hmakes Files.empty "n.series" telemetryFields 1 number files' (by decide) hcreate).1 hshort
  refine ⟨hcheck, hinterval, by decide, by decide, number, files', hcreate, store, after, hstore,
    hstep, ?_⟩
  rw [hheartbeat, hstep]
  rfl

/-- Two intervals that are neither refused nor fit. One breaks the checks. The other passes them and
breaks the making of a store. -/
theorem long_intervals_break :
    ({ interval := "1e300" } : Settings).check = .error .overflow ∧
      ({ interval := "9223372036854775808" } : Settings).check = .ok () ∧
      ({ interval := "9223372036854775808" } : Settings).pollInterval =
        .ok (Span.ofSeconds (2 ^ 63)) ∧
      SeriesStore.create Files.empty "n.series" telemetryFields (Span.ofSeconds (2 ^ 63)) 3600 =
        .error .overflow := by
  have hhuge : Span.read "1e300" = .overflow := by decide +kernel
  have hlong : Span.read "9223372036854775808" = .span (.ofSeconds (2 ^ 63)) := by decide +kernel
  have hinterval : ({ interval := "9223372036854775808" } : Settings).pollInterval =
      .ok (.ofSeconds (2 ^ 63)) := pollInterval_eq_ok_iff.mpr hlong
  refine ⟨?_, ?_, hinterval, SeriesStore.create_eq_overflow (by decide) (by decide)⟩
  · exact check_eq_overflow_iff.mpr (pollInterval_eq_overflow_iff.mpr hhuge)
  · exact check_eq_ok_iff.mpr ⟨⟨_, hinterval, by decide⟩, by decide, checkLayout_eq_ok_iff.mp rfl⟩

end Settings

end FleetTelemetry
