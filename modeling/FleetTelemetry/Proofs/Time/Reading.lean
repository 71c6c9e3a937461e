import FleetTelemetry.Proofs.Number.Values
import FleetTelemetry.Time.Reading

/-!
# What a text is as a span

A text that denotes a number of seconds is read as the span nearest to it, unless the number is
negative or there are too many seconds for 64 bits. Too many seconds are the one case that is told
neither by a span nor by an error.
-/

namespace FleetTelemetry

open Text Number

/-- A text denotes a number of seconds: the double that it is read as stands for that number. -/
def DenotesSeconds (s : String) (q : ℚ) : Prop :=
  ∃ x, SpanReading.seconds? (trimChars s.toList) = some x ∧ (Binary.ofFloat x).value? = some q

theorem DenotesSeconds.unique {s : String} {q r : ℚ} (hq : DenotesSeconds s q)
    (hr : DenotesSeconds s r) : q = r := by
  obtain ⟨x, hx, hq⟩ := hq
  obtain ⟨y, hy, hr⟩ := hr
  cases hx.symm.trans hy
  exact Option.some.inj (hq.symm.trans hr)

namespace Span

variable {x : Float} {q : ℚ}

/-- The outcome of reading a text: what each of its outcomes says about the text. -/
inductive ReadsAs (s : String) : SpanReading → Prop where
  | unknown (h : SpanReading.seconds? (trimChars s.toList) = none) :
    ReadsAs s (.error (.unknownFormat (String.ofList (trimChars s.toList))))
  | noNumber {x : Float} (h : SpanReading.seconds? (trimChars s.toList) = some x)
      (hvalue : (Binary.ofFloat x).value? = none) :
    ReadsAs s (.error (.invalid (String.ofList (trimChars s.toList))))
  | negative {q : ℚ} (h : DenotesSeconds s q) (hq : q < 0) :
    ReadsAs s (.error (.invalid (String.ofList (trimChars s.toList))))
  | span {q : ℚ} {d : Span} (h : DenotesSeconds s q) (hq : 0 ≤ q) (hlimit : q < 2 ^ 64)
      (hseconds : d.seconds < 2 ^ 64) (hnear : |(d.nanoseconds : ℚ) - q * 10 ^ 9| ≤ 1 / 2) :
    ReadsAs s (.span d)
  | overflow {q : ℚ} (h : DenotesSeconds s q) (hlimit : 2 ^ 64 ≤ q) : ReadsAs s .overflow

private theorem roundScaled_seconds_lt_iff {negative : Bool} {mantissa : Nat} {exponent : Int}
    (h : Binary.ofFloat x = .finite negative mantissa exponent) :
    roundScaled mantissa exponent perSecond < secondsLimit * perSecond ↔
      (mantissa : ℚ) * 2 ^ exponent < 2 ^ 64 := by
  have hmantissa : mantissa < secondsLimit := (Binary.mantissa_lt h).trans (by decide)
  have hlimit : ((secondsLimit : Nat) : ℚ) = 2 ^ 64 := by norm_num [secondsLimit, UInt64.size]
  rw [← hlimit]
  exact roundScaled_lt_iff hmantissa (by decide)

private theorem exists_ofFloatSeconds? (h : (Binary.ofFloat x).value? = some q) (hq : 0 ≤ q)
    (hlimit : q < 2 ^ 64) :
    ∃ d, ofFloatSeconds? x = some d ∧ d.seconds < 2 ^ 64 ∧
      |(d.nanoseconds : ℚ) - q * 10 ^ 9| ≤ 1 / 2 := by
  obtain ⟨negative, mantissa, exponent, hx, rfl⟩ := Binary.exists_of_value? h hq
  have hfits := (roundScaled_seconds_lt_iff hx).mpr hlimit
  refine ⟨⟨roundScaled mantissa exponent perSecond⟩, ?_, Nat.div_lt_of_lt_mul ?_, ?_⟩
  · simp only [ofFloatSeconds?, hx, if_pos hfits]
  · rwa [Nat.mul_comm]
  · have hnear := abs_roundScaled_sub_le mantissa perSecond exponent
    have hfactor : ((perSecond : Nat) : ℚ) = 10 ^ 9 := by norm_num [perSecond]
    rwa [hfactor] at hnear

private theorem ofFloatSeconds?_eq_none (h : (Binary.ofFloat x).value? = some q)
    (hlimit : 2 ^ 64 ≤ q) :
    ofFloatSeconds? x = none := by
  obtain ⟨negative, mantissa, exponent, hx, rfl⟩ :=
    Binary.exists_of_value? h (le_trans (by positivity) hlimit)
  have hlong := mt (roundScaled_seconds_lt_iff hx).mp (not_lt_of_ge hlimit)
  simp only [ofFloatSeconds?, hx, if_neg hlong]

theorem readsAs_read (s : String) : ReadsAs s (read s) := by
  cases hseconds : SpanReading.seconds? (trimChars s.toList) with
  | none =>
    simp only [read, hseconds]
    exact .unknown hseconds
  | some x =>
    simp only [read, hseconds, SpanReading.ofSeconds]
    cases hvalue : (Binary.ofFloat x).value? with
    | none =>
      have hfinite : x.isFinite = false := by
        rw [Bool.eq_false_iff, ne_eq, Binary.isFinite_iff, hvalue]
        rintro ⟨q, hq⟩
        cases hq
      simp only [hfinite, Bool.not_false, Bool.true_or, if_true]
      exact .noNumber hseconds hvalue
    | some q =>
      have hfinite : x.isFinite = true := Binary.isFinite_iff.mpr ⟨q, hvalue⟩
      have hdenotes : DenotesSeconds s q := ⟨x, hseconds, hvalue⟩
      simp only [hfinite, Bool.not_true, Bool.false_or, decide_eq_true_eq,
        Binary.lt_zero_iff hvalue]
      by_cases hnegative : q < 0
      · rw [if_pos hnegative]
        exact .negative hdenotes hnegative
      · rw [if_neg hnegative]
        have hq : 0 ≤ q := le_of_not_gt hnegative
        by_cases hlimit : q < 2 ^ 64
        · obtain ⟨d, hd, hwhole, hnear⟩ := exists_ofFloatSeconds? hvalue hq hlimit
          rw [hd]
          exact .span hdenotes hq hlimit hwhole hnear
        · rw [ofFloatSeconds?_eq_none hvalue (le_of_not_gt hlimit)]
          exact .overflow hdenotes (le_of_not_gt hlimit)

theorem read_eq_overflow_iff {s : String} :
    read s = .overflow ↔ ∃ q, DenotesSeconds s q ∧ 2 ^ 64 ≤ q := by
  constructor
  · intro h
    have hreads := readsAs_read s
    rw [h] at hreads
    cases hreads with
    | overflow hdenotes hlimit => exact ⟨_, hdenotes, hlimit⟩
  · rintro ⟨q, hdenotes, hlimit⟩
    generalize hread : read s = reading
    have hreads := readsAs_read s
    rw [hread] at hreads
    have hpositive : 0 ≤ q := le_trans (by positivity) hlimit
    cases hreads with
    | unknown h =>
      obtain ⟨x, hx, -⟩ := hdenotes
      cases h.symm.trans hx
    | noNumber h hvalue =>
      obtain ⟨y, hy, hq⟩ := hdenotes
      cases h.symm.trans hy
      cases hvalue.symm.trans hq
    | negative h hq =>
      rw [h.unique hdenotes] at hq
      exact absurd hq (not_lt_of_ge hpositive)
    | span h _ hq =>
      rw [h.unique hdenotes] at hq
      exact absurd hq (not_lt_of_ge hlimit)
    | overflow => rfl

end Span

end FleetTelemetry
