import FleetTelemetry.Number.Binary
import Mathlib

/-!
# The numbers that doubles stand for

A finite double stands for a rational number, and the comparisons of doubles are those of these
numbers. Rounding such a number to whole units moves it by half a unit at most.
-/

namespace FleetTelemetry.Number

open Float.Model Float.Model.UnpackedFloat

/-! ## Fields of a double -/

section Fields

variable {b : BitVec Format.binary64.numBits}

private theorem toNat_unpackExponent :
    (unpackExponent b).toNat = b.toNat >>> 52 % 2048 := by
  simp [unpackExponent]

private theorem toNat_unpackMantissa :
    (unpackMantissa b).toNat = b.toNat % hiddenBit := by
  simp [unpackMantissa, hiddenBit]

private theorem isNegative_unpackSign :
    (Sign.ofBitVec (unpackSign b) == .negative) =
      decide (b.toNat >>> 63 = 1) := by
  have hlt : b.toNat < 2 ^ 64 := b.isLt
  have hsign : (unpackSign b).toNat = b.toNat >>> 63 := by
    simp [unpackSign]
    omega
  unfold Sign.ofBitVec
  split
  · next hzero =>
    have hbit : b.toNat >>> 63 = 0 := by
      rw [← hsign, hzero]
      rfl
    rw [hbit]
    rfl
  · next hone =>
    have hne : b.toNat >>> 63 ≠ 0 := by
      intro h
      apply hone
      apply BitVec.eq_of_toNat_eq
      rw [hsign, h]
      rfl
    have hbit : b.toNat >>> 63 = 1 := by
      rw [Nat.shiftRight_eq_div_pow] at hne ⊢
      omega
    rw [hbit]
    rfl

private theorem toNat_append_hiddenBit (fraction : BitVec 52) :
    (1#1 ++ fraction).toNat = hiddenBit + fraction.toNat := by
  rw [BitVec.toNat_append, ← Nat.shiftLeft_add_eq_or_of_lt fraction.isLt]
  rfl

end Fields

namespace Binary

private theorem ofFloat_eq (x : Float) :
    ofFloat x =
      match x.toModel.unpack with
      | .notANumber => .notANumber
      | .infinity sign => .infinite (sign == .negative)
      | .zero sign => .finite (sign == .negative) 0 (-1074)
      | .finite sign mantissa exponent _ => .finite (sign == .negative) mantissa exponent := by
  obtain ⟨b, hb⟩ : ∃ b : BitVec Format.binary64.numBits, b = x.toModel.toBits.toBitVec := ⟨_, rfl⟩
  have hbits : x.toBits.toNat = b.toNat := by rw [hb]; rfl
  have hunpack : x.toModel.unpack = UnpackedFloat.unpack Format.binary64 b := by rw [hb]; rfl
  have hbias : ((Format.binary64.exponentBias : Nat) : Int) = 1023 := rfl
  rw [hunpack]
  simp only [ofFloat, hbits, ← toNat_unpackExponent, ← toNat_unpackMantissa,
    ← isNegative_unpackSign, UnpackedFloat.unpack, hbias]
  by_cases htop : unpackExponent b = -1#_
  · by_cases hzero : unpackMantissa b = 0#_
    · simp [htop, hzero]
    · have hfraction : (unpackMantissa b).toNat ≠ 0 := fun h => hzero (BitVec.eq_of_toNat_eq h)
      simp [htop, hzero, hfraction]
  · by_cases hbottom : unpackExponent b = 0#_
    · by_cases hzero : unpackMantissa b = 0#_
      · simp [hbottom, hzero]
      · simp [hbottom, hzero]
    · have hlast : (unpackExponent b).toNat ≠ 2047 := fun h => htop (BitVec.eq_of_toNat_eq h)
      have hfirst : (unpackExponent b).toNat ≠ 0 := fun h => hbottom (BitVec.eq_of_toNat_eq h)
      rw [if_neg hlast, if_neg hfirst, if_neg htop, if_neg hbottom]
      simp only [toNat_append_hiddenBit]
      congr 1

/-- The number that a double stands for. There is none for an infinity. -/
def value? : Binary → Option ℚ
  | .finite negative mantissa exponent =>
    some (if negative then -(mantissa * 2 ^ exponent) else mantissa * 2 ^ exponent)
  | _ => none

section Values

variable {x : Float} {q : ℚ}

theorem isFinite_iff : x.isFinite = true ↔ ∃ q, (ofFloat x).value? = some q := by
  have hunpack : x.isFinite = x.toModel.unpack.isFinite := rfl
  rw [hunpack, ofFloat_eq]
  cases x.toModel.unpack <;> simp [UnpackedFloat.isFinite, value?]

theorem lt_zero_iff (h : (ofFloat x).value? = some q) : x < 0.0 ↔ q < 0 := by
  have hzero : (0.0 : Float).toModel.unpack = .zero .positive := rfl
  have hless : x < 0.0 ↔ x.toModel.unpack.lt (0.0 : Float).toModel.unpack = true :=
    decide_eq_true_iff
  rw [hless, hzero]
  rw [ofFloat_eq] at h
  cases hx : x.toModel.unpack with
  | notANumber => simp [hx, value?] at h
  | infinity sign => simp [hx, value?] at h
  | zero sign =>
    simp only [hx, value?, Nat.cast_zero, zero_mul, neg_zero, ite_self, Option.some.injEq] at h
    rw [← h]
    exact iff_of_false nofun (lt_irrefl 0)
  | finite sign mantissa exponent hpos =>
    have hmagnitude : (0 : ℚ) < mantissa * 2 ^ exponent := by positivity
    rw [hx] at h
    cases sign with
    | negative =>
      obtain rfl := Option.some.inj h
      exact iff_of_true rfl (neg_lt_zero.mpr hmagnitude)
    | positive =>
      obtain rfl := Option.some.inj h
      exact iff_of_false nofun (not_lt_of_gt hmagnitude)

theorem mantissa_lt {negative : Bool} {mantissa : Nat} {exponent : Int}
    (h : ofFloat x = .finite negative mantissa exponent) : mantissa < 2 ^ 53 := by
  have hfraction : x.toBits.toNat % hiddenBit < hiddenBit := Nat.mod_lt _ (by decide)
  have hbit : hiddenBit = 2 ^ 52 := rfl
  simp only [ofFloat] at h
  split at h
  · split at h <;> cases h
  · split at h <;> cases h <;> omega

theorem exists_of_value? (h : (ofFloat x).value? = some q) (hq : 0 ≤ q) :
    ∃ negative mantissa exponent, ofFloat x = .finite negative mantissa exponent ∧
      q = mantissa * 2 ^ exponent := by
  cases hx : ofFloat x with
  | notANumber => simp [hx, value?] at h
  | infinite negative => simp [hx, value?] at h
  | finite negative mantissa exponent =>
    rw [hx] at h
    refine ⟨negative, mantissa, exponent, rfl, ?_⟩
    cases negative with
    | false => exact (Option.some.inj h).symm
    | true =>
      -- A negative zero is the only one of these numbers that is not below zero.
      have hmagnitude : (0 : ℚ) ≤ mantissa * 2 ^ exponent := by positivity
      have hneg : -((mantissa : ℚ) * 2 ^ exponent) = q := Option.some.inj h
      linarith

end Values

end Binary

/-! ## Rounding -/

section Rounding

variable {mantissa factor limit : Nat} {exponent : Int}

private theorem roundScaled_of_nonneg (h : 0 ≤ exponent) :
    (roundScaled mantissa exponent factor : ℚ) = mantissa * 2 ^ exponent * factor := by
  lift exponent to Nat using h
  simp [roundScaled, Nat.shiftLeft_eq]

private theorem roundScaled_neg {places : Nat} (h : 0 < places) :
    roundScaled mantissa (-places) factor = roundDiv (mantissa * factor) (2 ^ places) := by
  have hnegative : ¬0 ≤ (-places : Int) := by omega
  rw [roundScaled, if_neg hnegative, neg_neg, Int.toNat_natCast, Nat.one_shiftLeft]

theorem abs_roundScaled_sub_le (mantissa factor : Nat) (exponent : Int) :
    |(roundScaled mantissa exponent factor : ℚ) - mantissa * 2 ^ exponent * factor| ≤ 1 / 2 := by
  by_cases h : 0 ≤ exponent
  · rw [roundScaled_of_nonneg h, sub_self, abs_zero]
    norm_num
  · obtain ⟨places, rfl⟩ : ∃ places : Nat, exponent = -places := ⟨(-exponent).toNat, by omega⟩
    have hpower : (0 : ℚ) < 2 ^ places := by positivity
    rw [roundScaled_neg (by omega), zpow_neg, zpow_natCast]
    obtain ⟨hlow, hhigh⟩ := roundDiv_bounds (mantissa * factor) (2 ^ places) (by positivity)
    generalize roundDiv (mantissa * factor) (2 ^ places) = rounded at hlow hhigh ⊢
    have hlow : 2 * ((mantissa : ℚ) * factor) ≤ (2 * rounded + 1) * 2 ^ places := mod_cast hlow
    have hhigh : 2 * (rounded : ℚ) * 2 ^ places ≤ 2 * (mantissa * factor) + 2 ^ places :=
      mod_cast hhigh
    have hquotient : (mantissa : ℚ) * (2 ^ places)⁻¹ * factor * 2 ^ places = mantissa * factor := by
      field_simp
    rw [abs_le]
    constructor <;> nlinarith

/-- What is less than a whole number of units is so after rounding, unless the mantissa itself is
so large that it is rounded. -/
theorem roundScaled_lt_iff (hmantissa : mantissa < limit) (hfactor : 0 < factor) :
    roundScaled mantissa exponent factor < limit * factor ↔
      (mantissa : ℚ) * 2 ^ exponent < limit := by
  by_cases h : 0 ≤ exponent
  · rw [← Nat.cast_lt (α := ℚ), roundScaled_of_nonneg h, Nat.cast_mul]
    exact mul_lt_mul_iff_left₀ (mod_cast hfactor)
  · -- The number is at most its mantissa, and with one unit more the mantissa is within the limit.
    have hpower : (2 : ℚ) ^ exponent ≤ 1 := zpow_le_one_of_nonpos₀ one_le_two (by omega)
    have hlimit : (mantissa : ℚ) + 1 ≤ limit := mod_cast hmantissa
    have hunit : (1 : ℚ) ≤ factor := mod_cast hfactor
    have hvalue : (mantissa : ℚ) * 2 ^ exponent ≤ mantissa :=
      mul_le_of_le_one_right (Nat.cast_nonneg mantissa) hpower
    have hnear := (abs_le.mp (abs_roundScaled_sub_le mantissa factor exponent)).2
    have hscaled : (mantissa : ℚ) * 2 ^ exponent * factor ≤ mantissa * factor :=
      mul_le_mul_of_nonneg_right hvalue (Nat.cast_nonneg factor)
    have hroom : ((mantissa : ℚ) + 1) * factor ≤ limit * factor :=
      mul_le_mul_of_nonneg_right hlimit (Nat.cast_nonneg factor)
    have hrounded : (roundScaled mantissa exponent factor : ℚ) < limit * factor := by linarith
    exact iff_of_true (mod_cast hrounded) (by linarith)

end Rounding

end FleetTelemetry.Number
