/-!
# Exact values of doubles

A double is a whole number times a power of two, an infinity or no number. Texts and durations
are derived from this exact value with whole-number arithmetic, so every rounding is stated here
or where it happens, never left to a printer.
-/

namespace FleetTelemetry.Number

inductive Binary where
  | notANumber
  | infinite (negative : Bool)
  /-- The value `±mantissa * 2 ^ exponent`. -/
  | finite (negative : Bool) (mantissa : Nat) (exponent : Int)
  deriving DecidableEq, Repr

/-- The first bit of a mantissa of 53 bits, which the fraction field leaves out. -/
def hiddenBit : Nat := 1 <<< 52

def Binary.ofFloat (x : Float) : Binary :=
  let bits := x.toBits.toNat
  let negative := bits >>> 63 = 1
  let exponent : Nat := bits >>> 52 % 2048
  let fraction : Nat := bits % hiddenBit
  if exponent = 2047 then
    if fraction = 0 then .infinite negative else .notANumber
  else if exponent = 0 then
    .finite negative fraction (-1074)
  else
    .finite negative (hiddenBit + fraction) ((exponent : Int) - 1075)

/-- The quotient rounded to the nearest whole number, a tie to the even one. -/
def roundDiv (num den : Nat) : Nat :=
  let q := num / den
  let twice := 2 * (num % den)
  if twice < den then q
  else if den < twice then q + 1
  else if q % 2 = 0 then q
  else q + 1

/-- The whole number nearest to `mantissa * 2 ^ exponent * factor`, a tie to the even one. -/
def roundScaled (mantissa : Nat) (exponent : Int) (factor : Nat) : Nat :=
  if 0 ≤ exponent then mantissa <<< exponent.toNat * factor
  else roundDiv (mantissa * factor) (1 <<< (-exponent).toNat)

theorem roundDiv_bounds (num den : Nat) (hden : 0 < den) :
    2 * num ≤ (2 * roundDiv num den + 1) * den ∧ 2 * roundDiv num den * den ≤ 2 * num + den := by
  have hdiv := Nat.div_add_mod num den
  have hmod := Nat.mod_lt num hden
  have hup : (num / den + 1) * den = num / den * den + den := Nat.succ_mul _ _
  have hlow : (2 * (num / den) + 1) * den = 2 * (num / den * den) + den := by
    rw [Nat.succ_mul, Nat.mul_assoc]
  have hhigh : (2 * (num / den + 1) + 1) * den = 2 * ((num / den + 1) * den) + den := by
    rw [Nat.succ_mul, Nat.mul_assoc]
  have hcomm : den * (num / den) = num / den * den := Nat.mul_comm _ _
  dsimp only [roundDiv]
  split
  · rw [hlow, Nat.mul_assoc]
    omega
  · split
    · rw [hhigh, Nat.mul_assoc]
      omega
    · split
      · rw [hlow, Nat.mul_assoc]
        omega
      · rw [hhigh, Nat.mul_assoc]
        omega

end FleetTelemetry.Number
