import FleetTelemetry.Text.Numeral

/-!
# Number literals

Real numbers as people write them: a sign, digits with a point anywhere among them, an exponent;
or a word for infinity or for no number at all. A literal keeps the exact value that was
written; its floating-point value is the nearest double.
-/

namespace FleetTelemetry.Number

open FleetTelemetry.Text

inductive Literal where
  /-- The value `±significand * 10 ^ exponent`. -/
  | finite (negative : Bool) (significand : Nat) (exponent : Int)
  | infinite (negative : Bool)
  | notANumber
  deriving DecidableEq, Repr

namespace Literal

/-- The lower case of an ASCII letter; other characters stay. -/
def lower (c : Char) : Char :=
  if 'A' ≤ c ∧ c ≤ 'Z' then Char.ofNat (c.toNat + 32) else c

/-- Splits an optional sign off a text; the flag tells a minus. -/
def splitSign : List Char → Bool × List Char
  | '-' :: rest => (true, rest)
  | '+' :: rest => (false, rest)
  | s => (false, s)

def word? (negative : Bool) (s : List Char) : Option Literal :=
  let w := s.map lower
  if w = "inf".toList ∨ w = "infinity".toList then some (.infinite negative)
  else if w = "nan".toList then some .notANumber
  else none

/-- The exponent part of a number: nothing, or a letter `e`, a sign and digits. -/
def exponent? : List Char → Option Int
  | [] => some 0
  | c :: rest =>
    if c = 'e' ∨ c = 'E' then
      let (negative, ds) := splitSign rest
      (digits? ds).map fun n => if negative then -(n : Int) else n
    else
      none

/-- Digits with at most one point, of which at least one digit is there, and an exponent. -/
def digitsAndPoint? (negative : Bool) (s : List Char) : Option Literal :=
  let whole := s.takeWhile isDigit
  let rest := s.dropWhile isDigit
  let (fraction, tail) :=
    match rest with
    | '.' :: more => (more.takeWhile isDigit, more.dropWhile isDigit)
    | _ => ([], rest)
  if whole.isEmpty && fraction.isEmpty then
    none
  else
    (exponent? tail).map fun e =>
      .finite negative (digitsValue (whole ++ fraction)) (e - fraction.length)

def read? (s : List Char) : Option Literal :=
  let (negative, rest) := splitSign s
  match digitsAndPoint? negative rest with
  | some literal => some literal
  | none => word? negative rest

/-- The double nearest to `significand * 10 ^ exponent`. Beyond the range of doubles the
power is not worked out. -/
def nearest (significand : Nat) (exponent : Int) : Float :=
  let magnitude : Int := (decimal significand).length + exponent
  if significand = 0 then 0.0
  else if magnitude > 310 then 1.0 / 0.0
  else if magnitude < -330 then 0.0
  else Float.ofScientific significand (exponent < 0) exponent.natAbs

def toFloat : Literal → Float
  | .finite negative significand exponent =>
    if negative then -(nearest significand exponent) else nearest significand exponent
  | .infinite negative => if negative then -1.0 / 0.0 else 1.0 / 0.0
  | .notANumber => 0.0 / 0.0

end Literal

end FleetTelemetry.Number
