import FleetTelemetry.Number.Binary
import FleetTelemetry.Text.Numeral

/-!
# Shortest decimals

Among the decimals that read back as a given double, the one with the fewest digits, and among
those the one nearest to the double. A grid is the multiples of one power of ten; the search
goes from coarse grids to fine ones and stops at the first grid with a point that reads back.
-/

namespace FleetTelemetry.Number

open FleetTelemetry.Text

structure Scientific where
  digits : Nat
  exponent : Int
  deriving DecidableEq, Repr

/-- The reals that round to a double, in quarters of its unit in the last place. Both ends belong
to it exactly when the mantissa is even. -/
structure RoundingInterval where
  low : Nat
  middle : Nat
  high : Nat
  closed : Bool
  /-- The power of two of one quarter. -/
  exponent : Int

/-- The interval of `mantissa * 2 ^ exponent`. Below the smallest mantissa of a power of two the
neighbours lie half as far away. -/
def RoundingInterval.of (mantissa : Nat) (exponent : Int) : RoundingInterval :=
  let middle := 4 * mantissa
  let narrow := mantissa = hiddenBit ∧ exponent ≠ -1074
  { low := if narrow then middle - 1 else middle - 2
    middle
    high := middle + 2
    closed := mantissa % 2 = 0
    exponent := exponent - 2 }

def scaledFraction (a : Nat) (p q : Int) : Nat × Nat :=
  (a <<< p.toNat * Nat.pow 10 (-q).toNat, 1 <<< (-p).toNat * Nat.pow 10 q.toNat)

/-- The point of the grid of `10 ^ q` inside the interval that is nearest to its middle, if there
is one; of two equally near points the even one. -/
def RoundingInterval.gridPoint? (i : RoundingInterval) (q : Int) : Option Nat :=
  let (num, den) := scaledFraction 1 i.exponent q
  let floor := i.middle * num / den
  let inside (point : Nat) : Bool :=
    if i.closed then i.low * num ≤ point * den && point * den ≤ i.high * num
    else i.low * num < point * den && point * den < i.high * num
  let below := i.middle * num - floor * den
  let above := (floor + 1) * den - i.middle * num
  match inside floor, inside (floor + 1) with
  | true, true =>
    if below < above || (below = above && floor % 2 = 0) then some floor else some (floor + 1)
  | true, false => some floor
  | false, true => some (floor + 1)
  | false, false => none

/-- Searches the grids `10 ^ q`, `10 ^ (q - 1)`, … for a point inside the interval. -/
def RoundingInterval.search (i : RoundingInterval) : Nat → Int → Scientific
  | 0, q => { digits := i.middle, exponent := q }
  | steps + 1, q =>
    match i.gridPoint? q with
    | some point => { digits := point, exponent := q }
    | none => i.search steps (q - 1)

def coarsestGrid : Int := 309

def gridCount : Nat := 653

def shortest (mantissa : Nat) (exponent : Int) : Scientific :=
  if mantissa = 0 then { digits := 0, exponent := 0 }
  else (RoundingInterval.of mantissa exponent).search gridCount coarsestGrid

/-- Digits with a point `places` digits from the right, or zeros up to the point. -/
def positional (s : Scientific) : List Char :=
  let digits := decimal s.digits
  if 0 ≤ s.exponent then
    digits ++ List.replicate (if s.digits = 0 then 0 else s.exponent.toNat) '0'
  else
    let places := (-s.exponent).toNat
    if places < digits.length then
      digits.take (digits.length - places) ++ '.' :: digits.drop (digits.length - places)
    else
      '0' :: '.' :: List.replicate (places - digits.length) '0' ++ digits

def Scientific.order (s : Scientific) : Int :=
  s.exponent + (decimal s.digits).length - 1

/-- One digit before the point, the others after it, and the exponent with its sign. -/
def Scientific.text (s : Scientific) : List Char :=
  let mark := if 0 ≤ s.order then '+' else '-'
  let tail := 'e' :: mark :: decimal s.order.natAbs
  match decimal s.digits with
  | [] => tail
  | [d] => d :: tail
  | d :: more => d :: '.' :: more ++ tail

structure ShortestFormat where
  /-- Whole numbers carry `.0`. -/
  pointZero : Bool
  /-- First digits of these orders are written without exponent: `low ≤ order < high`. -/
  positionalOrders : Option (Int × Int)

def ShortestFormat.render (format : ShortestFormat) (x : Float) : String :=
  match Binary.ofFloat x with
  | .notANumber => "NaN"
  | .infinite negative => if negative then "-inf" else "inf"
  | .finite negative mantissa exponent =>
    let s := shortest mantissa exponent
    let plain : Bool :=
      match format.positionalOrders with
      | none => true
      | some (low, high) => s.digits = 0 || (low ≤ s.order && s.order < high)
    let text :=
      if plain then
        positional s ++ (if format.pointZero && 0 ≤ s.exponent then ['.', '0'] else [])
      else
        s.text
    String.ofList (if negative then '-' :: text else text)

end FleetTelemetry.Number
