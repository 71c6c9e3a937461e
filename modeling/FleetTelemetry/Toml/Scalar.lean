import FleetTelemetry.Number.Literal
import FleetTelemetry.Text.Split
import FleetTelemetry.Toml.Moment
import FleetTelemetry.Toml.Text
import FleetTelemetry.Toml.Value

/-!
# TOML scalars

Truth values, numbers and dates are single words. Underscores may stand between the digits of a
number; whole numbers have 64 bits with a sign, and numbers with a point or an exponent are
doubles that must not be too large.
-/

namespace FleetTelemetry.Toml

open FleetTelemetry.Text Number Reader

def grouped? (isOne : Char → Bool) (s : List Char) : Option (List Char) :=
  let groups := pieces '_' s
  if groups.all fun group => !group.isEmpty && group.all isOne then some groups.flatten else none

/-- Decimal digits of which the first is zero only when it is the only one. -/
def leading? (s : List Char) : Option (List Char) :=
  match grouped? isDigit s with
  | some ('0' :: _ :: _) => none
  | digits => digits

def baseValue (base : Nat) (digits : List Char) : Nat :=
  digits.foldl (fun value c => base * value + hexDigitValue c) 0

def baseNumber? (base : Nat) (s : List Char) : Option Int :=
  (grouped? (fun c => isHexDigit c && hexDigitValue c < base) s).map fun digits =>
    (baseValue base digits : Int)

def magnitude? (s : List Char) : Option Int :=
  (leading? s).map fun digits => (digitsValue digits : Int)

/-- A whole number of any size. Only decimal ones have a sign. -/
def unboundedWhole? (s : List Char) : Option Int :=
  match s with
  | '0' :: 'x' :: digits => baseNumber? 16 digits
  | '0' :: 'o' :: digits => baseNumber? 8 digits
  | '0' :: 'b' :: digits => baseNumber? 2 digits
  | '-' :: digits => (magnitude? digits).map (-·)
  | '+' :: digits => magnitude? digits
  | digits => magnitude? digits

def isWord (n : Int) : Bool :=
  Int64.minValue.toInt ≤ n && n ≤ Int64.maxValue.toInt

def whole? (s : List Char) : Option Int :=
  (unboundedWhole? s).filter isWord

def exponent? (s : List Char) : Option Int :=
  let (negative, digits) := Literal.splitSign s
  (grouped? isDigit digits).map fun digits =>
    if negative then -(digitsValue digits : Int) else digitsValue digits

def optionalExponent? (s : List Char) : Option Int :=
  match s with
  | [] => some 0
  | 'e' :: rest => exponent? rest
  | 'E' :: rest => exponent? rest
  | _ => none

def isGrouped (c : Char) : Bool :=
  isDigit c || c = '_'

def point? (negative : Bool) (s : List Char) : Option Literal := do
  let front ← leading? (s.takeWhile isGrouped)
  match s.dropWhile isGrouped with
  | '.' :: rest =>
    let back ← grouped? isDigit (rest.takeWhile isGrouped)
    let exponent ← optionalExponent? (rest.dropWhile isGrouped)
    some (.finite negative (digitsValue (front ++ back)) (exponent - back.length))
  | [] => none
  | rest => do
    let exponent ← optionalExponent? rest
    some (.finite negative (digitsValue front) exponent)

/-- A double. Digits that denote more than the largest double are refused. -/
def real? (s : List Char) : Option Float :=
  let (negative, rest) := Literal.splitSign s
  if rest = ['i', 'n', 'f'] then some (Literal.infinite negative).toFloat
  else if rest = ['n', 'a', 'n'] then some Literal.notANumber.toFloat
  else (point? negative rest |>.map Literal.toFloat).filter (·.isFinite)

def scalar? (s : List Char) : Option Value :=
  if s = "true".toList then some (.truth true)
  else if s = "false".toList then some (.truth false)
  else
    match whole? s with
    | some n => some (.whole n)
    | none =>
      match real? s with
      | some x => some (.real x)
      | none => (Moment.normal? s).map fun text => .text (String.ofList text)

def isWordChar (c : Char) : Bool :=
  c.isAlphanum || c = '+' || c = '-' || c = '_' || c = '.' || c = ':'

def timeFollows : Reader Bool := fun s =>
  match s with
  | ' ' :: c :: _ => some (isDigit c, s)
  | _ => some (false, s)

/-- Reads a scalar. A date may have a space and a time behind it. -/
def scalar : Reader Value := do
  let word ← takeSome isWordChar
  let isDate := (Moment.date? word).isSome
  if isDate && (← timeFollows) then
    expect [' ']
    let time ← takeSome isWordChar
    (scalar? (word ++ ' ' :: time) : Option Value)
  else
    (scalar? word : Option Value)

end FleetTelemetry.Toml
