import FleetTelemetry.Text.Numeral

/-!
# Dates and times

A date, a time of day, or both with a distance from universal time. Settings know no dates: what
is wanted of one is that it is right and how its normal form reads.
-/

namespace FleetTelemetry.Toml.Moment

open Text

def number? (count : Nat) (s : List Char) : Option Nat :=
  if s.length = count then digits? s else none

def isLeapYear (year : Nat) : Bool :=
  year % 4 = 0 && (year % 100 ≠ 0 || year % 400 = 0)

def daysIn (year month : Nat) : Nat :=
  if month = 2 then (if isLeapYear year then 29 else 28)
  else if month ∈ [4, 6, 9, 11] then 30
  else 31

def date? (s : List Char) : Option (List Char) :=
  match s with
  | [y₁, y₂, y₃, y₄, '-', m₁, m₂, '-', d₁, d₂] => do
    let year ← number? 4 [y₁, y₂, y₃, y₄]
    let month ← number? 2 [m₁, m₂]
    let day ← number? 2 [d₁, d₂]
    if 1 ≤ month ∧ month ≤ 12 ∧ 1 ≤ day ∧ day ≤ daysIn year month then some s else none
  | _ => none

/-- The first nine digits of a fraction without the zeros at their end, but with one digit. -/
def fraction? (digits : List Char) : Option (List Char) :=
  if digits.isEmpty || !digits.all isDigit then none
  else
    let kept := ((digits.take 9).reverse.dropWhile (· = '0')).reverse
    some ('.' :: if kept.isEmpty then ['0'] else kept)

def clock? (h₁ h₂ m₁ m₂ : Char) : Option (List Char) := do
  let hour ← number? 2 [h₁, h₂]
  let minute ← number? 2 [m₁, m₂]
  if hour < 24 ∧ minute < 60 then some [h₁, h₂, ':', m₁, m₂] else none

/-- The normal form of a time such as `07:32`, `07:32:00` or `07:32:00.5`. A minute may have a
leap second. -/
def time? (s : List Char) : Option (List Char) :=
  match s with
  | [h₁, h₂, ':', m₁, m₂] => clock? h₁ h₂ m₁ m₂
  | h₁ :: h₂ :: ':' :: m₁ :: m₂ :: ':' :: s₁ :: s₂ :: rest => do
    let clock ← clock? h₁ h₂ m₁ m₂
    let second ← number? 2 [s₁, s₂]
    let fraction ←
      match rest with
      | [] => some []
      | '.' :: digits => fraction? digits
      | _ => none
    if second ≤ 60 then some (clock ++ ':' :: s₁ :: s₂ :: fraction) else none
  | _ => none

/-- The normal form of a distance from universal time. No distance is never negative. -/
def offset? (s : List Char) : Option (List Char) :=
  match s with
  | ['Z'] => some ['Z']
  | ['z'] => some ['Z']
  | [sign, h₁, h₂, ':', m₁, m₂] => do
    let clock ← clock? h₁ h₂ m₁ m₂
    if sign = '+' then some ('+' :: clock)
    else if sign = '-' then some ((if clock = "00:00".toList then '+' else '-') :: clock)
    else none
  | _ => none

/-- The normal form of a time of day, perhaps with a distance from universal time. -/
def timeAndOffset? (s : List Char) : Option (List Char) := do
  let isTime (c : Char) : Bool := isDigit c || c = ':' || c = '.'
  let time ← time? (s.takeWhile isTime)
  match s.dropWhile isTime with
  | [] => some time
  | rest => do
    let offset ← offset? rest
    some (time ++ offset)

def isDivider (c : Char) : Bool :=
  c = 'T' || c = 't' || c = ' '

/-- The normal form of a date, a time of day, or a date and a time. -/
def normal? (s : List Char) : Option (List Char) :=
  match date? (s.take 10), s.drop 10 with
  | some date, [] => some date
  | some date, divider :: rest =>
    if isDivider divider then (timeAndOffset? rest).map fun time => date ++ 'T' :: time
    else none
  | none, _ => time? s

end FleetTelemetry.Toml.Moment
