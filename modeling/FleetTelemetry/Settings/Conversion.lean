import FleetTelemetry.Number.Shortest
import FleetTelemetry.Text.Numeral
import FleetTelemetry.Toml.Value

/-!
# Conversions of settings

A setting need not be written in its own type: numbers and truth values are taken as texts, and
texts as numbers and truth values, as far as that makes sense.
-/

namespace FleetTelemetry.Settings

open Text Number
open Toml (Value)

def realFormat : ShortestFormat := { pointZero := false, positionalOrders := none }

def wholeText (n : Int) : String :=
  String.ofList (if n < 0 then '-' :: decimal n.natAbs else decimal n.natAbs)

def text? : Value → Option String
  | .text value => some value
  | .truth value => some (if value then "true" else "false")
  | .whole value => some (wholeText value)
  | .real value => some (realFormat.render value)
  | .list _ _ => none
  | .table _ _ => none

def yesWords : List String := ["true", "on", "yes"]

def noWords : List String := ["false", "off", "no"]

def lowerCase (s : String) : String :=
  String.ofList (s.toList.map Char.toLower)

def numberOfText? (s : String) : Option UInt64 :=
  if lowerCase s ∈ yesWords then some 1
  else if lowerCase s ∈ noWords then some 0
  else word? s.toList

/-- A setting as a number of 64 bits. Doubles are rounded, a half away from zero, and those out
of range become the nearest number in range. -/
def number? : Value → Option UInt64
  | .whole value => if 0 ≤ value ∧ value < UInt64.size then some (UInt64.ofNat value.toNat) else none
  | .text value => numberOfText? value
  | .truth value => some (if value then 1 else 0)
  | .real value => some value.round.toUInt64
  | .list _ _ => none
  | .table _ _ => none

def truthOfText? (s : String) : Option Bool :=
  if lowerCase s ∈ "1" :: yesWords then some true
  else if lowerCase s ∈ "0" :: noWords then some false
  else none

/-- A setting as a truth value. Every number but zero is true. -/
def truth? : Value → Option Bool
  | .truth value => some value
  | .whole value => some (value ≠ 0)
  | .real value => some (value != 0)
  | .text value => truthOfText? value
  | .list _ _ => none
  | .table _ _ => none

/-- A setting as one of several named choices: its name, or a table with the name as its only
key. -/
def choice? {α : Type} (choices : List (String × α)) : Value → Option α
  | .text value => choices.lookup value
  | .table _ [entry] => choices.lookup entry.1
  | .table _ _ => none
  | .truth _ => none
  | .whole _ => none
  | .real _ => none
  | .list _ _ => none

end FleetTelemetry.Settings
