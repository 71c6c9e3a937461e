/-!
# Decimal numerals

Natural numbers are written without leading zeros and read more freely: a plus sign and leading
zeros are allowed. Fixed-width fields reject what does not fit.
-/

namespace FleetTelemetry.Text

def isDigit (c : Char) : Bool :=
  '0' ≤ c && c ≤ '9'

def digitValue (c : Char) : Nat :=
  c.toNat - '0'.toNat

def digitsValue (s : List Char) : Nat :=
  s.foldl (fun acc c => 10 * acc + digitValue c) 0

def digits? (s : List Char) : Option Nat :=
  if s.isEmpty || !s.all isDigit then none else some (digitsValue s)

def natural? : List Char → Option Nat
  | '+' :: s => digits? s
  | s => digits? s

def below? (bound : Nat) (s : List Char) : Option Nat :=
  (natural? s).filter (· < bound)

def word? (s : List Char) : Option UInt64 :=
  (below? UInt64.size s).map UInt64.ofNat

def decimal (n : Nat) : List Char :=
  Nat.toDigits 10 n

def decimalString (n : Nat) : String :=
  String.ofList (decimal n)

end FleetTelemetry.Text
