import FleetTelemetry.Json.Reader

/-!
# Printing JSON

Values are printed without blanks between their tokens. In strings the quote, the backslash and
the control characters are escaped, and every other character stands for itself.
-/

namespace FleetTelemetry.Json

open Text

def fourDigits (n : Nat) : List Char :=
  let digits := hexadecimal n
  List.replicate (4 - digits.length) '0' ++ digits

def printChar (c : Char) : List Char :=
  if c = '"' then ['\\', '"']
  else if c = '\\' then ['\\', '\\']
  else if c = '\x08' then ['\\', 'b']
  else if c = '\x0c' then ['\\', 'f']
  else if c = '\n' then ['\\', 'n']
  else if c = '\r' then ['\\', 'r']
  else if c = '\t' then ['\\', 't']
  else if c.toNat < 0x20 then '\\' :: 'u' :: fourDigits c.toNat
  else [c]

def printString (s : String) : List Char :=
  '"' :: s.toList.flatMap printChar ++ ['"']

def printNatural (n : Nat) : List Char :=
  decimal n

def printBoolean (b : Bool) : List Char :=
  if b then ['t', 'r', 'u', 'e'] else ['f', 'a', 'l', 's', 'e']

def printList (items : List (List Char)) : List Char :=
  '[' :: [','].intercalate items ++ [']']

def printMember (key : String) (value : List Char) : List Char :=
  printString key ++ ':' :: value

def printObject (members : List (String × List Char)) : List Char :=
  '\x7b' :: [','].intercalate (members.map fun member => printMember member.1 member.2) ++ ['\x7d']

end FleetTelemetry.Json
