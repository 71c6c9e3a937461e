import FleetTelemetry.Json.Reader
import FleetTelemetry.Number.Literal

/-!
# Words, numbers and strings of JSON

Whole numbers of 64 bits are read exactly, with or without sign. Every other number becomes a
double by one multiplication or division with a power of ten, which is all that messages need of
it. Strings are sequences of bytes until their closing quote is found, and must then be UTF-8.
-/

namespace FleetTelemetry.Json

open Reader

inductive Number where
  | natural (value : UInt64)
  /-- A negative whole number of at least `-2 ^ 63`. -/
  | negative (magnitude : Nat)
  | real (value : Float)

def Number.kind : Number → Kind
  | .natural value => .integer value.toNat
  | .negative magnitude => .integer (-(magnitude : Int))
  | .real value => .real value

def word : List Char → Reader Unit
  | [] => pure ()
  | c :: cs => do
    match ← next with
    | none => fail .endInValue
    | some b => if toChar b = c then word cs else fail .expectedWord

def isDigitByte (b : UInt8) : Bool :=
  0x30 ≤ b && b ≤ 0x39

def digitOfByte (b : UInt8) : Nat :=
  b.toNat - 0x30

def digitBytes : Reader Bytes :=
  takeWhile isDigitByte

/-- Appends digits to a significand until it would need more than 64 bits; returns the
significand and the digits left over. -/
def absorb (significand : Nat) : Bytes → Nat × Bytes
  | [] => (significand, [])
  | b :: bs =>
    let longer := 10 * significand + digitOfByte b
    if longer < UInt64.size then absorb longer bs else (significand, b :: bs)

def powerOfTen (n : Nat) : Float :=
  Float.ofScientific 1 false n

/-- Scales a double by a power of ten. Two divisions by `10 ^ 308` turn any significand of 64
bits into zero, so three rounds suffice. -/
def scale : Nat → Float → Int → Option Float
  | 0, x, _ => some x
  | rounds + 1, x, exponent =>
    if exponent.natAbs ≤ 308 then
      if 0 ≤ exponent then
        let y := x * powerOfTen exponent.natAbs
        if y.isInf then none else some y
      else
        some (x / powerOfTen exponent.natAbs)
    else if x == 0.0 then some x
    else if 0 ≤ exponent then none
    else scale rounds (x / powerOfTen 308) (exponent + 308)

def realNumber (negative : Bool) (significand : Nat) (exponent : Int) : Reader Number :=
  match scale 4 (Float.ofNat significand) exponent with
  | none => fail .numberOutOfRange
  | some x => pure (.real (if negative then -x else x))

def exponentLimit : Nat := 1 <<< 31

def exponentPart (negative : Bool) (significand : Nat) (exponent : Int) : Reader Number := do
  drop
  let mark ← look
  let down := mark = some '-'
  if down || mark = some '+' then drop
  let digits ← digitBytes
  if digits.isEmpty then
    match ← look with
    | none => fail .endInValue
    | some _ => fail .invalidNumber
  else
    let magnitude := digits.foldl (fun n b => 10 * n + digitOfByte b) 0
    if exponentLimit ≤ magnitude then
      if significand ≠ 0 && !down then fail .numberOutOfRange
      else pure (.real (if negative then -0.0 else 0.0))
    else
      realNumber negative significand (if down then exponent - magnitude else exponent + magnitude)

def isExponentMark (c : Option Char) : Bool :=
  c = some 'e' || c = some 'E'

def fractionPart (negative : Bool) (significand : Nat) (exponent : Int) : Reader Number := do
  drop
  let digits ← digitBytes
  if digits.isEmpty then
    match ← look with
    | none => fail .endInValue
    | some _ => fail .invalidNumber
  else
    let (longer, left) := absorb significand digits
    let places := digits.length - left.length
    if isExponentMark (← look) then exponentPart negative longer (exponent - places)
    else realNumber negative longer (exponent - places)

/-- A whole number with its sign: zero below zero and numbers below `-2 ^ 63` are not whole. -/
def wholeNumber (negative : Bool) (significand : Nat) : Number :=
  if !negative then .natural (UInt64.ofNat significand)
  else if 0 < significand ∧ significand ≤ 1 <<< 63 then .negative significand
  else .real (-(Float.ofNat significand))

/-- Reads what may follow the digits of a whole number. `extra` counts digits that did not fit. -/
def numberTail (negative : Bool) (significand extra : Nat) : Reader Number := do
  let mark ← look
  if mark = some '.' then fractionPart negative significand extra
  else if isExponentMark mark then exponentPart negative significand extra
  else if extra = 0 then pure (wholeNumber negative significand)
  else realNumber negative significand extra

/-- Reads a number after its sign. A zero may not be followed by another digit. -/
def unsignedNumber (negative : Bool) : Reader Number := do
  match ← next with
  | none => fail .endInValue
  | some b =>
    if b = 0x30 then
      if ((← look).map Text.isDigit).getD false then fail .invalidNumber
      else numberTail negative 0 0
    else if isDigitByte b then
      let digits ← digitBytes
      let (significand, left) := absorb (digitOfByte b) digits
      numberTail negative significand left.length
    else
      fail .invalidNumber

def encodeCodePoint (n : Nat) : Bytes :=
  String.utf8EncodeChar (Char.ofNat n)

def hexValue? (b : UInt8) : Option Nat :=
  let c := toChar b
  if '0' ≤ c ∧ c ≤ '9' then some (c.toNat - 48)
  else if 'a' ≤ c ∧ c ≤ 'f' then some (c.toNat - 87)
  else if 'A' ≤ c ∧ c ≤ 'F' then some (c.toNat - 55)
  else none

def fourHex : Reader Nat := fun s =>
  match s with
  | a :: b :: c :: d :: rest =>
    match hexValue? a, hexValue? b, hexValue? c, hexValue? d with
    | some a, some b, some c, some d =>
      .ok ⟨((a * 16 + b) * 16 + c) * 16 + d, rest, by simp; omega⟩
    | _, _, _, _ => .error .invalidEscape
  | _ => .error .endInString

def isLeadingSurrogate (n : Nat) : Bool := 0xD800 ≤ n && n ≤ 0xDBFF

def isTrailingSurrogate (n : Nat) : Bool := 0xDC00 ≤ n && n ≤ 0xDFFF

def pairMark (c : Char) : Reader Unit := do
  match ← look with
  | none => fail .endInString
  | some d => if d = c then drop else fail .unfinishedSurrogate

/-- Reads the code point of an escape after its letter; surrogates come in pairs. -/
def escapedCodePoint : Reader Bytes := do
  let first ← fourHex
  if isTrailingSurrogate first then fail .loneSurrogate
  else if isLeadingSurrogate first then
    pairMark '\\'
    pairMark 'u'
    let second ← fourHex
    if isTrailingSurrogate second then
      pure (encodeCodePoint ((first - 0xD800) * 0x400 + (second - 0xDC00) + 0x10000))
    else
      fail .loneSurrogate
  else
    pure (encodeCodePoint first)

def letterEscape? (c : Char) : Option UInt8 :=
  match c with
  | '"' => some 0x22
  | '\\' => some 0x5C
  | '/' => some 0x2F
  | 'b' => some 0x08
  | 'f' => some 0x0C
  | 'n' => some 0x0A
  | 'r' => some 0x0D
  | 't' => some 0x09
  | _ => none

def escape : Reader Bytes := do
  match ← next with
  | none => fail .endInString
  | some b =>
    match letterEscape? (toChar b) with
    | some byte => pure [byte]
    | none => if toChar b = 'u' then escapedCodePoint else fail .invalidEscape

/-- Reads the bytes of a string after its opening quote; the state holds them in reverse. -/
def stringBytes : Reader Bytes :=
  loop (fun _ => .endInString) (fun (reversed : Bytes) b =>
    if b = 0x22 then pure (.inr reversed.reverse)
    else if b = 0x5C then do
      let bytes ← escape
      pure (.inl (bytes.reverse ++ reversed))
    else if b < 0x20 then fail .controlCharacter
    else pure (.inl (b :: reversed))) []

def textOfBytes? (bytes : Bytes) : Option String :=
  String.fromUTF8? ⟨bytes.toArray⟩

def string : Reader String := do
  let bytes ← stringBytes
  match textOfBytes? bytes with
  | some s => pure s
  | none => fail .invalidCodePoint

end FleetTelemetry.Json
