import FleetTelemetry.Json.Punctuation

/-!
# Skipping values

A value that nobody wants is checked for its syntax only. Its strings may hold any bytes, its
numbers may be out of range, and it may nest to any depth: the lists and objects that are open
are kept in a stack.
-/

namespace FleetTelemetry.Json

open Reader

/-- An open list or object around the current value. -/
inductive Frame where
  | list
  | object
  deriving DecidableEq

def Frame.close : Frame → Char
  | .list => ']'
  | .object => '\x7d'

def Frame.endFault : Frame → Fault
  | .list => .endInList
  | .object => .endInObject

def Frame.commaFault : Frame → Fault
  | .list => .expectedCommaOrBracket
  | .object => .expectedCommaOrBrace

def skipEscape : Reader Unit := do
  match ← next with
  | none => fail .endInString
  | some b =>
    if (letterEscape? (toChar b)).isSome then pure ()
    else if toChar b = 'u' then do
      let _ ← fourHex
      pure ()
    else fail .invalidEscape

def skipString : Reader Unit :=
  loop (fun _ => .endInString) (fun () b =>
    if b = 0x22 then pure (.inr ())
    else if b = 0x5C then do
      skipEscape
      pure (.inl ())
    else if b < 0x20 then fail .controlCharacter
    else pure (.inl ())) ()

def skipDigits : Reader Unit := do
  if (← digitBytes).isEmpty then fail .invalidNumber

def skipExponent : Reader Unit := do
  if isExponentMark (← look) then
    drop
    let mark ← look
    if mark = some '-' || mark = some '+' then drop
    skipDigits

def skipFraction : Reader Unit := do
  if (← look) = some '.' then
    drop
    skipDigits

/-- Skips a number after its first digit. A zero may not be followed by another digit. -/
def skipNumberFrom (b : UInt8) : Reader Unit := do
  if b = 0x30 then
    if ((← look).map Text.isDigit).getD false then fail .invalidNumber
  else
    let _ ← digitBytes
  skipFraction
  skipExponent

def skipNumber : Reader Unit := do
  match ← next with
  | none => fail .invalidNumber
  | some b => if isDigitByte b then skipNumberFrom b else fail .invalidNumber

inductive Skipping where
  /-- A value is due inside the open frames. -/
  | value (frames : List Frame)
  /-- A frame has just been opened inside others. -/
  | opened (frame : Frame) (outer : List Frame)
  /-- A value inside a frame is complete. -/
  | after (frame : Frame) (outer : List Frame)

def Skipping.endFault : Skipping → Fault
  | .value _ => .endInValue
  | .opened frame _ => frame.endFault
  | .after frame _ => frame.endFault

def complete : List Frame → Skipping ⊕ Unit
  | [] => .inr ()
  | frame :: outer => .inl (.after frame outer)

def skipKey : Reader Unit := do
  skipString
  colon

def skipStart (outer : List Frame) (b : UInt8) : Reader (Skipping ⊕ Unit) :=
  match toChar b with
  | 'n' => do
    word ['u', 'l', 'l']
    pure (complete outer)
  | 't' => do
    word ['r', 'u', 'e']
    pure (complete outer)
  | 'f' => do
    word ['a', 'l', 's', 'e']
    pure (complete outer)
  | '"' => do
    skipString
    pure (complete outer)
  | '-' => do
    skipNumber
    pure (complete outer)
  | '[' => pure (.inl (.opened .list outer))
  | '\x7b' => pure (.inl (.opened .object outer))
  | _ =>
    if isDigitByte b then do
      skipNumberFrom b
      pure (complete outer)
    else fail .expectedValue

def Frame.afterComma (frame : Frame) (outer : List Frame) : Reader (Skipping ⊕ Unit) :=
  match frame with
  | .list => pure (.inl (.value (.list :: outer)))
  | .object => do
    match ← token with
    | none => fail .endInObject
    | some '"' => do
      drop
      skipKey
      pure (.inl (.value (.object :: outer)))
    | some _ => fail .keyNotString

def skipRound (state : Skipping) (b : UInt8) : Reader (Skipping ⊕ Unit) :=
  let c := toChar b
  match state with
  | .value outer => skipStart outer b
  | .opened frame outer =>
    if c = frame.close then pure (complete outer)
    else
      match frame with
      | .list => skipStart (.list :: outer) b
      | .object =>
        if c = '"' then do
          skipKey
          pure (.inl (.value (.object :: outer)))
        else fail .keyNotString
  | .after frame outer =>
    if c = ',' then frame.afterComma outer
    else if c = frame.close then pure (complete outer)
    else fail frame.commaFault

def skipValue : Reader Unit :=
  loop Skipping.endFault (fun state b =>
    if isBlankByte b then pure (.inl state) else skipRound state b) (.value [])

end FleetTelemetry.Json
