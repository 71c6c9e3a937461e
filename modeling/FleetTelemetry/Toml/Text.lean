import FleetTelemetry.Toml.Reader

/-!
# TOML texts

A text stands between double quotes, where a backslash escapes, or between single quotes, where
nothing does. Three quotes open a text of several lines, whose line breaks are read as line feeds.
-/

namespace FleetTelemetry.Toml

open Reader

def isHexDigit (c : Char) : Bool :=
  ('0' ≤ c && c ≤ '9') || ('a' ≤ c && c ≤ 'f') || ('A' ≤ c && c ≤ 'F')

def hexDigitValue (c : Char) : Nat :=
  if c ≤ '9' then c.toNat - '0'.toNat
  else if c ≤ 'F' then c.toNat - 'A'.toNat + 10
  else c.toNat - 'a'.toNat + 10

def hexValue (digits : List Char) : Nat :=
  digits.foldl (fun value c => 16 * value + hexDigitValue c) 0

def codePoint (count : Nat) : Reader Char := do
  let number := hexValue (← takeCount count isHexDigit)
  if number.isValidChar then return Char.ofNat number else failure

def escaped : Reader Char := do
  match ← next with
  | 'b' => return '\x08'
  | 't' => return '\t'
  | 'n' => return '\n'
  | 'f' => return '\x0c'
  | 'r' => return '\r'
  | 'e' => return '\x1b'
  | '"' => return '"'
  | '\\' => return '\\'
  | 'x' => codePoint 2
  | 'u' => codePoint 4
  | 'U' => codePoint 8
  | _ => failure

def quotedText : Reader String :=
  rounds (fun (reversed : List Char) => do
    match ← next with
    | '"' => return .inr (String.ofList reversed.reverse)
    | '\\' => return .inl ((← escaped) :: reversed)
    | c => if isForbidden c then failure else return .inl (c :: reversed)) []

def plainText : Reader String :=
  rounds (fun (reversed : List Char) => do
    match ← next with
    | '\'' => return .inr (String.ofList reversed.reverse)
    | c => if isForbidden c then failure else return .inl (c :: reversed)) []

/-- Quotes inside a text of several lines: fewer than three belong to it, three close it, and up
to two before these belong to it. -/
def quoteRun (quote : Char) (reversed : List Char) : Reader (List Char ⊕ String) := do
  let count := (← takeSome (· = quote)).length
  if count < 3 then
    return .inl (List.replicate count quote ++ reversed)
  else if count ≤ 5 then
    return .inr (String.ofList (List.replicate (count - 3) quote ++ reversed).reverse)
  else
    failure

/-- A backslash at the end of a line, which is already taken: drops the line break and all blank
space after it. -/
def joinedLines : Reader Unit := do
  gap
  lineBreak
  let _ ← takeWhile fun c => isGap c || c = '\n' || c = '\r'

/-- One character of a text of several lines that is neither a quote nor a backslash. -/
def linesChar : Reader Char := do
  match ← look with
  | some '\n' | some '\r' => do
    lineBreak
    return '\n'
  | _ => do
    let c ← next
    if isForbidden c then failure else return c

/-- Drops the line break right after the opening quotes of a text of several lines. -/
def openingBreak : Reader Unit := do
  match ← look with
  | some '\n' | some '\r' => lineBreak
  | _ => return

def quotedLines : Reader String := do
  openingBreak
  rounds (fun (reversed : List Char) => do
    match ← look with
    | some '"' => quoteRun '"' reversed
    | some '\\' => do
      let _ ← next
      match ← look with
      | some ' ' | some '\t' | some '\n' | some '\r' => do
        joinedLines
        return .inl reversed
      | _ => return .inl ((← escaped) :: reversed)
    | _ => return .inl ((← linesChar) :: reversed)) []

def plainLines : Reader String := do
  openingBreak
  rounds (fun (reversed : List Char) => do
    match ← look with
    | some '\'' => quoteRun '\'' reversed
    | _ => return .inl ((← linesChar) :: reversed)) []

def doubleQuoted : Reader String := do
  if ← skip ['"', '"', '"'] then quotedLines
  else
    expect ['"']
    quotedText

def singleQuoted : Reader String := do
  if ← skip ['\'', '\'', '\''] then plainLines
  else
    expect ['\'']
    plainText

end FleetTelemetry.Toml
