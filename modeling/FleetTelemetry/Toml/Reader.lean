/-!
# Readers of characters

A reader takes a value off the front of a text or fails. Why a settings file cannot be read is
never told, so a failure has no cause.
-/

namespace FleetTelemetry.Toml

abbrev Reader := StateT (List Char) Option

namespace Reader

def look : Reader (Option Char) := fun s => some (s.head?, s)

def next : Reader Char
  | [] => none
  | c :: rest => some (c, rest)

def takeWhile (test : Char → Bool) : Reader (List Char) := fun s =>
  some (s.takeWhile test, s.dropWhile test)

def takeSome (test : Char → Bool) : Reader (List Char) := do
  match ← takeWhile test with
  | [] => failure
  | taken => return taken

def takeCount (count : Nat) (test : Char → Bool) : Reader (List Char) := fun s =>
  let taken := s.take count
  if taken.length = count && taken.all test then some (taken, s.drop count) else none

def skip (text : List Char) : Reader Bool := fun s =>
  if text.isPrefixOf s then some (true, s.drop text.length) else some (false, s)

def expect (text : List Char) : Reader Unit := do
  unless ← skip text do failure

/-- Repeats a body on a state until it gives an answer. A round that takes no character and gives
no answer fails. -/
def rounds {σ α : Type} (body : σ → Reader (σ ⊕ α)) (state : σ) : Reader α := fun s =>
  match body state s with
  | none => none
  | some (.inr answer, rest) => some (answer, rest)
  | some (.inl state, rest) =>
    if rest.length < s.length then rounds body state rest else none
termination_by s => s.length

def run {α : Type} (reader : Reader α) (s : List Char) : Option α :=
  match reader s with
  | some (a, []) => some a
  | _ => none

end Reader

def isForbidden (c : Char) : Bool :=
  (c.toNat < 0x20 && c ≠ '\t') || c.toNat = 0x7F

def isGap (c : Char) : Bool :=
  c = ' ' || c = '\t'

open Reader

def gap : Reader Unit := do
  let _ ← takeWhile isGap

def lineBreak : Reader Unit := do
  match ← next with
  | '\n' => return
  | '\r' => expect ['\n']
  | _ => failure

def comment : Reader Unit := do
  expect ['#']
  let text ← takeWhile fun c => c ≠ '\n' && c ≠ '\r'
  if text.any isForbidden then failure

def optionalComment : Reader Unit := do
  if (← look) = some '#' then comment

def wideGap : Reader Unit :=
  rounds (fun (_ : Unit) => do
    match ← look with
    | some ' ' | some '\t' => do
      gap
      return .inl ()
    | some '#' => do
      comment
      return .inl ()
    | some '\n' | some '\r' => do
      lineBreak
      return .inl ()
    | _ => return .inr ()) ()

/-- Takes what may stand behind a statement: spaces, a comment and the end of the line or of the
text. -/
def lineEnd : Reader Unit := do
  gap
  optionalComment
  match ← look with
  | none => return
  | some _ => lineBreak

end FleetTelemetry.Toml
