import FleetTelemetry.Text.Pad

/-!
# Flags

The words after a command set its options. A flag has a long name after two dashes and perhaps a
letter after one; most flags want a value, which is the next word or stands behind an equals sign
or behind the letter. Words are taken in order, and the first that is wrong decides.
-/

namespace FleetTelemetry.Command

open Text

inductive Stop where
  | help
  | version
  | wrong
  deriving DecidableEq, Repr

structure Flag (α : Type) where
  long : String
  short : Option Char := none
  valueName : Option String := none
  summary : String
  default : Option String := none
  set : String → α → Option α

structure Reading (α : Type) where
  options : α
  seen : List String := []

namespace Flag

/-- Sets the option of a flag. No flag is given twice. -/
def take {α : Type} (flag : Flag α) (value : String) (reading : Reading α) :
    Except Stop (Reading α) :=
  if flag.long ∈ reading.seen then .error .wrong
  else
    match flag.set value reading.options with
    | some options => .ok { options, seen := flag.long :: reading.seen }
    | none => .error .wrong

abbrev Progress (α : Type) := Reading α × Option (Flag α)

def takeLong {α : Type} (flags : List (Flag α)) (word : List Char) (reading : Reading α) :
    Except Stop (Progress α) :=
  let name := String.ofList (word.takeWhile (· ≠ '='))
  let value? :=
    match word.dropWhile (· ≠ '=') with
    | [] => none
    | _ :: value => some (String.ofList value)
  if name = "help" then .error (if value?.isNone then .help else .wrong)
  else
    match flags.find? (·.long = name) with
    | none => .error .wrong
    | some flag =>
      match flag.valueName, value? with
      | none, none => do return (← flag.take "" reading, none)
      | none, some _ => .error .wrong
      | some _, none => .ok (reading, some flag)
      | some _, some value => do return (← flag.take value reading, none)

/-- Takes letters after one dash. What follows the letter of a flag that wants a value is the
value. -/
def takeLetters {α : Type} (flags : List (Flag α)) :
    List Char → Reading α → Except Stop (Progress α)
  | [], reading => .ok (reading, none)
  | letter :: rest, reading =>
    if letter = 'h' then .error .help
    else
      match flags.find? (·.short = some letter) with
      | none => .error .wrong
      | some flag =>
        match flag.valueName, rest with
        | none, _ => do
          let reading ← flag.take "" reading
          takeLetters flags rest reading
        | some _, [] => .ok (reading, some flag)
        | some _, '=' :: value => do
          return (← flag.take (String.ofList value) reading, none)
        | some _, value => do return (← flag.take (String.ofList value) reading, none)

def isFlag (word : String) : Bool :=
  match word.toList with
  | '-' :: _ :: _ => true
  | _ => false

def takeWord {α : Type} (flags : List (Flag α)) (word : String) (reading : Reading α) :
    Except Stop (Progress α) :=
  match word.toList with
  | '-' :: '-' :: name => takeLong flags name reading
  | '-' :: letter :: letters => takeLetters flags (letter :: letters) reading
  | _ => .error .wrong

/-- Takes words in order. Two dashes end the flags, and nothing may follow them. -/
def takeWords {α : Type} (flags : List (Flag α)) :
    Option (Flag α) → List String → Reading α → Except Stop (Reading α)
  | none, [], reading => .ok reading
  | some _, [], _ => .error .wrong
  | some flag, word :: rest, reading =>
    if isFlag word then .error .wrong
    else do
      let reading ← flag.take word reading
      takeWords flags none rest reading
  | none, word :: rest, reading =>
    if word = "--" then (if rest = [] then .ok reading else .error .wrong)
    else do
      let (reading, waiting) ← takeWord flags word reading
      takeWords flags waiting rest reading

def readAll {α : Type} (flags : List (Flag α)) (words : List String) (options : α) :
    Except Stop α := do
  let reading ← takeWords flags none words { options }
  return reading.options

/-! ## Help -/

def names {α : Type} (flag : Flag α) : String :=
  let short :=
    match flag.short with
    | some letter => "-" ++ letter.toString ++ ", "
    | none => "    "
  let value :=
    match flag.valueName with
    | some name => " <" ++ name ++ ">"
    | none => ""
  short ++ "--" ++ flag.long ++ value

def description {α : Type} (flag : Flag α) : String :=
  match flag.default with
  | some value => flag.summary ++ " [default: " ++ value ++ "]"
  | none => flag.summary

def columns (rows : List (String × String)) : String :=
  let width := (rows.map (·.1.length)).foldl max 0
  String.join (rows.map fun row => "  " ++ padRight width row.1 ++ "  " ++ row.2 ++ "\n")

def help {α : Type} (about usage : String) (flags : List (Flag α)) : String :=
  about ++ "\n\nUsage: " ++ usage ++ "\n\nOptions:\n" ++
    columns (flags.map (fun flag => (flag.names, flag.description)) ++
      [("-h, --help", "Print help")])

end Flag

end FleetTelemetry.Command
