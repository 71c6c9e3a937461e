import FleetTelemetry.Number.Literal
import FleetTelemetry.Text.Blank
import FleetTelemetry.Time.Span

/-!
# Reading spans

A span is written as a number of seconds, or as a number followed by a unit. The number may be
any number literal; what it denotes must be finite and not negative.
-/

namespace FleetTelemetry

open Text Number

/-- A unit after a number: its name and its length in nanoseconds. -/
structure TimeUnit where
  name : List Char
  nanoseconds : Float

/-- The units of time. No literal followed by one of them reads as a literal followed by another,
so their order does not matter. -/
def timeUnits : List TimeUnit :=
  [⟨['n', 's'], 1.0⟩, ⟨['µ', 's'], 1000.0⟩, ⟨['u', 's'], 1000.0⟩, ⟨['m', 's'], 1000000.0⟩,
   ⟨['m'], 60000000000.0⟩, ⟨['s'], 1000000000.0⟩]

inductive SpanError where
  | unknownFormat (text : String)
  | invalid (text : String)
  deriving DecidableEq, Repr

def SpanError.message : SpanError → String
  | .unknownFormat text => "Unknown duration format: " ++ text
  | .invalid text => "Invalid duration: " ++ text

/-- The outcome of reading a span. A number of seconds beyond 64 bits is refused neither as
unknown nor as invalid: it overflows. -/
inductive SpanReading where
  | span (value : Span)
  | error (cause : SpanError)
  | overflow
  deriving DecidableEq, Repr

namespace SpanReading

def dropSuffix? (suffix s : List Char) : Option (List Char) :=
  if suffix <:+ s then some (s.take (s.length - suffix.length)) else none

/-- The seconds that a text denotes as a number with one of the given units. The first unit wins
whose removal leaves a number. -/
def withUnit? (s : List Char) : List TimeUnit → Option Float
  | [] => none
  | unit :: units =>
    match (dropSuffix? unit.name s).bind Literal.read? with
    | some literal => some (literal.toFloat * unit.nanoseconds / 1000000000.0)
    | none => withUnit? s units

def seconds? (s : List Char) : Option Float :=
  match Literal.read? s with
  | some literal => some literal.toFloat
  | none => withUnit? s timeUnits

def ofSeconds (text : String) (x : Float) : SpanReading :=
  if !x.isFinite || x < 0.0 then .error (.invalid text)
  else
    match Span.ofFloatSeconds? x with
    | some value => .span value
    | none => .overflow

end SpanReading

/-- Reads a span such as `2`, `1.5s`, `500ms` or `1m`, with blanks around it. -/
def Span.read (s : String) : SpanReading :=
  let text := trimChars s.toList
  match SpanReading.seconds? text with
  | some x => SpanReading.ofSeconds (String.ofList text) x
  | none => .error (.unknownFormat (String.ofList text))

end FleetTelemetry
