import FleetTelemetry.Number.Binary
import FleetTelemetry.Text.Numeral

/-!
# Spans of time

A span is a whole number of nanoseconds. It can be shown in two ways: as hours, minutes and
seconds for people who watch a dashboard, and in the largest unit that leaves a whole part for
messages.
-/

namespace FleetTelemetry

open Text Number

/-- A length of time, never negative. -/
structure Span where
  nanoseconds : Nat
  deriving DecidableEq, Repr, Inhabited

namespace Span

def perSecond : Nat := 1000000000

def perMilli : Nat := 1000000

def perMicro : Nat := 1000

def ofParts (seconds nanoseconds : Nat) : Span := ⟨seconds * perSecond + nanoseconds⟩

def ofSeconds (seconds : Nat) : Span := ⟨seconds * perSecond⟩

def ofMillis (millis : Nat) : Span := ⟨millis * perMilli⟩

def seconds (d : Span) : Nat := d.nanoseconds / perSecond

def subsecond (d : Span) : Nat := d.nanoseconds % perSecond

instance : LT Span where
  lt a b := a.nanoseconds < b.nanoseconds

instance (a b : Span) : Decidable (a < b) :=
  inferInstanceAs (Decidable (a.nanoseconds < b.nanoseconds))

/-- The seconds of a span as a double: the whole seconds plus the rest, each rounded. -/
def toFloatSeconds (d : Span) : Float :=
  Float.ofNat d.seconds + Float.ofNat d.subsecond / 1e9

/-- One more than the largest number of whole seconds that a span read from a double may have. -/
def secondsLimit : Nat := UInt64.size

/-- The span nearest to a non-negative number of seconds, a tie to the even nanosecond. There is
none for a value that does not fit in 64 bits of seconds. -/
def ofFloatSeconds? (x : Float) : Option Span :=
  match Binary.ofFloat x with
  | .finite _ mantissa exponent =>
    let nanoseconds := roundScaled mantissa exponent perSecond
    if nanoseconds < secondsLimit * perSecond then some ⟨nanoseconds⟩ else none
  | _ => none

def twoDigits (n : Nat) : List Char :=
  if n < 10 then '0' :: decimal n else decimal n

/-- The elapsed time in hours, minutes and seconds. Hours and minutes appear only when they are
needed, and every figure after the first has two digits. -/
def clockChars (d : Span) : List Char :=
  let total := d.seconds
  let h := total / 3600
  let m := total % 3600 / 60
  let s := total % 60
  if 0 < h then decimal h ++ ['h', ' '] ++ twoDigits m ++ ['m', ' '] ++ twoDigits s ++ ['s']
  else if 0 < m then decimal m ++ ['m', ' '] ++ twoDigits s ++ ['s']
  else decimal s ++ ['s']

def clock (d : Span) : String := String.ofList d.clockChars

/-- A whole part and a fraction of `width` digits, without the zeros at its end. -/
def withFraction (whole fraction width : Nat) : List Char :=
  let digits := decimal fraction
  let padded := List.replicate (width - digits.length) '0' ++ digits
  let shown := (padded.reverse.dropWhile (· = '0')).reverse
  if fraction = 0 then decimal whole else decimal whole ++ '.' :: shown

/-- The span in seconds, milliseconds, microseconds or nanoseconds, whichever is the largest unit
that the span reaches. -/
def text (d : Span) : String :=
  let n := d.nanoseconds
  String.ofList <|
    if perSecond ≤ n then withFraction (n / perSecond) (n % perSecond) 9 ++ ['s']
    else if perMilli ≤ n then withFraction (n / perMilli) (n % perMilli) 6 ++ ['m', 's']
    else if perMicro ≤ n then withFraction (n / perMicro) (n % perMicro) 3 ++ ['µ', 's']
    else withFraction n 0 0 ++ ['n', 's']

end Span

end FleetTelemetry
