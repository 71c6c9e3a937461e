import FleetTelemetry.Text.Numeral
import FleetTelemetry.Text.Pad
import FleetTelemetry.Text.Split

/-!
# Failures

What a command could not do, and the causes of that in turn. A failure is shown on one line, or
as a report with the causes below the headline. A command can also break off without a word.
-/

namespace FleetTelemetry.Diagnostics

open Text

structure Failure where
  headline : String
  causes : List String := []
  deriving DecidableEq, Repr

namespace Failure

/-- Says what could not be done because of a failure. -/
def within (failure : Failure) (headline : String) : Failure :=
  { headline, causes := failure.headline :: failure.causes }

def line (failure : Failure) : String :=
  ": ".intercalate (failure.headline :: failure.causes)

/-- A cause in a report: its first line stands behind `lead`, the others are indented alike. -/
def causeText (lead : String) (cause : String) : String :=
  let indent := "\n" ++ String.ofList (List.replicate lead.length ' ')
  lead ++ indent.intercalate ((pieces '\n' cause.toList).map String.ofList)

def causeNumber (place : Nat) : String :=
  padLeft 5 (decimalString place) ++ ": "

/-- The causes of a report. A single cause has no number. -/
def causeTexts : List String → List String
  | [cause] => [causeText "    " cause]
  | causes => causes.mapIdx fun i cause => causeText (causeNumber i) cause

/-- The report of a failure on several lines, without a line feed at its end. -/
def report (failure : Failure) : String :=
  let headline := "Error: " ++ failure.headline
  if failure.causes = [] then headline
  else "\n".intercalate (headline :: "" :: "Caused by:" :: causeTexts failure.causes)

end Failure

inductive Abort where
  | failed (failure : Failure)
  /-- A number or a position left its range, and the command broke off. -/
  | broken
  deriving DecidableEq, Repr

/-- Says what could not be done because of an end without success. -/
def Abort.within (abort : Abort) (headline : String) : Abort :=
  match abort with
  | .failed failure => .failed (failure.within headline)
  | .broken => .broken

end FleetTelemetry.Diagnostics
