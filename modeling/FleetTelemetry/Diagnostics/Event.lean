import FleetTelemetry.Text.Escaped
import FleetTelemetry.Text.Numeral
import FleetTelemetry.Time.Span

/-!
# Diagnostic events

What a run tells about itself beside its results: a level, the part of the program it comes from, a
message and named values. Events are kept from a level on.
-/

namespace FleetTelemetry.Diagnostics

open Text

inductive Level where
  | trace
  | debug
  | info
  | warn
  | error
  deriving DecidableEq, Repr

def Level.all : List Level := [.trace, .debug, .info, .warn, .error]

def Level.rank : Level → Nat
  | .trace => 0
  | .debug => 1
  | .info => 2
  | .warn => 3
  | .error => 4

def Level.name : Level → String
  | .trace => "trace"
  | .debug => "debug"
  | .info => "info"
  | .warn => "warn"
  | .error => "error"

def Level.label : Level → String
  | .trace => "TRACE"
  | .debug => "DEBUG"
  | .info => "INFO"
  | .warn => "WARN"
  | .error => "ERROR"

inductive Origin where
  | program
  | collector
  | aggregator
  | poller
  | plot
  deriving DecidableEq, Repr

def programName : String := "telematics"

def Origin.label : Origin → String
  | .program => programName
  | .collector => programName ++ "::collector"
  | .aggregator => programName ++ "::aggregator"
  | .poller => programName ++ "::poller"
  | .plot => programName ++ "::plot"

structure Event where
  level : Level
  origin : Origin
  message : String
  values : List (String × String) := []
  deriving DecidableEq, Repr

def Event.line (event : Event) : String :=
  event.level.label ++ " " ++ event.origin.label ++ ": " ++ event.message ++
    String.join (event.values.map fun value => " " ++ value.1 ++ "=" ++ value.2)

def Event.isAtLeast (event : Event) (level : Level) : Bool :=
  level.rank ≤ event.level.rank

def nodeValue (node : String) : String × String := ("node", node)

def numberValue (name : String) (n : Nat) : String × String := (name, decimalString n)

def intervalValue (interval : Span) : String × String := ("interval", interval.text)

end FleetTelemetry.Diagnostics
