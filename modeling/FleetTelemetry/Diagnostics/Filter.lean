import FleetTelemetry.Diagnostics.Event
import FleetTelemetry.Settings.Conversion
import FleetTelemetry.Text.Blank
import FleetTelemetry.Text.Split

/-!
# Filters of events

A filter is a list of directives between commas. A directive is a level, or names an origin and
gives the level for it and for what is below it; what it says about spans never concerns the events
of this program, which has no spans. Of several directives that concern an event the one with the
longest origin decides.
-/

namespace FleetTelemetry.Diagnostics

open Text

abbrev Threshold := Option Level

namespace Threshold

def numbered : List Threshold :=
  [none, some .error, some .warn, some .info, some .debug, some .trace]

def named : List (String × Threshold) :=
  ("off", none) :: Level.all.map fun level => (level.name, some level)

def read? (s : List Char) : Option Threshold :=
  match natural? s with
  | some n => numbered[n]?
  | none =>
    if s = [] then some (some .error)
    else named.lookup (Settings.lowerCase (String.ofList s))

def passes (threshold : Threshold) (level : Level) : Bool :=
  match threshold with
  | none => false
  | some least => least.rank ≤ level.rank

end Threshold

structure Directive where
  target : Option String := none
  threshold : Threshold := some .trace
  hasSpan : Bool := false
  deriving DecidableEq, Repr

namespace Directive

/-- Tells the characters with which a directive may start. Letters outside ASCII are not told from
other characters there. -/
def startsDirective (c : Char) : Bool :=
  c = '-' || c = ':' || c = '_' || c.isAlphanum || 0x7F < c.toNat

/-- Reads the threshold after an equals sign. Nothing there means all events. -/
def withThreshold? (directive : Directive) (s : List Char) : Option Directive :=
  if s = [] then some directive
  else (Threshold.read? s).map fun threshold => { directive with threshold }

def afterSpan? (directive : Directive) (s : List Char) : Option Directive :=
  match s with
  | [] => some directive
  | '=' :: rest => withThreshold? directive rest
  | _ => none

/-- Reads a span after its opening bracket: a name, and perhaps a field between braces. -/
def span? (directive : Directive) (s : List Char) : Option Directive :=
  let directive := { directive with hasSpan := true }
  match s.dropWhile fun c => c ≠ ']' && c ≠ '\x7b' with
  | ']' :: rest => afterSpan? directive rest
  | '\x7b' :: rest =>
    match rest.takeWhile (· ≠ '\x7d'), rest.dropWhile (· ≠ '\x7d') with
    | _ :: _, '\x7d' :: ']' :: rest => afterSpan? directive rest
    | _, _ => none
  | _ => none

/-- Reads a directive. A word that is no level names an origin. -/
def read? (s : List Char) : Option Directive :=
  let s := trimChars s
  match s with
  | [] => none
  | '[' :: rest => span? {} rest
  | c :: _ =>
    if startsDirective c then
      let isMark (c : Char) : Bool := c = '=' || c = '['
      let word := s.takeWhile fun c => !isMark c
      let named : Directive := { target := some (String.ofList word) }
      match s.dropWhile fun c => !isMark c with
      | [] =>
        match Threshold.read? word with
        | some threshold => some { threshold }
        | none => some named
      | '=' :: rest => withThreshold? named rest
      | _ :: rest => span? named rest
    else none

def concerns (directive : Directive) (origin : String) : Bool :=
  !directive.hasSpan &&
    match directive.target with
    | none => true
    | some target => target.toList.isPrefixOf origin.toList

def weight (directive : Directive) : Nat :=
  match directive.target with
  | none => 0
  | some target => target.utf8ByteSize + 1

end Directive

structure Filter where
  directives : List Directive
  deriving DecidableEq, Repr

namespace Filter

def read? (text : String) : Option Filter :=
  (((pieces ',' text.toList).filter (· ≠ [])).mapM Directive.read?).map fun directives =>
    { directives }

def choose? (asked? : Option String) (level : String) : Option Filter :=
  match asked?.bind read? with
  | some filter => some filter
  | none => read? level

/-- The heavier of two directives; of two that weigh the same, the later one. -/
def heavier (best : Option Directive) (directive : Directive) : Option Directive :=
  match best with
  | none => some directive
  | some other => if directive.weight < other.weight then some other else some directive

/-- The threshold for events of an origin. A filter without directives lets only errors pass. -/
def threshold (filter : Filter) (origin : String) : Threshold :=
  if filter.directives = [] then some .error
  else
    match (filter.directives.filter (·.concerns origin)).foldl heavier none with
    | some directive => directive.threshold
    | none => none

def passes (filter : Filter) (event : Event) : Bool :=
  (filter.threshold event.origin.label).passes event.level

end Filter

end FleetTelemetry.Diagnostics
