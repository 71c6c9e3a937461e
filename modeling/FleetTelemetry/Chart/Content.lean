/-!
# Chart contents

The quantities of a node that can be charted over time, with the texts that belong to them.
-/

namespace FleetTelemetry.Chart

/-- What a chart shows. -/
inductive Content where
  | generated
  | confirmed
  | depth
  /-- The mean delay of proposals, signatures and submissions. -/
  | delay
  | gas
  deriving DecidableEq, Repr

namespace Content

def all : List Content := [.generated, .confirmed, .depth, .delay, .gas]

def name : Content → String
  | .generated => "txrate"
  | .confirmed => "confirm"
  | .depth => "depth"
  | .delay => "delay"
  | .gas => "gas"

def title : Content → String
  | .generated => "Generated transactions"
  | .confirmed => "Confirmed transactions"
  | .depth => "Chain depth"
  | .delay => "Delay per event"
  | .gas => "Gas"

def unit : Content → String
  | .generated => "tx/s"
  | .confirmed => "tx/s"
  | .depth => "blocks"
  | .delay => "s"
  | .gas => "gas/s"

end Content

/-- A word that asks for no content, with its letters in lower case. -/
structure UnknownContent where
  word : String
  deriving DecidableEq, Repr

def UnknownContent.message (unknown : UnknownContent) : String :=
  "unknown content '" ++ unknown.word ++ "' (expected txrate, confirm, depth, delay or gas)"

/-- Reads the word for a content; the letters A to Z may be of either case. -/
def Content.parse (text : String) : Except UnknownContent Content :=
  let word := String.ofList (text.toList.map Char.toLower)
  match all.find? (·.name = word) with
  | some content => .ok content
  | none => .error ⟨word⟩

theorem Content.parse_name (content : Content) : parse content.name = .ok content := by
  cases content <;> rfl

end FleetTelemetry.Chart
