/-!
# Padding

Columns of fixed width. A text that is too long for its column is kept whole: it pushes what
follows to the right, it is never cut.
-/

namespace FleetTelemetry.Text

def padRight (width : Nat) (s : String) : String :=
  s ++ String.ofList (List.replicate (width - s.length) ' ')

def padLeft (width : Nat) (s : String) : String :=
  String.ofList (List.replicate (width - s.length) ' ') ++ s

end FleetTelemetry.Text
