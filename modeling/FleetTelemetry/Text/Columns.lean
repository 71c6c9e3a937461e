/-!
# Lines of columns

Logs and series files have one line per sample, with commas between its columns.
-/

namespace FleetTelemetry.Text

def commaLine (columns : List (List Char)) : List Char :=
  [','].intercalate columns ++ ['\n']

end FleetTelemetry.Text
