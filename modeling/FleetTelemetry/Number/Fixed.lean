import FleetTelemetry.Number.Binary
import FleetTelemetry.Text.Numeral

/-!
# Numbers with a fixed count of places

A double is shown with a given number of decimal places, rounded from its exact value to the
nearest such decimal, a tie to the even digit. The sign of a double is shown even when all its
digits round to zero.
-/

namespace FleetTelemetry.Number

open FleetTelemetry.Text

def pointText (places : Nat) (scaled : Nat) : List Char :=
  let whole := decimal (scaled / Nat.pow 10 places)
  if places = 0 then whole
  else
    let fraction := decimal (scaled % Nat.pow 10 places)
    whole ++ '.' :: List.replicate (places - fraction.length) '0' ++ fraction

def fixed (places : Nat) (x : Float) : String :=
  match Binary.ofFloat x with
  | .notANumber => "NaN"
  | .infinite negative => if negative then "-inf" else "inf"
  | .finite negative mantissa exponent =>
    let text := pointText places (roundScaled mantissa exponent (Nat.pow 10 places))
    String.ofList (if negative then '-' :: text else text)

end FleetTelemetry.Number
