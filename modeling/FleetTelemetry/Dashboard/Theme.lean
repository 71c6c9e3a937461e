import FleetTelemetry.Roster.Basic
import FleetTelemetry.Text.Numeral
import FleetTelemetry.Text.Split

/-!
# Themes

The colours of the full-screen dashboard for dark and for light terminals, and the choice between
the two from what a terminal says about its background.
-/

namespace FleetTelemetry.Dashboard

open Text

inductive Color where
  | red
  | green
  | yellow
  | blue
  | magenta
  | cyan
  | gray
  | darkGray
  deriving DecidableEq, Repr

def Color.name : Color → String
  | .red => "Red"
  | .green => "Green"
  | .yellow => "Yellow"
  | .blue => "Blue"
  | .magenta => "Magenta"
  | .cyan => "Cyan"
  | .gray => "Gray"
  | .darkGray => "DarkGray"

/-- How a character is shown. Without a colour it has that of the terminal. -/
structure Style where
  color : Option Color := none
  bold : Bool := false
  deriving DecidableEq, Repr, Inhabited

def Style.of (color : Color) : Style := { color := some color }

inductive BorderShape where
  | rounded
  deriving DecidableEq, Repr

def BorderShape.name : BorderShape → String
  | .rounded => "Rounded"

structure Theme where
  highlight : Color
  leader : Color
  scale : Color
  side : Color
  border : Color
  header : Style
  label : Style
  borderShape : BorderShape
  deriving DecidableEq, Repr

namespace Theme

def dark : Theme :=
  { highlight := .cyan
    leader := .yellow
    scale := .magenta
    side := .green
    border := .gray
    header := { color := some .cyan, bold := true }
    label := .of .gray
    borderShape := .rounded }

def light : Theme :=
  { highlight := .blue
    leader := .red
    scale := .magenta
    side := .green
    border := .darkGray
    header := { color := some .blue, bold := true }
    label := .of .darkGray
    borderShape := .rounded }

def classStyle (theme : Theme) : Option NodeClass → Style
  | some .scale => .of theme.scale
  | some .side => .of theme.side
  | none => {}

def nodeStyle (theme : Theme) (leader : Bool) : Style :=
  if leader then { color := some theme.leader, bold := true } else {}

end Theme

structure Rgb where
  red : Nat
  green : Nat
  blue : Nat
  deriving DecidableEq, Repr

def basicPalette : List Rgb :=
  [⟨0, 0, 0⟩, ⟨128, 0, 0⟩, ⟨0, 128, 0⟩, ⟨128, 128, 0⟩, ⟨0, 0, 128⟩, ⟨128, 0, 128⟩, ⟨0, 128, 128⟩,
   ⟨192, 192, 192⟩, ⟨128, 128, 128⟩, ⟨255, 0, 0⟩, ⟨0, 255, 0⟩, ⟨255, 255, 0⟩, ⟨0, 0, 255⟩,
   ⟨255, 0, 255⟩, ⟨0, 255, 255⟩, ⟨255, 255, 255⟩]

def cubeStep (n : Nat) : Nat := if n = 0 then 0 else 55 + 40 * n

/-- A colour of the terminal palette: sixteen basic colours, a cube of 216 and a ramp of greys. -/
def paletteColor (n : Nat) : Rgb :=
  match basicPalette[n]? with
  | some color => color
  | none =>
    if n < 232 then
      let i := n - 16
      ⟨cubeStep (i / 36), cubeStep (i / 6 % 6), cubeStep (i % 6)⟩
    else
      let grey := 8 + 10 * (n - 232)
      ⟨grey, grey, grey⟩

/-- A colour is light when its luminance is above one half, luminance being the sum of the amounts
weighted with 0.2627, 0.6780 and 0.0593 over 256. -/
def Rgb.isLight (color : Rgb) : Bool :=
  128 * 10000 < 2627 * color.red + 6780 * color.green + 593 * color.blue

/-- The background in a terminal's announcement of its colours: the last of two or three palette
numbers between semicolons. -/
def announcedBackground? (announcement : String) : Option Rgb :=
  match pieces ';' announcement.toList with
  | [_, background] => (below? 256 background).map paletteColor
  | [_, _, background] => (below? 256 background).map paletteColor
  | _ => none

/-- The theme for a terminal's announcement; without a readable one the background is dark. -/
def Theme.detect (announcement : Option String) : Theme :=
  match announcement.bind announcedBackground? with
  | some background => if background.isLight then .light else .dark
  | none => .dark

end FleetTelemetry.Dashboard
