import FleetTelemetry.Chart.Curve
import FleetTelemetry.Text.Markup
import FleetTelemetry.Text.Numeral

/-!
# Drawings

Curves become lines on a canvas. Both axes start at zero; the horizontal one ends at the last
point and the vertical one a tenth above the highest. A drawing is written as vector graphics.
-/

namespace FleetTelemetry.Chart

open Text

def canvasWidth : Nat := 800

def canvasHeight : Nat := 400

def leftEdge : Nat := 60

def bottomEdge : Nat := 359

def plotWidth : Nat := 729

def plotHeight : Nat := 323

def timeText : String := "Time (s)"

def palette : List String := ["#FF0000", "#0000FF", "#00FF00"]

def curveColor (place : Nat) : String :=
  palette.getD (place % palette.length) "#000000"

structure Pixel where
  column : Nat
  row : Nat
  deriving DecidableEq, Repr

structure Stroke where
  label : String
  color : String
  pixels : List Pixel
  deriving DecidableEq, Repr

structure Drawing where
  caption : String
  unit : String
  strokes : List Stroke
  deriving DecidableEq, Repr

def larger (a b : Float) : Float :=
  if a < b then b else a

def timeRange (curves : List Curve) : Float :=
  (curves.flatMap (·.points)).foldl (fun range point => larger range point.seconds.toFloat) 1

/-- The end of the vertical axis: a tenth above the highest point, or one if no point is above
zero. -/
def valueRange (curves : List Curve) : Float :=
  let highest := (curves.flatMap (·.points)).foldl (fun range point => larger range point.value) 0
  if 0 < highest then highest * 1.1 else 1

/-- A little more than nothing, so that a point on the border of two pixels falls into the
further one. -/
def pixelSlack : Float := 0.001

def scaled (pixels : Nat) (value range : Float) : Nat :=
  (pixels.toFloat * (value / range) + pixelSlack).floor.toUInt64.toNat

def placePoint (timeRange valueRange : Float) (point : Point) : Pixel :=
  { column := leftEdge + scaled plotWidth point.seconds.toFloat timeRange
    row := bottomEdge - scaled plotHeight point.value valueRange }

def draw (caption unit : String) (curves : List Curve) : Drawing :=
  let place := placePoint (timeRange curves) (valueRange curves)
  { caption
    unit
    strokes := curves.mapIdx fun i curve =>
      { label := curve.label, color := curveColor i, pixels := curve.points.map place } }

namespace Drawing

/-- The texts of a drawing: the caption, the texts at the axes, and a label for each curve also
when it has no points. -/
def texts (drawing : Drawing) : List String :=
  [drawing.caption, drawing.unit, timeText] ++ drawing.strokes.map (·.label)

def visibleStrokes (drawing : Drawing) : List Stroke :=
  drawing.strokes.filter fun stroke => !stroke.pixels.isEmpty

def extent (name : String) (n : Nat) : String × String := (name, decimalString n)

def textElement (column row : Nat) (text : String) : String :=
  markupElement "text" [extent "x" column, extent "y" row, ("font-family", "sans-serif")]
    (markupText text)

def lineElement (start finish : Pixel) (color : String) : String :=
  markupEmpty "line"
    [extent "x1" start.column, extent "y1" start.row, extent "x2" finish.column,
     extent "y2" finish.row, ("stroke", color)]

def pixelText (pixel : Pixel) : String :=
  decimalString pixel.column ++ "," ++ decimalString pixel.row

def strokeElement (stroke : Stroke) : String :=
  markupEmpty "polyline"
    [("fill", "none"), ("stroke", stroke.color),
     ("points", " ".intercalate (stroke.pixels.map pixelText))]

def legendEntry (row : Nat) (stroke : Stroke) : String :=
  lineElement ⟨690, row⟩ ⟨710, row⟩ stroke.color ++ textElement 715 (row + 4) stroke.label

def axes : String :=
  let origin : Pixel := ⟨leftEdge, bottomEdge⟩
  lineElement origin ⟨leftEdge + plotWidth, bottomEdge⟩ "#000000" ++
    lineElement origin ⟨leftEdge, bottomEdge - plotHeight⟩ "#000000"

def vectorNames : String := "http://" ++ "www.w3.org/2000/svg"

def vectorText (drawing : Drawing) : String :=
  markupElement "svg"
    [extent "width" canvasWidth, extent "height" canvasHeight, ("xmlns", vectorNames)]
    ("\n" ++
      markupEmpty "rect"
        [extent "width" canvasWidth, extent "height" canvasHeight, ("fill", "#FFFFFF")] ++
      textElement 300 28 drawing.caption ++
      textElement 12 20 drawing.unit ++
      textElement 400 390 timeText ++
      axes ++
      String.join (drawing.visibleStrokes.map strokeElement) ++
      String.join (drawing.strokes.mapIdx fun i stroke => legendEntry (50 + 16 * i) stroke))

end Drawing

end FleetTelemetry.Chart
