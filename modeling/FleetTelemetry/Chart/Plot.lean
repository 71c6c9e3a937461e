import FleetTelemetry.Chart.Drawing
import FleetTelemetry.Diagnostics.Event
import FleetTelemetry.Series.Store

/-!
# Plots

A plot reads a node's series, derives the curves of a content and writes the drawing to a file. A
window without any point is drawn too, and told about.
-/

namespace FleetTelemetry

open Diagnostics

namespace Chart

structure PlotRequest where
  series : String
  node : String
  content : Content
  start : Option UInt64
  duration : UInt64
  output : String

def emptyEvent (node : String) : Event :=
  { level := .warn
    origin := .plot
    message := "no data points in the requested window"
    values := [("node", Text.quoted node)] }

def curveEvents (node : String) (curves : List Curve) : List Event :=
  if curves.all (·.points.isEmpty) then [emptyEvent node] else []

namespace PlotRequest

def read (request : PlotRequest) (files : Files) : Except Abort SeriesData :=
  match SeriesStore.read files request.series with
  | .ok data => .ok data
  | .error error => .error (error.abort.within ("cannot read series store " ++ request.series))

def curves (request : PlotRequest) (data : SeriesData) : Except Abort (List Curve) :=
  match derive data request.content request.start request.duration with
  | .ok curves => .ok curves
  | .error (.store error) => .error error.abort
  | .error .outOfRange => .error .broken

def caption (request : PlotRequest) : String :=
  request.node ++ " - " ++ request.content.title

def drawing (request : PlotRequest) (curves : List Curve) : Drawing :=
  draw request.caption request.content.unit curves

def write (request : PlotRequest) (files : Files) (drawing : Drawing) : Except Abort Files :=
  match files.write request.output drawing.vectorText with
  | .ok files => .ok files
  | .error fault =>
    .error (.failed
      { headline :=
          "failed to write " ++ request.output ++ ": backend error: Drawing backend error: " ++
            fault.message })

/-- Plots: the drawing and the files with it, and what there is to tell on the way. -/
def run (request : PlotRequest) (files : Files) :
    Except Abort (Drawing × Files) × List Event :=
  match request.read files with
  | .error error => (.error error, [])
  | .ok data =>
    match request.curves data with
    | .error error => (.error error, [])
    | .ok curves =>
      let drawing := request.drawing curves
      ((request.write files drawing).map fun files => (drawing, files),
        curveEvents request.node curves)

end PlotRequest

end Chart

end FleetTelemetry
