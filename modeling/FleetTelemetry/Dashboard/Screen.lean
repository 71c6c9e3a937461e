import FleetTelemetry.Dashboard.Overview
import FleetTelemetry.Dashboard.Theme

/-!
# The full-screen dashboard

A frame fills a screen of styled characters: a header bar, a box with the figures of the fleet and
a box with a table of the nodes. What does not fit is cut at the right and at the bottom.
-/

namespace FleetTelemetry.Dashboard

open Text

structure StyledChar where
  char : Char := ' '
  style : Style := {}
  deriving DecidableEq, Repr, Inhabited

abbrev ScreenRow := List StyledChar

def styled (style : Style) (text : String) : ScreenRow :=
  text.toList.map fun c => { char := c, style }

def fit (width : Nat) (style : Style) (row : ScreenRow) : ScreenRow :=
  row.take width ++ List.replicate (width - row.length) { style := style }

def covered (style : Style) (row : ScreenRow) : ScreenRow :=
  row.map fun cell => { cell with style }

def line (style : Style) (length : Nat) : ScreenRow :=
  List.replicate length { char := '─', style := style }

def boxTop (border : Style) (width : Nat) (title : String) : ScreenRow :=
  styled border "╭" ++
    (styled border title ++ line border width).take (width - 2) ++
    styled border "╮"

def boxBottom (border : Style) (width : Nat) : ScreenRow :=
  styled border "╰" ++ line border (width - 2) ++ styled border "╯"

/-- A box of some height around rows; rows that it has no room for are left out. -/
def box (theme : Theme) (width height : Nat) (title : String) (rows : List ScreenRow) :
    List ScreenRow :=
  let border := Style.of theme.border
  let side := styled border "│"
  let inner := (rows ++ List.replicate height []).take (height - 2)
  boxTop border width title ::
    inner.map (fun row => side ++ fit (width - 2) {} row ++ side) ++
    [boxBottom border width]

def headerBar (view : View) : ScreenRow :=
  styled { bold := true } " TELEMATICS " ++
    styled {} ("│ " ++ decimalString view.nodes.length ++ " nodes reporting │ q: quit")

def overviewRows (theme : Theme) (view : View) : List ScreenRow :=
  (overview view).map fun line =>
    styled theme.label (padRight labelWidth line.1 ++ ": ") ++
      styled (.of theme.highlight) line.2

def columnWidths : List Nat := [18, 7, 8, 12, 12, 12]

/-- A row of the node table: columns at their widths with one space between neighbours. -/
def tableRow (cells : List (Style × String)) : ScreenRow :=
  [({} : StyledChar)].intercalate
    (List.zipWith (fun width cell => fit width cell.1 (styled cell.1 cell.2)) columnWidths cells)

/-- The header of the node table; its style covers the whole width. -/
def tableHeader (theme : Theme) (width : Nat) : ScreenRow :=
  let titles := ["Node", "Class", "Depth", "Propose(id)", "Sign(id)", "Submit(id)"]
  covered theme.header (fit width {} (tableRow (titles.map fun title => ({}, title))))

def nodeRow (theme : Theme) (row : NodeRow) : ScreenRow :=
  tableRow
    [(theme.nodeStyle row.leader, nodeLabel row),
     (theme.classStyle row.nodeClass, classLabel row.nodeClass),
     ({}, decimalString row.chainDepth.toNat),
     ({}, decimalString row.proposeBlock.toNat),
     ({}, decimalString row.signBlock.toNat),
     ({}, decimalString row.submitBlock.toNat)]

def overviewHeight : Nat := 10

def screen (theme : Theme) (width height : Nat) (view : View) : List ScreenRow :=
  let tableHeight := height - 1 - overviewHeight
  fit width {} (headerBar view) ::
    box theme width overviewHeight " Overall " (overviewRows theme view) ++
    box theme width tableHeight " Nodes "
      (tableHeader theme (width - 2) :: view.nodes.map (nodeRow theme))

structure StyleRun where
  column : Nat
  length : Nat
  style : Style
  deriving DecidableEq, Repr

def styleRuns : Nat → ScreenRow → List StyleRun
  | _, [] => []
  | column, cell :: rest =>
    match styleRuns (column + 1) rest with
    | run :: runs =>
      if run.style = cell.style then
        { run with column, length := run.length + 1 } :: runs
      else
        { column, length := 1, style := cell.style } :: run :: runs
    | [] => [{ column, length := 1, style := cell.style }]

def visibleRuns (row : ScreenRow) : List StyleRun :=
  (styleRuns 0 row).filter fun run => run.style ≠ {}

def rowText (row : ScreenRow) : String :=
  String.ofList (row.map (·.char))

end FleetTelemetry.Dashboard
