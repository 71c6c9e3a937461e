import FleetTelemetry.Series.Data

/-!
# Chart windows

A chart shows the rows of a stretch of time. Both ends of the stretch are found by halving, which
looks at few rows and is right when their times never decrease.
-/

namespace FleetTelemetry.Chart

/-- Where a test that holds first and fails later starts to fail, found by halving. The half that
is left always has the sought place at one of its ends or inside. -/
def boundary {α : Type} (test : α → Bool) (rows : List α) : Nat :=
  match rows with
  | [] => 0
  | [row] => if test row then 1 else 0
  | first :: second :: rest =>
    let rows := first :: second :: rest
    let half := rows.length / 2
    if (rows[half]?).any test then
      half + boundary test (rows.drop half)
    else
      boundary test (rows.take (rows.length - half))
termination_by rows.length
decreasing_by
  all_goals
    simp only [List.length_drop, List.length_take, List.length_cons]
    omega

def lastMoment : Nat := UInt64.size - 1

/-- The first moment of a window: the given one, or the time of the first row. -/
def windowStart (first : SeriesRow) (start : Option UInt64) : UInt64 :=
  start.getD first.timestamp

/-- The moment at which a window ends, which is no longer in it. -/
def windowEnd (start duration : UInt64) : Nat :=
  min (start.toNat + duration.toNat) lastMoment

def slice (rows : List SeriesRow) (start : UInt64) (finish : Nat) : List SeriesRow :=
  let low := boundary (fun row => row.timestamp < start) rows
  let high := boundary (fun row => row.timestamp.toNat < finish) rows
  (rows.take high).drop low

def window (rows : List SeriesRow) (start : Option UInt64) (duration : UInt64) :
    List SeriesRow :=
  match rows with
  | [] => []
  | first :: _ =>
    let start := windowStart first start
    slice rows start (windowEnd start duration)

end FleetTelemetry.Chart
