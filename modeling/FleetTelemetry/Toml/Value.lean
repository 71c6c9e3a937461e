/-!
# TOML values

What a settings file holds: texts, numbers, truth values, lists and tables. A table remembers how
it came about, because that decides what a later line may still add to it.
-/

namespace FleetTelemetry.Toml

inductive TableOrigin where
  /-- Written between braces; nothing can be added to it. -/
  | inline
  /-- Opened by a header of its own. -/
  | header
  /-- Passed by the header of a table below it. -/
  | passed
  /-- Passed by a dotted key. -/
  | dotted
  deriving DecidableEq, Repr

/-- A TOML value. Dates and times are texts in their normal form. -/
inductive Value where
  | truth (value : Bool)
  | whole (value : Int)
  | real (value : Float)
  | text (value : String)
  /-- A list; headers in double brackets can add tables to one that they began. -/
  | list (growing : Bool) (items : List Value)
  | table (origin : TableOrigin) (entries : List (String × Value))

instance : Inhabited Value := ⟨.table .inline []⟩

abbrev Entries := List (String × Value)

namespace Entries

def find? : Entries → String → Option Value
  | [], _ => none
  | (name, value) :: rest, key => if name = key then some value else find? rest key

def put : Entries → String → Value → Entries
  | [], key, value => [(key, value)]
  | (name, old) :: rest, key, value =>
    if name = key then (key, value) :: rest else (name, old) :: put rest key value

theorem find?_put (entries : Entries) (key other : String) (value : Value) :
    find? (put entries key value) other = if other = key then some value else find? entries other := by
  induction entries with
  | nil => simp [put, find?, eq_comm]
  | cons entry rest ih =>
    obtain ⟨name, old⟩ := entry
    by_cases hname : name = key
    · by_cases hother : other = key
      · simp [put, find?, hname, hother]
      · have hkey : key ≠ other := fun e => hother e.symm
        simp [put, find?, hname, hother, hkey]
    · by_cases hfound : name = other
      · have hother : other ≠ key := fun e => hname (hfound.trans e)
        simp [put, find?, hfound, hother]
      · simp [put, find?, hname, hfound, ih]

end Entries

end FleetTelemetry.Toml
