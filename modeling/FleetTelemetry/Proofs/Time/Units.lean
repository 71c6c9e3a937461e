import FleetTelemetry.Proofs.Number.Grammar
import FleetTelemetry.Proofs.Time.Reading
import Mathlib.Data.List.Infix
import Mathlib.Data.List.Nodup

/-!
# Units of time

The names of the units overlap: four of them end in the name of another one, one starts with the
name of another one, and numbers have letters too. Still a text is a number with a unit in just one
way, since what one unit has in front of another is nothing that a number goes on with. So the units
can be tried in any order.
-/

namespace FleetTelemetry

open Text Number Number.Literal

namespace SpanReading

/-! ## The ways to read a text -/

/-- What stands behind the number: the name of a unit, or nothing if the number counts seconds. -/
def suffix : Option TimeUnit → List Char
  | none => []
  | some unit => unit.name

/-- The ways to read a text: as a number of seconds, or of one of some units. -/
def readings (units : List TimeUnit) : List (Option TimeUnit) :=
  none :: units.map some

/-- A text is a number followed by the suffix of a reading. -/
def Reads (s : List Char) (reading : Option TimeUnit) : Prop :=
  ∃ number, IsNumber number ∧ s = number ++ suffix reading

def scaled (x : Float) : Option TimeUnit → Float
  | none => x
  | some unit => x * unit.nanoseconds / 1000000000.0

/-- The seconds of a text under one reading. -/
def readAs? (s : List Char) (reading : Option TimeUnit) : Option Float :=
  ((dropSuffix? (suffix reading) s).bind read?).map fun literal => scaled literal.toFloat reading

/-- The seconds of a trimmed text when the units are tried in a given order. -/
def secondsIn? (units : List TimeUnit) (s : List Char) : Option Float :=
  match read? s with
  | some literal => some literal.toFloat
  | none => withUnit? s units

variable {s t number number' front : List Char} {reading reading' : Option TimeUnit}
  {units : List TimeUnit} {x : Float}

private theorem secondsIn?_timeUnits (s : List Char) : secondsIn? timeUnits s = seconds? s := rfl

private theorem dropSuffix?_eq_some_iff {suffix : List Char} :
    dropSuffix? suffix s = some t ↔ s = t ++ suffix := by
  rw [dropSuffix?, Option.ite_none_right_eq_some, Option.some.injEq]
  constructor
  · rintro ⟨⟨front, rfl⟩, hfront⟩
    simpa using hfront
  · rintro rfl
    simp

private theorem readAs?_none (s : List Char) : readAs? s none = (read? s).map Literal.toFloat := by
  have hdrop : dropSuffix? [] s = some s := dropSuffix?_eq_some_iff.mpr (List.append_nil s).symm
  rw [readAs?, suffix, hdrop]
  rfl

private theorem withUnit?_eq_findSome? (s : List Char) (units : List TimeUnit) :
    withUnit? s units = (units.map some).findSome? (readAs? s) := by
  induction units with
  | nil => rfl
  | cons unit units ih =>
    rw [withUnit?, List.map_cons, List.findSome?_cons, readAs?, suffix]
    cases hnumber : (dropSuffix? unit.name s).bind read? with
    | none => exact ih
    | some literal => rfl

private theorem secondsIn?_eq_findSome? (units : List TimeUnit) (s : List Char) :
    secondsIn? units s = (readings units).findSome? (readAs? s) := by
  rw [secondsIn?, readings, List.findSome?_cons, readAs?_none, withUnit?_eq_findSome?]
  cases read? s with
  | none => rfl
  | some literal => rfl

private theorem isSome_readAs?_iff : (readAs? s reading).isSome = true ↔ Reads s reading := by
  rw [readAs?, Option.isSome_map, Option.isSome_iff_exists]
  simp only [Option.bind_eq_some_iff, dropSuffix?_eq_some_iff, Reads, ← isSome_read?_iff,
    Option.isSome_iff_exists]
  constructor
  · rintro ⟨literal, number, hs, hread⟩
    exact ⟨number, ⟨literal, hread⟩, hs⟩
  · rintro ⟨number, ⟨literal, hread⟩, hs⟩
    exact ⟨literal, number, hs, hread⟩

/-! ## One reading at most -/

private theorem suffix_front : ∀ reading ∈ readings timeUnits, ∀ reading' ∈ readings timeUnits,
    ∀ front ∈ (suffix reading).inits, suffix reading = front ++ suffix reading' →
      front = [] ∨ front = ['n'] ∨ front.getLast?.map endsNumber = some false := by
  decide

private theorem suffixes_nodup : ((readings timeUnits).map suffix).Nodup := by
  decide

private theorem front_eq_nil (h : IsNumber number) (h' : IsNumber (number ++ front))
    (hreading : reading ∈ readings timeUnits) (hreading' : reading' ∈ readings timeUnits)
    (hsuffix : suffix reading = front ++ suffix reading') : front = [] := by
  have hfront : front ∈ (suffix reading).inits := by
    rw [List.mem_inits, hsuffix]
    exact List.prefix_append _ _
  rcases suffix_front reading hreading reading' hreading' front hfront hsuffix with
    hnil | rfl | hlast
  · exact hnil
  · exact absurd h h'.not_of_append
  · obtain ⟨c, hc, hends⟩ := Option.map_eq_some_iff.mp hlast
    obtain ⟨d, hd, hends'⟩ := h'.getLast
    rw [List.mem_getLast?_append_of_mem_getLast? hc] at hd
    cases hd
    rw [hends] at hends'
    cases hends'

private theorem reads_unique (hreading : reading ∈ readings timeUnits)
    (hreading' : reading' ∈ readings timeUnits) (h : Reads s reading) (h' : Reads s reading') :
    reading = reading' := by
  obtain ⟨number, hnumber, rfl⟩ := h
  obtain ⟨number', hnumber', heq⟩ := h'
  have hsuffix : suffix reading = suffix reading' := by
    rcases List.append_eq_append_iff.mp heq with ⟨front, rfl, hfront⟩ | ⟨front, rfl, hfront⟩
    · rw [hfront, front_eq_nil hnumber hnumber' hreading hreading' hfront, List.nil_append]
    · rw [hfront, front_eq_nil hnumber' hnumber hreading' hreading hfront, List.nil_append]
  exact List.inj_on_of_nodup_map suffixes_nodup hreading hreading' hsuffix

/-! ## The order of the units -/

private theorem secondsIn?_eq_none_iff :
    secondsIn? units s = none ↔ ∀ reading ∈ readings units, ¬ Reads s reading := by
  simp only [secondsIn?_eq_findSome?, List.findSome?_eq_none_iff, ← isSome_readAs?_iff,
    Option.not_isSome_iff_eq_none]

private theorem secondsIn?_eq_some_iff
    (h : ∀ reading ∈ readings units, reading ∈ readings timeUnits) :
    secondsIn? units s = some x ↔ ∃ reading ∈ readings units, readAs? s reading = some x := by
  constructor
  · intro hx
    rw [secondsIn?_eq_findSome?] at hx
    exact List.exists_of_findSome?_eq_some hx
  · rintro ⟨reading, hreading, hx⟩
    have hreads : Reads s reading := isSome_readAs?_iff.mp (by rw [hx]; rfl)
    cases hy : secondsIn? units s with
    | none => exact absurd hreads (secondsIn?_eq_none_iff.mp hy reading hreading)
    | some y =>
      -- Whichever reading is found first, it is this one, since a text has no two.
      rw [secondsIn?_eq_findSome?] at hy
      obtain ⟨reading', hreading', hy⟩ := List.exists_of_findSome?_eq_some hy
      have hreads' : Reads s reading' := isSome_readAs?_iff.mp (by rw [hy]; rfl)
      obtain rfl := reads_unique (h reading hreading) (h reading' hreading') hreads hreads'
      exact hy.symm.trans hx

private theorem secondsIn?_of_perm (h : units.Perm timeUnits) (s : List Char) :
    secondsIn? units s = secondsIn? timeUnits s := by
  have hmem (reading : Option TimeUnit) : reading ∈ readings units ↔ reading ∈ readings timeUnits :=
    ((h.map some).cons none).mem_iff
  ext x
  rw [secondsIn?_eq_some_iff fun reading => (hmem reading).mp, secondsIn?_eq_some_iff fun _ => id]
  simp only [hmem]

end SpanReading

namespace Span

/-- Reads a span when the units are tried in a given order. -/
def readIn (units : List TimeUnit) (s : String) : SpanReading :=
  let text := trimChars s.toList
  match SpanReading.secondsIn? units text with
  | some x => SpanReading.ofSeconds (String.ofList text) x
  | none => .error (.unknownFormat (String.ofList text))

private theorem readIn_timeUnits (s : String) : readIn timeUnits s = read s := rfl

open SpanReading

variable {s text : String}

private theorem read_eq_unknown_iff : read s = .error (.unknownFormat text) ↔
    text = trim s ∧ ∀ reading ∈ readings timeUnits, ¬ Reads (trim s).toList reading := by
  rw [← secondsIn?_eq_none_iff, secondsIn?_timeUnits, trim, String.toList_ofList]
  constructor
  · intro h
    have hreads := readsAs_read s
    rw [h] at hreads
    cases hreads with
    | unknown hnone => exact ⟨rfl, hnone⟩
  · rintro ⟨rfl, hnone⟩
    simp only [read, hnone]

private theorem read_of_readAs? {reading : Option TimeUnit} {x : Float}
    (hreading : reading ∈ readings timeUnits)
    (h : readAs? (trim s).toList reading = some x) :
    read s = SpanReading.ofSeconds (trim s) x := by
  rw [trim, String.toList_ofList] at h
  have hseconds := (secondsIn?_eq_some_iff fun _ => id).mpr ⟨reading, hreading, h⟩
  rw [secondsIn?_timeUnits] at hseconds
  simp only [read, hseconds]
  rfl

private theorem unknown_prefix_message_iff {e : SpanError} :
    "Unknown duration format".toList <+: e.message.toList ↔ ∃ text, e = .unknownFormat text := by
  cases e with
  | unknownFormat text =>
    have hmessage : (SpanError.unknownFormat text).message.toList =
        "Unknown duration format: ".toList ++ text.toList := String.toList_append
    have hname : "Unknown duration format".toList <+: "Unknown duration format: ".toList :=
      ⟨": ".toList, rfl⟩
    rw [hmessage]
    exact iff_of_true (hname.trans (List.prefix_append _ _)) ⟨text, rfl⟩
  | invalid text =>
    have hmessage : (SpanError.invalid text).message.toList =
        "Invalid duration: ".toList ++ text.toList := String.toList_append
    rw [hmessage]
    refine iff_of_false ?_ nofun
    rintro ⟨rest, hrest⟩
    cases congrArg List.head? hrest

/-- Units of time are unambiguous. A text has at most one of the seven readings: it is a number,
or a number followed by one of the units, in at most one way. So the units give every text the same
outcome in whatever order they are tried, namely that of its reading between its blanks, and a text
is of unknown format exactly when it has no reading there, which is what is told about it. -/
theorem units_unambiguous (s : String) :
    (readings timeUnits).Pairwise (fun reading reading' =>
      ¬ (Reads s.toList reading ∧ Reads s.toList reading')) ∧
    (∀ units : List TimeUnit, units.Perm timeUnits → readIn units s = read s) ∧
    (∀ reading ∈ readings timeUnits, ∀ x, readAs? (trim s).toList reading = some x →
      read s = SpanReading.ofSeconds (trim s) x) ∧
    ((∃ e, read s = .error e ∧ "Unknown duration format".toList <+: e.message.toList) ↔
      ∀ reading ∈ readings timeUnits, ¬ Reads (trim s).toList reading) ∧
    ∀ text, read s = .error (.unknownFormat text) → text = trim s := by
  refine ⟨?_, ?_, fun reading hreading x => read_of_readAs? hreading, ?_,
    fun text h => (read_eq_unknown_iff.mp h).1⟩
  · have hdistinct : (readings timeUnits).Nodup := suffixes_nodup.of_map
    refine hdistinct.imp_of_mem fun hreading hreading' hne => ?_
    rintro ⟨h, h'⟩
    exact hne (reads_unique hreading hreading' h h')
  · intro units h
    rw [← readIn_timeUnits, readIn, secondsIn?_of_perm h, readIn]
  · constructor
    · rintro ⟨e, h, hmessage⟩
      obtain ⟨text, rfl⟩ := unknown_prefix_message_iff.mp hmessage
      exact (read_eq_unknown_iff.mp h).2
    · intro h
      exact ⟨_, read_eq_unknown_iff.mpr ⟨rfl, h⟩, unknown_prefix_message_iff.mpr ⟨_, rfl⟩⟩

/-- The text `nans` ends in the names of two units, and `na` would have to be a number for the
longer one. -/
theorem units_unambiguous_nan :
    timeUnits.reverse.Perm timeUnits ∧ readIn timeUnits.reverse "nans" = read "nans" ∧
      Reads "nans".toList (some ⟨['s'], 1000000000.0⟩) ∧
      ∀ text, read "nans" ≠ .error (.unknownFormat text) := by
  have hperm : timeUnits.reverse.Perm timeUnits := List.reverse_perm timeUnits
  have hreads : Reads "nans".toList (some ⟨['s'], 1000000000.0⟩) :=
    ⟨"nan".toList, isSome_read?_iff.mp rfl, rfl⟩
  obtain ⟨-, horder, -, hunknown, -⟩ := units_unambiguous "nans"
  refine ⟨hperm, horder _ hperm, hreads, fun text h => ?_⟩
  have hnone := hunknown.mp ⟨_, h, unknown_prefix_message_iff.mpr ⟨text, rfl⟩⟩
  exact hnone _ (by simp [readings, timeUnits]) hreads

end Span

end FleetTelemetry
