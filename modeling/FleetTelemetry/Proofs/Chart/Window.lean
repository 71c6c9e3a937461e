import FleetTelemetry.Chart.Window

/-!
# What a window holds

On rows whose times never decrease halving finds where a test starts to fail, so a window holds
exactly the rows of its stretch of time. On any other rows halving still ends at one of their
places, so a window is always a part of them.
-/

namespace FleetTelemetry.Chart

section Boundary

variable {α : Type} {test : α → Bool} {rows before after : List α} {row : α}

/-- Once the test fails it fails for all later rows. -/
def FailsLater (test : α → Bool) (rows : List α) : Prop :=
  rows.Pairwise fun earlier later => test later = true → test earlier = true

private theorem FailsLater.forall_before (h : FailsLater test (before ++ row :: after))
    (hrow : test row = true) : ∀ earlier ∈ before, test earlier = true := by
  intro earlier hearlier
  exact (List.pairwise_append.mp h).2.2 earlier hearlier row List.mem_cons_self hrow

private theorem FailsLater.forall_after (h : FailsLater test (before ++ row :: after))
    (hrow : test row = false) : ∀ later ∈ row :: after, test later = false := by
  have hlater := (List.pairwise_cons.mp (List.pairwise_append.mp h).2.1).1
  intro later hmem
  rcases List.mem_cons.mp hmem with rfl | hmem
  · exact hrow
  · cases htest : test later with
    | false => rfl
    | true =>
      rw [hlater later hmem htest] at hrow
      cases hrow

private theorem takeWhile_append_of_neg (h : ∀ row ∈ after, test row = false) :
    (before ++ after).takeWhile test = before.takeWhile test := by
  have hnone : after.takeWhile test = [] := by
    cases after with
    | nil => rfl
    | cons row after => simp [h row List.mem_cons_self]
  rw [List.takeWhile_append, hnone, List.append_nil]
  split
  case isTrue hall => exact ((List.takeWhile_prefix test).eq_of_length hall).symm
  case isFalse => rfl

private theorem FailsLater.exists_split (h : FailsLater test rows) {n : Nat}
    (hn : n < rows.length) :
    ∃ row, rows[n]? = some row ∧ rows.drop n = row :: rows.drop (n + 1) ∧
      FailsLater test (rows.take n ++ row :: rows.drop (n + 1)) := by
  have hdrop := List.drop_eq_getElem_cons hn
  refine ⟨rows[n], List.getElem?_eq_getElem hn, hdrop, ?_⟩
  rwa [← hdrop, List.take_append_drop]

private theorem boundary_eq_length_takeWhile (h : FailsLater test rows) :
    boundary test rows = (rows.takeWhile test).length := by
  fun_induction boundary test rows with
  | case1 => rfl
  | case2 row hrow => simp [hrow]
  | case3 row hrow => simp [hrow]
  | case4 first second rest rows half hhalf ih =>
    have hlt : half < rows.length := Nat.div_lt_self (by simp [rows]) (by decide)
    obtain ⟨row, hrow, -, hsplit⟩ :=
      @FailsLater.exists_split α test rows h half hlt
    have hpasses : test row = true := by simpa [hrow] using hhalf
    have hbefore := hsplit.forall_before hpasses
    calc
      half + boundary test (rows.drop half) =
          (rows.take half).length + ((rows.drop half).takeWhile test).length := by
        rw [ih (h.sublist (List.drop_sublist half rows)), List.length_take_of_le (Nat.le_of_lt hlt)]
      _ = ((rows.take half ++ rows.drop half).takeWhile test).length := by
        rw [List.takeWhile_append_of_pos hbefore, List.length_append]
      _ = (rows.takeWhile test).length := by rw [List.take_append_drop]
  | case5 first second rest rows half hhalf ih =>
    have hlt : half < rows.length := Nat.div_lt_self (by simp [rows]) (by decide)
    obtain ⟨row, hrow, hdrop, hsplit⟩ :=
      @FailsLater.exists_split α test rows h half hlt
    have hfails : test row = false := by simpa [hrow] using hhalf
    have hafter : ∀ later ∈ rows.drop (rows.length - half), test later = false := by
      intro later hlater
      have hle : half ≤ rows.length - half := by
        simp only [half]
        omega
      apply hsplit.forall_after hfails
      rw [← hdrop]
      exact List.drop_subset_drop_left rows hle hlater
    rw [ih (h.sublist (List.take_sublist _ rows))]
    have hwhole := @takeWhile_append_of_neg _ test (rows.take (rows.length - half)) _ hafter
    rw [List.take_append_drop] at hwhole
    rw [← hwhole]

private theorem FailsLater.takeWhile_eq_filter (h : FailsLater test rows) :
    rows.takeWhile test = rows.filter test := by
  induction rows with
  | nil => rfl
  | cons row rows ih =>
    cases hrow : test row with
    | true => rw [List.takeWhile_cons_of_pos hrow, List.filter_cons_of_pos hrow, ih h.tail]
    | false =>
      have hfails := @FailsLater.forall_after α test [] rows row h hrow
      have hnone : rows.filter test = [] := by
        refine List.filter_eq_nil_iff.mpr fun later hmem => ?_
        simp [hfails later (List.mem_cons_of_mem row hmem)]
      rw [List.takeWhile_cons_of_neg (by simp [hrow]), List.filter_cons_of_neg (by simp [hrow]),
        hnone]

private theorem FailsLater.drop_boundary (h : FailsLater test rows) :
    rows.drop (boundary test rows) = rows.filter fun row => !test row := by
  rw [boundary_eq_length_takeWhile h]
  induction rows with
  | nil => rfl
  | cons row rows ih =>
    cases hrow : test row with
    | true =>
      rw [List.takeWhile_cons_of_pos hrow, List.filter_cons_of_neg (by simp [hrow]),
        List.length_cons, List.drop_succ_cons, ih h.tail]
    | false =>
      have hfails := @FailsLater.forall_after α test [] rows row h hrow
      have hall : rows.filter (fun later => !test later) = rows := by
        refine List.filter_eq_self.mpr fun later hmem => ?_
        simp [hfails later (List.mem_cons_of_mem row hmem)]
      rw [List.takeWhile_cons_of_neg (by simp [hrow]), List.filter_cons_of_pos (by simp [hrow]),
        hall]
      rfl

private theorem FailsLater.take_boundary (h : FailsLater test rows) :
    rows.take (boundary test rows) = rows.filter test := by
  rw [boundary_eq_length_takeWhile h, ← h.takeWhile_eq_filter]
  exact (List.prefix_iff_eq_take.mp (List.takeWhile_prefix test)).symm

theorem FailsLater.filter_append (h : FailsLater test rows) :
    (rows.filter test ++ rows.filter fun row => !test row) = rows := by
  rw [← h.take_boundary, ← h.drop_boundary, List.take_append_drop]

private theorem boundary_le_length (test : α → Bool) (rows : List α) :
    boundary test rows ≤ rows.length := by
  fun_induction boundary test rows with
  | case1 => exact Nat.le_refl 0
  | case2 => exact Nat.le_refl 1
  | case3 => exact Nat.zero_le 1
  | case4 first second rest rows half hhalf ih =>
    have hle : half ≤ rows.length := Nat.div_le_self rows.length 2
    rw [List.length_drop] at ih
    exact Nat.add_le_of_le_sub' hle ih
  | case5 first second rest rows half hhalf ih =>
    rw [List.length_take] at ih
    exact Nat.le_trans ih (Nat.min_le_right _ _)

end Boundary

/-- The times of some rows never decrease. -/
def InOrder (rows : List SeriesRow) : Prop :=
  rows.Pairwise fun earlier later => earlier.timestamp ≤ later.timestamp

variable {rows : List SeriesRow}

theorem InOrder.failsLater_start (h : InOrder rows) (start : UInt64) :
    FailsLater (fun row => decide (row.timestamp < start)) rows := by
  refine h.imp fun hle hlt => ?_
  rw [decide_eq_true_eq] at hlt ⊢
  exact UInt64.lt_of_le_of_lt hle hlt

theorem InOrder.failsLater_finish (h : InOrder rows) (finish : Nat) :
    FailsLater (fun row => decide (row.timestamp.toNat < finish)) rows := by
  refine h.imp fun hle hlt => ?_
  rw [decide_eq_true_eq] at hlt ⊢
  exact Nat.lt_of_le_of_lt (UInt64.le_iff_toNat_le.mp hle) hlt

private theorem slice_eq_filter (h : InOrder rows) {start : UInt64} {finish : Nat}
    (hle : start.toNat ≤ finish) :
    slice rows start finish =
      rows.filter fun row => start ≤ row.timestamp && row.timestamp.toNat < finish := by
  have hstart := h.failsLater_start start
  have hfinish := h.failsLater_finish finish
  have hinside : FailsLater (fun row : SeriesRow => decide (row.timestamp < start))
      (rows.filter fun row => row.timestamp.toNat < finish) :=
    hstart.sublist List.filter_sublist
  -- the rows before the start are also before the end, so both boundaries count the same ones
  have hlow : boundary (fun row : SeriesRow => decide (row.timestamp < start)) rows =
      boundary (fun row : SeriesRow => decide (row.timestamp < start))
        (rows.filter fun row => row.timestamp.toNat < finish) := by
    rw [boundary_eq_length_takeWhile hstart, boundary_eq_length_takeWhile hinside,
      hstart.takeWhile_eq_filter, hinside.takeWhile_eq_filter, List.filter_filter]
    congr 1
    apply List.filter_congr
    intro row _
    by_cases hrow : row.timestamp < start
    · have hlt := Nat.lt_of_lt_of_le (UInt64.lt_iff_toNat_lt.mp hrow) hle
      simp [hrow, hlt]
    · simp [hrow]
  rw [slice, hfinish.take_boundary, hlow, hinside.drop_boundary, List.filter_filter]
  apply List.filter_congr
  intro row _
  simp only [UInt64.not_lt, ← decide_not]

private theorem start_le_windowEnd (start duration : UInt64) :
    start.toNat ≤ windowEnd start duration := by
  have hlt := start.toNat_lt
  simp only [windowEnd, lastMoment, UInt64.size]
  omega

instance (rows : List SeriesRow) : Decidable (InOrder rows) :=
  inferInstanceAs (Decidable (rows.Pairwise _))

/-- The rows from a place up to another one, if these are places of the rows in this order. -/
def rowsBetween? (rows : List SeriesRow) (low high : Nat) : Option (List SeriesRow) :=
  if low ≤ high ∧ high ≤ rows.length then some ((rows.take high).drop low) else none

/-- The rows from a start on, for a duration that ends at the last moment at the latest. The start
is the time of the first row if none is given. -/
def rowsWithin (rows : List SeriesRow) (start : Option UInt64) (duration : UInt64) :
    List SeriesRow :=
  match rows with
  | [] => []
  | first :: _ =>
    let start := start.getD first.timestamp
    rows.filter fun row => start ≤ row.timestamp &&
      row.timestamp.toNat < min (start.toNat + duration.toNat) (UInt64.size - 1)

theorem window_eq_rowsWithin (h : InOrder rows) (start : Option UInt64) (duration : UInt64) :
    window rows start duration = rowsWithin rows start duration := by
  cases rows with
  | nil => rfl
  | cons first rest => exact slice_eq_filter h (start_le_windowEnd _ duration)

theorem window_isInfix (rows : List SeriesRow) (start : Option UInt64) (duration : UInt64) :
    window rows start duration <:+: rows := by
  cases rows with
  | nil => exact List.infix_rfl
  | cons first rest => exact (List.drop_suffix _ _).isInfix.trans (List.take_prefix _ _).isInfix

private theorem rowsBetween?_boundary (rows : List SeriesRow) (start : UInt64) (finish : Nat) :
    rowsBetween? rows (boundary (fun row => row.timestamp < start) rows)
        (max (boundary (fun row => row.timestamp < start) rows)
          (boundary (fun row => row.timestamp.toNat < finish) rows)) =
      some (slice rows start finish) := by
  have hlow := boundary_le_length (fun row : SeriesRow => row.timestamp < start) rows
  have hhigh := boundary_le_length (fun row : SeriesRow => row.timestamp.toNat < finish) rows
  rw [rowsBetween?, if_pos ⟨Nat.le_max_left _ _, Nat.max_le.mpr ⟨hlow, hhigh⟩⟩, slice]
  rcases Nat.le_total (boundary (fun row : SeriesRow => row.timestamp < start) rows)
    (boundary (fun row : SeriesRow => row.timestamp.toNat < finish) rows) with hle | hle
  · rw [Nat.max_eq_right hle]
  · -- the end does not come after the start, so that both parts are empty
    rw [Nat.max_eq_left hle, List.drop_eq_nil_of_le (List.length_take_le _ _),
      List.drop_eq_nil_of_le (Nat.le_trans (List.length_take_le _ _) hle)]

/-- For every series: a window of rows whose times never decrease holds the rows from its start on
and before its end, in their order. Of any rows, in order or not, it is a part without gaps, and
both places that halving has found for it are places of the rows. -/
theorem window_exact (data : SeriesData) (start : Option UInt64) (duration : UInt64) :
    (InOrder data.rows → window data.rows start duration = rowsWithin data.rows start duration) ∧
    window data.rows start duration <:+: data.rows ∧
    ∀ first rest, data.rows = first :: rest →
      let low := boundary (fun row => row.timestamp < windowStart first start) data.rows
      let high := boundary
        (fun row => row.timestamp.toNat < windowEnd (windowStart first start) duration) data.rows
      rowsBetween? data.rows low (max low high) = some (window data.rows start duration) := by
  obtain ⟨header, rows⟩ := data
  refine ⟨fun horder => window_eq_rowsWithin horder start duration, window_isInfix _ _ _, ?_⟩
  rintro first rest rfl
  exact rowsBetween?_boundary _ _ _

def repeatedTimes : List SeriesRow := [⟨5, [1]⟩, ⟨5, [2]⟩, ⟨7, [3]⟩, ⟨9, [4]⟩, ⟨9, [5]⟩]

/-- The rows at the start are in a window and those at its end are not. -/
theorem window_exact_repeated :
    InOrder repeatedTimes ∧
      window repeatedTimes (some 5) 4 = [⟨5, [1]⟩, ⟨5, [2]⟩, ⟨7, [3]⟩] := by
  have horder : InOrder repeatedTimes := by decide
  refine ⟨horder, ?_⟩
  rw [(window_exact ⟨⟨1, 2, 9, []⟩, repeatedTimes⟩ (some 5) 4).1 horder]
  decide

end FleetTelemetry.Chart
