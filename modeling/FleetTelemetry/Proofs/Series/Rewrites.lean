import FleetTelemetry.Proofs.Series.Retention

/-!
# When a series file is rewritten

A store counts the rows of its file and rewrites the file when there are twice as many as it keeps.
The first time this takes twice the capacity of accepted updates, and from then on once the
capacity, since a rewritten file starts with the rows that are kept.
-/

namespace FleetTelemetry

open Text SeriesData SeriesRow

namespace SeriesStore

/-! ## Counting accepted updates -/

/-- The rows in a file after a number of accepted updates. -/
def rowsAfter (capacity n : Nat) : Nat :=
  if n < capacity then n else capacity + n % capacity

/-- The file is rewritten after an accepted update, given how many there are with it. -/
def IsDue (capacity n : Nat) : Prop :=
  2 * capacity ≤ n ∧ capacity ∣ n

instance (capacity n : Nat) : Decidable (IsDue capacity n) :=
  inferInstanceAs (Decidable (_ ∧ _))

variable {capacity n : Nat}

private theorem rowsAfter_lt (h : 0 < capacity) (n : Nat) :
    rowsAfter capacity n < 2 * capacity := by
  have hmod := Nat.mod_lt n h
  unfold rowsAfter
  split <;> omega

private theorem dvd_succ_iff (h : 0 < capacity) (n : Nat) :
    capacity ∣ n + 1 ↔ n % capacity + 1 = capacity := by
  have hsplit : n + 1 = capacity * (n / capacity) + (n % capacity + 1) := by
    rw [← Nat.add_assoc, Nat.div_add_mod]
  have hmod := Nat.mod_lt n h
  rw [hsplit, Nat.dvd_add_right (Nat.dvd_mul_right _ _)]
  constructor
  · intro hdvd
    have hle := Nat.le_of_dvd (Nat.succ_pos _) hdvd
    omega
  · exact fun heq => ⟨1, by rw [Nat.mul_one, heq]⟩

private theorem succ_mod_of_not_dvd (h : 0 < capacity) (hdvd : ¬ capacity ∣ n + 1) :
    (n + 1) % capacity = n % capacity + 1 := by
  have hmod := Nat.mod_lt n h
  have hlast := mt (dvd_succ_iff h n).mpr hdvd
  rw [← Nat.mod_add_mod, Nat.mod_eq_of_lt (by omega)]

private theorem rowsAfter_succ (h : 0 < capacity) (n : Nat) :
    rowsAfter capacity (n + 1) =
      if IsDue capacity (n + 1) then capacity else rowsAfter capacity n + 1 := by
  by_cases hdvd : capacity ∣ n + 1
  · have hzero : (n + 1) % capacity = 0 := Nat.mod_eq_zero_of_dvd hdvd
    have hlast := (dvd_succ_iff h n).mp hdvd
    have hfull : ¬ n + 1 < capacity := by
      have hle := Nat.mod_le n capacity
      omega
    by_cases hdouble : 2 * capacity ≤ n + 1
    · have hdue : IsDue capacity (n + 1) := ⟨hdouble, hdvd⟩
      rw [if_pos hdue, rowsAfter, if_neg hfull, hzero, Nat.add_zero]
    · -- The first period ends without a rewriting.
      have hless : n < capacity := by
        by_contra hge
        have hsub : n % capacity = n - capacity := by
          rw [Nat.mod_eq_sub_mod (Nat.le_of_not_lt hge), Nat.mod_eq_of_lt (by omega)]
        omega
      rw [if_neg fun hdue => hdouble hdue.1, rowsAfter, if_neg hfull, hzero, rowsAfter,
        if_pos hless]
      omega
  · have hmod := succ_mod_of_not_dvd h hdvd
    have hne : n + 1 ≠ capacity := fun heq => hdvd (heq ▸ Nat.dvd_refl _)
    rw [if_neg fun hdue => hdvd hdue.2, rowsAfter, rowsAfter]
    split <;> split <;> omega

private theorem isDue_succ_iff (h : 0 < capacity) (n : Nat) :
    IsDue capacity (n + 1) ↔ 2 * capacity ≤ rowsAfter capacity n + 1 := by
  have hsucc := rowsAfter_succ h n
  have hlt := rowsAfter_lt h (n + 1)
  constructor
  · intro hdue
    have hmod := (dvd_succ_iff h n).mp hdue.2
    have hge : ¬ n < capacity := by
      have hdouble := hdue.1
      omega
    rw [rowsAfter, if_neg hge]
    omega
  · intro hfull
    by_contra hdue
    rw [if_neg hdue] at hsucc
    omega

private theorem succ_div_sub_one (h : 0 < capacity) (n : Nat) :
    (n + 1) / capacity - 1 =
      n / capacity - 1 + if IsDue capacity (n + 1) then 1 else 0 := by
  by_cases hdvd : capacity ∣ n + 1
  · have hmul := Nat.div_mul_cancel hdvd
    rw [Nat.succ_div_of_dvd hdvd] at hmul ⊢
    have hdue : IsDue capacity (n + 1) ↔ 1 ≤ n / capacity := by
      rw [IsDue, and_iff_left hdvd, ← hmul, Nat.mul_le_mul_right_iff h]
      omega
    simp only [hdue]
    split <;> omega
  · rw [Nat.succ_div_of_not_dvd hdvd, if_neg fun hdue => hdvd hdue.2, Nat.add_zero]

/-! ## Rewriting -/

/-- Tells whether the file at a path was rewritten between two states of the files: what it held
before is not the front of what it holds afterwards. Appending to a file does not rewrite it. -/
def rewritten (path : String) (files files' : Files) : Bool :=
  match files.readText path, files'.readText path with
  | .ok before, .ok after => !before.toList.isPrefixOf after.toList
  | _, _ => false

/-- How many of some updates, one after another, rewrite the file of a store. -/
def rewrites (store : SeriesStore) (files : Files) : List SeriesRow → Nat
  | [] => 0
  | row :: updates =>
    let (store', files') := (store.update files row.timestamp row.values).2
    (if rewritten store.path files files' then 1 else 0) + rewrites store' files' updates

section

variable {path before after : String} {files files' : Files}

private theorem rewritten_eq_true_iff (hbefore : files.readText path = .ok before)
    (hafter : files'.readText path = .ok after) :
    rewritten path files files' = true ↔ ¬ before.toList <+: after.toList := by
  simp only [rewritten, hbefore, hafter, Bool.not_eq_true', Bool.eq_false_iff, ne_eq,
    List.isPrefixOf_iff_prefix]

private theorem rewritten_self (path : String) (files : Files) :
    rewritten path files files = false := by
  unfold rewritten
  cases files.readText path with
  | error fault => rfl
  | ok text => simp

end

private theorem eq_of_prefix_print {header : SeriesHeader} {first first' : SeriesRow}
    {others others' : List SeriesRow}
    (h : (print { header, rows := first :: others }).toList <+:
      (print { header, rows := first' :: others' }).toList) : first = first' := by
  have hline (row : SeriesRow) : row.line = row.text ++ ['\n'] := rfl
  obtain ⟨more, hmore⟩ := h
  simp only [print, String.toList_ofList, List.flatMap_cons, hline, List.append_assoc,
    List.cons_append, List.nil_append, List.append_cancel_left_eq, List.cons.injEq,
    true_and] at hmore
  have hpieces := congrArg (pieces '\n') hmore
  rw [pieces_append_cons (first.printable_text.not_mem (by decide)),
    pieces_append_cons (first'.printable_text.not_mem (by decide))] at hpieces
  exact text_inj.mp (List.cons.inj hpieces).1

private theorem pairwise_concat {arity : Nat} {kept : List SeriesRow} {row : SeriesRow}
    (h : kept.Pairwise fun earlier later => earlier.timestamp < later.timestamp)
    (hrow : Follows arity kept row) :
    (kept ++ [row]).Pairwise fun earlier later => earlier.timestamp < later.timestamp := by
  refine List.pairwise_append.mpr ⟨h, List.pairwise_singleton _ _, ?_⟩
  intro earlier hearlier later hlater
  obtain rfl := List.mem_singleton.mp hlater
  rcases List.eq_nil_or_concat' kept with rfl | ⟨front, last, rfl⟩
  · cases hearlier
  · have hlast : last.timestamp < later.timestamp := hrow.2 last (by simp)
    rcases List.mem_append.mp hearlier with hfront | hmem
    · have hless := (List.pairwise_append.mp h).2.2 earlier hfront last List.mem_cons_self
      exact UInt64.lt_trans hless hlast
    · rwa [List.mem_singleton.mp hmem]

/-! ## One update and all of them -/

variable {store store' : SeriesStore} {files files' : Files} {path : String}
  {kept rows : List SeriesRow} {row : SeriesRow}

private theorem rewritten_of_newest (hholds : Holds store files rows)
    (hholds' : Holds store' files' (newest capacity (rows ++ [row])))
    (hpath : store'.path = store.path) (hheader : store'.header = store.header)
    (hascending : (rows ++ [row]).Pairwise fun earlier later => earlier.timestamp < later.timestamp)
    (hcapacity : 0 < capacity) (hlength : capacity ≤ rows.length) :
    rewritten store.path files files' = true := by
  have hbefore := Files.readText_eq_ok hholds.opens hholds.content_eq
  have hafter := Files.readText_eq_ok hholds'.opens hholds'.content_eq
  rw [hpath, hheader] at hafter
  rw [rewritten_eq_true_iff hbefore hafter]
  intro hprefix
  obtain ⟨first, others, rfl⟩ :=
    List.exists_cons_of_length_pos (Nat.lt_of_lt_of_le hcapacity hlength)
  have hlonger : capacity ≤ (others ++ [row]).length := by
    rwa [List.length_append, List.length_singleton]
  rw [List.cons_append, newest_cons hlonger] at hprefix
  obtain ⟨first', others', hnewest⟩ : ∃ first' others',
      newest capacity (others ++ [row]) = first' :: others' := by
    apply List.exists_cons_of_length_pos
    rw [length_newest]
    omega
  have hfirst : first' ∈ others ++ [row] := by
    apply (newest_suffix capacity _).subset
    rw [hnewest]
    exact List.mem_cons_self
  have hless := List.rel_of_pairwise_cons hascending hfirst
  rw [hnewest] at hprefix
  rw [eq_of_prefix_print hprefix] at hless
  exact UInt64.lt_irrefl _ hless

private theorem not_rewritten_of_append (hholds : Holds store files rows)
    (hholds' : Holds store' files' (rows ++ [row])) (hpath : store'.path = store.path)
    (hheader : store'.header = store.header) : rewritten store.path files files' = false := by
  have hbefore := Files.readText_eq_ok hholds.opens hholds.content_eq
  have hafter := Files.readText_eq_ok hholds'.opens hholds'.content_eq
  rw [hpath, hheader, print_append] at hafter
  rw [Bool.eq_false_iff, ne_eq, rewritten_eq_true_iff hbefore hafter, not_not, String.toList_append]
  exact List.prefix_append _ _

/-- The file of a store holds the newest of the accepted rows, as many as are in it after so many
updates. -/
structure Fills (store : SeriesStore) (files : Files) (kept : List SeriesRow) : Prop where
  exists_rows : ∃ rows, OnDisk store files rows ∧ rows <:+ kept ∧
    rows.length = rowsAfter store.header.rows.toNat kept.length
  lastUpdate_eq : store.lastUpdate = kept.getLast?.map (·.timestamp)
  ascending : kept.Pairwise fun earlier later => earlier.timestamp < later.timestamp

namespace Fills

/-- An accepted update appends its row or, when a rewriting is due, leaves just the rows to keep. -/
theorem exists_update (h : Fills store files kept) (hpositive : 0 < store.header.rows.toNat)
    (hbound : 2 * store.header.rows.toNat < numberBound)
    (hrow : Follows store.header.fields.length kept row) :
    ∃ store' files', store.update files row.timestamp row.values = (.ok (), store', files') ∧
      store'.path = store.path ∧ store'.header = store.header ∧
      Fills store' files' (kept ++ [row]) ∧
      (rewritten store.path files files' = true ↔
        IsDue store.header.rows.toNat (kept.length + 1)) := by
  obtain ⟨rows, hdisk, hsuffix, hlength⟩ := h.exists_rows
  have hcheck := checkUpdate_eq_ok h.lastUpdate_eq hrow
  obtain ⟨store', files', rows', hupdate, hafter, hdisk', houtcome⟩ :=
    hdisk.exists_update hbound hrow.1 hcheck
  have hascending : (kept ++ [row]).Pairwise _ := pairwise_concat h.ascending hrow
  have hsuffix' : rows ++ [row] <:+ kept ++ [row] := by
    rwa [List.suffix_append_self_iff]
  have hdue := isDue_succ_iff hpositive kept.length
  have hmore := rowsAfter_succ hpositive kept.length
  have hstored := hdisk.stored_eq
  rw [← hlength] at hdue hmore
  refine ⟨store', files', hupdate, hafter.path_eq, hafter.header_eq, ?_⟩
  have hfills (hrows : rows' <:+ rows ++ [row])
      (hcount : rows'.length = rowsAfter store.header.rows.toNat (kept.length + 1)) :
      Fills store' files' (kept ++ [row]) := by
    refine ⟨⟨rows', hdisk', hrows.trans hsuffix', ?_⟩, hafter.lastUpdate_eq_getLast? kept,
      hascending⟩
    rw [hcount, hafter.header_eq, List.length_append, List.length_singleton]
  cases houtcome with
  | early hless =>
    have hnot : ¬ IsDue store.header.rows.toNat (kept.length + 1) := by
      rw [hdue]
      omega
    have hrewritten :=
      not_rewritten_of_append hdisk.holds hafter.holds hafter.path_eq hafter.header_eq
    refine ⟨hfills List.suffix_rfl ?_, iff_of_false (by simp [hrewritten]) hnot⟩
    rw [hmore, if_neg hnot, List.length_append, List.length_singleton]
  | compacted _ hfull =>
    have hyes : IsDue store.header.rows.toNat (kept.length + 1) := hdue.mpr (by omega)
    have hrewritten := rewritten_of_newest hdisk.holds hafter.holds hafter.path_eq hafter.header_eq
      (hascending.sublist hsuffix'.sublist) hpositive (by omega)
    refine ⟨hfills (newest_suffix _ _) ?_, iff_of_true hrewritten hyes⟩
    rw [hmore, if_pos hyes, length_newest, List.length_append]
    omega

theorem update (h : Fills store files kept) (hpositive : 0 < store.header.rows.toNat)
    (hbound : 2 * store.header.rows.toNat < numberBound) (row : SeriesRow) :
    ∃ result store' files',
      store.update files row.timestamp row.values = (result, store', files') ∧
      (result = .ok () ↔ Follows store.header.fields.length kept row) ∧
      store'.path = store.path ∧ store'.header = store.header ∧
      Fills store' files' (accept store.header.fields.length kept row) ∧
      (rewritten store.path files files' = true ↔ Follows store.header.fields.length kept row ∧
        IsDue store.header.rows.toNat (kept.length + 1)) := by
  by_cases hrow : Follows store.header.fields.length kept row
  · obtain ⟨store', files', hupdate, hpath, hheader, hfills, hrewritten⟩ :=
      h.exists_update hpositive hbound hrow
    refine ⟨_, store', files', hupdate, iff_of_true rfl hrow, hpath, hheader, ?_, ?_⟩
    · rwa [accept, if_pos hrow]
    · rwa [and_iff_right hrow]
  · obtain ⟨e, hcheck, -⟩ := checkUpdate_eq_error h.lastUpdate_eq hrow
    refine ⟨_, store, files, update_of_checkUpdate hcheck, iff_of_false (by simp) hrow, rfl, rfl,
      ?_, ?_⟩
    · rwa [accept, if_neg hrow]
    · exact iff_of_false (by simp [rewritten_self]) fun hboth => hrow hboth.1

/-- All updates. Of the periods that the accepted ones make, the first one ends without a
rewriting. -/
theorem updateAll (h : Fills store files kept) (hpositive : 0 < store.header.rows.toNat)
    (hbound : 2 * store.header.rows.toNat < numberBound) (updates : List SeriesRow) :
    ∃ store' files', store.updateAll files updates = (store', files') ∧
      store'.path = store.path ∧ store'.header = store.header ∧
      Fills store' files' (updates.foldl (accept store.header.fields.length) kept) ∧
      kept.length / store.header.rows.toNat - 1 + store.rewrites files updates =
        (updates.foldl (accept store.header.fields.length) kept).length /
          store.header.rows.toNat - 1 := by
  induction updates generalizing store files kept with
  | nil => exact ⟨store, files, rfl, rfl, rfl, h, rfl⟩
  | cons row updates ih =>
    obtain ⟨result, store₁, files₁, hupdate, -, hpath, hheader, hfills, hrewritten⟩ :=
      h.update hpositive hbound row
    rw [← hheader] at hpositive hbound
    obtain ⟨store', files', hrun, hpath', hheader', hfills', hcount⟩ := ih hfills hpositive hbound
    rw [hheader] at hfills' hcount hpositive
    refine ⟨store', files', ?_, hpath'.trans hpath, hheader'.trans hheader, hfills', ?_⟩
    · rw [SeriesStore.updateAll, List.foldl_cons, hupdate]
      exact hrun
    · rw [List.foldl_cons, ← hcount, rewrites, hupdate, ← Nat.add_assoc]
      congr 1
      simp only [hrewritten]
      unfold accept
      by_cases hrow : Follows store.header.fields.length kept row
      · rw [if_pos hrow, List.length_append, List.length_singleton, succ_div_sub_one hpositive]
        simp only [hrow, true_and]
      · rw [if_neg hrow, if_neg fun hboth => hrow hboth.1, Nat.add_zero]

end Fills

/-- A file is rewritten exactly when it is due. On files that do not fail, after any updates of a
new store of which `n` are accepted, the store counts just the rows of its file, which are the
newest of the accepted ones: `n` of them up to the capacity, and from then on the capacity and `n`
modulo the capacity, so there are never twice as many as are kept. By then the file was rewritten
once for each full capacity of accepted updates but the first. A further update is accepted when it
follows the accepted ones, and it rewrites the file when it is accepted and completes the second or
a later such capacity. -/
theorem rewritten_when_due {fields : List SeriesField} {step : Span} {capacity : UInt64}
    (hcreate : create files path fields step capacity = .ok (store, files'))
    (hbound : 2 * capacity.toNat < numberBound)
    (hsecond : files.isDirectory (compactionPath path) = false) (updates : List SeriesRow) :
    let kept := accepted fields.length updates
    let n := kept.length
    let count := if n < capacity.toNat then n else capacity.toNat + n % capacity.toNat
    ∃ store' files'' header rows, store.updateAll files' updates = (store', files'') ∧
      newHeader fields step capacity = .ok header ∧
      files''.readText path = .ok (print { header, rows }) ∧
      (lines (print { header, rows }).toList).length = 1 + count ∧
      rows <:+ kept ∧ rows.length = count ∧ store'.stored = count ∧
      count < 2 * capacity.toNat ∧
      store.rewrites files' updates = n / capacity.toNat - 1 ∧
      ∀ row : SeriesRow, ∃ result after afterFiles,
        store'.update files'' row.timestamp row.values = (result, after, afterFiles) ∧
        (result = .ok () ↔ Follows fields.length kept row) ∧
        (rewritten path files'' afterFiles = true ↔ Follows fields.length kept row ∧
          2 * capacity.toNat ≤ n + 1 ∧ capacity.toNat ∣ n + 1) := by
  intro kept n count
  obtain ⟨hpath, hnone, hnew, hdisk⟩ := onDisk_create hcreate hsecond
  obtain ⟨hpositive, hheader⟩ := newHeader_eq_ok hnew
  obtain rfl : store.header.rows = capacity := by rw [hheader]
  obtain rfl : store.header.fields = fields := by rw [hheader]
  have hfills : Fills store files' [] := by
    refine ⟨⟨[], hdisk, List.suffix_rfl, ?_⟩, hnone, List.Pairwise.nil⟩
    exact (if_pos hpositive).symm
  obtain ⟨store', files'', hrun, hpath', hheader', hafter, hcount⟩ :=
    hfills.updateAll hpositive hbound updates
  obtain ⟨rows, hdisk', hsuffix, hlength⟩ := hafter.exists_rows
  have htext := Files.readText_eq_ok hdisk'.opens hdisk'.content_eq
  rw [hpath', hpath, hheader'] at htext
  rw [hheader'] at hlength
  refine ⟨store', files'', store.header, rows, hrun, hnew, htext, ?_, hsuffix, hlength, ?_,
    rowsAfter_lt hpositive n, ?_, ?_⟩
  · rw [lines_print, List.length_cons, List.length_map, hlength, Nat.add_comm]
    rfl
  · rw [hdisk'.stored_eq, hlength]
    rfl
  · rwa [List.length_nil, Nat.zero_div, Nat.zero_add] at hcount
  · intro row
    rw [← hheader'] at hpositive hbound
    obtain ⟨result, after, afterFiles, hupdate, hresult, -, -, -, hrewritten⟩ :=
      hafter.update hpositive hbound row
    rw [hpath', hpath, hheader'] at hrewritten
    rw [hheader'] at hresult
    exact ⟨result, after, afterFiles, hupdate, hresult, hrewritten⟩

/-- Five updates of a store that keeps one row. One is refused, and three of the others rewrite the
file. -/
theorem rewritten_when_due_single :
    ∃ store files', create Files.empty "n.series" [⟨"tx", .counter⟩] (Span.ofSeconds 5) 1 =
        .ok (store, files') ∧
      2 * (1 : UInt64).toNat < numberBound ∧
      Files.empty.isDirectory (compactionPath "n.series") = false ∧
      ∃ store' files'' header,
        store.updateAll files' [⟨1, [5]⟩, ⟨2, [6]⟩, ⟨2, [7]⟩, ⟨3, [8]⟩, ⟨9, [9]⟩] =
          (store', files'') ∧
        files''.readText "n.series" = .ok (print { header, rows := [⟨9, [9]⟩] }) ∧
        store'.stored = 1 ∧
        store.rewrites files' [⟨1, [5]⟩, ⟨2, [6]⟩, ⟨2, [7]⟩, ⟨3, [8]⟩, ⟨9, [9]⟩] = 3 := by
  have hcreate : ∃ store files',
      create Files.empty "n.series" [⟨"tx", .counter⟩] (Span.ofSeconds 5) 1 =
        .ok (store, files') := ⟨_, _, rfl⟩
  obtain ⟨store, files', hcreate⟩ := hcreate
  have hbound : 2 * (1 : UInt64).toNat < numberBound := by decide
  have hsecond : Files.empty.isDirectory (compactionPath "n.series") = false := by decide
  have haccepted : accepted 1 [⟨1, [5]⟩, ⟨2, [6]⟩, ⟨2, [7]⟩, ⟨3, [8]⟩, ⟨9, [9]⟩] =
      [⟨1, [5]⟩, ⟨2, [6]⟩, ⟨3, [8]⟩, ⟨9, [9]⟩] := by decide
  obtain ⟨store', files'', header, rows, hrun, -, htext, -, hsuffix, hlength, hstored, -, hcount,
    -⟩ := rewritten_when_due hcreate hbound hsecond
      [⟨1, [5]⟩, ⟨2, [6]⟩, ⟨2, [7]⟩, ⟨3, [8]⟩, ⟨9, [9]⟩]
  rw [List.length_singleton, haccepted] at hsuffix hlength hstored hcount
  obtain rfl : rows = [⟨9, [9]⟩] := by
    rw [List.suffix_iff_eq_drop.mp hsuffix, hlength]
    rfl
  exact ⟨store, files', hcreate, hbound, hsecond, store', files'', header, hrun, htext, hstored,
    hcount⟩

end SeriesStore

end FleetTelemetry
