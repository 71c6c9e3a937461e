import FleetTelemetry.Proofs.Series.Refusals
import FleetTelemetry.Proofs.Series.Retention

/-!
# Failed compactions

A compaction may be refused its second file at any update. The update is kept all the same, the
file stays as it was before the attempt, and every update after it attempts the compaction again
until one succeeds.
-/

namespace FleetTelemetry.SeriesStore

open SeriesData SeriesRow

/-- Updates one after another, each with the fault with which its compaction is refused, if it is,
and what they return. -/
def updateEach (store : SeriesStore) (files : Files) : List (Option FileFault × SeriesRow) →
    List (Except StoreError Unit) × SeriesStore × Files
  | [] => ([], store, files)
  | (refusal, row) :: calls =>
    let (result, store, files) := updateUnless refusal store files row.timestamp row.values
    let (results, store, files) := updateEach store files calls
    (result :: results, store, files)

/-- Whether a compaction is owed after an update: it is after one that failed with a fault of the
files, until one succeeds. -/
def owedAfter (owed : Bool) : Except StoreError Unit → Bool
  | .ok () => false
  | .error (.files _) => true
  | .error _ => owed

/-- Of some updates one failed with a fault of the files, and none has succeeded since. -/
def Owed (results : List (Except StoreError Unit)) : Prop :=
  results.foldl owedAfter false = true

variable {store store' : SeriesStore} {files files' : Files} {path : String}
  {kept rows appended : List SeriesRow} {row : SeriesRow} {capacity counted : Nat}
  {results : List (Except StoreError Unit)} {result : Except StoreError Unit}
  {fault? : Option FileFault}

private theorem not_owed_nil : ¬ Owed [] :=
  Bool.false_ne_true

/-- What is owed after one more update is a compaction that it failed in, or one that was owed
before and that it did not make good. -/
theorem Owed.of_concat (h : Owed (results ++ [result])) :
    (∃ fault, result = .error (.files fault)) ∨ Owed results ∧ result ≠ .ok () := by
  rw [Owed, List.foldl_append] at h
  cases result with
  | ok _ => cases h
  | error e =>
    cases e with
    | files fault => exact .inl ⟨fault, rfl⟩
    | _ => exact .inr ⟨h, nofun⟩

/-! ## What comes of one update -/

namespace Outcome

private theorem full_of_owed (h : Outcome capacity counted files appended fault? result files' rows)
    (hcounted : counted = appended.length)
    (hfull : Owed results → 2 * capacity < numberBound ∧ 2 * capacity ≤ counted)
    (howed : Owed (results ++ [result])) :
    2 * capacity < numberBound ∧ 2 * capacity ≤ rows.length := by
  cases h with
  | overflow =>
    rcases howed.of_concat with ⟨fault, hfault⟩ | ⟨hbefore, -⟩
    · cases hfault
    · exact hcounted ▸ hfull hbefore
  | failed hbound hlength => exact ⟨hbound, hcounted ▸ hlength⟩
  | _ =>
    rcases howed.of_concat with ⟨fault, hfault⟩ | ⟨-, hresult⟩
    · cases hfault
    · exact absurd rfl hresult

private theorem of_fault {fault : FileFault}
    (h : Outcome capacity counted files appended fault? (.error (.files fault)) files' rows) :
    fault? = some fault ∧ files' = files ∧ rows = appended := by
  cases h with
  | failed => exact ⟨rfl, rfl, rfl⟩

private theorem eq_error_of_full {fault : FileFault}
    (h : Outcome capacity counted files appended (some fault) result files' rows)
    (hbound : 2 * capacity < numberBound) (hfull : 2 * capacity ≤ counted) :
    result = .error (.files fault) := by
  cases h with
  | overflow h => exact absurd hbound (Nat.not_lt.mpr h)
  | early h => exact absurd hfull (Nat.not_le.mpr h)
  | failed => rfl

private theorem eq_newest_of_full
    (h : Outcome capacity counted files appended none result files' rows)
    (hbound : 2 * capacity < numberBound) (hfull : 2 * capacity ≤ counted) :
    result = .ok () ∧ rows = newest capacity appended := by
  cases h with
  | overflow h => exact absurd hbound (Nat.not_lt.mpr h)
  | early h => exact absurd hfull (Nat.not_le.mpr h)
  | compacted => exact ⟨rfl, rfl⟩

end Outcome

/-! ## All updates -/

/-- A store after some updates, of which some failed in their compaction. The file is full as long
as a compaction is owed. -/
structure Endures (store : SeriesStore) (files : Files) (kept : List SeriesRow)
    (results : List (Except StoreError Unit)) : Prop where
  exists_rows : ∃ rows, Holds store files rows ∧ store.stored = rows.length ∧
    newest store.header.rows.toNat rows = newest store.header.rows.toNat kept ∧
    (Owed results →
      2 * store.header.rows.toNat < numberBound ∧ 2 * store.header.rows.toNat ≤ rows.length)
  lastUpdate_eq : store.lastUpdate = kept.getLast?.map (·.timestamp)

namespace Endures

private theorem updateUnless_follows (h : Endures store files kept results)
    (hrow : Follows store.header.fields.length kept row) (refusal : Option FileFault) :
    ∃ result store' files' rows rows',
      SeriesStore.updateUnless refusal store files row.timestamp row.values =
        (result, store', files') ∧
      Endures store' files' (kept ++ [row]) (results ++ [result]) ∧
      Holds store files rows ∧ store.stored = rows.length ∧
      newest store.header.rows.toNat rows = newest store.header.rows.toNat kept ∧
      (Owed results →
        2 * store.header.rows.toNat < numberBound ∧ 2 * store.header.rows.toNat ≤ rows.length) ∧
      Updated store files rows row store' files' rows' ∧
      Outcome store.header.rows.toNat (store.stored + 1)
        (files.append store.content (String.ofList row.line)) (rows ++ [row])
        (secondFault refusal files store.path) result files' rows' := by
  obtain ⟨rows, hholds, hstored, hnewest, hfull⟩ := h.exists_rows
  have hcheck := checkUpdate_eq_ok h.lastUpdate_eq hrow
  obtain ⟨result, store', files', rows', hupdate, hafter, houtcome⟩ :=
    hholds.updateUnless_spec hrow.1 hcheck refusal
  have hcounted : store.stored + 1 = (rows ++ [row]).length := by
    rw [hstored, List.length_append, List.length_singleton]
  have hendures : Endures store' files' (kept ++ [row]) (results ++ [result]) := by
    refine ⟨⟨rows', hafter.holds, hafter.stored_eq hstored, ?_, ?_⟩,
      hafter.lastUpdate_eq_getLast? kept⟩
    · rw [hafter.header_eq, houtcome.newest_eq]
      exact newest_append_congr hnewest row
    · rw [hafter.header_eq]
      refine houtcome.full_of_owed hcounted fun howed => ?_
      obtain ⟨hbound, hlength⟩ := hfull howed
      exact ⟨hbound, by omega⟩
  exact ⟨result, store', files', rows, rows', hupdate, hendures, hholds, hstored, hnewest, hfull,
    hafter, houtcome⟩

theorem updateUnless (h : Endures store files kept results) (refusal : Option FileFault)
    (row : SeriesRow) :
    ∃ result store' files',
      updateUnless refusal store files row.timestamp row.values = (result, store', files') ∧
      store'.path = store.path ∧ store'.header = store.header ∧
      Endures store' files' (accept store.header.fields.length kept row)
        (results ++ [result]) := by
  by_cases hrow : Follows store.header.fields.length kept row
  · obtain ⟨result, store', files', _, _, hupdate, hendures, -, -, -, -, hafter, -⟩ :=
      h.updateUnless_follows hrow refusal
    rw [accept, if_pos hrow]
    exact ⟨result, store', files', hupdate, hafter.path_eq, hafter.header_eq, hendures⟩
  · obtain ⟨e, hcheck, hfiles⟩ := checkUpdate_eq_error h.lastUpdate_eq hrow
    rw [accept, if_neg hrow]
    refine ⟨_, store, files, updateUnless_of_checkUpdate hcheck, rfl, rfl, ?_, h.lastUpdate_eq⟩
    obtain ⟨rows, hholds, hstored, hnewest, hfull⟩ := h.exists_rows
    refine ⟨rows, hholds, hstored, hnewest, fun howed => ?_⟩
    rcases howed.of_concat with ⟨fault, hfault⟩ | ⟨hbefore, -⟩
    · exact absurd (Except.error.inj hfault) (hfiles fault)
    · exact hfull hbefore

private theorem updateEach (h : Endures store files kept results)
    (calls : List (Option FileFault × SeriesRow)) :
    ∃ more store' files', store.updateEach files calls = (more, store', files') ∧
      store'.path = store.path ∧ store'.header = store.header ∧
      Endures store' files' ((calls.map (·.2)).foldl (accept store.header.fields.length) kept)
        (results ++ more) := by
  induction calls generalizing store files kept results with
  | nil => exact ⟨[], store, files, rfl, rfl, rfl, by rwa [List.append_nil]⟩
  | cons call calls ih =>
    obtain ⟨refusal, row⟩ := call
    obtain ⟨result, store₁, files₁, hupdate, hpath, hheader, hendures⟩ := h.updateUnless refusal row
    obtain ⟨more, store', files', hrun, hpath', hheader', hafter⟩ := ih hendures
    rw [hheader, ← List.append_cons] at hafter
    refine ⟨result :: more, store', files', ?_, hpath'.trans hpath, hheader'.trans hheader, hafter⟩
    simp only [SeriesStore.updateEach, hupdate, hrun]

private theorem updateUnless_attempt (h : Endures store files kept results) {bytes : ByteArray}
    (hbytes : files.read store.path = .ok bytes)
    (hrow : Follows store.header.fields.length kept row) (refusal : Option FileFault) :
    ∃ result store' files',
      SeriesStore.updateUnless refusal store files row.timestamp row.values =
        (result, store', files') ∧
      store'.lastUpdate = some row.timestamp ∧
      (2 * store.header.rows.toNat < numberBound →
        result = .ok () ∨ ∃ fault, secondFault refusal files store.path = some fault ∧
          result = .error (.files fault)) ∧
      (∀ fault, result = .error (.files fault) →
        secondFault refusal files store.path = some fault ∧
        files'.read store.path = .ok (bytes ++ (String.ofList row.line).toUTF8)) ∧
      (Owed results →
        (∀ fault, secondFault refusal files store.path = some fault →
          result = .error (.files fault)) ∧
        (secondFault refusal files store.path = none → result = .ok () ∧
          ∃ rows, rows <:+ kept ++ [row] ∧ rows.length = store.header.rows.toNat ∧
            files'.read store.path = .ok (print { header := store.header, rows }).toUTF8)) := by
  obtain ⟨result, store', files', rows, rows', hupdate, -, hholds, hstored, hnewest, hfull, hafter,
    houtcome⟩ := h.updateUnless_follows hrow refusal
  have hbefore := Files.read_eq_ok hholds.opens hholds.content_eq
  have hread := Files.read_eq_ok hafter.holds.opens hafter.holds.content_eq
  rw [hafter.path_eq, hafter.header_eq] at hread
  obtain rfl := Except.ok.inj (hbytes.symm.trans hbefore)
  refine ⟨result, store', files', hupdate, hafter.lastUpdate_eq, houtcome.of_lt, ?_, ?_⟩
  · rintro fault rfl
    obtain ⟨hfault, -, rfl⟩ := houtcome.of_fault
    refine ⟨hfault, ?_⟩
    rw [hread, print_append]
    simp
  · intro howed
    -- the file is full, so the update attempts the compaction that is owed
    obtain ⟨hbound, hlength⟩ := hfull howed
    have hcounted : 2 * store.header.rows.toNat ≤ store.stored + 1 := by omega
    constructor
    · intro fault hfault
      rw [hfault] at houtcome
      exact houtcome.eq_error_of_full hbound hcounted
    · intro hfault
      rw [hfault] at houtcome
      obtain ⟨hresult, hrows⟩ := houtcome.eq_newest_of_full hbound hcounted
      refine ⟨hresult, rows', ?_, ?_, hread⟩
      · rw [hrows, newest_append_congr hnewest row]
        exact newest_suffix _ _
      · rw [hrows, length_newest, List.length_append]
        omega

theorem exists_read (h : Endures store files kept results) :
    ∃ data, read files store.path = .ok data ∧ data.header = store.header ∧ data.rows <:+ kept ∧
      data.rows.length = min store.header.rows.toNat kept.length := by
  obtain ⟨rows, hholds, -, hnewest, -⟩ := h.exists_rows
  exact hholds.exists_read hnewest

end Endures

/-- A failed compaction loses nothing. Whichever compactions are refused their second file, and with
which fault, what is read back after any updates is the header that the store was made with and as
many of the accepted updates as there is room for, up to the last one. A further update that follows
the accepted ones is accepted whatever it returns. It succeeds unless its compaction fails, or the
capacity is too large for one, and a fault of the files is that of the second file: only its row was
then added to the file. When a compaction has failed and no update succeeded since, it attempts the
compaction again, and if that succeeds, then the file holds exactly the newest rows. -/
theorem failed_compactions_lose_nothing {fields : List SeriesField} {step : Span}
    {capacity : UInt64} (hcreate : create files path fields step capacity = .ok (store, files'))
    (calls : List (Option FileFault × SeriesRow)) :
    let kept := accepted fields.length (calls.map (·.2))
    ∃ results store' files'' data bytes,
      store.updateEach files' calls = (results, store', files'') ∧
      store'.lastUpdate = kept.getLast?.map (·.timestamp) ∧
      read files'' path = .ok data ∧ newHeader fields step capacity = .ok data.header ∧
      data.rows <:+ kept ∧ data.rows.length = min capacity.toNat kept.length ∧
      files''.read path = .ok bytes ∧
      ∀ (refusal : Option FileFault) (row : SeriesRow), Follows fields.length kept row →
        ∃ result last after,
          updateUnless refusal store' files'' row.timestamp row.values = (result, last, after) ∧
          last.lastUpdate = some row.timestamp ∧
          (2 * capacity.toNat < numberBound →
            result = .ok () ∨ ∃ fault, secondFault refusal files'' path = some fault ∧
              result = .error (.files fault)) ∧
          (∀ fault, result = .error (.files fault) →
            secondFault refusal files'' path = some fault ∧
            after.read path = .ok (bytes ++ (String.ofList row.line).toUTF8)) ∧
          (Owed results →
            (∀ fault, secondFault refusal files'' path = some fault →
              result = .error (.files fault)) ∧
            (secondFault refusal files'' path = none → result = .ok () ∧
              ∃ rows, rows <:+ kept ++ [row] ∧ rows.length = capacity.toNat ∧
                after.read path = .ok (print { header := data.header, rows }).toUTF8)) := by
  intro kept
  obtain ⟨rfl, hnone, hstored, hnew, -, -, hholds⟩ := holds_create hcreate
  obtain ⟨-, hheader⟩ := newHeader_eq_ok hnew
  have hrows : store.header.rows = capacity := by rw [hheader]
  have hfields : store.header.fields = fields := by rw [hheader]
  have hendures : Endures store files' [] [] :=
    ⟨⟨[], hholds, hstored, rfl, fun howed => absurd howed not_owed_nil⟩, hnone⟩
  obtain ⟨results, store', files'', hrun, hpath', hheader', hafter⟩ := hendures.updateEach calls
  rw [hfields, List.nil_append] at hafter
  obtain ⟨data, hread, hdata, hsuffix, hlength⟩ := hafter.exists_read
  obtain ⟨rows, hholds', -⟩ := hafter.exists_rows
  have hbytes := Files.read_eq_ok hholds'.opens rfl
  refine ⟨results, store', files'', data, files''.content store'.content, hrun,
    hafter.lastUpdate_eq, ?_, ?_, hsuffix, ?_, ?_, ?_⟩
  · rw [← hpath', hread]
  · rw [hdata, hheader', hnew]
  · rw [hlength, hheader', hrows]
    rfl
  · rw [← hpath', hbytes]
  · intro refusal row hrow
    rw [← hfields, ← hheader'] at hrow
    have hattempt := hafter.updateUnless_attempt hbytes hrow refusal
    rw [hpath', hheader', hrows] at hattempt
    rwa [hdata, hheader']

/-- Four updates of which two fail in their compaction and one is refused between them. -/
def faultyCalls : List (Option FileFault × SeriesRow) :=
  [(none, ⟨1, [5]⟩), (some (.refused "disk full"), ⟨2, [7]⟩), (none, ⟨2, [6]⟩),
    (some .notFound, ⟨3, [9]⟩)]

theorem failed_compactions_lose_nothing_twice :
    ∃ store files', create Files.empty "n.series" [⟨"tx", .counter⟩] (Span.ofSeconds 5) 1 =
        .ok (store, files') ∧
      ∃ results store' files'', store.updateEach files' faultyCalls = (results, store', files'') ∧
        Owed results ∧ Follows 1 [⟨1, [5]⟩, ⟨2, [7]⟩, ⟨3, [9]⟩] ⟨4, [8]⟩ ∧
        ∃ header last after, updateUnless none store' files'' 4 [8] = (.ok (), last, after) ∧
          after.read "n.series" = .ok (print { header, rows := [⟨4, [8]⟩] }).toUTF8 := by
  have hrun : (create Files.empty "n.series" [⟨"tx", .counter⟩] (Span.ofSeconds 5) 1).toOption.map
      (fun made =>
        let (results, _, files) := made.1.updateEach made.2 faultyCalls
        (results.foldl owedAfter false, secondFault none files "n.series")) =
      some (true, none) := by decide +kernel
  obtain ⟨⟨store, files'⟩, hcreate, hafter⟩ := exists_of_toOption_map hrun
  obtain ⟨results, store', files'', data, bytes, hcalls, -, -, -, -, -, -, hattempt⟩ :=
    failed_compactions_lose_nothing hcreate faultyCalls
  simp only [hcalls, Prod.mk.injEq] at hafter
  obtain ⟨howed, hsecond⟩ := hafter
  have haccepted : accepted 1 (faultyCalls.map (·.2)) = [⟨1, [5]⟩, ⟨2, [7]⟩, ⟨3, [9]⟩] := by decide
  have hrow : Follows 1 [⟨1, [5]⟩, ⟨2, [7]⟩, ⟨3, [9]⟩] ⟨4, [8]⟩ := by decide
  rw [List.length_singleton, haccepted] at hattempt
  obtain ⟨result, last, after, hupdate, -, -, -, hretry⟩ := hattempt none ⟨4, [8]⟩ hrow
  obtain ⟨rfl, rows, hsuffix, hlength, hbytes⟩ := (hretry howed).2 hsecond
  obtain rfl : rows = [⟨4, [8]⟩] := by
    rw [List.suffix_iff_eq_drop.mp hsuffix, hlength]
    rfl
  exact ⟨store, files', hcreate, results, store', files'', hcalls, howed, hrow, data.header, last,
    after, hupdate, hbytes⟩

end FleetTelemetry.SeriesStore
