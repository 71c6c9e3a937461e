import FleetTelemetry.Proofs.Series.Refusals

/-!
# What a series store keeps

The file of a store holds a header and rows of which the newest are the newest accepted updates. An
accepted update appends its row, and the compaction that may follow drops only rows that are read
no more; a rejected update changes nothing.
-/

namespace FleetTelemetry

open SeriesData

namespace SeriesRow

/-- A row may follow others: it has a value for each field, and it is later than the last one. -/
def Follows (arity : Nat) (rows : List SeriesRow) (row : SeriesRow) : Prop :=
  row.values.length = arity ∧ ∀ last ∈ rows.getLast?, last.timestamp < row.timestamp

instance (arity : Nat) (rows : List SeriesRow) (row : SeriesRow) :
    Decidable (Follows arity rows row) :=
  inferInstanceAs (Decidable (_ ∧ _))

def accept (arity : Nat) (rows : List SeriesRow) (row : SeriesRow) : List SeriesRow :=
  if Follows arity rows row then rows ++ [row] else rows

/-- The updates of a sequence that are accepted: each follows those accepted before it. -/
def accepted (arity : Nat) (updates : List SeriesRow) : List SeriesRow :=
  updates.foldl (accept arity) []

end SeriesRow

namespace SeriesStore

open SeriesRow

/-- A store and its files after some updates, whatever they return. -/
def updateAll (store : SeriesStore) (files : Files) (updates : List SeriesRow) :
    SeriesStore × Files :=
  updates.foldl (fun state row => (state.1.update state.2 row.timestamp row.values).2)
    (store, files)

variable {store store' : SeriesStore} {files files' : Files} {path : String}
  {kept : List SeriesRow}

/-- The newest rows in the file of a store are the newest ones accepted, and the file has room for
another row. -/
structure Keeps (store : SeriesStore) (files : Files) (kept : List SeriesRow) : Prop where
  exists_rows : ∃ rows, OnDisk store files rows ∧
    rows.length < 2 * store.header.rows.toNat ∧
    newest store.header.rows.toNat rows = newest store.header.rows.toNat kept
  lastUpdate_eq : store.lastUpdate = kept.getLast?.map (·.timestamp)

theorem update_of_checkUpdate {timestamp : UInt64} {values : List UInt64} {e : StoreError}
    (h : store.checkUpdate timestamp values = .error e) :
    store.update files timestamp values = (.error e, store, files) := by
  rw [update, h]

private theorem update_arity {row : SeriesRow}
    (h : row.values.length ≠ store.header.fields.length) :
    store.update files row.timestamp row.values =
      (.error (.arity store.header.fields.length row.values.length), store, files) := by
  apply update_of_checkUpdate
  rw [checkUpdate, if_pos h]

theorem checkUpdate_eq_ok {row : SeriesRow}
    (hlast : store.lastUpdate = kept.getLast?.map (·.timestamp))
    (hrow : Follows store.header.fields.length kept row) :
    store.checkUpdate row.timestamp row.values = .ok () := by
  obtain ⟨hvalues, hlater⟩ := hrow
  rw [checkUpdate, if_neg (not_not_intro hvalues), hlast]
  cases hlast : kept.getLast? with
  | none => rfl
  | some last =>
    have htime : ¬ row.timestamp ≤ last.timestamp := UInt64.not_le.mpr (hlater last hlast)
    exact if_neg htime

theorem checkUpdate_eq_error {row : SeriesRow}
    (hlast : store.lastUpdate = kept.getLast?.map (·.timestamp))
    (hrow : ¬ Follows store.header.fields.length kept row) :
    ∃ e, store.checkUpdate row.timestamp row.values = .error e ∧ ∀ fault, e ≠ .files fault := by
  by_cases hvalues : row.values.length = store.header.fields.length
  · have hstale : ∃ last ∈ kept.getLast?, row.timestamp ≤ last.timestamp := by
      apply Classical.byContradiction
      intro hnone
      apply hrow
      refine ⟨hvalues, fun last hlast => ?_⟩
      exact UInt64.not_le.mp fun htime => hnone ⟨last, hlast, htime⟩
    obtain ⟨last, hmem, htime⟩ := hstale
    refine ⟨.stale row.timestamp last.timestamp, ?_, nofun⟩
    rw [checkUpdate, if_neg (not_not_intro hvalues), hlast, Option.mem_def.mp hmem]
    exact if_pos htime
  · refine ⟨.arity store.header.fields.length row.values.length, ?_, nofun⟩
    rw [checkUpdate, if_pos hvalues]

theorem newest_append_congr {capacity : Nat} {rows : List SeriesRow}
    (h : newest capacity rows = newest capacity kept) (row : SeriesRow) :
    newest capacity (rows ++ [row]) = newest capacity (kept ++ [row]) := by
  rw [← newest_newest_append, h, newest_newest_append]

theorem Holds.exists_read {rows : List SeriesRow} (h : Holds store files rows)
    (hnewest : newest store.header.rows.toNat rows = newest store.header.rows.toNat kept) :
    ∃ data, read files store.path = .ok data ∧ data.header = store.header ∧ data.rows <:+ kept ∧
      data.rows.length = min store.header.rows.toNat kept.length := by
  refine ⟨_, h.read_eq, rfl, ?_, ?_⟩
  · rw [hnewest]
    exact newest_suffix _ kept
  · rw [hnewest, length_newest]

namespace Keeps

variable {row : SeriesRow}

private theorem update_stale (h : Keeps store files kept)
    (hvalues : row.values.length = store.header.fields.length) {last : SeriesRow}
    (hlast : last ∈ kept.getLast?) (htime : row.timestamp ≤ last.timestamp) :
    store.update files row.timestamp row.values =
      (.error (.stale row.timestamp last.timestamp), store, files) := by
  have hupdate : store.lastUpdate = some last.timestamp := by
    rw [h.lastUpdate_eq, Option.mem_def.mp hlast]
    rfl
  apply update_of_checkUpdate
  rw [checkUpdate, if_neg (not_not_intro hvalues), hupdate]
  exact if_pos htime

private theorem update_unchanged (h : Keeps store files kept)
    (hrow : ¬ Follows store.header.fields.length kept row) :
    (store.update files row.timestamp row.values).2 = (store, files) := by
  obtain ⟨e, hcheck, -⟩ := checkUpdate_eq_error h.lastUpdate_eq hrow
  rw [update_of_checkUpdate hcheck]

/-- An update that follows the accepted ones is kept, whether the file is compacted after it or
not. -/
theorem exists_update (h : Keeps store files kept)
    (hbound : 2 * store.header.rows.toNat < numberBound)
    (hrow : Follows store.header.fields.length kept row) :
    ∃ store' files', store.update files row.timestamp row.values = (.ok (), store', files') ∧
      store'.path = store.path ∧ store'.header = store.header ∧
      Keeps store' files' (kept ++ [row]) := by
  obtain ⟨rows, hdisk, hroom, hnewest⟩ := h.exists_rows
  have hcheck := checkUpdate_eq_ok h.lastUpdate_eq hrow
  obtain ⟨store', files', rows', hupdate, hafter, hdisk', houtcome⟩ :=
    hdisk.exists_update hbound hrow.1 hcheck
  refine ⟨store', files', hupdate, hafter.path_eq, hafter.header_eq, ⟨rows', hdisk', ?_, ?_⟩,
    hafter.lastUpdate_eq_getLast? kept⟩
  · rw [hafter.header_eq]
    refine houtcome.length_lt (by omega) ?_
    rw [hdisk.stored_eq, List.length_append, List.length_singleton]
  · rw [hafter.header_eq, houtcome.newest_eq]
    exact newest_append_congr hnewest row

theorem update (h : Keeps store files kept) (hbound : 2 * store.header.rows.toNat < numberBound)
    (row : SeriesRow) :
    ∃ store' files', (store.update files row.timestamp row.values).2 = (store', files') ∧
      store'.path = store.path ∧ store'.header = store.header ∧
      Keeps store' files' (accept store.header.fields.length kept row) := by
  by_cases hrow : Follows store.header.fields.length kept row
  · obtain ⟨store', files', hupdate, hpath, hheader, hkeeps⟩ := h.exists_update hbound hrow
    refine ⟨store', files', by rw [hupdate], hpath, hheader, ?_⟩
    rwa [accept, if_pos hrow]
  · refine ⟨store, files, h.update_unchanged hrow, rfl, rfl, ?_⟩
    rwa [accept, if_neg hrow]

theorem updateAll (h : Keeps store files kept)
    (hbound : 2 * store.header.rows.toNat < numberBound) (updates : List SeriesRow) :
    ∃ store' files', store.updateAll files updates = (store', files') ∧
      store'.path = store.path ∧ store'.header = store.header ∧
      Keeps store' files' (updates.foldl (accept store.header.fields.length) kept) := by
  induction updates generalizing store files kept with
  | nil => exact ⟨store, files, rfl, rfl, rfl, h⟩
  | cons row updates ih =>
    obtain ⟨store₁, files₁, hupdate, hpath, hheader, hkeeps⟩ := h.update hbound row
    rw [← hheader] at hbound
    obtain ⟨store', files', hrun, hpath', hheader', hkeeps'⟩ := ih hkeeps hbound
    rw [hheader] at hkeeps'
    refine ⟨store', files', ?_, hpath'.trans hpath, hheader'.trans hheader, hkeeps'⟩
    rw [SeriesStore.updateAll, List.foldl_cons, hupdate]
    exact hrun

theorem exists_read (h : Keeps store files kept) :
    ∃ data, read files store.path = .ok data ∧ data.header = store.header ∧ data.rows <:+ kept ∧
      data.rows.length = min store.header.rows.toNat kept.length := by
  obtain ⟨rows, hdisk, -, hnewest⟩ := h.exists_rows
  exact hdisk.holds.exists_read hnewest

end Keeps

/-- The newest rows in the file of a store are the newest ones accepted, whether a compaction is
possible or not. -/
structure Recalls (store : SeriesStore) (files : Files) (kept : List SeriesRow) : Prop where
  exists_rows : ∃ rows, Holds store files rows ∧
    newest store.header.rows.toNat rows = newest store.header.rows.toNat kept
  lastUpdate_eq : store.lastUpdate = kept.getLast?.map (·.timestamp)

namespace Recalls

theorem update (h : Recalls store files kept) {row : SeriesRow}
    (hrow : Follows store.header.fields.length kept row) :
    ∃ store' files', (store.update files row.timestamp row.values).2 = (store', files') ∧
      store'.path = store.path ∧ store'.header = store.header ∧
      Recalls store' files' (kept ++ [row]) := by
  obtain ⟨rows, hholds, hnewest⟩ := h.exists_rows
  have hcheck := checkUpdate_eq_ok h.lastUpdate_eq hrow
  obtain ⟨result, store', files', rows', hupdate, hafter, houtcome⟩ :=
    hholds.updateUnless_spec hrow.1 hcheck none
  refine ⟨store', files', congrArg Prod.snd hupdate, hafter.path_eq, hafter.header_eq,
    ⟨rows', hafter.holds, ?_⟩, hafter.lastUpdate_eq_getLast? kept⟩
  rw [hafter.header_eq, houtcome.newest_eq]
  exact newest_append_congr hnewest row

theorem updateAll (h : Recalls store files kept) {rows : List SeriesRow}
    (hvalues : ∀ row ∈ rows, row.values.length = store.header.fields.length)
    (htimes : (kept ++ rows).Pairwise fun earlier later => earlier.timestamp < later.timestamp) :
    ∃ store' files', store.updateAll files rows = (store', files') ∧
      store'.path = store.path ∧ store'.header = store.header ∧
      Recalls store' files' (kept ++ rows) := by
  induction rows generalizing store files kept with
  | nil => exact ⟨store, files, rfl, rfl, rfl, by rwa [List.append_nil]⟩
  | cons row rows ih =>
    have hfollows : Follows store.header.fields.length kept row := by
      refine ⟨hvalues row List.mem_cons_self, fun last hlast => ?_⟩
      exact (List.pairwise_append.mp htimes).2.2 last (List.mem_of_getLast? hlast) row
        List.mem_cons_self
    obtain ⟨store₁, files₁, hupdate, hpath, hheader, hrecalls⟩ := h.update hfollows
    rw [List.append_cons] at htimes ⊢
    obtain ⟨store', files', hrun, hpath', hheader', hafter⟩ := ih hrecalls
      (fun other hother => hheader ▸ hvalues other (List.mem_cons_of_mem row hother)) htimes
    refine ⟨store', files', ?_, hpath'.trans hpath, hheader'.trans hheader, hafter⟩
    rw [SeriesStore.updateAll, List.foldl_cons, hupdate]
    exact hrun

theorem create {fields : List SeriesField} {step : Span} {capacity : UInt64}
    (h : SeriesStore.create files path fields step capacity = .ok (store, files')) :
    store.path = path ∧ newHeader fields step capacity = .ok store.header ∧
      Recalls store files' [] := by
  obtain ⟨hpath, hnone, -, hheader, -, -, hholds⟩ := holds_create h
  exact ⟨hpath, hheader, ⟨[], hholds, rfl⟩, hnone⟩

theorem read_eq (h : Recalls store files kept) :
    read files store.path =
      .ok { header := store.header, rows := newest store.header.rows.toNat kept } := by
  obtain ⟨rows, hholds, hnewest⟩ := h.exists_rows
  rw [hholds.read_eq, hnewest]

end Recalls

theorem newHeader_eq_ok {fields : List SeriesField} {step : Span} {capacity : UInt64}
    {header : SeriesHeader} (h : newHeader fields step capacity = .ok header) :
    0 < capacity.toNat ∧
      header =
        { step := UInt64.ofNat (max 1 step.seconds)
          heartbeat := UInt64.ofNat (2 * max 1 step.seconds)
          rows := capacity
          fields } := by
  simp only [newHeader] at h
  split at h
  case isTrue => cases h
  case isFalse hcapacity =>
    split at h
    case isTrue => cases h
    case isFalse =>
      obtain rfl := Except.ok.inj h
      refine ⟨?_, rfl⟩
      apply Nat.pos_of_ne_zero
      intro hzero
      exact hcapacity (UInt64.toNat_inj.mp hzero)

/-- The retention law. On files that do not fail, which is to say that no directory stands in the
way of the second file, an update succeeds when it follows the updates that were accepted before it
and is refused without any change when it does not. What is read back is the header that the store
was made with and, oldest first, as many of the accepted updates as there is room for, up to the
last one. -/
theorem retains_newest_accepted {fields : List SeriesField} {step : Span} {capacity : UInt64}
    (hcreate : create files path fields step capacity = .ok (store, files'))
    (hbound : 2 * capacity.toNat < numberBound)
    (hsecond : files.isDirectory (compactionPath path) = false) (updates : List SeriesRow) :
    ∃ store' files'', store.updateAll files' updates = (store', files'') ∧
      store'.lastUpdate = (accepted fields.length updates).getLast?.map (·.timestamp) ∧
      (∃ data, read files'' path = .ok data ∧
        data.header =
          { step := UInt64.ofNat (max 1 step.seconds)
            heartbeat := UInt64.ofNat (2 * max 1 step.seconds)
            rows := capacity
            fields } ∧
        data.rows <:+ accepted fields.length updates ∧
        data.rows.length = min capacity.toNat (accepted fields.length updates).length) ∧
      ∀ row : SeriesRow,
        (row.values.length ≠ fields.length →
          store'.update files'' row.timestamp row.values =
            (.error (.arity fields.length row.values.length), store', files'')) ∧
        (row.values.length = fields.length →
          ∀ last ∈ (accepted fields.length updates).getLast?, row.timestamp ≤ last.timestamp →
            store'.update files'' row.timestamp row.values =
              (.error (.stale row.timestamp last.timestamp), store', files'')) ∧
        (Follows fields.length (accepted fields.length updates) row →
          (store'.update files'' row.timestamp row.values).1 = .ok ()) := by
  obtain ⟨hpath, hnone, hnew, hdisk⟩ := onDisk_create hcreate hsecond
  obtain ⟨hpositive, hheader⟩ := newHeader_eq_ok hnew
  have hrows : store.header.rows = capacity := by rw [hheader]
  have hfields : store.header.fields = fields := by rw [hheader]
  have hkeeps : Keeps store files' [] := by
    refine ⟨⟨[], hdisk, ?_, rfl⟩, hnone⟩
    rw [hrows, List.length_nil]
    omega
  rw [← hrows] at hbound
  obtain ⟨store', files'', hrun, hpath', hheader', hafter⟩ := hkeeps.updateAll hbound updates
  obtain ⟨data, hread, hdata, hsuffix, hlength⟩ := hafter.exists_read
  rw [hfields] at hafter hsuffix hlength
  rw [← hheader'] at hbound hrows hfields
  rw [hrows] at hlength
  rw [hpath', hpath] at hread
  rw [hheader', hheader] at hdata
  refine ⟨store', files'', hrun, hafter.lastUpdate_eq, ⟨data, hread, hdata, hsuffix, hlength⟩, ?_⟩
  intro row
  rw [← hfields] at hafter ⊢
  refine ⟨?_, ?_, ?_⟩
  · exact fun hvalues => update_arity hvalues
  · exact fun hvalues last hlast htime => hafter.update_stale hvalues hlast htime
  · intro hrow
    obtain ⟨_, _, hupdate, -⟩ := hafter.exists_update hbound hrow
    rw [hupdate]

/-- A store with room for one row after four updates, of which two are refused. -/
theorem retains_newest_accepted_single :
    ∃ store files', create Files.empty "n.series" [⟨"\"tx\"", .counter⟩] (Span.ofSeconds 5) 1 =
        .ok (store, files') ∧
      2 * (1 : UInt64).toNat < numberBound ∧
      Files.empty.isDirectory (compactionPath "n.series") = false ∧
      ∃ store' files'' data,
        store.updateAll files' [⟨1, [5]⟩, ⟨1, [6]⟩, ⟨2, [7]⟩, ⟨3, [8, 9]⟩] = (store', files'') ∧
        read files'' "n.series" = .ok data ∧ data.rows = [⟨2, [7]⟩] := by
  have hcreate : ∃ store files',
      create Files.empty "n.series" [⟨"\"tx\"", .counter⟩] (Span.ofSeconds 5) 1 =
        .ok (store, files') := ⟨_, _, rfl⟩
  obtain ⟨store, files', hcreate⟩ := hcreate
  have hbound : 2 * (1 : UInt64).toNat < numberBound := by decide
  have hsecond : Files.empty.isDirectory (compactionPath "n.series") = false := by decide
  have haccepted : accepted 1 [⟨1, [5]⟩, ⟨1, [6]⟩, ⟨2, [7]⟩, ⟨3, [8, 9]⟩] =
      [⟨1, [5]⟩, ⟨2, [7]⟩] := by decide
  obtain ⟨store', files'', hrun, -, ⟨data, hread, -, hsuffix, hlength⟩, -⟩ :=
    retains_newest_accepted hcreate hbound hsecond
      [⟨1, [5]⟩, ⟨1, [6]⟩, ⟨2, [7]⟩, ⟨3, [8, 9]⟩]
  refine ⟨store, files', hcreate, hbound, hsecond, store', files'', data, hrun, hread, ?_⟩
  rw [List.length_singleton, haccepted] at hsuffix hlength
  have hone : data.rows.length = 1 := by rw [hlength]; rfl
  rw [List.suffix_iff_eq_drop.mp hsuffix, hone]
  rfl

end SeriesStore

end FleetTelemetry
