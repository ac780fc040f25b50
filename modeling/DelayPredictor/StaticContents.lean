import DelayPredictor.Lib.Runs
import DelayPredictor.StaticRequirements

/-!
# What refreshes leave in the static tables

`ingest_static_feed` seen as a whole, through its batches, statements and faults.

* `FeedRows`, `Frames.rows` — the rows a feed proposes for the seven tables.
* `StaticTables.apply` — what they make of the tables: six are upserted, one is replaced.
* `ingestStaticFeed_eq` — **a committed refresh applies the rows of its feed**, whatever
  its batches; one that raises applies nothing.
* `refreshes_leave` — **after any history of refreshes** a key holds the row of the last
  committed feed that has it, and the stop times are those of the last committed feed.
-/

namespace DelayPredictor

open Batches Keyed Raising Runs Stats Transaction

/-! ## The rows of a feed -/

/-- The rows proposed for each table. -/
structure FeedRows where
  agencies : List Agency
  routes : List Route
  stops : List Stop
  trips : List Trip
  calendar : List Calendar
  calendarDates : List CalendarDate
  stopTimes : List StopTime
  deriving DecidableEq, Repr

/-- The rows the loops over the records of a feed make. -/
def Frames.rows (frames : Frames) : Except PyError FeedRows := do
  return {
    agencies := ← collect (each agencyRow) frames.agency
    routes := ← collect (each routeRow) frames.routes
    stops := ← collect stopRow frames.stops
    trips := ← collect (each tripRow) frames.trips
    calendar := ← collect (each calendarRow) frames.calendar
    calendarDates := ← collect (each calendarDateRow) (frames.calendarDates.getD [])
    stopTimes := ← collect stopTimeRow frames.stopTimes }

/-- Each loop makes its rows. -/
theorem rows_eq_ok_iff {frames : Frames} {rows : FeedRows} :
    frames.rows = .ok rows ↔
      collect (each agencyRow) frames.agency = .ok rows.agencies ∧
      collect (each routeRow) frames.routes = .ok rows.routes ∧
      collect stopRow frames.stops = .ok rows.stops ∧
      collect (each tripRow) frames.trips = .ok rows.trips ∧
      collect (each calendarRow) frames.calendar = .ok rows.calendar ∧
      collect (each calendarDateRow) (frames.calendarDates.getD []) = .ok rows.calendarDates ∧
      collect stopTimeRow frames.stopTimes = .ok rows.stopTimes := by
  simp only [Frames.rows, bind_eq_ok_iff, pure_eq_ok_iff]
  constructor
  · rintro ⟨_, h₁, _, h₂, _, h₃, _, h₄, _, h₅, _, h₆, _, h₇, rfl⟩
    exact ⟨h₁, h₂, h₃, h₄, h₅, h₆, h₇⟩
  · rintro ⟨h₁, h₂, h₃, h₄, h₅, h₆, h₇⟩
    exact ⟨_, h₁, _, h₂, _, h₃, _, h₄, _, h₅, _, h₆, _, h₇, rfl⟩

/-- What the rows of a feed make of the tables. -/
def StaticTables.apply (T : StaticTables) (rows : FeedRows) : StaticTables where
  agencies := T.agencies.putAll rows.agencies
  routes := T.routes.putAll rows.routes
  stops := T.stops.putAll rows.stops
  trips := T.trips.putAll rows.trips
  calendar := T.calendar.putAll rows.calendar
  calendarDates := T.calendarDates.putAll rows.calendarDates
  stopTimes := Table.empty.putAll rows.stopTimes

/-! ## Loading one table -/

/-- The tables a session sees. -/
abbrev tablesIn (s : Session StaticDb) : StaticTables := s.working.toStaticTables

section Load

variable {κ ν : Type} [DecidableEq κ] {M : TableModel κ ν} {refs : StaticTables → ν → Prop}
  (faults : Faults StaticError)

/-- A statement that succeeds upserts its chunk. -/
theorem insert_eq_ok {chunk : List ν} {db db' : StaticDb} (h : M.insert chunk db = .ok db') :
    db'.toStaticTables =
      M.replace db.toStaticTables ((M.table db.toStaticTables).putAll chunk) := by
  unfold TableModel.insert at h
  split at h
  · split at h
    · cases hup : (M.table db.toStaticTables).upsert chunk with
      | none => simp [hup] at h
      | some table =>
        simp only [hup] at h
        have hnd : (chunk.map M.upsert.key).Nodup := by
          by_contra hdup
          rw [(Table.upsert_eq_none_iff _ _).2 hdup] at hup
          cases hup
        rw [Table.upsert_eq_some _ hnd] at hup
        rw [StaticDb.toStaticTables_of_check h, ← Option.some.inj hup]
    · cases h
  · cases h

/-- **A loop over the batches** upserts the rows. -/
theorem post_upsert (hM : M.Lawful refs) (rows : List ν) {n : ℕ} (hn : 0 < n)
    (s : Session StaticDb) :
    Post (upsert faults M rows n)
      (fun _ s' => tablesIn s' = M.replace (tablesIn s) ((M.table (tablesIn s)).putAll rows))
      (fun _ _ => True) s := by
  -- The rows that are left, proposed to the table as it is, complete it.
  refine post_forM (I := fun cs s' =>
    M.replace (tablesIn s') ((M.table (tablesIn s')).putAll cs.flatten) =
      M.replace (tablesIn s) ((M.table (tablesIn s)).putAll rows)) ?_ ?_ ?_
  · intro chunk cs s' h
    apply post_send
    intro w hw
    show M.replace w.toStaticTables ((M.table w.toStaticTables).putAll cs.flatten) = _
    rw [insert_eq_ok hw, hM.table_replace, hM.replace_replace, ← Table.putAll_append, ← h,
      List.flatten_cons]
  · intro s' h
    rw [← h, List.flatten_nil, Table.putAll_nil, hM.replace_table]
  · show M.replace (tablesIn s) ((M.table (tablesIn s)).putAll (chunks n rows).flatten) = _
    rw [flatten_chunks hn]

/-- Converting the records of a file and upserting them. -/
theorem post_load (hM : M.Lawful refs) (body : Record → Except PyError (Option ν))
    (records : List Record) (s : Session StaticDb) :
    Post (load faults M body records)
      (fun _ s' => ∃ rows, collect body records = .ok rows ∧
        tablesIn s' = M.replace (tablesIn s) ((M.table (tablesIn s)).putAll rows))
      (fun _ _ => True) s := by
  refine post_bind (post_raising (fun rows hrows => ?_) fun _ _ => trivial)
  exact (post_upsert faults hM rows (by omega) s).imp
    (fun _ s' h => ⟨rows, mapError_eq_ok_iff.1 hrows, h⟩) fun _ _ h => h

end Load

/-! ## The whole ingest -/

section Ingest

variable (isPoint : XFloat → XFloat → Bool) (faults : Faults StaticError)

/-- A row that is inserted is put. -/
theorem insertStopTime_tables {db db' : StaticDb} {r : StopTime}
    (h : insertStopTime db r = .ok db') :
    db'.toStaticTables = { db.toStaticTables with stopTimes := db.stopTimes.put r } := by
  unfold insertStopTime at h
  split at h
  · split at h
    · cases h
    · exact StaticDb.toStaticTables_of_check h
  · cases h

theorem insertStopTimes_tables {chunk : List StopTime} {db db' : StaticDb}
    (h : insertStopTimes chunk db = .ok db') :
    db'.toStaticTables = { db.toStaticTables with stopTimes := db.stopTimes.putAll chunk } := by
  induction chunk generalizing db with
  | nil =>
    cases h
    rfl
  | cons r rs ih =>
    obtain ⟨db₁, h₁, h₂⟩ := bind_eq_ok_iff.1 h
    rw [ih h₂, insertStopTime_tables h₁]
    rfl

/-- **The wipe and the chunks** replace the stop times. -/
theorem post_replaceStopTimes_tables (records : List Record) (s : Session StaticDb) :
    Post (replaceStopTimes faults records)
      (fun _ s' => ∃ rows, collect stopTimeRow records = .ok rows ∧
        tablesIn s' = { tablesIn s with stopTimes := Table.empty.putAll rows })
      (fun _ _ => True) s := by
  apply post_bind
  apply post_send
  intro w hw
  refine post_bind (post_raising (fun rows hrows => ?_) fun _ _ => trivial)
  refine post_forM (I := fun cs s' =>
    { tablesIn s' with stopTimes := (tablesIn s').stopTimes.putAll cs.flatten } =
      { tablesIn s with stopTimes := Table.empty.putAll rows }) ?_ ?_ ?_
  · intro chunk cs s' h
    apply post_send
    intro w' hw'
    have htables := insertStopTimes_tables hw'
    show { w'.toStaticTables with stopTimes := w'.stopTimes.putAll cs.flatten } = _
    rw [show w'.stopTimes = s'.working.stopTimes.putAll chunk from
      congrArg StaticTables.stopTimes htables, htables, ← Table.putAll_append,
      ← List.flatten_cons, ← h]
  · intro s' h
    exact ⟨rows, mapError_eq_ok_iff.1 hrows, h⟩
  · cases hw
    show { tablesIn s with stopTimes := Table.empty.putAll (chunks 5000 rows).flatten } = _
    rw [flatten_chunks (by omega)]

/-- **What an ingest that ends normally makes of the tables.** -/
theorem post_ingestFrames_tables (frames : Frames) (s : Session StaticDb) :
    Post (ingestFrames isPoint faults frames)
      (fun _ s' => ∃ rows, frames.rows = .ok rows ∧ tablesIn s' = (tablesIn s).apply rows)
      (fun _ _ => True) s := by
  refine post_bind ((post_load faults agencyModel_lawful _ _ s).imp ?_ fun _ _ h => h)
  rintro _ s₁ ⟨agencies, hagencies, h₁⟩
  refine post_bind ((post_load faults routeModel_lawful _ _ s₁).imp ?_ fun _ _ h => h)
  rintro _ s₂ ⟨routes, hroutes, h₂⟩
  refine post_bind ((post_load faults (stopModel_lawful isPoint) _ _ s₂).imp ?_ fun _ _ h => h)
  rintro _ s₃ ⟨stops, hstops, h₃⟩
  refine post_bind ((post_load faults tripModel_lawful _ _ s₃).imp ?_ fun _ _ h => h)
  rintro _ s₄ ⟨trips, htrips, h₄⟩
  refine post_bind ((post_load faults calendarModel_lawful _ _ s₄).imp ?_ fun _ _ h => h)
  rintro _ s₅ ⟨calendar, hcalendar, h₅⟩
  rw [h₁] at h₂
  rw [h₂] at h₃
  rw [h₃] at h₄
  rw [h₄] at h₅
  -- The rest, from whatever the exceptions of the calendar have made of the tables.
  have htail : ∀ (s₆ : Session StaticDb) (calendarDates : List CalendarDate),
      collect (each calendarDateRow) (frames.calendarDates.getD []) = .ok calendarDates →
      tablesIn s₆ = { tablesIn s₅ with
        calendarDates := (tablesIn s₅).calendarDates.putAll calendarDates } →
      Post (do
        replaceStopTimes faults frames.stopTimes
        send faults .ok)
        (fun _ s' => ∃ rows, frames.rows = .ok rows ∧ tablesIn s' = (tablesIn s).apply rows)
        (fun _ _ => True) s₆ := by
    intro s₆ calendarDates hdates h₆
    refine post_bind ((post_replaceStopTimes_tables faults _ s₆).imp ?_ fun _ _ h => h)
    rintro _ s₇ ⟨stopTimes, hstopTimes, h₇⟩
    apply post_send
    rintro w hw
    cases hw
    refine ⟨⟨agencies, routes, stops, trips, calendar, calendarDates, stopTimes⟩, ?_, ?_⟩
    · exact rows_eq_ok_iff.2 ⟨hagencies, hroutes, hstops, htrips, hcalendar, hdates, hstopTimes⟩
    · show tablesIn s₇ = _
      rw [h₇, h₆, h₅]
      rfl
  cases hdates : frames.calendarDates with
  | none =>
    rw [hdates] at htail
    exact htail s₅ [] rfl rfl
  | some records =>
    rw [hdates] at htail
    refine post_bind ((post_load faults calendarDateModel_lawful _ _ s₅).imp ?_ fun _ _ h => h)
    rintro _ s₆ ⟨calendarDates, hrows, h₆⟩
    exact htail s₆ calendarDates hrows h₆

/-- The rows of a feed, and what it leaves once it is committed. -/
structure Applied (payload : Except StaticError Archive) (rows : FeedRows) (T T' : StaticTables) :
    Prop where
  /-- The rows are those of the feed. -/
  feed : ∃ frames, payload >>= parseZip = .ok frames ∧ frames.rows = .ok rows
  tables : T' = T.apply rows
  /-- No two stop times of the feed share a key. -/
  stopTimes : T'.stopTimes.data = rows.stopTimes

/-- **A refresh applies the rows of its feed, or changes nothing.** -/
theorem ingestStaticFeed_eq (payload : Except StaticError Archive) (db : StaticDb) :
    match ingestStaticFeed isPoint faults payload db with
    | (.ok _, db') => ∃ rows, Applied payload rows db.toStaticTables db'.toStaticTables
    | (.error _, db') => db' = db := by
  unfold ingestStaticFeed
  cases hframes : payload >>= parseZip with
  | error e => rfl
  | ok frames =>
    show match run faults (ingestFrames isPoint faults frames) db with
      | (.ok _, db') => _
      | (.error _, db') => _
    rcases hrun : run faults (ingestFrames isPoint faults frames) db with ⟨result, db'⟩
    cases result with
    | error e => exact run_error (leavesCommitted_ingestFrames _ _ _) hrun
    | ok _ =>
      obtain ⟨s, hs, rfl⟩ := run_ok hrun
      obtain ⟨rows, hrows, htables⟩ := (post_ingestFrames_tables isPoint faults frames _).of_ok hs
      have hstopTimes := (post_ingestFrames isPoint faults frames _).of_ok hs
      have hcollect := (rows_eq_ok_iff.1 hrows).2.2.2.2.2.2
      exact ⟨rows, ⟨frames, hframes, hrows⟩, htables, Except.ok.inj (hstopTimes.symm.trans hcollect)⟩

end Ingest

/-! ## Histories of refreshes -/

/-- One refresh: which of its statements fail, and what it downloads. -/
abbrev Refresh := Faults StaticError × Except StaticError Archive

section Histories

variable (isPoint : XFloat → XFloat → Bool)

/-- A refresh as the database sees it. -/
def refresh (db : StaticDb) (r : Refresh) : StaticDb := (ingestStaticFeed isPoint r.1 r.2 db).2

/-- The rows of the feed of a refresh that commits. -/
def committedRows (db : StaticDb) (r : Refresh) : Option FeedRows :=
  match (ingestStaticFeed isPoint r.1 r.2 db).1, r.2 >>= parseZip with
  | .ok _, .ok frames => frames.rows.toOption
  | _, _ => none

/-- The rows of the feeds that a history commits, in order. -/
def committedFeeds : StaticDb → List Refresh → List FeedRows
  | _, [] => []
  | db, r :: rs => (committedRows isPoint db r).toList ++ committedFeeds (refresh isPoint db r) rs

/-- The row proposed last for a key. -/
def lastRow {κ ν : Type} [DecidableEq κ] (U : Upsert κ ν) (rows : List ν) (k : κ) : Option ν :=
  (rows.filter fun v => U.key v = k).getLast?

/-- Of some rows of a table, all those of a key among them, it is the row it holds. -/
theorem lastRow_eq_contents {κ ν : Type} [DecidableEq κ] {U : Upsert κ ν} (T : Table U)
    {rows : List ν} {k : κ} (hrows : ∀ v ∈ rows, v ∈ T.data)
    (hall : ∀ v ∈ T.data, U.key v = k → v ∈ rows) : lastRow U rows k = T.contents k := by
  cases hc : T.contents k with
  | none =>
    have hnil : (rows.filter fun v => U.key v = k) = [] := by
      rw [List.filter_eq_nil_iff]
      intro v hv
      obtain ⟨r, hr, rfl⟩ := List.mem_map.1 (hrows v hv)
      simpa using T.contents_eq_none_iff.1 hc r hr
    rw [lastRow, hnil]
    rfl
  | some d =>
    have hd : d ∈ T.data := T.mem_data_of_contents hc
    have hkey : U.key d = k := T.key_of_contents hc
    have hmem : d ∈ rows.filter fun v => U.key v = k :=
      List.mem_filter.2 ⟨hall d hd hkey, by simpa using hkey⟩
    have hlast := List.getLast_mem (List.ne_nil_of_mem hmem)
    obtain ⟨hlast, hlastKey⟩ := List.mem_filter.1 hlast
    rw [lastRow, List.getLast?_eq_some_getLast (List.ne_nil_of_mem hmem), Option.some.injEq]
    exact List.inj_on_of_nodup_map T.data_keys_nodup (hrows _ hlast) hd
      ((of_decide_eq_true hlastKey).trans hkey.symm)

/-- What a list of feeds leaves: of each key the last row there is of it, and the stop
times of the last feed alone. -/
structure LeftBy (feeds : List FeedRows) (T T' : StaticTables) : Prop where
  agencies : ∀ k, T'.agencies.contents k =
    (lastRow Agency.upsert (feeds.flatMap (·.agencies)) k).or (T.agencies.contents k)
  routes : ∀ k, T'.routes.contents k =
    (lastRow Route.upsert (feeds.flatMap (·.routes)) k).or (T.routes.contents k)
  stops : ∀ k, T'.stops.contents k =
    (lastRow Stop.upsert (feeds.flatMap (·.stops)) k).or (T.stops.contents k)
  trips : ∀ k, T'.trips.contents k =
    (lastRow Trip.upsert (feeds.flatMap (·.trips)) k).or (T.trips.contents k)
  calendar : ∀ k, T'.calendar.contents k =
    (lastRow Calendar.upsert (feeds.flatMap (·.calendar)) k).or (T.calendar.contents k)
  calendarDates : ∀ k, T'.calendarDates.contents k =
    (lastRow CalendarDate.upsert (feeds.flatMap (·.calendarDates)) k).or
      (T.calendarDates.contents k)
  stopTimes : T'.stopTimes.data = (feeds.getLast?.map (·.stopTimes)).getD T.stopTimes.data

/-- What one refresh does. -/
theorem refresh_eq (db : StaticDb) (r : Refresh) :
    match committedRows isPoint db r with
    | some rows => Applied r.2 rows db.toStaticTables (refresh isPoint db r).toStaticTables
    | none => refresh isPoint db r = db := by
  have h := ingestStaticFeed_eq isPoint r.1 r.2 db
  unfold committedRows refresh
  rcases hrun : ingestStaticFeed isPoint r.1 r.2 db with ⟨result, db'⟩
  rw [hrun] at h
  cases result with
  | error e => exact h
  | ok _ =>
    obtain ⟨rows, happlied⟩ := h
    obtain ⟨frames, hframes, hrows⟩ := happlied.feed
    simp only [hframes, hrows]
    exact happlied

/-- Feeds applied one after another are proposed one after another. -/
theorem foldl_apply (feeds : List FeedRows) (T : StaticTables) :
    let T' := feeds.foldl StaticTables.apply T
    T'.agencies = T.agencies.putAll (feeds.flatMap (·.agencies)) ∧
      T'.routes = T.routes.putAll (feeds.flatMap (·.routes)) ∧
      T'.stops = T.stops.putAll (feeds.flatMap (·.stops)) ∧
      T'.trips = T.trips.putAll (feeds.flatMap (·.trips)) ∧
      T'.calendar = T.calendar.putAll (feeds.flatMap (·.calendar)) ∧
      T'.calendarDates = T.calendarDates.putAll (feeds.flatMap (·.calendarDates)) := by
  induction feeds generalizing T with
  | nil => exact ⟨rfl, rfl, rfl, rfl, rfl, rfl⟩
  | cons rows feeds ih =>
    obtain ⟨h₁, h₂, h₃, h₄, h₅, h₆⟩ := ih (T.apply rows)
    simp only [List.flatMap_cons, Table.putAll_append]
    exact ⟨h₁, h₂, h₃, h₄, h₅, h₆⟩

/-- The tables after a history, and the stop times as they are stored. -/
theorem replay_refresh (db : StaticDb) (history : List Refresh) :
    let feeds := committedFeeds isPoint db history
    let after := replay (refresh isPoint) db history
    after.toStaticTables = feeds.foldl StaticTables.apply db.toStaticTables ∧
      after.stopTimes.data = (feeds.getLast?.map (·.stopTimes)).getD db.stopTimes.data := by
  induction history generalizing db with
  | nil => exact ⟨rfl, rfl⟩
  | cons r rs ih =>
    have hone := refresh_eq isPoint db r
    obtain ⟨htables, hstopTimes⟩ := ih (refresh isPoint db r)
    simp only [committedFeeds, replay_cons]
    cases hc : committedRows isPoint db r with
    | none =>
      rw [hc] at hone
      rw [hone] at htables hstopTimes ⊢
      exact ⟨htables, hstopTimes⟩
    | some rows =>
      rw [hc] at hone
      simp only [Option.toList_some, List.singleton_append, List.foldl_cons]
      refine ⟨by rw [htables, hone.tables], ?_⟩
      rw [hstopTimes, List.getLast?_cons, hone.stopTimes]
      cases (committedFeeds isPoint (refresh isPoint db r) rs).getLast? <;> rfl

/-- **What any history of refreshes leaves**, from any state and whichever of them
raise. -/
theorem refreshes_leave (db : StaticDb) (history : List Refresh) :
    LeftBy (committedFeeds isPoint db history) db.toStaticTables
      (replay (refresh isPoint) db history).toStaticTables := by
  obtain ⟨htables, hstopTimes⟩ := replay_refresh isPoint db history
  obtain ⟨h₁, h₂, h₃, h₄, h₅, h₆⟩ :=
    foldl_apply (committedFeeds isPoint db history) db.toStaticTables
  rw [← htables] at h₁ h₂ h₃ h₄ h₅ h₆
  refine ⟨?_, ?_, ?_, ?_, ?_, ?_, hstopTimes⟩
  · intro k
    rw [h₁]
    exact Table.contents_putAll_last _ Agency.upsert_replaces _ k
  · intro k
    rw [h₂]
    exact Table.contents_putAll_last _ Route.upsert_replaces _ k
  · intro k
    rw [h₃]
    exact Table.contents_putAll_last _ Stop.upsert_replaces _ k
  · intro k
    rw [h₄]
    exact Table.contents_putAll_last _ Trip.upsert_replaces _ k
  · intro k
    rw [h₅]
    exact Table.contents_putAll_last _ Calendar.upsert_replaces _ k
  · intro k
    rw [h₆]
    exact Table.contents_putAll_last _ CalendarDate.upsert_replaces _ k

/-! ## A feed that is ingested again -/

/-- The rows of every table are the same, under the same numbers. -/
structure StaticTables.SameRows (T T' : StaticTables) : Prop where
  agencies : T.agencies.rows = T'.agencies.rows
  routes : T.routes.rows = T'.routes.rows
  stops : T.stops.rows = T'.stops.rows
  trips : T.trips.rows = T'.trips.rows
  calendar : T.calendar.rows = T'.calendar.rows
  calendarDates : T.calendarDates.rows = T'.calendarDates.rows
  stopTimes : T.stopTimes.rows = T'.stopTimes.rows

/-- Rows that are applied again change nothing. -/
theorem sameRows_apply_apply (T : StaticTables) (rows : FeedRows) :
    ((T.apply rows).apply rows).SameRows (T.apply rows) where
  agencies := Table.putAll_putAll_rows _ ⟨fun _ _ _ => rfl, fun _ => rfl⟩ _
  routes := Table.putAll_putAll_rows _ ⟨fun _ _ _ => rfl, fun _ => rfl⟩ _
  stops := Table.putAll_putAll_rows _ ⟨fun _ _ _ => rfl, fun _ => rfl⟩ _
  trips := Table.putAll_putAll_rows _ ⟨fun _ _ _ => rfl, fun _ => rfl⟩ _
  calendar := Table.putAll_putAll_rows _ ⟨fun _ _ _ => rfl, fun _ => rfl⟩ _
  calendarDates := Table.putAll_putAll_rows _ ⟨fun _ _ _ => rfl, fun _ => rfl⟩ _
  stopTimes := rfl

/-- Two committed ingests of one feed. -/
theorem Applied.again {payload : Except StaticError Archive} {rows rows' : FeedRows}
    {T T' T'' : StaticTables} (h : Applied payload rows T T') (h' : Applied payload rows' T' T'') :
    T''.SameRows T' := by
  obtain ⟨frames, hframes, hrows⟩ := h.feed
  obtain ⟨frames', hframes', hrows'⟩ := h'.feed
  obtain rfl : frames = frames' := Except.ok.inj (hframes.symm.trans hframes')
  obtain rfl : rows = rows' := Except.ok.inj (hrows.symm.trans hrows')
  rw [h'.tables, h.tables]
  exact sameRows_apply_apply T rows

theorem StaticTables.SameRows.refl (T : StaticTables) : T.SameRows T :=
  ⟨rfl, rfl, rfl, rfl, rfl, rfl, rfl⟩

/-- **A feed that is ingested again changes nothing**, wherever the second ingest may
raise. -/
theorem reingested_sameRows {faults : Faults StaticError} {payload : Except StaticError Archive}
    {db db' : StaticDb} (h : ingestStaticFeed isPoint faults payload db = (.ok (), db'))
    (faults' : Faults StaticError) :
    (ingestStaticFeed isPoint faults' payload db').2.toStaticTables.SameRows db'.toStaticTables := by
  have hfirst := ingestStaticFeed_eq isPoint faults payload db
  have hagain := ingestStaticFeed_eq isPoint faults' payload db'
  rw [h] at hfirst
  obtain ⟨rows, happlied⟩ := hfirst
  rcases hrun : ingestStaticFeed isPoint faults' payload db' with ⟨result, db''⟩
  rw [hrun] at hagain
  cases result with
  | error e =>
    rw [show db'' = db' from hagain]
    exact .refl _
  | ok _ =>
    obtain ⟨rows', happlied'⟩ := hagain
    exact happlied.again happlied'

end Histories

/-- An agency, a route and a stop without trips, as an archive. -/
def smallArchive : Archive :=
  [("agency.txt", [[("agency_name", "TransLink")]]),
    ("routes.txt", [[("route_id", "M1"), ("route_type", "700")]]),
    ("stops.txt", [[("stop_id", "S1"), ("stop_name", "Roma Street"), ("stop_lat", "-27"),
      ("stop_lon", "153")]]),
    ("trips.txt", []), ("stop_times.txt", []), ("calendar.txt", [])]

/-- A night service that stops twice. -/
def nightArchive : Archive :=
  [("agency.txt", [[("agency_name", "TransLink")]]),
    ("routes.txt", [[("route_id", "N1"), ("route_type", "3")]]),
    ("stops.txt", [[("stop_id", "S1"), ("stop_name", "Roma Street"), ("stop_lat", "-27"),
      ("stop_lon", "153")], [("stop_id", "S2"), ("stop_name", "Toowong"), ("stop_lat", "-27"),
      ("stop_lon", "152")]]),
    ("trips.txt", [[("trip_id", "T1"), ("route_id", "N1"), ("service_id", "W")]]),
    ("stop_times.txt", [[("trip_id", "T1"), ("stop_sequence", "9"), ("stop_id", "S2"),
      ("arrival_time", "25:30:00"), ("departure_time", "25:31:00")], [("trip_id", "T1"),
      ("stop_sequence", "2"), ("stop_id", "S1"), ("arrival_time", "23:59:00"),
      ("departure_time", "24:00:00")]]),
    ("calendar.txt", [])]

/-- It is ingested again, and commits again. -/
theorem nightArchive_again :
    ∃ db, ingestStaticFeed (fun _ _ => true) noFaults (.ok nightArchive) StaticDb.empty =
        (.ok (), db) ∧
      (ingestStaticFeed (fun _ _ => true) noFaults (.ok nightArchive) db).1 = .ok () ∧
      (ingestStaticFeed (fun _ _ => true) noFaults (.ok nightArchive) db).2.toStaticTables.SameRows
        db.toStaticTables := by
  have hcommits : (ingestStaticFeed (fun _ _ => true) noFaults (.ok nightArchive)
      StaticDb.empty).1 = .ok () := by decide +kernel
  have hagain : (ingestStaticFeed (fun _ _ => true) noFaults (.ok nightArchive)
      (ingestStaticFeed (fun _ _ => true) noFaults (.ok nightArchive) StaticDb.empty).2).1 =
        .ok () := by decide +kernel
  rcases hrun : ingestStaticFeed (fun _ _ => true) noFaults (.ok nightArchive) StaticDb.empty
    with ⟨result, db⟩
  rw [hrun] at hcommits hagain
  obtain rfl : result = .ok () := hcommits
  exact ⟨db, rfl, hagain, reingested_sameRows _ hrun _⟩

end DelayPredictor
