import DelayPredictor.StaticRequirements

/-!
# Referential integrity of the static feed

When the ingest of a feed into an empty database commits.

* `Reads` for every file — which records its loop keeps, and their keys.
* `ingestFrames_settles` — **the ingest requires that the feed is loadable and
  linked**, and an exception tells which of the two it is not.
* `firstIngest_commits_iff` — of feeds that are linked as GTFS demands, it
  commits the loadable ones whose defaults and skipped stops leave no reference
  dangling.
-/

namespace DelayPredictor

open Keyed Raising Transaction Stats

/-! ## Keys of records -/

theorem item_eq_ok_iff {row : Record} {column value : String} :
    row.item column = .ok value ↔ row.get column = some value := by
  unfold Record.item
  cases row.get column <;> simp

/-- `row.get("agency_id") or "default"`. -/
def agencyKey (row : Record) : String := (row.cell "agency_id").getD "default"

/-- The key of a record of `calendar_dates.txt`. -/
def calendarDateKey (row : Record) : Option (String × PyTime.Date) := do
  return (← row.get "service_id", ← PyTime.strptimeYmd (← row.get "date"))

/-- The key of a record of `stop_times.txt`. -/
def stopTimeKey (row : Record) : Option (String × ℤ) := do
  return (← row.get "trip_id", ← PyNumber.pyInt (← row.get "stop_sequence"))

/-- Both coordinates are there. -/
def Record.located (row : Record) : Bool :=
  (row.cell "stop_lat").isSome && (row.cell "stop_lon").isSome

/-- A body that skips nothing. -/
theorem reads_each {κ ν : Type} {body : Record → Except PyError ν} {rowKey : ν → κ}
    {key : Record → Option κ} (h : ∀ {row v}, body row = .ok v → key row = some (rowKey v)) :
    Reads (each body) (fun _ => true) rowKey key where
  kept_iff hr := by
    obtain ⟨v, -, rfl⟩ := map_eq_ok_iff.1 hr
    rfl
  key_eq hv := by
    obtain ⟨v, hbody, hv⟩ := map_eq_ok_iff.1 hv
    rw [h hbody, Option.some.inj hv]

theorem agencyRow_columns {row : Record} {v : Agency} (h : agencyRow row = .ok v) :
    v.agencyId = agencyKey row := by
  cases h
  rfl

theorem routeRow_columns {row : Record} {v : Route} (h : routeRow row = .ok v) :
    row.get "route_id" = some v.routeId ∧ v.agencyId = some (agencyKey row) := by
  obtain ⟨routeId, hroute, h⟩ := bind_eq_ok_iff.1 h
  obtain ⟨routeType, -, h⟩ := bind_eq_ok_iff.1 h
  obtain rfl := pure_eq_ok_iff.1 h
  exact ⟨item_eq_ok_iff.1 hroute, rfl⟩

theorem tripRow_columns {row : Record} {v : Trip} (h : tripRow row = .ok v) :
    row.get "trip_id" = some v.tripId ∧ row.get "route_id" = some v.routeId := by
  obtain ⟨tripId, htrip, h⟩ := bind_eq_ok_iff.1 h
  obtain ⟨routeId, hroute, h⟩ := bind_eq_ok_iff.1 h
  obtain ⟨serviceId, -, h⟩ := bind_eq_ok_iff.1 h
  obtain ⟨directionId, -, h⟩ := bind_eq_ok_iff.1 h
  obtain rfl := pure_eq_ok_iff.1 h
  exact ⟨item_eq_ok_iff.1 htrip, item_eq_ok_iff.1 hroute⟩

theorem floatCell_isSome {row : Record} {column : String} {x : Option XFloat}
    (h : row.floatCell column = .ok x) : x.isSome = (row.cell column).isSome := by
  unfold Record.floatCell at h
  cases hc : row.cell column with
  | none =>
    rw [hc] at h
    cases h
    rfl
  | some value =>
    rw [hc] at h
    obtain ⟨y, -, rfl⟩ := map_eq_ok_iff.1 h
    rfl

theorem stopRow_kept {row : Record} {r : Option Stop} (h : stopRow row = .ok r) :
    r.isSome = row.located := by
  obtain ⟨lat, hlat, h⟩ := bind_eq_ok_iff.1 h
  obtain ⟨lon, hlon, h⟩ := bind_eq_ok_iff.1 h
  unfold Record.located
  rw [← floatCell_isSome hlat, ← floatCell_isSome hlon]
  cases lat with
  | none =>
    cases h
    rfl
  | some lat =>
    cases lon with
    | none =>
      cases h
      rfl
    | some lon =>
      obtain ⟨stopId, -, h⟩ := bind_eq_ok_iff.1 h
      obtain ⟨name, -, h⟩ := bind_eq_ok_iff.1 h
      obtain ⟨locationType, -, h⟩ := bind_eq_ok_iff.1 h
      obtain rfl := pure_eq_ok_iff.1 h
      rfl

theorem stopRow_columns {row : Record} {v : Stop} (h : stopRow row = .ok (some v)) :
    row.get "stop_id" = some v.stopId := by
  obtain ⟨lat, -, h⟩ := bind_eq_ok_iff.1 h
  obtain ⟨lon, -, h⟩ := bind_eq_ok_iff.1 h
  cases lat with
  | none => cases h
  | some lat =>
    cases lon with
    | none => cases h
    | some lon =>
      obtain ⟨stopId, hstop, h⟩ := bind_eq_ok_iff.1 h
      obtain ⟨name, -, h⟩ := bind_eq_ok_iff.1 h
      obtain ⟨locationType, -, h⟩ := bind_eq_ok_iff.1 h
      obtain rfl := Option.some.inj (pure_eq_ok_iff.1 h)
      exact item_eq_ok_iff.1 hstop

theorem toDate_eq_ok_iff {value : String} {d : PyTime.Date} :
    toDate value = .ok d ↔ PyTime.strptimeYmd value = some d := by
  unfold toDate
  cases PyTime.strptimeYmd value <;> simp

theorem toInt_eq_ok_iff {value : String} {n : ℤ} :
    toInt value = .ok n ↔ PyNumber.pyInt value = some n := by
  unfold toInt
  cases PyNumber.pyInt value <;> simp

theorem calendarRow_columns {row : Record} {v : Calendar} (h : calendarRow row = .ok v) :
    row.get "service_id" = some v.serviceId := by
  obtain ⟨serviceId, hservice, h⟩ := bind_eq_ok_iff.1 h
  simp only [bind_eq_ok_iff, pure_eq_ok_iff] at h
  obtain ⟨_, -, _, -, _, -, _, -, _, -, _, -, _, -, _, -, _, -, _, -, _, -, rfl⟩ := h
  exact item_eq_ok_iff.1 hservice

theorem calendarDateRow_columns {row : Record} {v : CalendarDate}
    (h : calendarDateRow row = .ok v) : calendarDateKey row = some (v.serviceId, v.date) := by
  obtain ⟨serviceId, hservice, h⟩ := bind_eq_ok_iff.1 h
  obtain ⟨date, hdate, h⟩ := bind_eq_ok_iff.1 h
  obtain ⟨d, hd, h⟩ := bind_eq_ok_iff.1 h
  obtain ⟨text, -, h⟩ := bind_eq_ok_iff.1 h
  obtain ⟨exceptionType, -, h⟩ := bind_eq_ok_iff.1 h
  obtain rfl := pure_eq_ok_iff.1 h
  unfold calendarDateKey
  rw [item_eq_ok_iff.1 hservice, item_eq_ok_iff.1 hdate]
  show (PyTime.strptimeYmd date >>= _) = _
  rw [toDate_eq_ok_iff.1 hd]
  rfl

theorem stopTimeOf_columns {row : Record} {v : StopTime} (h : stopTimeOf row = .ok v) :
    row.get "trip_id" = some v.tripId ∧ row.get "stop_id" = some v.stopId ∧
      stopTimeKey row = some (v.tripId, v.stopSequence) := by
  obtain ⟨tripId, htrip, h⟩ := bind_eq_ok_iff.1 h
  obtain ⟨text, htext, h⟩ := bind_eq_ok_iff.1 h
  obtain ⟨stopSequence, hseq, h⟩ := bind_eq_ok_iff.1 h
  obtain ⟨stopId, hstop, h⟩ := bind_eq_ok_iff.1 h
  simp only [bind_eq_ok_iff, pure_eq_ok_iff] at h
  obtain ⟨_, -, _, -, _, -, _, -, _, -, _, -, _, -, rfl⟩ := h
  refine ⟨item_eq_ok_iff.1 htrip, item_eq_ok_iff.1 hstop, ?_⟩
  unfold stopTimeKey
  rw [item_eq_ok_iff.1 htrip, item_eq_ok_iff.1 htext]
  show (PyNumber.pyInt text >>= _) = _
  rw [toInt_eq_ok_iff.1 hseq]
  rfl

theorem reads_agency :
    Reads (each agencyRow) (fun _ => true) Agency.upsert.key fun row => some (agencyKey row) :=
  reads_each fun h => congrArg some (agencyRow_columns h).symm

theorem reads_route :
    Reads (each routeRow) (fun _ => true) Route.upsert.key (·.get "route_id") :=
  reads_each fun h => (routeRow_columns h).1

theorem reads_stop : Reads stopRow Record.located Stop.upsert.key (·.get "stop_id") where
  kept_iff := stopRow_kept
  key_eq := stopRow_columns

theorem reads_trip : Reads (each tripRow) (fun _ => true) Trip.upsert.key (·.get "trip_id") :=
  reads_each fun h => (tripRow_columns h).1

theorem reads_calendar :
    Reads (each calendarRow) (fun _ => true) Calendar.upsert.key (·.get "service_id") :=
  reads_each calendarRow_columns

theorem reads_calendarDate :
    Reads (each calendarDateRow) (fun _ => true) CalendarDate.upsert.key calendarDateKey :=
  reads_each calendarDateRow_columns

theorem reads_stopTime : Reads stopTimeRow Record.timed StopTime.upsert.key stopTimeKey where
  kept_iff := stopTimeRow_isSome
  key_eq h := (stopTimeOf_columns (stopTimeRow_eq_some h)).2.2

/-! ## Feeds -/

/-- Every file can be loaded. -/
structure Frames.Loadable (isPoint : XFloat → XFloat → Bool) (frames : Frames) : Prop where
  agency : Loads Agency.fits (each agencyRow) (fun _ => true) (fun row => some (agencyKey row))
    frames.agency
  routes : Loads Route.fits (each routeRow) (fun _ => true) (·.get "route_id") frames.routes
  stops : Loads (Stop.fits isPoint) stopRow Record.located (·.get "stop_id") frames.stops
  trips : Loads Trip.fits (each tripRow) (fun _ => true) (·.get "trip_id") frames.trips
  calendar : Loads Calendar.fits (each calendarRow) (fun _ => true) (·.get "service_id")
    frames.calendar
  calendarDates : ∀ records ∈ frames.calendarDates,
    Loads CalendarDate.fits (each calendarDateRow) (fun _ => true) calendarDateKey records
  stopTimes : LoadsStopTimes stopTimeKey frames.stopTimes

/-- The value stands in the column of some record. -/
def Occurs (column : String) (records : List Record) (value : String) : Prop :=
  ∃ row ∈ records, row.get column = some value

instance (column : String) (records : List Record) (value : String) :
    Decidable (Occurs column records value) :=
  inferInstanceAs (Decidable (∃ row ∈ records, row.get column = some value))

/-- What the rows refer to is stored, once ids are defaulted and records
skipped. -/
structure Frames.Linked (frames : Frames) : Prop where
  route_agency : ∀ row ∈ frames.routes, agencyKey row ∈ frames.agency.map agencyKey
  trip_route : ∀ row ∈ frames.trips, ∀ id ∈ row.get "route_id",
    Occurs "route_id" frames.routes id
  stopTime_trip : ∀ row ∈ frames.stopTimes.filter Record.timed, ∀ id ∈ row.get "trip_id",
    Occurs "trip_id" frames.trips id
  stopTime_stop : ∀ row ∈ frames.stopTimes.filter Record.timed, ∀ id ∈ row.get "stop_id",
    Occurs "stop_id" (frames.stops.filter Record.located) id

theorem occurs_iff {column : String} {records : List Record} {value : String} :
    Occurs column records value ↔ some value ∈ records.map (·.get column) := by
  simp [Occurs]

/-- The keys of a table that was empty and to which a file was loaded. -/
theorem mem_keys_iff_occurs {ν : Type} {U : Upsert String ν} {table : Table U} {old : List String}
    {column : String} {records : List Record}
    (h : ∀ k, k ∈ table.keys ↔ k ∈ old ∨ some k ∈ records.map (·.get column)) (hold : old = [])
    (k : String) : k ∈ table.keys ↔ Occurs column records k := by
  rw [h, hold, occurs_iff]
  simp

/-- What the cells of a column have is what the values converted from it have. -/
theorem forall_cells_iff {ν : Type} {body : Record → Except PyError ν} {column : String}
    {f : ν → String} (hbody : ∀ {row v}, body row = .ok v → row.get column = some (f v))
    {records : List Record} {rows : List ν}
    (h : List.Forall₂ (fun row v => body row = .ok v) records rows) {P : String → Prop} :
    (∀ v ∈ rows, P (f v)) ↔ ∀ row ∈ records, ∀ id ∈ row.get column, P id := by
  have hcells : records.map (·.get column) = rows.map fun v => some (f v) :=
    map_eq_of_forall₂ h fun _ _ => hbody
  have hall : (∀ row ∈ records, ∀ id ∈ row.get column, P id) ↔
      ∀ cell ∈ records.map (·.get column), ∀ id ∈ cell, P id := by
    rw [List.forall_mem_map]
  rw [hall, hcells, List.forall_mem_map]
  simp

theorem each_eq_some {ν : Type} {body : Record → Except PyError ν} {row : Record} {v : ν}
    (h : each body row = .ok (some v)) : body row = .ok v := by
  obtain ⟨w, hw, hv⟩ := map_eq_ok_iff.1 h
  rw [hw, Option.some.inj hv]

/-- The references of the routes, in terms of the records. -/
theorem routes_refs_iff {records : List Record} {rows : List Route}
    (h : List.Forall₂ (fun row v => each routeRow row = .ok (some v)) records rows)
    {T : StaticTables} {held : List String} (hheld : ∀ k, k ∈ T.agencies.keys ↔ k ∈ held) :
    (∀ v ∈ rows, v.refs T) ↔ ∀ row ∈ records, agencyKey row ∈ held := by
  have hcells : records.map (fun row => some (agencyKey row)) = rows.map Route.agencyId :=
    map_eq_of_forall₂ h fun _ _ hrow => (routeRow_columns (each_eq_some hrow)).2.symm
  have hall : (∀ v ∈ rows, v.refs T) ↔
      ∀ cell ∈ rows.map Route.agencyId, ∀ k ∈ cell, k ∈ T.agencies.keys := by
    rw [List.forall_mem_map]
    rfl
  rw [hall, ← hcells, List.forall_mem_map]
  simp [hheld]

/-- The references of the trips, in terms of the records. -/
theorem trips_refs_iff {records : List Record} {rows : List Trip}
    (h : List.Forall₂ (fun row v => each tripRow row = .ok (some v)) records rows)
    {T : StaticTables} {held : String → Prop} (hheld : ∀ k, k ∈ T.routes.keys ↔ held k) :
    (∀ v ∈ rows, v.refs T) ↔ ∀ row ∈ records, ∀ id ∈ row.get "route_id", held id := by
  have hbody := h.imp fun _ _ => each_eq_some
  rw [← forall_cells_iff (fun h => (tripRow_columns h).2) hbody]
  exact forall₂_congr fun v _ => hheld v.routeId

/-- The references of the stop times, in terms of the records. -/
theorem stopTimes_refs_iff {records : List Record} {rows : List StopTime}
    (h : List.Forall₂ (fun row v => stopTimeRow row = .ok (some v)) records rows)
    {T : StaticTables} {heldTrip heldStop : String → Prop}
    (htrip : ∀ k, k ∈ T.trips.keys ↔ heldTrip k) (hstop : ∀ k, k ∈ T.stops.keys ↔ heldStop k) :
    (∀ v ∈ rows, v.refs T) ↔ (∀ row ∈ records, ∀ id ∈ row.get "trip_id", heldTrip id) ∧
      ∀ row ∈ records, ∀ id ∈ row.get "stop_id", heldStop id := by
  have hbody := h.imp fun _ _ => stopTimeRow_eq_some
  rw [← forall_cells_iff (fun h => (stopTimeOf_columns h).1) hbody,
    ← forall_cells_iff (fun h => (stopTimeOf_columns h).2.1) hbody, ← forall₂_and]
  exact forall₂_congr fun v _ => and_congr (htrip v.tripId) (hstop v.stopId)

/-- The trips and the stops a session holds are those of the feed. -/
structure HoldsFeed (frames : Frames) (T : StaticTables) : Prop where
  trips : ∀ k, k ∈ T.trips.keys ↔ Occurs "trip_id" frames.trips k
  stops : ∀ k, k ∈ T.stops.keys ↔ Occurs "stop_id" (frames.stops.filter Record.located) k

/-- The end of the ingest, once everything else was loaded. -/
theorem settles_rest {isPoint : XFloat → XFloat → Bool} {frames : Frames} {s : Session StaticDb}
    (hs : HoldsFeed frames s.working.toStaticTables)
    (hA : LoadsStopTimes stopTimeKey frames.stopTimes → frames.Loadable isPoint)
    (hL : (∀ row ∈ frames.stopTimes.filter Record.timed, ∀ id ∈ row.get "trip_id",
        Occurs "trip_id" frames.trips id) →
      (∀ row ∈ frames.stopTimes.filter Record.timed, ∀ id ∈ row.get "stop_id",
        Occurs "stop_id" (frames.stops.filter Record.located) id) → frames.Linked) :
    Settles StaticError.requirement (requires (frames.Loadable isPoint) frames.Linked)
      (outcome (do
        replaceStopTimes noFaults frames.stopTimes
        send noFaults .ok) s) (fun _ => True) := by
  rw [outcome_bind]
  refine settles_step (settles_replaceStopTimes reads_stopTime fun rows hrows =>
    stopTimes_refs_iff hrows hs.trips hs.stops) Frames.Loadable.stopTimes
    (fun h => ⟨h.stopTime_trip, h.stopTime_stop⟩) ?_
  intro p hloads hlinked _
  refine ⟨?_, trivial⟩
  intro k
  cases k with
  | loadable => exact hA hloads
  | linked => exact hL hlinked.1 hlinked.2

/-- **What the ingest of a feed into an empty database requires**: that the feed
is loadable and linked.  An exception tells which of the two it is not. -/
theorem ingestFrames_settles (isPoint : XFloat → XFloat → Bool) (frames : Frames) :
    Settles StaticError.requirement (requires (frames.Loadable isPoint) frames.Linked)
      (outcome (ingestFrames isPoint noFaults frames) (Session.start StaticDb.empty))
      (fun _ => True) := by
  -- Each file is loaded into a table that is empty; what it requires of the tables before it is
  -- said in terms of their records.
  unfold ingestFrames
  rw [outcome_bind]
  refine settles_step (settles_load agencyModel_lawful reads_agency (L := True) fun _ _ => by simp)
    Frames.Loadable.agency (fun _ => trivial) ?_
  rintro p₁ hA₁ - ⟨agencies, hT₁, hkeys₁⟩
  have hagencies : ∀ k, k ∈ p₁.2.working.agencies.keys ↔ k ∈ frames.agency.map agencyKey := by
    intro k
    rw [hT₁]
    show k ∈ agencies.keys ↔ _
    rw [hkeys₁, List.filter_true]
    simp [Session.start, StaticDb.empty, agencyModel]
  rw [outcome_bind]
  refine settles_step (settles_load routeModel_lawful reads_route ?_)
    Frames.Loadable.routes Frames.Linked.route_agency ?_
  · intro rows hrows
    rw [List.filter_true] at hrows
    exact routes_refs_iff hrows hagencies
  rintro p₂ hA₂ hL₂ ⟨routes, hT₂, hkeys₂⟩
  rw [hT₁] at hkeys₂ hT₂
  rw [List.filter_true] at hkeys₂
  have hroutes := mem_keys_iff_occurs hkeys₂ rfl
  rw [outcome_bind]
  refine settles_step (settles_load (stopModel_lawful isPoint) reads_stop (L := True)
    fun _ _ => by simp) Frames.Loadable.stops (fun _ => trivial) ?_
  rintro p₃ hA₃ - ⟨stops, hT₃, hkeys₃⟩
  rw [hT₂] at hkeys₃ hT₃
  have hstops := mem_keys_iff_occurs hkeys₃ rfl
  rw [outcome_bind]
  refine settles_step (settles_load tripModel_lawful reads_trip ?_)
    Frames.Loadable.trips Frames.Linked.trip_route ?_
  · intro rows hrows
    rw [List.filter_true] at hrows
    exact trips_refs_iff hrows (hT₃ ▸ hroutes)
  rintro p₄ hA₄ hL₄ ⟨trips, hT₄, hkeys₄⟩
  rw [hT₃] at hkeys₄ hT₄
  rw [List.filter_true] at hkeys₄
  have htrips := mem_keys_iff_occurs hkeys₄ rfl
  rw [outcome_bind]
  refine settles_step (settles_load calendarModel_lawful reads_calendar (L := True)
    fun _ _ => by simp) Frames.Loadable.calendar (fun _ => trivial) ?_
  rintro p₅ hA₅ - ⟨calendar, hT₅, -⟩
  rw [hT₄] at hT₅
  have hlinked := Frames.Linked.mk hL₂ hL₄
  cases hdates : frames.calendarDates with
  | none =>
    refine settles_rest (hT₅ ▸ ⟨htrips, hstops⟩) ?_ hlinked
    intro hA₇
    refine ⟨hA₁, hA₂, hA₃, hA₄, hA₅, ?_, hA₇⟩
    intro records hrecords
    simp [hdates] at hrecords
  | some records =>
    rw [outcome_bind]
    refine settles_step (settles_load calendarDateModel_lawful reads_calendarDate (L := True)
      fun _ _ => by simp) (fun h => h.calendarDates records hdates) (fun _ => trivial) ?_
    rintro p₆ hA₆ - ⟨calendarDates, hT₆, -⟩
    rw [hT₅] at hT₆
    refine settles_rest (hT₆ ▸ ⟨htrips, hstops⟩) ?_ hlinked
    intro hA₇
    refine ⟨hA₁, hA₂, hA₃, hA₄, hA₅, ?_, hA₇⟩
    intro records' hrecords
    rw [hdates] at hrecords
    obtain rfl := Option.some.inj hrecords
    exact hA₆

/-! ## Feeds that are linked as GTFS demands -/

/-- The references a feed must have: blank agency ids are for feeds with a
single agency. -/
structure Frames.WellLinked (frames : Frames) : Prop where
  route_agency : ∀ row ∈ frames.routes, ∀ id ∈ row.cell "agency_id",
    Occurs "agency_id" frames.agency id
  blank_agency : (∃ row ∈ frames.routes, row.cell "agency_id" = none) → frames.agency.length = 1
  trip_route : ∀ row ∈ frames.trips, ∀ id ∈ row.get "route_id",
    Occurs "route_id" frames.routes id
  stopTime_trip : ∀ row ∈ frames.stopTimes, ∀ id ∈ row.get "trip_id",
    Occurs "trip_id" frames.trips id
  stopTime_stop : ∀ row ∈ frames.stopTimes, ∀ id ∈ row.get "stop_id",
    Occurs "stop_id" frames.stops id

/-- The rows the code defaults or skips leave no other dangling: some agency is
stored as `default` if a route is given that agency, and the stops that are
stopped at have both coordinates. -/
structure Frames.KeepsReferents (frames : Frames) : Prop where
  default_agency : (∃ row ∈ frames.routes, row.cell "agency_id" = none) →
    ∃ a ∈ frames.agency, a.cell "agency_id" = none ∨ a.cell "agency_id" = some "default"
  located_stop : ∀ row ∈ frames.stopTimes, row.timed = true → ∀ id ∈ row.get "stop_id",
    ∃ stop ∈ frames.stops, stop.get "stop_id" = some id ∧ stop.located = true

/-- A cell that is not blank is what `get` gives. -/
theorem cell_eq_some_iff {row : Record} {column value : String} :
    row.cell column = some value ↔ row.get column = some value ∧ value ≠ "" := by
  unfold Record.cell
  cases row.get column with
  | none => simp
  | some text =>
    show orNone text = some value ↔ _
    unfold orNone
    by_cases ht : text = ""
    · subst ht
      simp
    · rw [if_neg ht, Option.some.injEq]
      refine ⟨?_, fun h => h.1⟩
      rintro rfl
      exact ⟨rfl, ht⟩

/-- The agencies of all routes are stored exactly when the default one is, if a
route is given it. -/
theorem Frames.WellLinked.route_agency_iff {frames : Frames} (h : frames.WellLinked) :
    (∀ row ∈ frames.routes, agencyKey row ∈ frames.agency.map agencyKey) ↔
      ((∃ row ∈ frames.routes, row.cell "agency_id" = none) →
        ∃ a ∈ frames.agency, a.cell "agency_id" = none ∨ a.cell "agency_id" = some "default") := by
  refine ⟨?_, ?_⟩
  · rintro hall ⟨row, hrow, hblank⟩
    obtain ⟨a, ha, hkey⟩ := List.mem_map.1 (hall row hrow)
    refine ⟨a, ha, ?_⟩
    unfold agencyKey at hkey
    rw [hblank] at hkey
    cases hcell : a.cell "agency_id" with
    | none => exact .inl rfl
    | some id =>
      rw [hcell] at hkey
      exact .inr (congrArg some hkey)
  · intro hdefault row hrow
    cases hcell : row.cell "agency_id" with
    | none =>
      obtain ⟨a, ha, hstored⟩ := hdefault ⟨row, hrow, hcell⟩
      refine List.mem_map.2 ⟨a, ha, ?_⟩
      unfold agencyKey
      rw [hcell]
      rcases hstored with h | h
      · rw [h]
      · rw [h, Option.getD_some, Option.getD_none]
    | some id =>
      obtain ⟨a, ha, hget⟩ := h.route_agency row hrow id hcell
      refine List.mem_map.2 ⟨a, ha, ?_⟩
      unfold agencyKey
      rw [hcell, cell_eq_some_iff.2 ⟨hget, (cell_eq_some_iff.1 hcell).2⟩]

/-- **A feed that is linked as GTFS demands** is linked in the database exactly
when its referents are kept. -/
theorem Frames.WellLinked.linked_iff {frames : Frames} (h : frames.WellLinked) :
    frames.Linked ↔ frames.KeepsReferents := by
  constructor
  · intro hl
    refine ⟨h.route_agency_iff.1 hl.route_agency, ?_⟩
    intro row hrow htimed id hid
    obtain ⟨stop, hstop, hget⟩ := hl.stopTime_stop row (List.mem_filter.2 ⟨hrow, htimed⟩) id hid
    rw [List.mem_filter] at hstop
    exact ⟨stop, hstop.1, hget, hstop.2⟩
  · intro hk
    refine ⟨h.route_agency_iff.2 hk.default_agency, h.trip_route, ?_, ?_⟩
    · intro row hrow
      exact h.stopTime_trip row (List.mem_of_mem_filter hrow)
    · intro row hrow id hid
      rw [List.mem_filter] at hrow
      obtain ⟨stop, hstop, hget, hlocated⟩ := hk.located_stop row hrow.1 hrow.2 id hid
      exact ⟨stop, List.mem_filter.2 ⟨hstop, hlocated⟩, hget⟩

/-- How the ingest of a feed into an empty database ends. -/
def firstIngest (isPoint : XFloat → XFloat → Bool) (frames : Frames) : Except StaticError Unit :=
  (run noFaults (ingestFrames isPoint noFaults frames) StaticDb.empty).1

theorem firstIngest_settles (isPoint : XFloat → XFloat → Bool) (frames : Frames) :
    Settles StaticError.requirement (requires (frames.Loadable isPoint) frames.Linked)
      (firstIngest isPoint frames) (fun _ => True) := by
  unfold firstIngest
  rw [run_noFaults]
  exact (ingestFrames_settles isPoint frames).map fun _ _ => trivial

theorem eq_foreignKeyViolation {e : StaticError} (h : e.requirement = .linked) :
    e = .statement .foreignKeyViolation := by
  unfold StaticError.requirement at h
  split at h
  · rfl
  · cases h

/-- **Of the feeds that are linked as GTFS demands**, the ingest into an empty
database commits the loadable ones whose referents are kept.  Without the latter
it violates a foreign key, and with it never. -/
theorem firstIngest_commits_iff (isPoint : XFloat → XFloat → Bool) (frames : Frames)
    (h : frames.WellLinked) :
    (firstIngest isPoint frames = .ok () ↔ frames.Loadable isPoint ∧ frames.KeepsReferents) ∧
    (frames.KeepsReferents →
      firstIngest isPoint frames ≠ .error (.statement .foreignKeyViolation)) ∧
    (frames.Loadable isPoint → ¬ frames.KeepsReferents →
      firstIngest isPoint frames = .error (.statement .foreignKeyViolation)) := by
  have hsettles := firstIngest_settles isPoint frames
  rw [h.linked_iff] at hsettles
  refine ⟨?_, ?_, ?_⟩
  · constructor
    · intro hok
      have hreq := hsettles.isOk_iff.1 ⟨(), hok⟩
      exact ⟨hreq .loadable, hreq .linked⟩
    · intro hreq
      have hmet : ∀ k, requires (frames.Loadable isPoint) frames.KeepsReferents k := by
        intro k
        cases k with
        | loadable => exact hreq.1
        | linked => exact hreq.2
      obtain ⟨_, hok⟩ := hsettles.isOk_iff.2 hmet
      exact hok
  · intro hkeeps herror
    exact hsettles.not_of_error herror hkeeps
  · intro hloadable hkeeps
    cases hresult : firstIngest isPoint frames with
    | ok _ => exact absurd (hsettles.isOk_iff.1 ⟨_, hresult⟩ .linked) hkeeps
    | error e =>
      have hnot := hsettles.not_of_error hresult
      cases hreq : e.requirement with
      | loadable =>
        rw [hreq] at hnot
        exact absurd hloadable hnot
      | linked => rw [eq_foreignKeyViolation hreq]

/-- A feed of a single agency, whose route leaves the agency out. -/
def oneAgencyFeed (agencyId : String) : Frames where
  agency := [[("agency_id", agencyId), ("agency_name", "TransLink"),
    ("agency_timezone", "Australia/Brisbane")]]
  routes := [[("route_id", "R1"), ("agency_id", ""), ("route_type", "3")]]
  stops := []
  trips := [[("route_id", "R1"), ("service_id", "S1"), ("trip_id", "T1")]]
  stopTimes := []
  calendar := []
  calendarDates := none

theorem oneAgencyFeed_wellLinked (agencyId : String) : (oneAgencyFeed agencyId).WellLinked where
  route_agency := by
    intro row hrow id hid
    obtain rfl := List.mem_singleton.1 hrow
    have hblank : Record.cell [("route_id", "R1"), ("agency_id", ""), ("route_type", "3")]
        "agency_id" = none := by decide
    rw [hblank] at hid
    cases hid
  blank_agency := fun _ => rfl
  trip_route := by
    intro row hrow id hid
    obtain rfl := List.mem_singleton.1 hrow
    exact ⟨_, List.mem_singleton_self _, hid⟩
  stopTime_trip := by simp [oneAgencyFeed]
  stopTime_stop := by simp [oneAgencyFeed]

/-- A single agency that has an id: the route refers to an agency `default`. -/
theorem namedAgency_dangles :
    (oneAgencyFeed "TL").WellLinked ∧
      firstIngest (fun _ _ => true) (oneAgencyFeed "TL") =
        .error (.statement .foreignKeyViolation) :=
  ⟨oneAgencyFeed_wellLinked "TL", by decide⟩

/-- A single agency without an id, which is stored as `default`. -/
theorem unnamedAgency_commits :
    firstIngest (fun _ _ => true) (oneAgencyFeed "") = .ok () ∧
      (oneAgencyFeed "").KeepsReferents := by
  have hok : firstIngest (fun _ _ => true) (oneAgencyFeed "") = .ok () := by decide +kernel
  have hiff := firstIngest_commits_iff (fun _ _ => true) (oneAgencyFeed "")
    (oneAgencyFeed_wellLinked "")
  exact ⟨hok, (hiff.1.1 hok).2⟩

/-- A stop without coordinates is skipped, and what is stopped at it is not. -/
example : firstIngest (fun _ _ => true) { oneAgencyFeed "" with
    stops := [[("stop_id", "S1"), ("stop_name", "Platform"), ("stop_lat", ""), ("stop_lon", "")]]
    stopTimes := [[("trip_id", "T1"), ("arrival_time", "08:00:00"), ("departure_time", "08:00:30"),
      ("stop_id", "S1"), ("stop_sequence", "1")]] } =
    .error (.statement .foreignKeyViolation) := by decide +kernel

end DelayPredictor
