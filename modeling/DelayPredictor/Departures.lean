import DelayPredictor.Lib.Query
import DelayPredictor.Live
import DelayPredictor.PredictionCache
import DelayPredictor.StaticSchema

/-!
# Upcoming departures

`upcoming_departures` (`app/api/routes/stops.py`): the scheduled departures of a stop, each
with a realtime delay or a prediction.

* `departureJoin`, `DepartureQuery.selects` — the statement over the static tables.
* `LatestUpdate` — what `_latest_realtime_delay` may read.
* `departuresOf` — the loop over the rows, which goes through the prediction cache.
* `DeparturesAnswer` — one call: what it reads, and what it returns.
  `exists_answer_reading`: **every selected row can be among what it reads**, with any of
  its latest updates.
* `forall_departures_iff` — the rule for what every departure of every answer meets.

A call is made at one instant of UTC, over one state of the database.
-/

namespace DelayPredictor

open Keyed PyTime Query ReadThrough

/-! ## The statement -/

/-- A joined row of `stop_times`, `trips` and `routes`. -/
structure DepartureRow where
  stopTime : StopTime
  trip : Trip
  route : Route
  deriving DecidableEq, Repr

/-- The parameters of the endpoint.  The function is read at all of them, those out of the
bounds that its `Query(ge=…, le=…)` sets included. -/
structure DepartureQuery where
  stopId : String
  windowMinutes : ℕ
  limit : ℕ

/-- The join of the three tables. -/
def departureJoin (T : StaticDb) : List DepartureRow :=
  T.stopTimes.data.flatMap fun stopTime =>
    (T.trips.data.filter fun trip => trip.tripId = stopTime.tripId).flatMap fun trip =>
      (T.routes.data.filter fun route => route.routeId = trip.routeId).map fun route =>
        ⟨stopTime, trip, route⟩

/-- The midnight that begins the day of `now`. -/
def midnight (now : Instant) : Instant := days (dayOf now)

/-- `seconds_into_day`. -/
def secondsIntoDay (now : Instant) : ℤ :=
  hourOfDay now * 3600 + minuteOfHour now * 60 + secondOfMinute now

/-- `window_end_seconds`. -/
def DepartureQuery.windowEndSeconds (q : DepartureQuery) (now : Instant) : ℤ :=
  secondsIntoDay now + q.windowMinutes * 60

/-- The `WHERE` clauses. -/
def DepartureQuery.selects (q : DepartureQuery) (now : Instant) (row : DepartureRow) : Bool :=
  row.stopTime.stopId = q.stopId &&
    seconds (secondsIntoDay now) ≤ row.stopTime.departureTime &&
    row.stopTime.departureTime ≤ seconds (q.windowEndSeconds now)

/-- The selected rows. -/
def DepartureQuery.selected (q : DepartureQuery) (T : StaticDb) (now : Instant) :
    List DepartureRow :=
  (departureJoin T).filter (q.selects now)

/-- `ORDER BY stop_times.departure_time`. -/
def ByDeparture (a b : DepartureRow) : Prop := a.stopTime.departureTime ≤ b.stopTime.departureTime

instance : DecidableRel ByDeparture := fun _ _ => inferInstanceAs (Decidable (_ ≤ _))

instance : Std.Total ByDeparture :=
  ⟨fun a b => le_total a.stopTime.departureTime b.stopTime.departureTime⟩

instance : IsTrans DepartureRow ByDeparture := ⟨fun _ _ _ hab hbc => le_trans hab hbc⟩

/-! ## The realtime delay -/

/-- The joined realtime rows of a trip at a stop. -/
def stopUpdates (db : Db) (tripId stopId : String) : List LiveRow :=
  (liveJoin db).filter fun u => u.1.tripId = tripId && u.2.stopId = some stopId

/-- The row `_latest_realtime_delay` may read. -/
def LatestUpdate (db : Db) (tripId stopId : String) (update : Option LiveRow) : Prop :=
  First NewestFirst (stopUpdates db tripId stopId) update

/-- The delay it makes of the row. -/
def LiveRow.appliedDelay (u : LiveRow) : Option ℤ :=
  u.2.departureDelaySeconds.or u.2.arrivalDelaySeconds

/-! ## The loop -/

/-- The `source` of a departure. -/
inductive DepartureSource where
  | realtime
  | predicted
  deriving DecidableEq, Repr

/-- `Departure`. -/
structure Departure where
  tripId : String
  routeId : String
  routeShortName : Option String
  headsign : Option String
  scheduledDeparture : Instant
  predictedDelaySeconds : ℤ
  predictedDeparture : Instant
  confidence : ℚ
  source : DepartureSource
  deriving DecidableEq, Repr

/-- `scheduled`. -/
def DepartureRow.scheduled (row : DepartureRow) (now : Instant) : Instant :=
  midnight now + row.stopTime.departureTime

/-- The departure of a row, with its delay. -/
def DepartureRow.departure (row : DepartureRow) (now : Instant) (delay : ℤ) (confidence : ℚ)
    (source : DepartureSource) : Departure where
  tripId := row.trip.tripId
  routeId := row.route.routeId
  routeShortName := row.route.shortName
  headsign := row.trip.headsign
  scheduledDeparture := row.scheduled now
  predictedDelaySeconds := delay
  predictedDeparture := row.scheduled now + seconds delay
  confidence
  source

/-- A row, and the update that is read for it. -/
abbrev DepartureRead := DepartureRow × Option LiveRow

/-- The delay that is applied to a row, if an update has one. -/
def realtimeDelay (p : DepartureRead) : Option ℤ := p.2.bind LiveRow.appliedDelay

/-- What the endpoint asks `predict_delay` for. -/
def DepartureRow.request (row : DepartureRow) (stopId : String) (now : Instant) :
    PredictionRequest where
  routeId := row.route.routeId
  stopId
  targetTime := DateTime.utc (row.scheduled now)

section

variable (rt : Runtime) (settings : Settings) (T : StaticDb) (db : Db) (now : Instant)

/-- The loop over the rows: the departures, and the cache afterwards. -/
def departuresOf (stopId : String) :
    List DepartureRead → Store String PredictionOut → List Departure × Store String PredictionOut
  | [], cache => ([], cache)
  | p :: rest, cache =>
    match realtimeDelay p with
    | some delay =>
      let (departures, cache) := departuresOf stopId rest cache
      (p.1.departure now delay 1 .realtime :: departures, cache)
    | none =>
      let (prediction, cache) := predictDelay rt settings db now cache (p.1.request stopId now)
      let (departures, cache) := departuresOf stopId rest cache
      (p.1.departure now prediction.predictedDelaySeconds prediction.confidence .predicted ::
        departures, cache)

/-- `HTTPException`. -/
structure HTTPException where
  statusCode : ℕ
  detail : String
  deriving DecidableEq, Repr

/-- A call that finds the stop: the rows and updates it reads, and what it returns. -/
structure DeparturesAnswer (q : DepartureQuery) (cache : Store String PredictionOut)
    (reads : List DepartureRead) (departures : List Departure) : Prop where
  stop : q.stopId ∈ T.stops.keys
  rows : Answers ByDeparture q.limit (q.selected T now) (reads.map Prod.fst)
  updates : ∀ p ∈ reads, LatestUpdate db p.1.trip.tripId q.stopId p.2
  departures : departures = (departuresOf rt settings db now q.stopId reads cache).1

/-- What `upcoming_departures` may end in. -/
def UpcomingDepartures (q : DepartureQuery) (cache : Store String PredictionOut) :
    Except HTTPException (List Departure) → Prop
  | .ok departures => ∃ reads, DeparturesAnswer rt settings T db now q cache reads departures
  | .error e => q.stopId ∉ T.stops.keys ∧ e = ⟨404, "stop not found"⟩

/-! ## The rows of a call -/

variable {rt settings T db now} {q : DepartureQuery} {cache : Store String PredictionOut}
  {reads : List DepartureRead} {departures : List Departure}

theorem mem_departureJoin_iff {row : DepartureRow} :
    row ∈ departureJoin T ↔ row.stopTime ∈ T.stopTimes.data ∧ row.trip ∈ T.trips.data ∧
      row.trip.tripId = row.stopTime.tripId ∧ row.route ∈ T.routes.data ∧
      row.route.routeId = row.trip.routeId := by
  simp only [departureJoin, List.mem_flatMap, List.mem_map, List.mem_filter, decide_eq_true_eq]
  constructor
  · rintro ⟨stopTime, hst, trip, ⟨htrip, hid⟩, route, ⟨hroute, hrid⟩, rfl⟩
    exact ⟨hst, htrip, hid, hroute, hrid⟩
  · rintro ⟨hst, htrip, hid, hroute, hrid⟩
    exact ⟨row.stopTime, hst, row.trip, ⟨htrip, hid⟩, row.route, ⟨hroute, hrid⟩, rfl⟩

/-- **The joins lose no stop time of a trip**, as the route of the trip is there. -/
theorem exists_row_of_trip {stopTime : StopTime} (hst : stopTime ∈ T.stopTimes.data) {trip : Trip}
    (htrip : trip ∈ T.trips.data) (hid : trip.tripId = stopTime.tripId) :
    ∃ row ∈ departureJoin T, row.stopTime = stopTime ∧ row.trip = trip := by
  have hroute := T.linked.trip_route trip htrip trip.routeId rfl
  rw [Table.keys_eq_map] at hroute
  obtain ⟨route, hroute, hrid⟩ := List.mem_map.1 hroute
  exact ⟨⟨stopTime, trip, route⟩, mem_departureJoin_iff.2 ⟨hst, htrip, hid, hroute, hrid⟩, rfl, rfl⟩

/-- **The joins lose no stop time**, as no reference dangles. -/
theorem exists_row {stopTime : StopTime} (h : stopTime ∈ T.stopTimes.data) :
    ∃ row ∈ departureJoin T, row.stopTime = stopTime := by
  have htrip := T.linked.stopTime_trip stopTime h stopTime.tripId rfl
  rw [Table.keys_eq_map] at htrip
  obtain ⟨trip, htrip, hid⟩ := List.mem_map.1 htrip
  obtain ⟨row, hrow, hst, -⟩ := exists_row_of_trip h htrip hid
  exact ⟨row, hrow, hst⟩

theorem selects_iff {row : DepartureRow} :
    q.selects now row = true ↔ row.stopTime.stopId = q.stopId ∧
      seconds (secondsIntoDay now) ≤ row.stopTime.departureTime ∧
      row.stopTime.departureTime ≤ seconds (q.windowEndSeconds now) := by
  simp [DepartureQuery.selects, and_assoc]

theorem mem_selected_iff {row : DepartureRow} :
    row ∈ q.selected T now ↔ row ∈ departureJoin T ∧ row.stopTime.stopId = q.stopId ∧
      seconds (secondsIntoDay now) ≤ row.stopTime.departureTime ∧
      row.stopTime.departureTime ≤ seconds (q.windowEndSeconds now) := by
  unfold DepartureQuery.selected
  rw [List.mem_filter, selects_iff]

/-- The stop of a selected row is there. -/
theorem stop_mem_of_selected {row : DepartureRow} (h : row ∈ q.selected T now) :
    q.stopId ∈ T.stops.keys := by
  obtain ⟨hjoin, hstop, -⟩ := mem_selected_iff.1 h
  rw [← hstop]
  exact T.linked.stopTime_stop _ (mem_departureJoin_iff.1 hjoin).1 _ rfl

theorem DeparturesAnswer.mem_selected
    (h : DeparturesAnswer rt settings T db now q cache reads departures) {p : DepartureRead}
    (hp : p ∈ reads) : p.1 ∈ q.selected T now :=
  h.rows.mem (List.mem_map_of_mem hp)

/-- A limit that is large enough leaves no selected row out. -/
theorem DeparturesAnswer.exists_read
    (h : DeparturesAnswer rt settings T db now q cache reads departures)
    (hlimit : (q.selected T now).length ≤ q.limit) {row : DepartureRow}
    (hrow : row ∈ q.selected T now) : ∃ p ∈ reads, p.1 = row := by
  have hmem := (h.rows.perm hlimit).symm.subset hrow
  exact List.mem_map.1 hmem

/-! ## The departures of a call -/

/-- What a departure shows of the row and the update it was made of. -/
structure Describes (now : Instant) (p : DepartureRead) (d : Departure) : Prop where
  trip : d.tripId = p.1.trip.tripId
  scheduled : d.scheduledDeparture = p.1.scheduled now
  realtime : d.source = .realtime ↔ ∃ delay, realtimeDelay p = some delay
  applied : ∀ delay, realtimeDelay p = some delay →
    d.predictedDelaySeconds = delay ∧ d.confidence = 1

theorem describes_departuresOf (stopId : String) (reads : List DepartureRead)
    (cache : Store String PredictionOut) :
    List.Forall₂ (Describes now) reads
      (departuresOf rt settings db now stopId reads cache).1 := by
  induction reads generalizing cache with
  | nil => exact .nil
  | cons p rest ih =>
    unfold departuresOf
    cases hdelay : realtimeDelay p with
    | some delay =>
      refine .cons ⟨rfl, rfl, ?_, ?_⟩ (ih cache)
      · exact iff_of_true rfl ⟨delay, hdelay⟩
      · intro delay' hdelay'
        obtain rfl : delay = delay' := by simpa [hdelay] using hdelay'
        exact ⟨rfl, rfl⟩
    | none =>
      refine .cons ⟨rfl, rfl, ?_, ?_⟩ (ih _)
      · simp [DepartureRow.departure, hdelay]
      · simp [hdelay]

/-- **Each departure is that of the read in its place.** -/
theorem DeparturesAnswer.describes
    (h : DeparturesAnswer rt settings T db now q cache reads departures) :
    List.Forall₂ (Describes now) reads departures := by
  rw [h.departures]
  exact describes_departuresOf q.stopId reads cache

theorem DeparturesAnswer.describes_of_mem_zip
    (h : DeparturesAnswer rt settings T db now q cache reads departures) {p : DepartureRead}
    {d : Departure} (hpd : (p, d) ∈ reads.zip departures) : Describes now p d :=
  (List.forall₂_iff_zip.1 h.describes).2 hpd

/-- Every read has its departure. -/
theorem DeparturesAnswer.exists_departure
    (h : DeparturesAnswer rt settings T db now q cache reads departures) {p : DepartureRead}
    (hp : p ∈ reads) : ∃ d, (p, d) ∈ reads.zip departures := by
  have hlength := h.describes.length_eq
  obtain ⟨i, hi, rfl⟩ := List.getElem_of_mem hp
  have hi' : i < departures.length := hlength ▸ hi
  refine ⟨departures[i], ?_⟩
  rw [List.mem_iff_getElem]
  exact ⟨i, by simpa [hlength] using hi, by simp⟩

/-! ## What may be read -/

/-- A call of a known stop has an answer, whichever latest updates it reads. -/
theorem exists_answer_with (rt : Runtime) (settings : Settings)
    (cache : Store String PredictionOut) (hstop : q.stopId ∈ T.stops.keys)
    {latest : DepartureRow → Option LiveRow}
    (hlatest : ∀ row, LatestUpdate db row.trip.tripId q.stopId (latest row)) :
    ∃ reads departures, DeparturesAnswer rt settings T db now q cache reads departures ∧
      ∀ p ∈ reads, p.2 = latest p.1 := by
  obtain ⟨rows, hrows⟩ := exists_answers ByDeparture q.limit (q.selected T now)
  refine ⟨rows.map fun row => (row, latest row), _, ⟨hstop, ?_, ?_, rfl⟩, ?_⟩
  · have hid : (rows.map fun row => (row, latest row)).map Prod.fst = rows := by
      simp [Function.comp_def]
    rwa [hid]
  · intro p hp
    obtain ⟨row, -, rfl⟩ := List.mem_map.1 hp
    exact hlatest row
  · intro p hp
    obtain ⟨row, -, rfl⟩ := List.mem_map.1 hp
    rfl

theorem exists_answer (rt : Runtime) (settings : Settings) (db : Db) (now : Instant)
    (cache : Store String PredictionOut) (hstop : q.stopId ∈ T.stops.keys) :
    ∃ reads departures, DeparturesAnswer rt settings T db now q cache reads departures := by
  have hlatest : ∀ row : DepartureRow, ∃ u, LatestUpdate db row.trip.tripId q.stopId u :=
    fun row => exists_first NewestFirst _
  choose latest hlatest using hlatest
  obtain ⟨reads, departures, h, -⟩ := exists_answer_with rt settings cache hstop hlatest
  exact ⟨reads, departures, h⟩

/-- **A call answers exactly when the stop is there.** -/
theorem upcomingDepartures_ok_iff :
    (∃ departures, UpcomingDepartures rt settings T db now q cache (.ok departures)) ↔
      q.stopId ∈ T.stops.keys := by
  constructor
  · rintro ⟨departures, reads, h⟩
    exact h.stop
  · intro hstop
    obtain ⟨reads, departures, h⟩ := exists_answer rt settings db now cache hstop
    exact ⟨departures, reads, h⟩

/-- **Every selected row can be among what a call reads**, with any of its latest updates,
if the limit is large enough. -/
theorem exists_answer_reading (rt : Runtime) (settings : Settings) (db : Db)
    (cache : Store String PredictionOut) {row : DepartureRow} (hrow : row ∈ q.selected T now)
    (hlimit : (q.selected T now).length ≤ q.limit) {update : Option LiveRow}
    (hupdate : LatestUpdate db row.trip.tripId q.stopId update) :
    ∃ reads departures, DeparturesAnswer rt settings T db now q cache reads departures ∧
      (row, update) ∈ reads := by
  have hlatest : ∀ r : DepartureRow, ∃ u, LatestUpdate db r.trip.tripId q.stopId u ∧
      (r = row → u = update) := by
    intro r
    by_cases hr : r = row
    · subst hr
      exact ⟨update, hupdate, fun _ => rfl⟩
    · obtain ⟨u, hu⟩ := exists_first NewestFirst (stopUpdates db r.trip.tripId q.stopId)
      exact ⟨u, hu, fun h => absurd h hr⟩
  choose latest hlatest using hlatest
  obtain ⟨reads, departures, h, hreads⟩ := exists_answer_with rt settings cache
    (stop_mem_of_selected hrow) fun r => (hlatest r).1
  obtain ⟨p, hp, rfl⟩ := h.exists_read hlimit hrow
  refine ⟨reads, departures, h, ?_⟩
  rwa [← (hlatest p.1).2 rfl, ← hreads p hp]

/-- **The rule for what every departure meets.**  Where it depends on what is read alone, it
holds of every departure of every answer exactly when it holds of whatever can be read. -/
theorem forall_departures_iff {stopId : String} {windowMinutes : ℕ}
    {R : DepartureRead → Departure → Prop} {C : DepartureRow → Option LiveRow → Prop}
    (hRC : ∀ row ∈ (⟨stopId, windowMinutes, 0⟩ : DepartureQuery).selected T now, ∀ update,
      LatestUpdate db row.trip.tripId stopId update → ∀ d, Describes now (row, update) d →
        (R (row, update) d ↔ C row update)) :
    (∀ limit cache reads departures, DeparturesAnswer rt settings T db now
        ⟨stopId, windowMinutes, limit⟩ cache reads departures → List.Forall₂ R reads departures) ↔
      ∀ row ∈ (⟨stopId, windowMinutes, 0⟩ : DepartureQuery).selected T now, ∀ update,
        LatestUpdate db row.trip.tripId stopId update → C row update := by
  constructor
  · intro h row hrow update hupdate
    let q : DepartureQuery := ⟨stopId, windowMinutes,
      ((⟨stopId, windowMinutes, 0⟩ : DepartureQuery).selected T now).length⟩
    obtain ⟨reads, departures, hanswer, hread⟩ :=
      exists_answer_reading (q := q) rt settings db Store.empty hrow le_rfl hupdate
    obtain ⟨d, hpd⟩ := hanswer.exists_departure hread
    have hR := (List.forall₂_iff_zip.1 (h q.limit _ reads departures hanswer)).2 hpd
    exact (hRC row hrow update hupdate d (hanswer.describes_of_mem_zip hpd)).1 hR
  · intro h limit cache reads departures hanswer
    rw [List.forall₂_iff_zip]
    refine ⟨hanswer.describes.length_eq, ?_⟩
    intro p d hpd
    have hp := (List.of_mem_zip hpd).1
    have hrow := hanswer.mem_selected hp
    have hupdate := hanswer.updates p hp
    have hC := h p.1 hrow p.2 hupdate
    exact (hRC p.1 hrow p.2 hupdate d (hanswer.describes_of_mem_zip hpd)).2 hC

end

end DelayPredictor
