import DelayPredictor.Schema

/-!
# Realtime ingest

`app/services/gtfs_realtime.py`: what a poll of the two GTFS-Realtime feeds does
to the database.

* `FeedEntity`, `TripUpdateMsg`, `VehicleMsg` — the protobuf messages.  A scalar
  whose presence the code asks for is an `Option`; one it only reads is its
  value, the empty string or zero when unset.
* `decodeTripUpdate` — the loop body up to the statements: the rows one
  `TripUpdate` proposes, or the conversion that raises.
* `ingestTripUpdates`, `ingestVehiclePositions`, `pruneOldRealtime` — the three
  entry points.  A poll is one transaction, so `pollTripUpdates` leaves the
  database alone when anything in it raises (`session_scope` rolls back).

Two workers committing polls at once are covered by some order of the two: the
statements of a poll only write rows, and a row written by one transaction stays
locked for the other until the first has ended.
-/

namespace DelayPredictor

open Keyed PyTime Stats

/-! ## The feed -/

/-- `TripUpdate.StopTimeEvent`. -/
structure StopTimeEvent where
  delay : Option Int32
  time : Option Int64
  deriving DecidableEq

/-- Reading `event.delay`: an unset delay reads as zero. -/
def StopTimeEvent.delayValue (e : StopTimeEvent) : ℤ := (e.delay.map Int32.toInt).getD 0

/-- `TripUpdate.StopTimeUpdate`. -/
structure StopTimeUpdateMsg where
  stopSequence : Option UInt32
  stopId : String
  arrival : Option StopTimeEvent
  departure : Option StopTimeEvent
  scheduleRelationship : Option ℕ
  deriving DecidableEq

/-- `TripDescriptor`. -/
structure TripDescriptor where
  tripId : String
  routeId : String
  startDate : String
  scheduleRelationship : Option ℕ
  deriving DecidableEq

/-- `TripUpdate`. -/
structure TripUpdateMsg where
  trip : TripDescriptor
  vehicleId : String
  stopTimeUpdate : List StopTimeUpdateMsg
  timestamp : UInt64
  deriving DecidableEq

/-- `Position`. -/
structure PositionMsg where
  latitude : XFloat
  longitude : XFloat
  bearing : Option XFloat
  speed : Option XFloat
  deriving DecidableEq

/-- `VehiclePosition`. -/
structure VehicleMsg where
  tripId : String
  routeId : String
  vehicleId : String
  position : Option PositionMsg
  currentStopSequence : Option UInt32
  stopId : String
  currentStatus : Option ℕ
  congestionLevel : Option ℕ
  timestamp : UInt64
  deriving DecidableEq

/-- `FeedEntity`. -/
structure FeedEntity where
  id : String
  tripUpdate : Option TripUpdateMsg
  vehicle : Option VehicleMsg
  deriving DecidableEq

/-- One poll: the entities of the fetched feed in order, each with the reading
the clock would give if the loop asked for it there. -/
abbrev Poll := List (FeedEntity × Instant)

/-! ## Conversions -/

/-- What makes a poll raise. -/
inductive IngestError where
  /-- `datetime.fromtimestamp` is out of range. -/
  | timestampOutOfRange
  /-- `strptime` does not match. -/
  | badStartDate
  /-- A value does not fit its column. -/
  | dataError
  /-- More arguments than a statement takes. -/
  | interfaceError
  /-- `ON CONFLICT DO UPDATE` may not affect a row a second time. -/
  | cardinalityViolation
  deriving DecidableEq, Repr

/-- `_epoch_to_dt`. -/
def epochToDt (epoch : ℤ) : Except IngestError (Option Instant) :=
  if epoch = 0 then .ok none
  else match fromTimestamp epoch with
    | some t => .ok (some t)
    | none => .error .timestampOutOfRange

/-- `_epoch_to_dt(timestamp) or datetime.now(UTC)`. -/
def recordedAt (timestamp : UInt64) (now : Instant) : Except IngestError Instant :=
  (epochToDt timestamp.toNat).map (·.getD now)

/-- `value or None` for a string. -/
def orNone (s : String) : Option String := if s = "" then none else some s

/-- `strptime(start_date, "%Y%m%d").date() if start_date else None`. -/
def parseStartDate (s : String) : Except IngestError (Option Date) :=
  if s = "" then .ok none
  else match strptimeYmd s with
    | some d => .ok (some d)
    | none => .error .badStartDate

/-! ## What fits a column -/

/-- A text column takes any character but NUL.  The sizes at which the database refuses
a text or an index entry are left out. -/
def textFits (s : String) : Bool := !s.toList.contains (Char.ofNat 0)

/-- An `Integer` column holds 32 bits. -/
def integerFits (n : ℤ) : Bool := -2147483648 ≤ n && n ≤ 2147483647

namespace TripUpdate

/-- The row can be stored. -/
def fits (r : TripUpdate) : Bool :=
  textFits r.tripId && r.routeId.all textFits && r.vehicleId.all textFits

end TripUpdate

namespace StopTimeValues

/-- The row can be stored. -/
def fits (r : StopTimeValues) : Bool :=
  r.stopId.all textFits && r.stopSequence.all integerFits &&
    r.arrivalDelaySeconds.all integerFits && r.departureDelaySeconds.all integerFits

end StopTimeValues

namespace VehiclePosition

/-- The row can be stored, the geography type taking the points that `isPoint`
says. -/
def fits (isPoint : XFloat → XFloat → Bool) (r : VehiclePosition) : Bool :=
  textFits r.vehicleId && r.tripId.all textFits && r.routeId.all textFits && isPoint r.lat r.lon &&
    r.stopSequence.all integerFits && r.currentStopId.all textFits

end VehiclePosition

/-! ## Trip updates -/

/-- `_epoch_to_dt(event.time)` where the event and its time are both set. -/
def eventTime (event : Option StopTimeEvent) : Except IngestError (Option Instant) :=
  match event.bind (·.time) with
  | none => .ok none
  | some t => epochToDt t.toInt

/-- The `stop_time_updates` row of a stop time update. -/
def stopTimeValues (stu : StopTimeUpdateMsg) : Except IngestError StopTimeValues := do
  let arrivalTime ← eventTime stu.arrival
  let departureTime ← eventTime stu.departure
  return {
    stopId := orNone stu.stopId
    stopSequence := stu.stopSequence.map fun n => (n.toNat : ℤ)
    arrivalDelaySeconds := stu.arrival.map (·.delayValue)
    arrivalTime
    departureDelaySeconds := stu.departure.map (·.delayValue)
    departureTime
    scheduleRelationship := stu.scheduleRelationship }

/-- The `delay_observations` row of a stop time update, if it gets one. -/
def observationRow (trip : TripDescriptor) (recordedAt : Instant) (startDate : Option Date)
    (stu : StopTimeUpdateMsg) : Option DelayObservation := do
  let delay ← (stu.arrival.map (·.delayValue)).or (stu.departure.map (·.delayValue))
  let serviceDate ← startDate
  if stu.stopId = "" ∨ trip.routeId = "" then none
  else some {
    routeId := trip.routeId
    tripId := trip.tripId
    stopId := stu.stopId
    observedAt := recordedAt
    serviceDate
    hourOfDay := (DateTime.utc recordedAt).hour
    dayOfWeek := (DateTime.utc recordedAt).weekday
    delaySeconds := delay }

/-- The rows one `TripUpdate` proposes. -/
structure TripRows where
  tripUpdate : TripUpdate
  stopTimes : List StopTimeValues
  observations : List DelayObservation
  deriving DecidableEq

/-- The stop times of a trip update, in order; the first that raises ends the loop. -/
def stopTimeRows : List StopTimeUpdateMsg → Except IngestError (List StopTimeValues)
  | [] => .ok []
  | stu :: stus => do return (← stopTimeValues stu) :: (← stopTimeRows stus)

/-- The loop body of `ingest_trip_updates` up to its statements. -/
def decodeTripUpdate (now : Instant) (tu : TripUpdateMsg) : Except IngestError TripRows := do
  let recorded ← recordedAt tu.timestamp now
  let startDate ← parseStartDate tu.trip.startDate
  let stopTimes ← stopTimeRows tu.stopTimeUpdate
  return {
    tripUpdate := {
      tripId := tu.trip.tripId
      routeId := orNone tu.trip.routeId
      vehicleId := orNone tu.vehicleId
      recordedAt := recorded
      startDate
      scheduleRelationship := tu.trip.scheduleRelationship }
    stopTimes
    observations := tu.stopTimeUpdate.filterMap (observationRow tu.trip recorded startDate) }

/-- The arguments of one statement: the driver counts them with 16 bits. -/
abbrev maxArguments : ℕ := 32767

namespace Db

/-- Insert a trip update and its stop time updates. -/
def addTripUpdate (db : Db) (r : TripUpdate) (stopTimes : List StopTimeValues) : Db :=
  { db with
    tripUpdates := db.tripUpdates.insertAll [r]
    stopTimeUpdates := db.stopTimeUpdates.insertAll
      (stopTimes.map fun v => { v with tripUpdateId := db.tripUpdates.nextId })
    stopTime_fk := by
      intro s hs
      rw [Log.insertAll_rows, List.map_append, List.mem_append]
      rcases List.mem_append.1 hs with h | h
      · exact .inl (db.stopTime_fk s h)
      · have hdata : s.data ∈ (Log.number _ _).map Row.data := List.mem_map_of_mem h
        rw [Log.number_data] at hdata
        obtain ⟨v, -, hv⟩ := List.mem_map.1 hdata
        exact .inr (by simp [← hv]) }

/-- Insert or update observations, one after another. -/
def putObservations (db : Db) (rows : List DelayObservation) : Db :=
  { db with
    delayObservations := db.delayObservations.putAll rows
    feature_fk := by
      intro f hf
      obtain ⟨o, ho, hid⟩ := List.mem_map.1 (db.feature_fk f hf)
      have hl := db.delayObservations.lookup_eq_some_iff.2 ⟨ho, rfl⟩
      obtain ⟨o', ho', hid'⟩ := Option.map_eq_some_iff.1
        (db.delayObservations.lookup_id_putAll hl rows)
      rw [← hid, ← hid']
      exact List.mem_map_of_mem (Table.lookup_eq_some_iff _ |>.1 ho').1 }

/-- The statements of one `TripUpdate`.  The session sends the stop time updates
with the next entity's flush or the commit, in batches of its own; they are inserted
here, which leaves the same rows and the same verdict on the transaction.  One
statement proposes all the observations, with eight arguments a row. -/
def storeTrip (db : Db) (r : TripRows) : Except IngestError Db :=
  if r.tripUpdate.fits && r.stopTimes.all (·.fits) then
    let db := db.addTripUpdate r.tripUpdate r.stopTimes
    if r.observations = [] then .ok db
    else if 8 * r.observations.length ≤ maxArguments then
      if (r.observations.map DelayObservation.naturalKey).Nodup then
        .ok (db.putObservations r.observations)
      else .error .cardinalityViolation
    else .error .interfaceError
  else .error .dataError

end Db

/-- `ingest_trip_updates`, inside its session. -/
def ingestTripUpdates (db : Db) : Poll → Except IngestError Db
  | [] => .ok db
  | (entity, now) :: rest =>
    match entity.tripUpdate with
    | none => ingestTripUpdates db rest
    | some tu => do
      let rows ← decodeTripUpdate now tu
      ingestTripUpdates (← db.storeTrip rows) rest

/-- A poll as the database sees it: committed, or rolled back. -/
def pollTripUpdates (db : Db) (poll : Poll) : Db :=
  match ingestTripUpdates db poll with
  | .ok db' => db'
  | .error _ => db

/-! ## Vehicle positions and pruning -/

/-- The `vehicle_positions` row of an entity, if it gets one. -/
def vehicleRow (entity : FeedEntity) (now : Instant) :
    Except IngestError (Option VehiclePosition) :=
  match entity.vehicle with
  | none => .ok none
  | some vp =>
    match vp.position with
    | none => .ok none
    | some position => do
      let recorded ← recordedAt vp.timestamp now
      return some {
        vehicleId := if vp.vehicleId = "" then entity.id else vp.vehicleId
        tripId := orNone vp.tripId
        routeId := orNone vp.routeId
        recordedAt := recorded
        lat := position.latitude
        lon := position.longitude
        bearing := position.bearing
        speed := position.speed
        status := vp.currentStatus
        congestionLevel := vp.congestionLevel
        stopSequence := vp.currentStopSequence.map fun n => (n.toNat : ℤ)
        currentStopId := orNone vp.stopId }

/-- The rows of a vehicle feed, in order. -/
def vehicleRows : Poll → Except IngestError (List VehiclePosition)
  | [] => .ok []
  | (entity, now) :: rest => do
    let row ← vehicleRow entity now
    let rows ← vehicleRows rest
    return row.toList ++ rows

section Vehicles

variable (isPoint : XFloat → XFloat → Bool)

/-- `ingest_vehicle_positions`.  With no rows it returns before opening a session. -/
def ingestVehiclePositions (db : Db) (poll : Poll) : Except IngestError Db := do
  let rows ← vehicleRows poll
  if rows.all (·.fits isPoint) then
    return { db with vehiclePositions := db.vehiclePositions.insertAll rows }
  else throw .dataError

/-- A vehicle poll as the database sees it. -/
def pollVehiclePositions (db : Db) (poll : Poll) : Db :=
  match ingestVehiclePositions isPoint db poll with
  | .ok db' => db'
  | .error _ => db

end Vehicles

/-- `prune_old_realtime` at `now`: the stop time updates of a deleted trip
update go with it. -/
def pruneOldRealtime (db : Db) (now : Instant) (retentionHours : ℤ) : Db :=
  let cutoff := now - hours retentionHours
  let tripUpdates := db.tripUpdates.keep fun r => cutoff ≤ r.recordedAt
  { db with
    tripUpdates
    stopTimeUpdates := db.stopTimeUpdates.keep fun s =>
      (tripUpdates.rows.map Row.id).contains s.tripUpdateId
    vehiclePositions := db.vehiclePositions.keep fun r => cutoff ≤ r.recordedAt
    stopTime_fk := by
      intro s hs
      simpa using (List.mem_filter.1 hs).2 }

end DelayPredictor
