import DelayPredictor.Lib.Keyed
import DelayPredictor.Lib.PyTime
import DelayPredictor.Lib.Stats

/-!
# The realtime and feature tables

The rows of `app/models/{realtime,observations,weather,holidays,features}.py`
and the database they live in.

Primary keys, unique constraints and foreign keys are part of the types: a
`Keyed.Log` numbers its rows without repetition, a `Keyed.Table` never holds two
rows with the same natural key, and `Db` carries the two foreign keys as fields.
The `Upsert` of a table lists what its `ON CONFLICT … DO UPDATE SET` clause
takes from the proposed row; a column that is not listed keeps its old value.
-/

namespace DelayPredictor

open Keyed PyTime Stats

/-! ## Realtime rows -/

/-- A row of `trip_updates`. -/
structure TripUpdate where
  tripId : String
  routeId : Option String
  vehicleId : Option String
  recordedAt : Instant
  startDate : Option Date
  scheduleRelationship : Option ℕ
  deriving DecidableEq, Repr

/-- The columns of `stop_time_updates` that come from the feed. -/
structure StopTimeValues where
  stopId : Option String
  stopSequence : Option ℤ
  arrivalDelaySeconds : Option ℤ
  arrivalTime : Option Instant
  departureDelaySeconds : Option ℤ
  departureTime : Option Instant
  scheduleRelationship : Option ℕ
  deriving DecidableEq, Repr

/-- A row of `stop_time_updates`. -/
structure StopTimeUpdate extends StopTimeValues where
  tripUpdateId : ℕ
  deriving DecidableEq, Repr

/-- A row of `vehicle_positions`.  The `location` column is the point the two
coordinates name. -/
structure VehiclePosition where
  vehicleId : String
  tripId : Option String
  routeId : Option String
  recordedAt : Instant
  lat : XFloat
  lon : XFloat
  bearing : Option XFloat
  speed : Option XFloat
  status : Option ℕ
  congestionLevel : Option ℕ
  stopSequence : Option ℤ
  currentStopId : Option String
  deriving DecidableEq, Repr

/-- A row of `delay_observations`. -/
structure DelayObservation where
  routeId : String
  tripId : String
  stopId : String
  observedAt : Instant
  serviceDate : Date
  hourOfDay : ℤ
  dayOfWeek : ℤ
  delaySeconds : ℤ
  deriving DecidableEq, Repr

namespace DelayObservation

/-- The columns of `uq_delay_obs_natural`. -/
def naturalKey (o : DelayObservation) : String × String × Date :=
  (o.tripId, o.stopId, o.serviceDate)

/-- `ON CONFLICT ON CONSTRAINT uq_delay_obs_natural DO UPDATE SET …`: the delay,
the time of the observation and the bucket follow the proposed row. -/
def upsert : Upsert (String × String × Date) DelayObservation where
  key := naturalKey
  merge old new :=
    { old with
      delaySeconds := new.delaySeconds
      observedAt := new.observedAt
      hourOfDay := new.hourOfDay
      dayOfWeek := new.dayOfWeek }
  key_merge := fun _ _ => rfl

end DelayObservation

/-! ## Inputs of the feature pipeline -/

/-- A row of `weather_observations`. -/
structure WeatherObservation where
  stationId : String
  observedAt : Instant
  airTempC : Option XFloat
  rainfallMm : Option XFloat
  humidityPct : Option XFloat
  windSpeedKmh : Option XFloat
  source : Option String
  deriving DecidableEq, Repr

/-- `ON CONFLICT ON CONSTRAINT uq_weather_natural DO NOTHING`. -/
def WeatherObservation.upsert : Upsert (String × Instant) WeatherObservation where
  key o := (o.stationId, o.observedAt)
  merge old _ := old
  key_merge := fun _ _ => rfl

/-- A row of `public_holidays`. -/
structure PublicHoliday where
  date : Date
  name : String
  subdivision : Option String
  source : Option String
  deriving DecidableEq, Repr

/-- `ON CONFLICT (date) DO UPDATE SET …`. -/
def PublicHoliday.upsert : Upsert Date PublicHoliday where
  key := PublicHoliday.date
  merge old new :=
    { old with name := new.name, subdivision := new.subdivision, source := new.source }
  key_merge := fun _ _ => rfl

/-- A row of `route_delay_stats`; the two window dates are day numbers. -/
structure RouteDelayStats where
  routeId : String
  windowStart : ℤ
  windowEnd : ℤ
  sampleCount : ℕ
  avgDelaySeconds : ℚ
  p50DelaySeconds : Option ℚ
  p90DelaySeconds : Option ℚ
  refreshedAt : Instant
  deriving DecidableEq, Repr

/-- `ON CONFLICT (route_id) DO UPDATE SET …` of `_ROUTE_STATS_SQL`. -/
def RouteDelayStats.upsert : Upsert String RouteDelayStats where
  key := RouteDelayStats.routeId
  merge old new := { new with routeId := old.routeId }
  key_merge := fun _ _ => rfl

/-! ## The feature table -/

/-- The columns of `training_features` other than `id` and `materialized_at`. -/
structure FeatureColumns where
  observationId : ℕ
  routeId : String
  tripId : String
  stopId : String
  observedAt : Instant
  serviceDate : Date
  hourOfDay : ℤ
  dayOfWeek : ℤ
  isWeekend : Bool
  isPublicHoliday : Bool
  month : ℕ
  airTempC : Option XFloat
  rainfallMm : Option XFloat
  humidityPct : Option XFloat
  routeAvgDelay30dS : Option ℚ
  routeP50Delay30dS : Option ℚ
  routeP90Delay30dS : Option ℚ
  delaySeconds : ℤ
  deriving DecidableEq, Repr

/-- A row of `training_features`. -/
structure TrainingFeature extends FeatureColumns where
  materializedAt : Instant
  deriving DecidableEq, Repr

/-- `ON CONFLICT (observation_id) DO UPDATE SET …` of `_FEATURES_SQL`. -/
def TrainingFeature.upsert : Upsert ℕ TrainingFeature where
  key f := f.observationId
  merge old new :=
    { old with
      isPublicHoliday := new.isPublicHoliday
      airTempC := new.airTempC
      rainfallMm := new.rainfallMm
      humidityPct := new.humidityPct
      routeAvgDelay30dS := new.routeAvgDelay30dS
      routeP50Delay30dS := new.routeP50Delay30dS
      routeP90Delay30dS := new.routeP90Delay30dS
      delaySeconds := new.delaySeconds
      materializedAt := new.materializedAt }
  key_merge := fun _ _ => rfl

/-! ## The database -/

/-- The tables the realtime ingest and the feature pipeline share. -/
structure Db where
  tripUpdates : Log TripUpdate
  stopTimeUpdates : Log StopTimeUpdate
  vehiclePositions : Log VehiclePosition
  delayObservations : Table DelayObservation.upsert
  weatherObservations : Table WeatherObservation.upsert
  publicHolidays : Table PublicHoliday.upsert
  routeDelayStats : Table RouteDelayStats.upsert
  trainingFeatures : Table TrainingFeature.upsert
  /-- `stop_time_updates.trip_update_id` references `trip_updates.id`. -/
  stopTime_fk : ∀ s ∈ stopTimeUpdates.rows, s.data.tripUpdateId ∈ tripUpdates.rows.map Row.id
  /-- `training_features.observation_id` references `delay_observations.id`. -/
  feature_fk : ∀ f ∈ trainingFeatures.rows,
    f.data.observationId ∈ delayObservations.rows.map Row.id

namespace Db

/-- Freshly migrated: every table is empty. -/
def empty : Db where
  tripUpdates := Log.empty
  stopTimeUpdates := Log.empty
  vehiclePositions := Log.empty
  delayObservations := Table.empty
  weatherObservations := Table.empty
  publicHolidays := Table.empty
  routeDelayStats := Table.empty
  trainingFeatures := Table.empty
  stopTime_fk := by simp [Log.empty]
  feature_fk := by simp

end Db

end DelayPredictor
