import DelayPredictor.Lib.ForeignKeys
import DelayPredictor.Realtime

/-!
# The static tables

The rows of `app/models/gtfs_static.py` and the seven tables they live in.

* `Upsert`s — `_upsert` sets every column outside the conflict key from the
  proposed row, in every table.
* `StaticTables.Linked` — the four foreign keys.  `StaticDb` carries them as a
  field; `StaticDb.check` is the database refusing a statement that breaks one.
-/

namespace DelayPredictor

open Keyed PyTime Stats

/-! ## Rows -/

/-- A row of `agencies`. -/
structure Agency where
  agencyId : String
  name : String
  url : Option String
  timezone : String
  deriving DecidableEq, Repr

/-- A row of `routes`. -/
structure Route where
  routeId : String
  agencyId : Option String
  shortName : Option String
  longName : Option String
  routeType : ℤ
  color : Option String
  textColor : Option String
  deriving DecidableEq, Repr

/-- A row of `stops`.  The `location` column is the point the two coordinates
name. -/
structure Stop where
  stopId : String
  code : Option String
  name : String
  description : Option String
  lat : XFloat
  lon : XFloat
  locationType : Option ℤ
  parentStation : Option String
  platformCode : Option String
  deriving DecidableEq, Repr

/-- A row of `trips`. -/
structure Trip where
  tripId : String
  routeId : String
  serviceId : String
  headsign : Option String
  shortName : Option String
  directionId : Option ℤ
  blockId : Option String
  shapeId : Option String
  deriving DecidableEq, Repr

/-- A row of `stop_times`; the two intervals are in microseconds. -/
structure StopTime where
  tripId : String
  stopSequence : ℤ
  stopId : String
  arrivalTime : ℤ
  departureTime : ℤ
  pickupType : Option ℤ
  dropOffType : Option ℤ
  shapeDistTraveled : Option XFloat
  deriving DecidableEq, Repr

/-- A row of `calendar`. -/
structure Calendar where
  serviceId : String
  monday : Bool
  tuesday : Bool
  wednesday : Bool
  thursday : Bool
  friday : Bool
  saturday : Bool
  sunday : Bool
  startDate : Date
  endDate : Date
  deriving DecidableEq, Repr

/-- A row of `calendar_dates`. -/
structure CalendarDate where
  serviceId : String
  date : Date
  exceptionType : ℤ
  deriving DecidableEq, Repr

/-! ## Keys and updates -/

/-- `ON CONFLICT (agency_id) DO UPDATE SET …`. -/
def Agency.upsert : Upsert String Agency where
  key := Agency.agencyId
  merge old new := { new with agencyId := old.agencyId }
  key_merge := fun _ _ => rfl

/-- `ON CONFLICT (route_id) DO UPDATE SET …`. -/
def Route.upsert : Upsert String Route where
  key := Route.routeId
  merge old new := { new with routeId := old.routeId }
  key_merge := fun _ _ => rfl

/-- `ON CONFLICT (stop_id) DO UPDATE SET …`. -/
def Stop.upsert : Upsert String Stop where
  key := Stop.stopId
  merge old new := { new with stopId := old.stopId }
  key_merge := fun _ _ => rfl

/-- `ON CONFLICT (trip_id) DO UPDATE SET …`. -/
def Trip.upsert : Upsert String Trip where
  key := Trip.tripId
  merge old new := { new with tripId := old.tripId }
  key_merge := fun _ _ => rfl

/-- `ON CONFLICT (service_id) DO UPDATE SET …`. -/
def Calendar.upsert : Upsert String Calendar where
  key := Calendar.serviceId
  merge old new := { new with serviceId := old.serviceId }
  key_merge := fun _ _ => rfl

/-- `ON CONFLICT (service_id, date) DO UPDATE SET …`. -/
def CalendarDate.upsert : Upsert (String × Date) CalendarDate where
  key d := (d.serviceId, d.date)
  merge old new := { new with serviceId := old.serviceId, date := old.date }
  key_merge := fun _ _ => rfl

/-- The primary key of `stop_times`; its rows are inserted and never updated. -/
def StopTime.upsert : Upsert (String × ℤ) StopTime where
  key s := (s.tripId, s.stopSequence)
  merge old _ := old
  key_merge := fun _ _ => rfl

/-! ## What fits a column -/

/-- A `SmallInteger` column holds 16 bits. -/
def smallIntegerFits (n : ℤ) : Bool := -32768 ≤ n && n ≤ 32767

/-- The row can be stored. -/
def Agency.fits (r : Agency) : Bool :=
  textFits r.agencyId && textFits r.name && r.url.all textFits && textFits r.timezone

/-- The row can be stored. -/
def Route.fits (r : Route) : Bool :=
  textFits r.routeId && r.agencyId.all textFits && r.shortName.all textFits &&
    r.longName.all textFits && smallIntegerFits r.routeType && r.color.all textFits &&
    r.textColor.all textFits

/-- The row can be stored, the geography type taking the points that `isPoint`
says. -/
def Stop.fits (isPoint : XFloat → XFloat → Bool) (r : Stop) : Bool :=
  textFits r.stopId && r.code.all textFits && textFits r.name && r.description.all textFits &&
    isPoint r.lat r.lon && r.locationType.all smallIntegerFits && r.parentStation.all textFits &&
    r.platformCode.all textFits

/-- The row can be stored. -/
def Trip.fits (r : Trip) : Bool :=
  textFits r.tripId && textFits r.routeId && textFits r.serviceId && r.headsign.all textFits &&
    r.shortName.all textFits && r.directionId.all smallIntegerFits && r.blockId.all textFits &&
    r.shapeId.all textFits

/-- The row can be stored. -/
def StopTime.fits (r : StopTime) : Bool :=
  textFits r.tripId && integerFits r.stopSequence && textFits r.stopId &&
    r.pickupType.all smallIntegerFits && r.dropOffType.all smallIntegerFits

/-- The row can be stored. -/
def Calendar.fits (r : Calendar) : Bool := textFits r.serviceId

/-- The row can be stored. -/
def CalendarDate.fits (r : CalendarDate) : Bool :=
  textFits r.serviceId && smallIntegerFits r.exceptionType

/-! ## The tables -/

/-- The tables of the static feed. -/
structure StaticTables where
  agencies : Table Agency.upsert
  routes : Table Route.upsert
  stops : Table Stop.upsert
  trips : Table Trip.upsert
  calendar : Table Calendar.upsert
  calendarDates : Table CalendarDate.upsert
  stopTimes : Table StopTime.upsert

/-- The foreign keys; a null refers to nothing. -/
structure StaticTables.Linked (T : StaticTables) : Prop where
  /-- `routes.agency_id` references `agencies.agency_id`. -/
  route_agency : Refers T.routes Route.agencyId T.agencies
  /-- `trips.route_id` references `routes.route_id`. -/
  trip_route : Refers T.trips (fun t => some t.routeId) T.routes
  /-- `stop_times.trip_id` references `trips.trip_id`. -/
  stopTime_trip : Refers T.stopTimes (fun s => some s.tripId) T.trips
  /-- `stop_times.stop_id` references `stops.stop_id`. -/
  stopTime_stop : Refers T.stopTimes (fun s => some s.stopId) T.stops

instance (T : StaticTables) : Decidable T.Linked :=
  decidable_of_iff
    (Refers T.routes Route.agencyId T.agencies ∧
      Refers T.trips (fun t => some t.routeId) T.routes ∧
      Refers T.stopTimes (fun s => some s.tripId) T.trips ∧
      Refers T.stopTimes (fun s => some s.stopId) T.stops)
    ⟨fun ⟨h₁, h₂, h₃, h₄⟩ => ⟨h₁, h₂, h₃, h₄⟩, fun ⟨h₁, h₂, h₃, h₄⟩ => ⟨h₁, h₂, h₃, h₄⟩⟩

/-- The static tables, in which no reference dangles. -/
structure StaticDb extends StaticTables where
  linked : toStaticTables.Linked

/-- What makes a statement raise. -/
inductive DbError where
  /-- A value does not fit its column. -/
  | dataError
  /-- More arguments than a statement takes. -/
  | interfaceError
  /-- `ON CONFLICT DO UPDATE` may not affect a row a second time. -/
  | cardinalityViolation
  /-- A key is inserted that is there. -/
  | uniqueViolation
  /-- A reference dangles. -/
  | foreignKeyViolation
  /-- Anything else: a connection that is lost, a time limit. -/
  | operationalError
  deriving DecidableEq, Repr

namespace StaticDb

/-- Freshly migrated: every table is empty. -/
def empty : StaticDb where
  agencies := Table.empty
  routes := Table.empty
  stops := Table.empty
  trips := Table.empty
  calendar := Table.empty
  calendarDates := Table.empty
  stopTimes := Table.empty
  linked := ⟨refers_empty _ _, refers_empty _ _, refers_empty _ _, refers_empty _ _⟩

/-- The foreign keys are checked when a statement ends. -/
def check (T : StaticTables) : Except DbError StaticDb :=
  if h : T.Linked then .ok ⟨T, h⟩ else .error .foreignKeyViolation

end StaticDb

end DelayPredictor
