import DelayPredictor.Lib.PyNumber
import DelayPredictor.StaticSchema

/-!
# The static feed

What `app/services/gtfs_static.py` reads: the files of the archive, as tables of
strings, and the rows it makes of their records.

* `Record` — a record of a file.  A column that is missing raises where it is
  required; elsewhere it reads as blank.
* `agencyRow`, …, `calendarDateRow` — the row of a record, every cell in the
  order in which it is converted.
* `parseZip` — an archive, as the frames it must have.
-/

namespace DelayPredictor

open PyNumber PyText PyTime Stats

/-! ## Errors -/

/-- What makes a conversion raise. -/
inductive PyError where
  /-- `KeyError`: the record has no such column. -/
  | keyError (column : String)
  /-- `ValueError`. -/
  | valueError
  /-- `OverflowError`. -/
  | overflowError
  deriving DecidableEq, Repr

/-- What makes an ingest raise. -/
inductive StaticError where
  /-- The feed cannot be fetched or is no readable archive. -/
  | download
  /-- `ValueError`: the archive misses required files. -/
  | missingFiles (names : List String)
  | conversion (e : PyError)
  | statement (e : DbError)
  deriving DecidableEq, Repr

/-! ## Records -/

/-- A record: its cells by column. -/
abbrev Record := List (String × String)

namespace Record

/-- `row.get(column)`. -/
def get (row : Record) (column : String) : Option String := row.lookup column

/-- `row.get(column) or None`. -/
def cell (row : Record) (column : String) : Option String := (row.get column).bind orNone

/-- `row[column]`. -/
def item (row : Record) (column : String) : Except PyError String :=
  match row.get column with
  | some value => .ok value
  | none => .error (.keyError column)

end Record

/-! ## Conversions -/

/-- `int(value)`. -/
def toInt (value : String) : Except PyError ℤ :=
  match pyInt value with
  | some n => .ok n
  | none => .error .valueError

/-- `float(value)`. -/
def toFloat (value : String) : Except PyError XFloat :=
  match pyFloat value with
  | some x => .ok x
  | none => .error .valueError

/-- `int(row[column]) if row.get(column) else None`. -/
def Record.intCell (row : Record) (column : String) : Except PyError (Option ℤ) :=
  match row.cell column with
  | some value => (toInt value).map some
  | none => .ok none

/-- `float(row[column]) if row.get(column) else None`. -/
def Record.floatCell (row : Record) (column : String) : Except PyError (Option XFloat) :=
  match row.cell column with
  | some value => (toFloat value).map some
  | none => .ok none

/-- `dt.datetime.strptime(value, "%Y%m%d").date()`. -/
def toDate (value : String) : Except PyError Date :=
  match strptimeYmd value with
  | some d => .ok d
  | none => .error .valueError

/-- `_to_bool`. -/
def toBool (value : String) : Bool := strip value.toList = ['1']

/-- `_hms_to_interval`: the hours may exceed 24, and any part may be negative. -/
def hmsToInterval (value : String) : Except PyError ℤ :=
  match value.toList.splitOn ':' with
  | [hh, mm, ss] => do
    let hh ← toInt (String.ofList hh)
    let mm ← toInt (String.ofList mm)
    let ss ← toInt (String.ofList ss)
    let interval := hours hh + minutes mm + seconds ss
    if -999999999 ≤ dayOf interval ∧ dayOf interval ≤ 999999999 then return interval
    else throw .overflowError
  | _ => .error .valueError

/-! ## Rows -/

/-- The row of a record of `agency.txt`. -/
def agencyRow (row : Record) : Except PyError Agency := do
  return {
    agencyId := (row.cell "agency_id").getD "default"
    name := (row.cell "agency_name").getD "Unknown Agency"
    url := row.cell "agency_url"
    timezone := (row.cell "agency_timezone").getD "Australia/Brisbane" }

/-- The row of a record of `routes.txt`. -/
def routeRow (row : Record) : Except PyError Route := do
  return {
    routeId := ← row.item "route_id"
    agencyId := some ((row.cell "agency_id").getD "default")
    shortName := row.cell "route_short_name"
    longName := row.cell "route_long_name"
    routeType := (← row.intCell "route_type").getD 3
    color := row.cell "route_color"
    textColor := row.cell "route_text_color" }

/-- The row of a record of `stops.txt`, skipped without two coordinates. -/
def stopRow (row : Record) : Except PyError (Option Stop) := do
  let lat ← row.floatCell "stop_lat"
  let lon ← row.floatCell "stop_lon"
  match lat, lon with
  | some lat, some lon =>
    return some {
      stopId := ← row.item "stop_id"
      code := row.cell "stop_code"
      name := ← row.item "stop_name"
      description := row.cell "stop_desc"
      lat := lat
      lon := lon
      locationType := ← row.intCell "location_type"
      parentStation := row.cell "parent_station"
      platformCode := row.cell "platform_code" }
  | _, _ => return none

/-- The row of a record of `trips.txt`. -/
def tripRow (row : Record) : Except PyError Trip := do
  return {
    tripId := ← row.item "trip_id"
    routeId := ← row.item "route_id"
    serviceId := ← row.item "service_id"
    headsign := row.cell "trip_headsign"
    shortName := row.cell "trip_short_name"
    directionId := ← row.intCell "direction_id"
    blockId := row.cell "block_id"
    shapeId := row.cell "shape_id" }

/-- The row of a record of `calendar.txt`. -/
def calendarRow (row : Record) : Except PyError Calendar := do
  return {
    serviceId := ← row.item "service_id"
    monday := toBool (← row.item "monday")
    tuesday := toBool (← row.item "tuesday")
    wednesday := toBool (← row.item "wednesday")
    thursday := toBool (← row.item "thursday")
    friday := toBool (← row.item "friday")
    saturday := toBool (← row.item "saturday")
    sunday := toBool (← row.item "sunday")
    startDate := ← toDate (← row.item "start_date")
    endDate := ← toDate (← row.item "end_date") }

/-- The row of a record of `calendar_dates.txt`. -/
def calendarDateRow (row : Record) : Except PyError CalendarDate := do
  return {
    serviceId := ← row.item "service_id"
    date := ← toDate (← row.item "date")
    exceptionType := ← toInt (← row.item "exception_type") }

/-- Neither of the two times is blank. -/
def Record.timed (row : Record) : Bool :=
  (row.cell "arrival_time").isSome && (row.cell "departure_time").isSome

/-- The values of a record of `stop_times.txt`. -/
def stopTimeOf (row : Record) : Except PyError StopTime := do
  return {
    tripId := ← row.item "trip_id"
    stopSequence := ← toInt (← row.item "stop_sequence")
    stopId := ← row.item "stop_id"
    arrivalTime := ← hmsToInterval (← row.item "arrival_time")
    departureTime := ← hmsToInterval (← row.item "departure_time")
    pickupType := ← row.intCell "pickup_type"
    dropOffType := ← row.intCell "drop_off_type"
    shapeDistTraveled := ← row.floatCell "shape_dist_traveled" }

/-- The row of a record of `stop_times.txt`, skipped without two times. -/
def stopTimeRow (row : Record) : Except PyError (Option StopTime) :=
  if row.timed then (stopTimeOf row).map some else .ok none

/-! ## The archive -/

/-- The parsed files of a feed. -/
structure Frames where
  agency : List Record
  routes : List Record
  stops : List Record
  trips : List Record
  stopTimes : List Record
  calendar : List Record
  calendarDates : Option (List Record)
  deriving DecidableEq, Repr

/-- The files of an archive, each as `read_csv` reads it. -/
abbrev Archive := List (String × List Record)

/-- `archive.open(name)`: of several files of one name, the last. -/
def Archive.member (archive : Archive) (name : String) : Option (List Record) :=
  archive.reverse.lookup name

/-- `REQUIRED_FILES`, sorted. -/
def requiredFiles : List String :=
  ["agency.txt", "calendar.txt", "routes.txt", "stop_times.txt", "stops.txt", "trips.txt"]

/-- `_parse_zip`. -/
def parseZip (archive : Archive) : Except StaticError Frames :=
  match archive.member "agency.txt", archive.member "routes.txt", archive.member "stops.txt",
    archive.member "trips.txt", archive.member "stop_times.txt", archive.member "calendar.txt" with
  | some agency, some routes, some stops, some trips, some stopTimes, some calendar =>
    .ok {
      agency := agency
      routes := routes
      stops := stops
      trips := trips
      stopTimes := stopTimes
      calendar := calendar
      calendarDates := archive.member "calendar_dates.txt" }
  | _, _, _, _, _, _ =>
    .error (.missingFiles (requiredFiles.filter fun name => (archive.member name).isNone))

example : hmsToInterval "25:30:15" = .ok (seconds (25 * 3600 + 30 * 60 + 15)) := by decide

end DelayPredictor
