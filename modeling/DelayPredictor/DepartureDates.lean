import DelayPredictor.Departures
import DelayPredictor.StaticIngest

/-!
# Departures by service date

A stop time is an offset from midnight of every date its trip runs on, and may exceed a
day.  `upcoming_departures` looks at the offsets of today's date only, and at no calendar.

* `departuresComplete_iff` — **when the departures of a window are all listed**: exactly
  when no stop time of the stop falls into the window on another service date.
* `departuresActive_iff` — **when all that is listed runs**: exactly when the services of
  the selected rows are active today.
-/

namespace DelayPredictor

open Keyed PyTime Query ReadThrough Transaction

/-! ## All departures of a window -/

/-- A stop time on the service date `day`, counted from 1970-01-01. -/
def StopTime.instantOn (stopTime : StopTime) (day : ℤ) : Instant :=
  days day + stopTime.departureTime

/-- A stop time at the stop whose offset is in the window of today. -/
def StopTime.OfToday (stopTime : StopTime) (now : Instant) (stopId : String)
    (windowMinutes : ℕ) : Prop :=
  stopTime.stopId = stopId ∧ seconds (secondsIntoDay now) ≤ stopTime.departureTime ∧
    stopTime.departureTime ≤ seconds (secondsIntoDay now + windowMinutes * 60)

instance (stopTime : StopTime) (now : Instant) (stopId : String) (windowMinutes : ℕ) :
    Decidable (stopTime.OfToday now stopId windowMinutes) :=
  inferInstanceAs (Decidable (_ ∧ _))

/-- The instant is in the window that begins now. -/
def InWindow (now : Instant) (windowMinutes : ℕ) (t : Instant) : Prop :=
  now ≤ t ∧ t ≤ now + minutes windowMinutes

instance (now : Instant) (windowMinutes : ℕ) (t : Instant) :
    Decidable (InWindow now windowMinutes t) :=
  inferInstanceAs (Decidable (_ ∧ _))

/-- Every stop time in the window is listed for its service date, and the departures are in
the order of these instants. -/
structure CompleteAnswer (T : StaticDb) (now : Instant) (q : DepartureQuery)
    (reads : List DepartureRead) (departures : List Departure) : Prop where
  listed : ∀ stopTime ∈ T.stopTimes.data, stopTime.stopId = q.stopId → ∀ day,
    InWindow now q.windowMinutes (stopTime.instantOn day) →
      ∃ p ∈ reads.zip departures, p.1.1.stopTime = stopTime ∧ p.2.tripId = stopTime.tripId ∧
        p.2.scheduledDeparture = stopTime.instantOn day
  ordered : departures.Pairwise fun a b => a.scheduledDeparture ≤ b.scheduledDeparture

/-- Every answer with a limit that is large enough is complete. -/
def DeparturesComplete (rt : Runtime) (settings : Settings) (T : StaticDb) (db : Db)
    (now : Instant) (stopId : String) (windowMinutes : ℕ) : Prop :=
  ∀ limit cache reads departures, ((⟨stopId, windowMinutes, limit⟩ : DepartureQuery).selected T
      now).length ≤ limit →
    DeparturesAnswer rt settings T db now ⟨stopId, windowMinutes, limit⟩ cache reads departures →
    CompleteAnswer T now ⟨stopId, windowMinutes, limit⟩ reads departures

/-- The stop times in the window are those of today, up to the second it ends in. -/
def DepartsToday (T : StaticDb) (now : Instant) (stopId : String) (windowMinutes : ℕ) : Prop :=
  ∀ stopTime ∈ T.stopTimes.data, stopTime.stopId = stopId → ∀ day,
    InWindow now windowMinutes (stopTime.instantOn day) →
      day = dayOf now ∧
        stopTime.departureTime ≤ seconds (secondsIntoDay now + windowMinutes * 60)

theorem midnight_add_secondsIntoDay_le (now : ℤ) :
    midnight now + seconds (secondsIntoDay now) ≤ now := by
  have hseconds := secondsOfDay_eq now
  unfold midnight secondsIntoDay days seconds dayOf
  rw [hseconds]
  show (_ : ℤ) ≤ now
  omega

section

variable {rt : Runtime} {settings : Settings} {T : StaticDb} {db : Db} {now : Instant}
  {q : DepartureQuery} {cache : Store String PredictionOut} {reads : List DepartureRead}
  {departures : List Departure}

/-- The departures come in the order of their scheduled instants. -/
theorem DeparturesAnswer.ordered
    (h : DeparturesAnswer rt settings T db now q cache reads departures) :
    departures.Pairwise fun a b => a.scheduledDeparture ≤ b.scheduledDeparture := by
  have hscheduled : departures.map (·.scheduledDeparture) =
      (reads.map Prod.fst).map fun row => row.scheduled now := by
    rw [List.map_map]
    exact (Raising.map_eq_of_forall₂ h.describes fun _ _ hd => hd.scheduled.symm).symm
  have hrows := h.rows.pairwise
  rw [← List.pairwise_map (f := Departure.scheduledDeparture) (R := (· ≤ ·)), hscheduled,
    List.pairwise_map]
  refine hrows.imp fun hab => ?_
  exact add_le_add_right hab _

/-- A stop time of today that is in the window is selected. -/
theorem exists_selected {stopTime : StopTime} (hst : stopTime ∈ T.stopTimes.data)
    (hstop : stopTime.stopId = q.stopId) (hfrom : now ≤ stopTime.instantOn (dayOf now))
    (hto : stopTime.departureTime ≤ seconds (q.windowEndSeconds now)) :
    ∃ row ∈ q.selected T now, row.stopTime = stopTime := by
  obtain ⟨row, hrow, rfl⟩ := exists_row hst
  refine ⟨row, mem_selected_iff.2 ⟨hrow, hstop, ?_, hto⟩, rfl⟩
  have hle := (midnight_add_secondsIntoDay_le now).trans hfrom
  exact le_of_add_le_add_left hle

/-- What is listed is listed for today. -/
theorem DeparturesComplete.departsToday {stopId : String} {windowMinutes : ℕ}
    (h : DeparturesComplete rt settings T db now stopId windowMinutes) :
    DepartsToday T now stopId windowMinutes := by
  intro stopTime hst hstop day hwindow
  let q : DepartureQuery := ⟨stopId, windowMinutes,
    ((⟨stopId, windowMinutes, 0⟩ : DepartureQuery).selected T now).length⟩
  have hkey : q.stopId ∈ T.stops.keys := by
    show stopId ∈ T.stops.keys
    rw [← hstop]
    exact T.linked.stopTime_stop stopTime hst stopTime.stopId rfl
  obtain ⟨reads, departures, hanswer⟩ :=
    exists_answer (q := q) rt settings db now Store.empty hkey
  have hcomplete := h q.limit Store.empty reads departures le_rfl hanswer
  obtain ⟨⟨p, d⟩, hpd, hrow, -, hinstant⟩ := hcomplete.listed stopTime hst hstop day hwindow
  have hscheduled := (hanswer.describes_of_mem_zip hpd).scheduled
  obtain ⟨-, -, -, hto⟩ := mem_selected_iff.1 (hanswer.mem_selected (List.of_mem_zip hpd).1)
  dsimp only at hrow hinstant
  rw [hrow] at hto
  refine ⟨?_, hto⟩
  rw [hinstant] at hscheduled
  unfold DepartureRow.scheduled StopTime.instantOn midnight at hscheduled
  rw [hrow] at hscheduled
  exact days_inj (add_right_cancel hscheduled)

/-- **When the departures of a window are all listed.** -/
theorem departuresComplete_iff (rt : Runtime) (settings : Settings) (T : StaticDb) (db : Db)
    (now : Instant) (stopId : String) (windowMinutes : ℕ) :
    DeparturesComplete rt settings T db now stopId windowMinutes ↔
      DepartsToday T now stopId windowMinutes := by
  constructor
  · intro h
    exact h.departsToday
  · intro h limit cache reads departures hlimit hanswer
    refine ⟨?_, hanswer.ordered⟩
    intro stopTime hst hstop day hwindow
    obtain ⟨rfl, hto⟩ := h stopTime hst hstop day hwindow
    obtain ⟨row, hrow, rfl⟩ := exists_selected hst hstop hwindow.1 hto
    obtain ⟨p, hp, rfl⟩ := hanswer.exists_read hlimit hrow
    obtain ⟨d, hpd⟩ := hanswer.exists_departure hp
    have hd := hanswer.describes_of_mem_zip hpd
    obtain ⟨-, -, htrip, -, -⟩ := mem_departureJoin_iff.1 (mem_selected_iff.1 hrow).1
    exact ⟨(p, d), hpd, rfl, hd.trip.trans htrip, hd.scheduled⟩

end

/-- A trip in the morning and one after midnight, from Monday to Friday. -/
def weekdayFeed : Frames where
  agency := [[("agency_id", ""), ("agency_name", "TransLink"),
    ("agency_timezone", "Australia/Brisbane")]]
  routes := [[("route_id", "M1"), ("agency_id", ""), ("route_type", "3")]]
  stops := [[("stop_id", "S1"), ("stop_name", "Platform"), ("stop_lat", "0"), ("stop_lon", "0")]]
  trips := [[("route_id", "M1"), ("service_id", "WD"), ("trip_id", "T1")],
    [("route_id", "M1"), ("service_id", "WD"), ("trip_id", "T2")]]
  stopTimes := [[("trip_id", "T1"), ("arrival_time", "08:00:00"),
      ("departure_time", "08:00:00"), ("stop_id", "S1"), ("stop_sequence", "1")],
    [("trip_id", "T2"), ("arrival_time", "25:30:00"), ("departure_time", "25:30:00"),
      ("stop_id", "S1"), ("stop_sequence", "1")]]
  calendar := [[("service_id", "WD"), ("monday", "1"), ("tuesday", "1"), ("wednesday", "1"),
    ("thursday", "1"), ("friday", "1"), ("saturday", "0"), ("sunday", "0"),
    ("start_date", "20260101"), ("end_date", "20261231")]]
  calendarDates := none

/-- Its ingest into an empty database. -/
def weekdayIngest : Except StaticError Unit × StaticDb :=
  run noFaults (ingestFrames (fun _ _ => true) noFaults weekdayFeed) StaticDb.empty

theorem weekdayIngest_ok : weekdayIngest.1 = .ok () := by decide +kernel

/-- The stop time of its trip after midnight. -/
def nightStopTime : StopTime where
  tripId := "T2"
  stopSequence := 1
  stopId := "S1"
  arrivalTime := hours 25 + minutes 30
  departureTime := hours 25 + minutes 30
  pickupType := none
  dropOffType := none
  shapeDistTraveled := none

/-- On 2026-05-14 at 01:20 the trip of the day before leaves at 01:30, and is not listed. -/
theorem nightTrip_unlisted :
    weekdayIngest.1 = .ok () ∧
      ¬ DeparturesComplete Runtime.bare Settings.default weekdayIngest.2 Db.empty
        (days 20587 + minutes 80) "S1" 60 := by
  refine ⟨weekdayIngest_ok, ?_⟩
  intro h
  have hmem : nightStopTime ∈ weekdayIngest.2.stopTimes.data := by decide +kernel
  have hwindow : InWindow (days 20587 + minutes 80) 60 (nightStopTime.instantOn 20586) := by
    decide
  obtain ⟨htoday, -⟩ := h.departsToday nightStopTime hmem rfl 20586 hwindow
  exact absurd htoday (by decide)

/-! ## The calendar -/

/-- The flag of the weekday of a day. -/
def Calendar.runsOn (c : Calendar) (day : ℤ) : Bool :=
  match weekdayOf (days day) with
  | 0 => c.monday
  | 1 => c.tuesday
  | 2 => c.wednesday
  | 3 => c.thursday
  | 4 => c.friday
  | 5 => c.saturday
  | _ => c.sunday

/-- The date range and the weekday flags of a `calendar` row cover a day. -/
def Calendar.Covers (c : Calendar) (day : ℤ) : Prop :=
  c.startDate.dayNumber ≤ day ∧ day ≤ c.endDate.dayNumber ∧ c.runsOn day = true

instance (c : Calendar) (day : ℤ) : Decidable (c.Covers day) :=
  inferInstanceAs (Decidable (_ ∧ _))

/-- A service has an exception of a type on a day. -/
def HasException (T : StaticDb) (serviceId : String) (day exceptionType : ℤ) : Prop :=
  ∃ e ∈ T.calendarDates.data,
    e.serviceId = serviceId ∧ e.date.dayNumber = day ∧ e.exceptionType = exceptionType

instance (T : StaticDb) (serviceId : String) (day exceptionType : ℤ) :
    Decidable (HasException T serviceId day exceptionType) :=
  inferInstanceAs (Decidable (∃ e ∈ T.calendarDates.data, _))

/-- A service is active on a day: it is added, or it is covered and not removed. -/
def Active (T : StaticDb) (serviceId : String) (day : ℤ) : Prop :=
  HasException T serviceId day 1 ∨
    (∃ c ∈ T.calendar.data, c.serviceId = serviceId ∧ c.Covers day) ∧
      ¬ HasException T serviceId day 2

instance (T : StaticDb) (serviceId : String) (day : ℤ) : Decidable (Active T serviceId day) :=
  inferInstanceAs (Decidable (_ ∨ (∃ c ∈ T.calendar.data, _) ∧ _))

/-- A departure is of a trip whose service is active on the date it is scheduled for. -/
structure RunsOnDate (T : StaticDb) (p : DepartureRead) (d : Departure) : Prop where
  trip : p.1.trip ∈ T.trips.data ∧ d.tripId = p.1.trip.tripId
  active : ∀ day, d.scheduledDeparture = p.1.stopTime.instantOn day →
    Active T p.1.trip.serviceId day

/-- Every departure of every answer runs. -/
def DeparturesActive (rt : Runtime) (settings : Settings) (T : StaticDb) (db : Db)
    (now : Instant) (stopId : String) (windowMinutes : ℕ) : Prop :=
  ∀ limit cache reads departures,
    DeparturesAnswer rt settings T db now ⟨stopId, windowMinutes, limit⟩ cache reads departures →
    List.Forall₂ (RunsOnDate T) reads departures

/-- The trips with a stop time at the stop in the window of today run today. -/
def ServicesActive (T : StaticDb) (now : Instant) (stopId : String) (windowMinutes : ℕ) : Prop :=
  ∀ stopTime ∈ T.stopTimes.data, stopTime.OfToday now stopId windowMinutes →
    ∀ trip ∈ T.trips.data, trip.tripId = stopTime.tripId → Active T trip.serviceId (dayOf now)

section

variable {rt : Runtime} {settings : Settings} {T : StaticDb} {db : Db} {now : Instant}
  {stopId : String} {windowMinutes : ℕ}

/-- What the stop times of today's window and their trips meet, as one of the rows. -/
theorem forall_selected_iff {P : StopTime → Trip → Prop} :
    (∀ row ∈ (⟨stopId, windowMinutes, 0⟩ : DepartureQuery).selected T now,
        P row.stopTime row.trip) ↔
      ∀ stopTime ∈ T.stopTimes.data, stopTime.OfToday now stopId windowMinutes →
        ∀ trip ∈ T.trips.data, trip.tripId = stopTime.tripId → P stopTime trip := by
  constructor
  · intro h stopTime hst htoday trip htrip hid
    obtain ⟨row, hjoin, rfl, rfl⟩ := exists_row_of_trip hst htrip hid
    exact h row (mem_selected_iff.2 ⟨hjoin, htoday⟩)
  · intro h row hrow
    obtain ⟨hjoin, htoday⟩ := mem_selected_iff.1 hrow
    obtain ⟨hst, htrip, hid, -, -⟩ := mem_departureJoin_iff.1 hjoin
    exact h row.stopTime hst htoday row.trip htrip hid

/-- A departure that was made of a row runs exactly when the service is active today. -/
theorem runsOnDate_iff {p : DepartureRead} {d : Departure} (htrip : p.1.trip ∈ T.trips.data)
    (hd : Describes now p d) : RunsOnDate T p d ↔ Active T p.1.trip.serviceId (dayOf now) := by
  constructor
  · intro h
    exact h.active (dayOf now) hd.scheduled
  · intro h
    refine ⟨⟨htrip, hd.trip⟩, ?_⟩
    intro day hday
    rw [hd.scheduled] at hday
    have htoday : dayOf now = day := days_inj (add_right_cancel hday)
    rwa [← htoday]

/-- What is listed runs when the services of the selected rows are active today. -/
theorem departuresActive_iff_rows :
    DeparturesActive rt settings T db now stopId windowMinutes ↔
      ∀ row ∈ (⟨stopId, windowMinutes, 0⟩ : DepartureQuery).selected T now,
        Active T row.trip.serviceId (dayOf now) := by
  unfold DeparturesActive
  rw [forall_departures_iff (C := fun row _ => Active T row.trip.serviceId (dayOf now))]
  · constructor
    · intro h row hrow
      obtain ⟨update, hupdate⟩ := exists_first NewestFirst (stopUpdates db row.trip.tripId stopId)
      exact h row hrow update hupdate
    · intro h row hrow _ _
      exact h row hrow
  · intro row hrow update _ d hd
    exact runsOnDate_iff (mem_departureJoin_iff.1 (mem_selected_iff.1 hrow).1).2.1 hd

/-- **When all that is listed runs.** -/
theorem departuresActive_iff (rt : Runtime) (settings : Settings) (T : StaticDb) (db : Db)
    (now : Instant) (stopId : String) (windowMinutes : ℕ) :
    DeparturesActive rt settings T db now stopId windowMinutes ↔
      ServicesActive T now stopId windowMinutes := by
  rw [departuresActive_iff_rows]
  exact forall_selected_iff (P := fun _ trip => Active T trip.serviceId (dayOf now))

end

/-- The stop time of its trip in the morning. -/
def morningStopTime : StopTime :=
  { nightStopTime with tripId := "T1", arrivalTime := hours 8, departureTime := hours 8 }

/-- The trip in the morning. -/
def morningTrip : Trip where
  tripId := "T1"
  routeId := "M1"
  serviceId := "WD"
  headsign := none
  shortName := none
  directionId := none
  blockId := none
  shapeId := none

/-- 2026-05-17 is a Sunday, and the trip of the weekdays is listed. -/
theorem sunday_listsWeekdays :
    weekdayIngest.1 = .ok () ∧
      ¬ DeparturesActive Runtime.bare Settings.default weekdayIngest.2 Db.empty
        (days 20590 + hours 8) "S1" 60 := by
  refine ⟨weekdayIngest_ok, ?_⟩
  intro h
  have hst : morningStopTime ∈ weekdayIngest.2.stopTimes.data := by decide +kernel
  have htrip : morningTrip ∈ weekdayIngest.2.trips.data := by decide +kernel
  obtain ⟨row, hjoin, hrow, hmorning⟩ := exists_row_of_trip hst htrip rfl
  have hactive := departuresActive_iff_rows.1 h row
    (mem_selected_iff.2 ⟨hjoin, by rw [hrow]; decide⟩)
  rw [hmorning] at hactive
  exact absurd hactive (by decide +kernel)

end DelayPredictor
