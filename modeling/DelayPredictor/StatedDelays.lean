import DelayPredictor.Ingest

/-!
# Stated delays

Which stop time updates `ingest_trip_updates` turns into observations, against
what the documentation says: those with a `delay` field.

* `TripUpdateMsg.RecordsStated` — the rows of a trip update are what its `delay`
  fields state: one observation for each stop time update that has one, with the
  arrival's delay before the departure's, and a null for each field that is unset.
* `pollRecordsStated_iff` — **when a poll records what it states**: exactly when no
  event in it lacks its delay.  The code asks whether the event is there, and the
  delay of an event that has only a time reads as zero.
-/

namespace DelayPredictor

open Keyed PyTime Raising

/-! ## What a trip update states -/

/-- The `delay` field of an event, if both are there. -/
def statedBy (event : Option StopTimeEvent) : Option ℤ := (event.bind (·.delay)).map Int32.toInt

namespace StopTimeUpdateMsg

/-- The delay an update states: that of its arrival, or else that of its departure. -/
def statedDelay (stu : StopTimeUpdateMsg) : Option ℤ :=
  (statedBy stu.arrival).or (statedBy stu.departure)

/-- The events that are there have their delays. -/
def EventsHaveDelays (stu : StopTimeUpdateMsg) : Prop :=
  (∀ e, stu.arrival = some e → e.delay ≠ none) ∧ ∀ e, stu.departure = some e → e.delay ≠ none

end StopTimeUpdateMsg

namespace TripUpdateMsg

/-- An update gets an observation exactly when it states a delay for a stop, and
its trip a route and a date; the observation has the delay it states. -/
structure ObservesStated (tu : TripUpdateMsg) (stu : StopTimeUpdateMsg)
    (o : Option DelayObservation) : Prop where
  observed_iff : o.isSome ↔ stu.stopId ≠ "" ∧ tu.trip.routeId ≠ "" ∧ tu.trip.startDate ≠ "" ∧
    ((statedBy stu.arrival).isSome ∨ (statedBy stu.departure).isSome)
  delay_eq : ∀ x ∈ o, some x.delaySeconds = stu.statedDelay

/-- A delay column is null exactly when the field is unset. -/
structure StoresStated (stu : StopTimeUpdateMsg) (v : StopTimeValues) : Prop where
  arrival_iff : v.arrivalDelaySeconds = none ↔ statedBy stu.arrival = none
  departure_iff : v.departureDelaySeconds = none ↔ statedBy stu.departure = none

/-- The rows of a trip update are what it states. -/
structure RecordsStated (tu : TripUpdateMsg) (r : TripRows) : Prop where
  observations : ∃ row : StopTimeUpdateMsg → Option DelayObservation,
    r.observations = tu.stopTimeUpdate.filterMap row ∧
      ∀ stu ∈ tu.stopTimeUpdate, tu.ObservesStated stu (row stu)
  stopTimes : List.Forall₂ StoresStated tu.stopTimeUpdate r.stopTimes

end TripUpdateMsg

/-! ## What is recorded of one update -/

/-- An event that has its delay is read as it is. -/
theorem map_delayValue {event : Option StopTimeEvent} (h : ∀ e, event = some e → e.delay ≠ none) :
    event.map (·.delayValue) = statedBy event := by
  cases event with
  | none => rfl
  | some e =>
    obtain ⟨d, hd⟩ := Option.ne_none_iff_exists'.1 (h e rfl)
    simp [StopTimeEvent.delayValue, statedBy, hd]

/-- What is stored is null where the field is unset exactly when an event that is
there has its delay. -/
theorem nulls_agree_iff {event : Option StopTimeEvent} :
    (event.map (·.delayValue) = none ↔ statedBy event = none) ↔
      ∀ e, event = some e → e.delay ≠ none := by
  cases event with
  | none => simp [statedBy]
  | some e => simp [statedBy]

theorem storesStated_iff {stu : StopTimeUpdateMsg} {v : StopTimeValues}
    (h : stopTimeValues stu = .ok v) :
    TripUpdateMsg.StoresStated stu v ↔ stu.EventsHaveDelays := by
  obtain ⟨arrivalTime, departureTime, -, -, rfl⟩ := stopTimeValues_eq_ok_iff.1 h
  refine ⟨?_, ?_⟩
  · intro hv
    exact ⟨nulls_agree_iff.1 hv.arrival_iff, nulls_agree_iff.1 hv.departure_iff⟩
  · rintro ⟨harrival, hdeparture⟩
    exact ⟨nulls_agree_iff.2 harrival, nulls_agree_iff.2 hdeparture⟩

/-- With the delays there, an observation is made exactly where one is stated. -/
theorem observesStated {tu : TripUpdateMsg} {stu : StopTimeUpdateMsg} {startDate : Option Date}
    (hdate : startDate.isSome ↔ tu.trip.startDate ≠ "") (recorded : Instant)
    (h : stu.EventsHaveDelays) :
    tu.ObservesStated stu (observationRow tu.trip recorded startDate stu) := by
  unfold observationRow
  rw [map_delayValue h.1, map_delayValue h.2]
  refine ⟨?_, ?_⟩
  · rw [← hdate]
    cases harrival : statedBy stu.arrival <;> cases hdeparture : statedBy stu.departure <;>
      cases startDate <;> simp [not_or]
  · intro x hx
    simp only [Option.bind_eq_bind, Option.mem_def, Option.bind_eq_some_iff] at hx
    obtain ⟨delay, hdelay, date, -, hx⟩ := hx
    split at hx
    · cases hx
    · cases hx
      exact hdelay.symm

/-! ## What is recorded of a trip update -/

theorem parseStartDate_isSome {s : String} {d : Option Date} (h : parseStartDate s = .ok d) :
    d.isSome ↔ s ≠ "" := by
  unfold parseStartDate at h
  split at h
  · rename_i hs
    cases h
    simp [hs]
  · rename_i hs
    split at h
    · cases h
      simp [hs]
    · cases h

theorem forall₂_stopTimeRows {stus : List StopTimeUpdateMsg} {vs : List StopTimeValues}
    (h : stopTimeRows stus = .ok vs) :
    List.Forall₂ (fun stu v => stopTimeValues stu = .ok v) stus vs := by
  induction stus generalizing vs with
  | nil =>
    cases h
    exact .nil
  | cons stu stus ih =>
    simp only [stopTimeRows, bind_eq_ok_iff, pure_eq_ok_iff] at h
    obtain ⟨v, hv, vs', hvs, rfl⟩ := h
    exact .cons hv (ih hvs)

/-- The stored columns alone tell whether an event lacks its delay. -/
theorem forall₂_storesStated_iff {stus : List StopTimeUpdateMsg} {vs : List StopTimeValues}
    (h : List.Forall₂ (fun stu v => stopTimeValues stu = .ok v) stus vs) :
    List.Forall₂ TripUpdateMsg.StoresStated stus vs ↔ ∀ stu ∈ stus, stu.EventsHaveDelays :=
  forall₂_iff_forall_mem h fun _ _ hv => storesStated_iff hv

theorem recordsStated_iff {tu : TripUpdateMsg} {now : Instant} {r : TripRows}
    (h : decodeTripUpdate now tu = .ok r) :
    tu.RecordsStated r ↔ ∀ stu ∈ tu.stopTimeUpdate, stu.EventsHaveDelays := by
  obtain ⟨recorded, startDate, -, hdate, -, hstops, hobs⟩ := decodeTripUpdate_eq_ok h
  have hstored := forall₂_storesStated_iff (forall₂_stopTimeRows hstops)
  refine ⟨?_, ?_⟩
  · intro hr
    exact hstored.1 hr.stopTimes
  · intro hdelays
    refine ⟨⟨observationRow tu.trip recorded startDate, hobs, ?_⟩, hstored.2 hdelays⟩
    intro stu hstu
    exact observesStated (parseStartDate_isSome hdate) recorded (hdelays stu hstu)

/-! ## What is recorded of a poll -/

/-- The rows of every trip update of the poll are what it states. -/
def Poll.RecordsStated (poll : Poll) : Prop :=
  List.Forall₂ (fun x r => x.1.RecordsStated r) poll.tripUpdates poll.stored

/-- No event of the poll lacks its delay. -/
def Poll.EventsHaveDelays (poll : Poll) : Prop :=
  ∀ x ∈ poll.tripUpdates, ∀ stu ∈ x.1.stopTimeUpdate, stu.EventsHaveDelays

/-- A poll that commits stores what its trip updates decode to. -/
theorem stored_of_commits {db db' : Db} {poll : Poll} (h : ingestTripUpdates db poll = .ok db') :
    poll.decoded = .ok poll.stored ∧ db' = poll.stored.foldl Db.applyTrip db := by
  obtain ⟨rs, hrs, hall, rfl⟩ := ingestTripUpdates_eq_ok_iff.1 h
  have hstored : poll.stored = rs := by
    unfold Poll.stored
    rw [hrs]
    exact if_pos hall
  rw [hstored]
  exact ⟨hrs, rfl⟩

theorem forall₂_recordsStated_iff {xs : List (TripUpdateMsg × Instant)} {rs : List TripRows}
    (h : List.Forall₂ (fun x r => decodeTripUpdate x.2 x.1 = .ok r) xs rs) :
    List.Forall₂ (fun x r => x.1.RecordsStated r) xs rs ↔
      ∀ x ∈ xs, ∀ stu ∈ x.1.stopTimeUpdate, stu.EventsHaveDelays :=
  forall₂_iff_forall_mem h fun _ _ hr => recordsStated_iff hr

/-- **When a poll that commits records what it states.** -/
theorem pollRecordsStated_iff {db db' : Db} {poll : Poll}
    (h : ingestTripUpdates db poll = .ok db') :
    db' = poll.stored.foldl Db.applyTrip db ∧ (poll.RecordsStated ↔ poll.EventsHaveDelays) := by
  obtain ⟨hdecoded, hdb⟩ := stored_of_commits h
  exact ⟨hdb, forall₂_recordsStated_iff (decoded_eq_ok_iff.1 hdecoded)⟩

/-- One trip of route `M1`, with one event at the stop `S1`, its arrival. -/
def arrivalFeed (arrival : StopTimeEvent) : Poll :=
  [({ id := "1"
      tripUpdate := some {
        trip := {
          tripId := "T1", routeId := "M1", startDate := "20260513", scheduleRelationship := none }
        vehicleId := "V1"
        stopTimeUpdate := [{
          stopSequence := none
          stopId := "S1"
          arrival := some arrival
          departure := none
          scheduleRelationship := none }]
        timestamp := 1000 }
      vehicle := none }, seconds 1000)]

/-- One trip with a departure, an arrival and a stop without either event. -/
def delayFeed : Poll :=
  [({ id := "1"
      tripUpdate := some {
        trip := {
          tripId := "T1", routeId := "M1", startDate := "20260513", scheduleRelationship := none }
        vehicleId := "V1"
        stopTimeUpdate := [
          { stopSequence := some 1, stopId := "S1", arrival := none,
            departure := some ⟨some 90, none⟩, scheduleRelationship := none },
          { stopSequence := some 2, stopId := "S2", arrival := none, departure := none,
            scheduleRelationship := some 2 },
          { stopSequence := some 3, stopId := "S3", arrival := some ⟨some 60, some 1050⟩,
            departure := none, scheduleRelationship := none }]
        timestamp := 1000 }
      vehicle := none }, seconds 1000)]

/-- The two delays that are stated are recorded, and none for the stop between them. -/
theorem delayFeed_recordsStated :
    ∃ db', ingestTripUpdates Db.empty delayFeed = .ok db' ∧ delayFeed.RecordsStated ∧
      db'.delayObservations.rows.map (fun o => (o.data.stopId, o.data.delaySeconds)) =
        [("S1", 90), ("S3", 60)] := by
  obtain ⟨db', h, hrows⟩ : ∃ db', ingestTripUpdates Db.empty delayFeed = .ok db' ∧
      db'.delayObservations.rows.map (fun o => (o.data.stopId, o.data.delaySeconds)) =
        [("S1", 90), ("S3", 60)] := ⟨_, rfl, by decide⟩
  refine ⟨db', h, (pollRecordsStated_iff h).2.2 ?_, hrows⟩
  simp [Poll.EventsHaveDelays, Poll.tripUpdates, delayFeed, StopTimeUpdateMsg.EventsHaveDelays]

/-- An arrival with only a time is recorded as being on time. -/
theorem timeFeed_observesZero :
    ¬ ∀ db db' poll, ingestTripUpdates db poll = .ok db' → Poll.RecordsStated poll := by
  intro hall
  obtain ⟨db', h⟩ : ∃ db', ingestTripUpdates Db.empty (arrivalFeed ⟨none, some 1050⟩) = .ok db' :=
    ⟨_, rfl⟩
  have hdecoded := decoded_eq_ok_iff.1 (stored_of_commits h).1
  have hdelays := (forall₂_recordsStated_iff hdecoded).1 (hall _ _ _ h)
  simp [Poll.tripUpdates, arrivalFeed, StopTimeUpdateMsg.EventsHaveDelays] at hdelays

end DelayPredictor
