import DelayPredictor.Departures
import DelayPredictor.StatedDelays

/-!
# Three views of a delay

A stop time update has an arrival and a departure, each with a delay.  Three places make one
delay of the two: `ingest_trip_updates`, whose observations take the arrival's first, and
`live_delays` and `upcoming_departures`, which take the departure's first.

* `OneDelay` — the live view and a departure have the delay of an observation.
* `pollOneDelay_iff` — **when a stop update has one delay**: exactly when its two events, if
  both are there, have the same.
-/

namespace DelayPredictor

open PyTime Raising

/-! ## One delay -/

/-- What `live_delays` reports for a row, and what `upcoming_departures` adds wherever it
reads the row, is the delay of an observation. -/
structure OneDelay (o : DelayObservation) (u : LiveRow) : Prop where
  live : u.delay.delaySeconds = some o.delaySeconds
  departures : ∀ rt settings T db now q cache reads departures,
    DeparturesAnswer rt settings T db now q cache reads departures →
    ∀ p d, (p, d) ∈ reads.zip departures → p.2 = some u →
      d.predictedDeparture = d.scheduledDeparture + seconds o.delaySeconds

/-- The rows of a trip update have one delay for each of its updates that is observed. -/
structure TripUpdateMsg.OneDelay (tu : TripUpdateMsg) (r : TripRows) : Prop where
  observations : r.observations = tu.stopTimeUpdate.filterMap
    (observationRow tu.trip r.tripUpdate.recordedAt r.tripUpdate.startDate)
  views : List.Forall₂ (fun stu v => ∀ o,
    observationRow tu.trip r.tripUpdate.recordedAt r.tripUpdate.startDate stu = some o →
      DelayPredictor.OneDelay o (r.tripUpdate, v)) tu.stopTimeUpdate r.stopTimes

/-- The rows of a poll do. -/
def Poll.OneDelay (poll : Poll) : Prop :=
  List.Forall₂ (fun x r => x.1.OneDelay r) poll.tripUpdates poll.stored

/-- The two events of an update have the same delay, if both are there. -/
def StopTimeUpdateMsg.EventsAgree (stu : StopTimeUpdateMsg) : Prop :=
  ∀ a d, stu.arrival = some a → stu.departure = some d → a.delayValue = d.delayValue

/-- The ids and the date that an observation needs are there. -/
def TripUpdateMsg.Observable (tu : TripUpdateMsg) (stu : StopTimeUpdateMsg) : Prop :=
  stu.stopId ≠ "" ∧ tu.trip.routeId ≠ "" ∧ tu.trip.startDate ≠ ""

/-! ## What a departure adds -/

/-- A departure is predicted by adding its delay. -/
theorem departuresOf_predicted {rt : Runtime} {settings : Settings} {db : Db} {now : Instant}
    (stopId : String) (reads : List DepartureRead)
    (cache : ReadThrough.Store String PredictionOut) :
    ∀ d ∈ (departuresOf rt settings db now stopId reads cache).1,
      d.predictedDeparture = d.scheduledDeparture + seconds d.predictedDelaySeconds := by
  induction reads generalizing cache with
  | nil => simp [departuresOf]
  | cons p rest ih =>
    unfold departuresOf
    cases realtimeDelay p with
    | some delay =>
      rw [List.forall_mem_cons]
      exact ⟨rfl, ih cache⟩
    | none =>
      rw [List.forall_mem_cons]
      exact ⟨rfl, ih _⟩

/-- So a departure that has read a row with a delay adds that delay. -/
theorem adds_appliedDelay {rt : Runtime} {settings : Settings} {T : StaticDb} {db : Db}
    {now : Instant} {q : DepartureQuery} {cache : ReadThrough.Store String PredictionOut}
    {reads : List DepartureRead} {departures : List Departure}
    (h : DeparturesAnswer rt settings T db now q cache reads departures) {p : DepartureRead}
    {d : Departure} (hpd : (p, d) ∈ reads.zip departures) {u : LiveRow} (hu : p.2 = some u)
    {delay : ℤ} (hdelay : u.appliedDelay = some delay) :
    d.predictedDeparture = d.scheduledDeparture + seconds delay := by
  have hd := h.describes_of_mem_zip hpd
  have hmem := (List.of_mem_zip hpd).2
  rw [h.departures] at hmem
  rw [departuresOf_predicted q.stopId reads cache d hmem]
  have hread : realtimeDelay p = some delay := by
    rw [realtimeDelay, hu]
    exact hdelay
  rw [(hd.applied delay hread).1]

/-- The live view and the departures read a row alike. -/
theorem oneDelay_iff {o : DelayObservation} {u : LiveRow} :
    OneDelay o u ↔ u.appliedDelay = some o.delaySeconds := by
  refine ⟨?_, ?_⟩
  · intro h
    exact h.live
  · intro h
    refine ⟨h, ?_⟩
    intro rt settings T db now q cache reads departures hanswer p d hpd hu
    exact adds_appliedDelay hanswer hpd hu h

/-! ## What is observed and what is read -/

section

variable {tu : TripUpdateMsg} {stu : StopTimeUpdateMsg} {v : StopTimeValues}
  {recorded : Instant} {startDate : Option Date}

/-- An observation has the arrival's delay, or else the departure's. -/
theorem exists_observation_iff (hdate : startDate.isSome ↔ tu.trip.startDate ≠ "") {delay : ℤ} :
    (∃ o, observationRow tu.trip recorded startDate stu = some o ∧ o.delaySeconds = delay) ↔
      tu.Observable stu ∧
        (stu.arrival.map (·.delayValue)).or (stu.departure.map (·.delayValue)) = some delay := by
  unfold observationRow TripUpdateMsg.Observable
  rw [← hdate]
  cases startDate <;>
    cases (stu.arrival.map (·.delayValue)).or (stu.departure.map (·.delayValue)) <;>
      simp [and_assoc, not_or]

/-- A stored row is read with the departure's delay, or else the arrival's. -/
theorem appliedDelay_of_stored (h : stopTimeValues stu = .ok v) (r : TripUpdate) :
    LiveRow.appliedDelay (r, v) =
      (stu.departure.map (·.delayValue)).or (stu.arrival.map (·.delayValue)) := by
  obtain ⟨arrivalTime, departureTime, -, -, rfl⟩ := stopTimeValues_eq_ok_iff.1 h
  rfl

/-- **Of one update**: the views agree with its observation exactly when its events do. -/
theorem views_agree_iff (hdate : startDate.isSome ↔ tu.trip.startDate ≠ "")
    (h : stopTimeValues stu = .ok v) (r : TripUpdate) :
    (∀ o, observationRow tu.trip recorded startDate stu = some o → OneDelay o (r, v)) ↔
      (tu.Observable stu → stu.EventsAgree) := by
  have hobs : ∀ delay, (∃ o, observationRow tu.trip recorded startDate stu = some o ∧
      o.delaySeconds = delay) ↔ _ := fun delay => exists_observation_iff hdate
  refine ⟨?_, ?_⟩
  · intro hviews hobservable a d ha hd
    obtain ⟨o, ho, hdelay⟩ := (hobs a.delayValue).2 ⟨hobservable, by simp [ha]⟩
    have hread := oneDelay_iff.1 (hviews o ho)
    rw [appliedDelay_of_stored h, hdelay] at hread
    simpa [ha, hd, eq_comm] using hread
  · intro hagree o ho
    obtain ⟨hobservable, hdelay⟩ := (hobs o.delaySeconds).1 ⟨o, ho, rfl⟩
    have hevents := hagree hobservable
    rw [oneDelay_iff, appliedDelay_of_stored h, ← hdelay]
    cases ha : stu.arrival with
    | none => cases stu.departure <;> rfl
    | some a =>
      cases hd : stu.departure with
      | none => rfl
      | some d => simp [hevents a d ha hd]

end

/-! ## Of a trip update and of a poll -/

/-- Row by row: the observations alone are as they are for any feed. -/
theorem forall₂_views_agree_iff {tu : TripUpdateMsg} {recorded : Instant}
    {startDate : Option Date} (hdate : startDate.isSome ↔ tu.trip.startDate ≠ "")
    (r : TripUpdate) {stus : List StopTimeUpdateMsg} {vs : List StopTimeValues}
    (h : List.Forall₂ (fun stu v => stopTimeValues stu = .ok v) stus vs) :
    List.Forall₂ (fun stu v => ∀ o, observationRow tu.trip recorded startDate stu = some o →
        OneDelay o (r, v)) stus vs ↔
      ∀ stu ∈ stus, tu.Observable stu → stu.EventsAgree :=
  forall₂_iff_forall_mem h fun _ _ hv => views_agree_iff hdate hv r

theorem tripOneDelay_iff {now : Instant} {tu : TripUpdateMsg} {r : TripRows}
    (h : decodeTripUpdate now tu = .ok r) :
    tu.OneDelay r ↔ ∀ stu ∈ tu.stopTimeUpdate, tu.Observable stu → stu.EventsAgree := by
  obtain ⟨recorded, startDate, stopTimes, -, hdate, hstops, rfl⟩ := decodeTripUpdate_eq_ok_iff.1 h
  rw [← forall₂_views_agree_iff (parseStartDate_isSome hdate) _ (forall₂_stopTimeRows hstops)]
  refine ⟨?_, ?_⟩
  · intro hr
    exact hr.views
  · intro hviews
    exact ⟨rfl, hviews⟩

/-- The two events of every update that is observed agree. -/
def Poll.EventsAgree (poll : Poll) : Prop :=
  ∀ x ∈ poll.tripUpdates, ∀ stu ∈ x.1.stopTimeUpdate, x.1.Observable stu → stu.EventsAgree

theorem forall₂_oneDelay_iff {xs : List (TripUpdateMsg × Instant)} {rs : List TripRows}
    (h : List.Forall₂ (fun x r => decodeTripUpdate x.2 x.1 = .ok r) xs rs) :
    List.Forall₂ (fun x r => x.1.OneDelay r) xs rs ↔
      ∀ x ∈ xs, ∀ stu ∈ x.1.stopTimeUpdate, x.1.Observable stu → stu.EventsAgree :=
  forall₂_iff_forall_mem h fun _ _ hr => tripOneDelay_iff hr

/-- **When every stop update of a poll that commits has one delay.** -/
theorem pollOneDelay_iff {db db' : Db} {poll : Poll} (h : ingestTripUpdates db poll = .ok db') :
    db' = poll.stored.foldl Db.applyTrip db ∧ (poll.OneDelay ↔ poll.EventsAgree) := by
  obtain ⟨hdecoded, hdb⟩ := stored_of_commits h
  exact ⟨hdb, forall₂_oneDelay_iff (decoded_eq_ok_iff.1 hdecoded)⟩

/-- One trip of route `M1` that stands at the stop `S1`. -/
def dwellFeed (arrival departure : Int32) : Poll :=
  [({ id := "1"
      tripUpdate := some {
        trip := {
          tripId := "T1", routeId := "M1", startDate := "20260513", scheduleRelationship := none }
        vehicleId := ""
        stopTimeUpdate := [{
          stopSequence := some 3
          stopId := "S1"
          arrival := some ⟨some arrival, none⟩
          departure := some ⟨some departure, none⟩
          scheduleRelationship := none }]
        timestamp := 1000 }
      vehicle := none }, seconds 1000)]

/-- A minute late in and out, the stop has one delay. -/
theorem dwellFeed_oneDelay :
    ∃ db', ingestTripUpdates Db.empty (dwellFeed 60 60) = .ok db' ∧ (dwellFeed 60 60).OneDelay := by
  obtain ⟨db', h⟩ : ∃ db', ingestTripUpdates Db.empty (dwellFeed 60 60) = .ok db' := ⟨_, rfl⟩
  refine ⟨db', h, (pollOneDelay_iff h).2.2 ?_⟩
  simp [Poll.EventsAgree, Poll.tripUpdates, dwellFeed, StopTimeUpdateMsg.EventsAgree]

/-- Two minutes late in and one out, it has two. -/
theorem dwellFeed_twoDelays :
    ¬ ∀ db db' poll, ingestTripUpdates db poll = .ok db' → Poll.OneDelay poll := by
  intro hall
  obtain ⟨db', h⟩ : ∃ db', ingestTripUpdates Db.empty (dwellFeed 120 60) = .ok db' := ⟨_, rfl⟩
  have hdecoded := decoded_eq_ok_iff.1 (stored_of_commits h).1
  have hagree := (forall₂_oneDelay_iff hdecoded).1 (hall _ _ _ h)
  simp [Poll.tripUpdates, dwellFeed, TripUpdateMsg.Observable, StopTimeUpdateMsg.EventsAgree,
    StopTimeEvent.delayValue] at hagree

end DelayPredictor
