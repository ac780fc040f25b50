import DelayPredictor.Lib.Raising
import DelayPredictor.Realtime

/-!
# What a poll does

The one description of `ingest_trip_updates` that every later proof uses.

* `stored` — the rows a poll leaves behind: those of all its `TripUpdate`s, or
  none when any of them raises.
* `pollTripUpdates_eq` — **a poll stores exactly `stored`**, trip after trip.
* `pollTripUpdates_delayObservations` and its siblings — its effect table by
  table; `emitted` is the list of observations it writes, in writing order.
* `ingest_commits_iff`, `accepted_iff` — when a poll commits, and when a single
  `TripUpdate` is accepted, in terms of the feed alone.
-/

namespace DelayPredictor

open Keyed PyTime Raising

/-! ## The statements of one trip update -/

namespace TripRows

/-- The rows fit their columns, and the observations one statement: it has no more
arguments than a statement takes, and proposes no natural key twice. -/
def Storable (r : TripRows) : Prop :=
  r.tripUpdate.fits = true ∧ (∀ v ∈ r.stopTimes, v.fits = true) ∧
    8 * r.observations.length ≤ maxArguments ∧
    (r.observations.map DelayObservation.naturalKey).Nodup

instance (r : TripRows) : Decidable r.Storable := by
  unfold Storable
  infer_instance

end TripRows

namespace Db

/-- Storing the rows of a trip update, nothing being in the way. -/
def applyTrip (db : Db) (r : TripRows) : Db :=
  (db.addTripUpdate r.tripUpdate r.stopTimes).putObservations r.observations

theorem storeTrip_eq_ok_iff {db db' : Db} {r : TripRows} :
    db.storeTrip r = .ok db' ↔ r.Storable ∧ db' = db.applyTrip r := by
  unfold storeTrip TripRows.Storable applyTrip
  by_cases hfit : (r.tripUpdate.fits && r.stopTimes.all (·.fits)) = true
  · have hfit' : r.tripUpdate.fits = true ∧ ∀ v ∈ r.stopTimes, v.fits = true := by
      simpa using hfit
    rw [if_pos hfit]
    by_cases hnil : r.observations = []
    · simp only [hnil, if_true, List.map_nil, List.nodup_nil, and_true, hfit'.1, true_and,
        List.length_nil, Nat.mul_zero, Nat.zero_le]
      refine ⟨?_, ?_⟩
      · intro h; cases h; exact ⟨hfit'.2, rfl⟩
      · rintro ⟨-, rfl⟩; rfl
    · by_cases hargs : 8 * r.observations.length ≤ maxArguments
      · by_cases hnd : (r.observations.map DelayObservation.naturalKey).Nodup
        · simp only [hnil, if_false, if_pos hargs, if_pos hnd, Except.ok.injEq]
          exact ⟨fun h => ⟨⟨hfit'.1, hfit'.2, hargs, hnd⟩, h.symm⟩, fun h => h.2.symm⟩
        · simp only [hnil, if_false, if_pos hargs, if_neg hnd]
          refine ⟨?_, ?_⟩
          · intro h; cases h
          · rintro ⟨⟨-, -, -, h⟩, -⟩; exact absurd h hnd
      · simp only [hnil, if_false, if_neg hargs]
        refine ⟨?_, ?_⟩
        · intro h; cases h
        · rintro ⟨⟨-, -, h, -⟩, -⟩; exact absurd h hargs
  · rw [if_neg hfit]
    refine ⟨?_, ?_⟩
    · intro h; cases h
    · rintro ⟨⟨h, h', -, -⟩, -⟩
      exact absurd (by simpa using ⟨h, h'⟩) hfit

end Db

/-! ## A whole poll -/

namespace Poll

/-- The rows of every trip update of a poll, or the first conversion that raises. -/
def decoded : Poll → Except IngestError (List TripRows)
  | [] => .ok []
  | (entity, now) :: rest =>
    match entity.tripUpdate with
    | none => decoded rest
    | some tu => do return (← decodeTripUpdate now tu) :: (← decoded rest)

/-- The rows a poll leaves behind: none when it is rolled back. -/
def stored (poll : Poll) : List TripRows :=
  match decoded poll with
  | .ok rs => if ∀ r ∈ rs, r.Storable then rs else []
  | .error _ => []

/-- The observations a poll writes, in the order it writes them. -/
def emitted (poll : Poll) : List DelayObservation := poll.stored.flatMap TripRows.observations

end Poll

/-- **When a poll commits, and what it then does**: every trip update decodes and
can be stored, and their rows are stored one after another. -/
theorem ingestTripUpdates_eq_ok_iff {poll : Poll} {db db' : Db} :
    ingestTripUpdates db poll = .ok db' ↔
      ∃ rs, Poll.decoded poll = .ok rs ∧ (∀ r ∈ rs, r.Storable) ∧
        db' = rs.foldl Db.applyTrip db := by
  induction poll generalizing db with
  | nil =>
    simp only [ingestTripUpdates, Poll.decoded, Except.ok.injEq]
    exact ⟨fun h => ⟨[], rfl, by simp, h.symm⟩, by rintro ⟨rs, rfl, -, rfl⟩; rfl⟩
  | cons entry rest ih =>
    obtain ⟨entity, now⟩ := entry
    cases htu : entity.tripUpdate with
    | none => simpa only [ingestTripUpdates, Poll.decoded, htu] using ih
    | some tu =>
      simp only [ingestTripUpdates, Poll.decoded, htu, bind_eq_ok_iff, pure_eq_ok_iff]
      refine ⟨?_, ?_⟩
      · rintro ⟨r, hr, mid, hmid, hrest⟩
        obtain ⟨hs, rfl⟩ := Db.storeTrip_eq_ok_iff.1 hmid
        obtain ⟨rs, hrs, hall, rfl⟩ := ih.1 hrest
        exact ⟨r :: rs, ⟨r, hr, rs, hrs, rfl⟩, by simpa using ⟨hs, hall⟩, rfl⟩
      · rintro ⟨-, ⟨r, hr, rs, hrs, rfl⟩, hall, rfl⟩
        have hall' : r.Storable ∧ ∀ r ∈ rs, r.Storable := by simpa using hall
        exact ⟨r, hr, _, Db.storeTrip_eq_ok_iff.2 ⟨hall'.1, rfl⟩, ih.2 ⟨rs, hrs, hall'.2, rfl⟩⟩

/-- **A poll stores exactly its `stored` rows**, trip after trip. -/
theorem pollTripUpdates_eq (db : Db) (poll : Poll) :
    pollTripUpdates db poll = poll.stored.foldl Db.applyTrip db := by
  unfold pollTripUpdates Poll.stored
  cases hd : Poll.decoded poll with
  | error e =>
    cases hi : ingestTripUpdates db poll with
    | error e => rfl
    | ok db' =>
      obtain ⟨rs, hrs, -⟩ := ingestTripUpdates_eq_ok_iff.1 hi
      rw [hd] at hrs
      cases hrs
  | ok rs =>
    by_cases hall : ∀ r ∈ rs, r.Storable
    · rw [ingestTripUpdates_eq_ok_iff.2 ⟨rs, hd, hall, rfl⟩]
      simp only [if_pos hall]
    · simp only [if_neg hall, List.foldl_nil]
      cases hi : ingestTripUpdates db poll with
      | error e => rfl
      | ok db' =>
        obtain ⟨rs', hrs', hall', -⟩ := ingestTripUpdates_eq_ok_iff.1 hi
        rw [hd] at hrs'
        cases hrs'
        exact absurd hall' hall

/-! ## Table by table -/

section Tables

variable (db : Db) (rs : List TripRows)

theorem foldl_applyTrip_delayObservations :
    (rs.foldl Db.applyTrip db).delayObservations =
      db.delayObservations.putAll (rs.flatMap TripRows.observations) := by
  induction rs generalizing db with
  | nil => rfl
  | cons r rs ih =>
    rw [List.foldl_cons, ih, List.flatMap_cons, Table.putAll_append]
    rfl

/-- The tables a poll does not write. -/
theorem foldl_applyTrip_frame :
    (rs.foldl Db.applyTrip db).trainingFeatures = db.trainingFeatures ∧
      (rs.foldl Db.applyTrip db).weatherObservations = db.weatherObservations ∧
      (rs.foldl Db.applyTrip db).publicHolidays = db.publicHolidays ∧
      (rs.foldl Db.applyTrip db).routeDelayStats = db.routeDelayStats ∧
      (rs.foldl Db.applyTrip db).vehiclePositions = db.vehiclePositions := by
  induction rs generalizing db with
  | nil => exact ⟨rfl, rfl, rfl, rfl, rfl⟩
  | cons r rs ih => exact ih (db.applyTrip r)

end Tables

section Poll

variable (db : Db) (poll : Poll)

/-- A poll puts the observations it emits, one after another. -/
theorem pollTripUpdates_delayObservations :
    (pollTripUpdates db poll).delayObservations = db.delayObservations.putAll poll.emitted := by
  rw [pollTripUpdates_eq, foldl_applyTrip_delayObservations, Poll.emitted]

@[simp] theorem pollTripUpdates_trainingFeatures :
    (pollTripUpdates db poll).trainingFeatures = db.trainingFeatures := by
  rw [pollTripUpdates_eq]; exact (foldl_applyTrip_frame db _).1

end Poll

/-! ## The observations of a poll -/

/-- What every emitted observation says about itself. -/
structure DelayObservation.Coherent (o : DelayObservation) : Prop where
  /-- The hour is the UTC hour of the observation's own time. -/
  hour : o.hourOfDay = PyTime.hourOfDay o.observedAt
  /-- So is the weekday. -/
  weekday : o.dayOfWeek = PyTime.weekdayOf o.observedAt

/-- An emitted observation carries its trip's ids and the time it was recorded
at, in the bucket of that time. -/
theorem observationRow_eq_some {trip : TripDescriptor} {t : Instant} {d : Option Date}
    {stu : StopTimeUpdateMsg} {o : DelayObservation} (h : observationRow trip t d stu = some o) :
    o.tripId = trip.tripId ∧ o.routeId = trip.routeId ∧ o.stopId = stu.stopId ∧
      some o.serviceDate = d ∧ o.observedAt = t ∧ o.Coherent := by
  simp only [observationRow, Option.bind_eq_bind, Option.bind_eq_some_iff] at h
  obtain ⟨delay, -, date, hd, h⟩ := h
  split at h
  · cases h
  · cases h
    exact ⟨rfl, rfl, rfl, hd.symm, rfl, by simp, by simp⟩

/-- What a trip update decodes to. -/
theorem decodeTripUpdate_eq_ok_iff {now : Instant} {tu : TripUpdateMsg} {r : TripRows} :
    decodeTripUpdate now tu = .ok r ↔ ∃ recorded startDate stopTimes,
      recordedAt tu.timestamp now = .ok recorded ∧
        parseStartDate tu.trip.startDate = .ok startDate ∧
          stopTimeRows tu.stopTimeUpdate = .ok stopTimes ∧ r = {
            tripUpdate := {
              tripId := tu.trip.tripId
              routeId := orNone tu.trip.routeId
              vehicleId := orNone tu.vehicleId
              recordedAt := recorded
              startDate
              scheduleRelationship := tu.trip.scheduleRelationship }
            stopTimes
            observations :=
              tu.stopTimeUpdate.filterMap (observationRow tu.trip recorded startDate) } := by
  simp only [decodeTripUpdate, bind_eq_ok_iff, pure_eq_ok_iff]
  refine ⟨?_, ?_⟩
  · rintro ⟨recorded, hrec, startDate, hdate, stopTimes, hstops, rfl⟩
    exact ⟨recorded, startDate, stopTimes, hrec, hdate, hstops, rfl⟩
  · rintro ⟨recorded, startDate, stopTimes, hrec, hdate, hstops, rfl⟩
    exact ⟨recorded, hrec, startDate, hdate, stopTimes, hstops, rfl⟩

/-- A decoded trip update, and what it was decoded from. -/
theorem decodeTripUpdate_eq_ok {now : Instant} {tu : TripUpdateMsg} {r : TripRows}
    (h : decodeTripUpdate now tu = .ok r) :
    ∃ recorded startDate, recordedAt tu.timestamp now = .ok recorded ∧
      parseStartDate tu.trip.startDate = .ok startDate ∧
      r.tripUpdate.recordedAt = recorded ∧
      stopTimeRows tu.stopTimeUpdate = .ok r.stopTimes ∧
      r.observations = tu.stopTimeUpdate.filterMap (observationRow tu.trip recorded startDate) := by
  obtain ⟨recorded, startDate, _, hrec, hdate, hstops, rfl⟩ := decodeTripUpdate_eq_ok_iff.1 h
  exact ⟨recorded, startDate, hrec, hdate, rfl, hstops, rfl⟩

theorem decoded_observations_coherent {poll : Poll} {rs : List TripRows}
    (h : Poll.decoded poll = .ok rs) : ∀ r ∈ rs, ∀ o ∈ r.observations, o.Coherent := by
  induction poll generalizing rs with
  | nil => cases h; simp
  | cons entry rest ih =>
    obtain ⟨entity, now⟩ := entry
    cases htu : entity.tripUpdate with
    | none => exact ih (by simpa only [Poll.decoded, htu] using h)
    | some tu =>
      simp only [Poll.decoded, htu, bind_eq_ok_iff, pure_eq_ok_iff] at h
      obtain ⟨r, hr, rs', hrs', rfl⟩ := h
      intro x hx o ho
      rcases List.mem_cons.1 hx with rfl | hx
      · obtain ⟨recorded, startDate, -, -, -, -, hobs⟩ := decodeTripUpdate_eq_ok hr
        rw [hobs] at ho
        obtain ⟨stu, -, hstu⟩ := List.mem_filterMap.1 ho
        exact (observationRow_eq_some hstu).2.2.2.2.2
      · exact ih hrs' x hx o ho

/-- **Every observation a poll writes is in the bucket of its own time.** -/
theorem emitted_coherent (poll : Poll) : ∀ o ∈ poll.emitted, o.Coherent := by
  intro o ho
  obtain ⟨r, hr, hor⟩ := List.mem_flatMap.1 ho
  unfold Poll.stored at hr
  cases hd : Poll.decoded poll with
  | error e => simp [hd] at hr
  | ok rs =>
    rw [hd] at hr
    by_cases hall : ∀ r ∈ rs, r.Storable
    · simp only [if_pos hall] at hr
      exact decoded_observations_coherent hd r hr o hor
    · simp [if_neg hall] at hr

/-! ## When a trip update is accepted -/

/-- Seconds since the epoch that `datetime` can represent. -/
def EpochInRange (epoch : ℤ) : Prop := -62135596800 ≤ epoch ∧ epoch ≤ 253402300799

theorem epochToDt_isOk_iff (epoch : ℤ) :
    (∃ t, epochToDt epoch = .ok t) ↔ EpochInRange epoch := by
  unfold epochToDt fromTimestamp EpochInRange
  by_cases h0 : epoch = 0
  · simp [h0]
  · by_cases h : -62135596800 ≤ epoch ∧ epoch ≤ 253402300799
    · simp [h0, h]
    · simp [h0, h]

theorem recordedAt_isOk_iff (timestamp : UInt64) (now : Instant) :
    (∃ t, recordedAt timestamp now = .ok t) ↔ EpochInRange timestamp.toNat := by
  rw [← epochToDt_isOk_iff, recordedAt]
  cases epochToDt timestamp.toNat <;> simp [Except.map]

theorem parseStartDate_of_strptime {s : String} {d : Date} (h : strptimeYmd s = some d) :
    parseStartDate s = .ok (some d) := by
  have hempty : strptimeYmd "" = none := by decide
  have hne : s ≠ "" := by
    rintro rfl
    rw [hempty] at h
    cases h
  rw [parseStartDate, if_neg hne, h]

theorem textFits_orNone (s : String) : (orNone s).all textFits = textFits s := by
  unfold orNone
  by_cases h : s = ""
  · subst h; decide
  · simp [h]

/-- A delay is one that its column can hold. -/
theorem integerFits_delayValue (e : StopTimeEvent) : integerFits e.delayValue = true := by
  unfold integerFits StopTimeEvent.delayValue
  cases e.delay with
  | none => decide
  | some d =>
    have h₁ := d.toInt_lt
    have h₂ := d.le_toInt
    simp
    omega

/-- So is that of an event that may be there. -/
theorem delaysFit (event : Option StopTimeEvent) :
    (event.map (·.delayValue)).all integerFits = true := by
  cases event <;> simp [integerFits_delayValue]

/-- A stop sequence has no sign on the wire, and its column has one. -/
theorem sequenceFits_iff (sequence : Option UInt32) :
    (sequence.map fun n => (n.toNat : ℤ)).all integerFits = true ↔
      ∀ n, sequence = some n → n.toNat ≤ 2147483647 := by
  cases sequence with
  | none => simp
  | some n => simp [integerFits]

namespace StopTimeUpdateMsg

/-- Every event time that is set is one `datetime` can represent. -/
def TimesInRange (stu : StopTimeUpdateMsg) : Prop :=
  (∀ t, stu.arrival.bind (·.time) = some t → EpochInRange t.toInt) ∧
    ∀ t, stu.departure.bind (·.time) = some t → EpochInRange t.toInt

/-- The stop id and the stop sequence are ones their columns can hold. -/
def ColumnsFit (stu : StopTimeUpdateMsg) : Prop :=
  textFits stu.stopId = true ∧ ∀ n, stu.stopSequence = some n → n.toNat ≤ 2147483647

/-- The update has an arrival or a departure event, which ingest takes to state
a delay. -/
def statesDelay (stu : StopTimeUpdateMsg) : Bool := stu.arrival.isSome || stu.departure.isSome

end StopTimeUpdateMsg

theorem eventTime_isOk_iff (event : Option StopTimeEvent) :
    (∃ t, eventTime event = .ok t) ↔ ∀ t, event.bind (·.time) = some t → EpochInRange t.toInt := by
  unfold eventTime
  cases h : event.bind (·.time) with
  | none => simp
  | some t => simpa using epochToDt_isOk_iff t.toInt

/-- What a stop time update is stored as. -/
theorem stopTimeValues_eq_ok_iff {stu : StopTimeUpdateMsg} {v : StopTimeValues} :
    stopTimeValues stu = .ok v ↔ ∃ arrivalTime departureTime,
      eventTime stu.arrival = .ok arrivalTime ∧ eventTime stu.departure = .ok departureTime ∧ v = {
        stopId := orNone stu.stopId
        stopSequence := stu.stopSequence.map fun n => (n.toNat : ℤ)
        arrivalDelaySeconds := stu.arrival.map (·.delayValue)
        arrivalTime
        departureDelaySeconds := stu.departure.map (·.delayValue)
        departureTime
        scheduleRelationship := stu.scheduleRelationship } := by
  simp only [stopTimeValues, bind_eq_ok_iff, pure_eq_ok_iff]
  refine ⟨?_, ?_⟩
  · rintro ⟨arrivalTime, ha, departureTime, hd, rfl⟩
    exact ⟨arrivalTime, departureTime, ha, hd, rfl⟩
  · rintro ⟨arrivalTime, departureTime, ha, hd, rfl⟩
    exact ⟨arrivalTime, ha, departureTime, hd, rfl⟩

theorem stopTimeValues_isOk_iff (stu : StopTimeUpdateMsg) :
    (∃ v, stopTimeValues stu = .ok v) ↔ stu.TimesInRange := by
  rw [StopTimeUpdateMsg.TimesInRange, ← eventTime_isOk_iff, ← eventTime_isOk_iff]
  refine ⟨?_, ?_⟩
  · rintro ⟨v, hv⟩
    obtain ⟨a, d, ha, hd, -⟩ := stopTimeValues_eq_ok_iff.1 hv
    exact ⟨⟨a, ha⟩, d, hd⟩
  · rintro ⟨⟨a, ha⟩, d, hd⟩
    exact ⟨_, stopTimeValues_eq_ok_iff.2 ⟨a, d, ha, hd, rfl⟩⟩

theorem stopTimeValues_fits_iff {stu : StopTimeUpdateMsg} {v : StopTimeValues}
    (h : stopTimeValues stu = .ok v) : v.fits = true ↔ stu.ColumnsFit := by
  obtain ⟨a, d, -, -, rfl⟩ := stopTimeValues_eq_ok_iff.1 h
  simp only [StopTimeValues.fits, textFits_orNone, delaysFit, Bool.and_true, Bool.and_eq_true,
    sequenceFits_iff, StopTimeUpdateMsg.ColumnsFit]

theorem stopTimeRows_isOk_iff (stus : List StopTimeUpdateMsg) :
    (∃ vs, stopTimeRows stus = .ok vs) ↔ ∀ stu ∈ stus, stu.TimesInRange := by
  induction stus with
  | nil => simp [stopTimeRows]
  | cons stu stus ih =>
    rw [List.forall_mem_cons, ← ih, ← stopTimeValues_isOk_iff stu]
    simp only [stopTimeRows, bind_eq_ok_iff, pure_eq_ok_iff]
    refine ⟨?_, ?_⟩
    · rintro ⟨-, v, hv, vs, hvs, -⟩
      exact ⟨⟨v, hv⟩, vs, hvs⟩
    · rintro ⟨⟨v, hv⟩, vs, hvs⟩
      exact ⟨_, v, hv, vs, hvs, rfl⟩

theorem stopTimeRows_fits_iff {stus : List StopTimeUpdateMsg} {vs : List StopTimeValues}
    (h : stopTimeRows stus = .ok vs) :
    (∀ v ∈ vs, v.fits = true) ↔ ∀ stu ∈ stus, stu.ColumnsFit := by
  induction stus generalizing vs with
  | nil => cases h; simp
  | cons stu stus ih =>
    simp only [stopTimeRows, bind_eq_ok_iff, pure_eq_ok_iff] at h
    obtain ⟨v, hv, vs', hvs, rfl⟩ := h
    simp only [List.forall_mem_cons, stopTimeValues_fits_iff hv, ih hvs]

/-- The keys a trip proposes: its stops with a stated delay, each visit once. -/
theorem observationRow_naturalKeys {trip : TripDescriptor} (hroute : trip.routeId ≠ "")
    (t : Instant) (d : Date) {stus : List StopTimeUpdateMsg}
    (hstops : ∀ stu ∈ stus, stu.stopId ≠ "") :
    (stus.filterMap (observationRow trip t (some d))).map DelayObservation.naturalKey =
      ((stus.filter (·.statesDelay)).map (·.stopId)).map fun s => (trip.tripId, s, d) := by
  induction stus with
  | nil => rfl
  | cons stu stus ih =>
    have hstop : stu.stopId ≠ "" := hstops stu (by simp)
    have ih := ih fun s hs => hstops s (by simp [hs])
    cases ha : stu.arrival <;> cases hd : stu.departure <;>
      simp [observationRow, StopTimeUpdateMsg.statesDelay, ha, hd, hstop, hroute,
        DelayObservation.naturalKey] at ih ⊢ <;> exact ih

namespace TripUpdateMsg

/-- A valid start date, a timestamp in range and no empty id. -/
def WellFormed (tu : TripUpdateMsg) : Prop :=
  (strptimeYmd tu.trip.startDate).isSome ∧ EpochInRange tu.timestamp.toNat ∧
    tu.trip.tripId ≠ "" ∧ tu.trip.routeId ≠ "" ∧ ∀ stu ∈ tu.stopTimeUpdate, stu.stopId ≠ ""

/-- The values of the trip update are ones the database can hold: event times in
range, 31-bit stop sequences, no NUL in a text. -/
def Representable (tu : TripUpdateMsg) : Prop :=
  textFits tu.trip.tripId = true ∧ textFits tu.trip.routeId = true ∧ textFits tu.vehicleId = true ∧
    ∀ stu ∈ tu.stopTimeUpdate, stu.TimesInRange ∧ stu.ColumnsFit

/-- No stop is reported twice: the stops with a stated delay are distinct. -/
def VisitsOnce (tu : TripUpdateMsg) : Prop :=
  ((tu.stopTimeUpdate.filter (·.statesDelay)).map (·.stopId)).Nodup

/-- The stops with a stated delay are not too many for one statement. -/
def FitsStatement (tu : TripUpdateMsg) : Prop :=
  8 * (tu.stopTimeUpdate.filter (·.statesDelay)).length ≤ maxArguments

end TripUpdateMsg

/-- **When a well-formed trip update is accepted.** -/
theorem accepted_iff {tu : TripUpdateMsg} (hwf : tu.WellFormed) (now : Instant) :
    (∃ r, decodeTripUpdate now tu = .ok r ∧ r.Storable) ↔
      tu.Representable ∧ tu.VisitsOnce ∧ tu.FitsStatement := by
  obtain ⟨hdate, hts, -, hroute, hstops⟩ := hwf
  obtain ⟨d, hd⟩ := Option.isSome_iff_exists.1 hdate
  obtain ⟨t, ht⟩ := (recordedAt_isOk_iff tu.timestamp now).2 hts
  have hinj : Function.Injective fun s : String => (tu.trip.tripId, s, d) := by
    intro s s' h
    simpa using h
  have hkeys : ∀ vs, (TripRows.Storable {
      tripUpdate := {
        tripId := tu.trip.tripId
        routeId := orNone tu.trip.routeId
        vehicleId := orNone tu.vehicleId
        recordedAt := t
        startDate := some d
        scheduleRelationship := tu.trip.scheduleRelationship }
      stopTimes := vs
      observations := tu.stopTimeUpdate.filterMap (observationRow tu.trip t (some d)) }) ↔
      (textFits tu.trip.tripId = true ∧ textFits tu.trip.routeId = true ∧
        textFits tu.vehicleId = true) ∧ (∀ v ∈ vs, v.fits = true) ∧
        tu.FitsStatement ∧ tu.VisitsOnce := by
    intro vs
    have hkeys := observationRow_naturalKeys hroute t d hstops
    have hlength := congrArg List.length hkeys
    rw [List.length_map, List.length_map, List.length_map] at hlength
    rw [TripRows.Storable, hkeys, hlength, List.nodup_map_iff hinj, TripUpdateMsg.VisitsOnce,
      TripUpdateMsg.FitsStatement]
    simp only [TripUpdate.fits, textFits_orNone, Bool.and_eq_true, and_assoc]
  simp only [decodeTripUpdate, ht, parseStartDate_of_strptime hd, bind_eq_ok_iff, pure_eq_ok_iff,
    Except.ok.injEq]
  refine ⟨?_, ?_⟩
  · rintro ⟨_, ⟨_, rfl, _, rfl, vs, hvs, rfl⟩, hstor⟩
    obtain ⟨htext, hfits, hargs, honce⟩ := (hkeys vs).1 hstor
    have htimes := (stopTimeRows_isOk_iff _).1 ⟨vs, hvs⟩
    have hcols := (stopTimeRows_fits_iff hvs).1 hfits
    exact ⟨⟨htext.1, htext.2.1, htext.2.2, fun stu hs => ⟨htimes stu hs, hcols stu hs⟩⟩, honce,
      hargs⟩
  · rintro ⟨⟨h₁, h₂, h₃, hstu⟩, honce, hargs⟩
    obtain ⟨vs, hvs⟩ := (stopTimeRows_isOk_iff _).2 fun stu hs => (hstu stu hs).1
    refine ⟨_, ⟨t, rfl, some d, rfl, vs, hvs, rfl⟩, (hkeys vs).2 ⟨⟨h₁, h₂, h₃⟩, ?_, hargs, honce⟩⟩
    exact (stopTimeRows_fits_iff hvs).2 fun stu hs => (hstu stu hs).2

/-! ## When a poll commits -/

/-- The trip updates of a poll, each with its clock reading. -/
def Poll.tripUpdates : Poll → List (TripUpdateMsg × Instant)
  | [] => []
  | (entity, now) :: rest =>
    match entity.tripUpdate with
    | none => tripUpdates rest
    | some tu => (tu, now) :: tripUpdates rest

/-- What a poll decodes to is what its trip updates decode to, one by one. -/
theorem decoded_eq_ok_iff {poll : Poll} {rs : List TripRows} :
    poll.decoded = .ok rs ↔
      List.Forall₂ (fun x r => decodeTripUpdate x.2 x.1 = .ok r) poll.tripUpdates rs := by
  induction poll generalizing rs with
  | nil =>
    simp only [Poll.decoded, Poll.tripUpdates, Except.ok.injEq, List.forall₂_nil_left_iff]
    exact eq_comm
  | cons entry rest ih =>
    obtain ⟨entity, now⟩ := entry
    cases htu : entity.tripUpdate with
    | none => simpa only [Poll.decoded, Poll.tripUpdates, htu] using ih
    | some tu =>
      simp only [Poll.decoded, Poll.tripUpdates, htu, bind_eq_ok_iff, pure_eq_ok_iff,
        List.forall₂_cons_left_iff]
      refine ⟨?_, ?_⟩
      · rintro ⟨r, hr, rs', hrs', rfl⟩
        exact ⟨r, rs', hr, ih.1 hrs', rfl⟩
      · rintro ⟨r, rs', hr, hrs', rfl⟩
        exact ⟨r, hr, rs', ih.2 hrs', rfl⟩

/-- Every trip update of a decoded poll has its rows among the poll's. -/
theorem exists_row_of_decoded {poll : Poll} {rs : List TripRows} (h : poll.decoded = .ok rs)
    {x : TripUpdateMsg × Instant} (hx : x ∈ poll.tripUpdates) :
    ∃ r ∈ rs, decodeTripUpdate x.2 x.1 = .ok r := by
  have hrel := decoded_eq_ok_iff.1 h
  obtain ⟨i, hi, rfl⟩ := List.getElem_of_mem hx
  have hi' : i < rs.length := hrel.length_eq ▸ hi
  exact ⟨rs[i], List.getElem_mem hi', hrel.get hi hi'⟩

/-- **A poll commits** exactly when each of its trip updates is accepted. -/
theorem ingest_commits_iff (db : Db) (poll : Poll) :
    (∃ db', ingestTripUpdates db poll = .ok db') ↔
      ∀ x ∈ poll.tripUpdates, ∃ r, decodeTripUpdate x.2 x.1 = .ok r ∧ r.Storable := by
  rw [← exists_forall₂_iff]
  simp only [ingestTripUpdates_eq_ok_iff, decoded_eq_ok_iff]
  refine ⟨?_, ?_⟩
  · rintro ⟨-, rs, hrs, hall, -⟩
    exact ⟨rs, hrs, hall⟩
  · rintro ⟨rs, hrs, hall⟩
    exact ⟨_, rs, hrs, hall, rfl⟩

end DelayPredictor
