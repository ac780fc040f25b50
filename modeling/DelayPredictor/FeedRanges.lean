import DelayPredictor.Ingest
import DelayPredictor.StaticSchema

/-!
# The ranges of a feed

What the wire lets a feed say, against what a `datetime` and a column can hold:
64-bit times of which most are past the year 9999, and stop sequences of 32 bits
without a sign in columns of 32 bits with one.

* `Poll.StoresTripUpdates`, `Poll.StoresVehicles` — nothing that either loop
  converts or writes is out of range, so that a feed with nothing else wrong commits.
* `pollStores_iff` — **when a feed overflows nothing**: exactly when its own times
  and stop sequences are in range.  Neither loop looks before it converts, so one
  time in milliseconds rolls back what all the other entities said.
-/

namespace DelayPredictor

open Keyed PyTime Raising Stats

/-! ## What is written -/

/-- A number in a `SmallInteger` column. -/
def enumFits (number : Option ℕ) : Prop := ∀ n, number = some n → smallIntegerFits n = true

/-- The integers of a `stop_time_updates` row fit. -/
structure StopTimeValues.IntegersFit (v : StopTimeValues) : Prop where
  stopSequence : v.stopSequence.all integerFits = true
  arrivalDelay : v.arrivalDelaySeconds.all integerFits = true
  departureDelay : v.departureDelaySeconds.all integerFits = true
  scheduleRelationship : enumFits v.scheduleRelationship

/-- The integers of a `delay_observations` row do. -/
structure DelayObservation.IntegersFit (o : DelayObservation) : Prop where
  hour : smallIntegerFits o.hourOfDay = true
  weekday : smallIntegerFits o.dayOfWeek = true
  delay : integerFits o.delaySeconds = true

/-- The integers of a `vehicle_positions` row do. -/
structure VehiclePosition.IntegersFit (r : VehiclePosition) : Prop where
  status : enumFits r.status
  congestionLevel : enumFits r.congestionLevel
  stopSequence : r.stopSequence.all integerFits = true

/-- What one pass of `ingest_trip_updates` converts is a `datetime`, and the integers it
writes fit their columns. -/
structure TripUpdateMsg.Fits (tu : TripUpdateMsg) (now : Instant) : Prop where
  timestamp : ∃ t, recordedAt tu.timestamp now = .ok t
  eventTimes : ∀ stu ∈ tu.stopTimeUpdate,
    (∃ t, eventTime stu.arrival = .ok t) ∧ ∃ t, eventTime stu.departure = .ok t
  tripUpdate : enumFits tu.trip.scheduleRelationship
  stopTimes : ∀ stu ∈ tu.stopTimeUpdate, ∀ v, stopTimeValues stu = .ok v → v.IntegersFit
  observations : ∀ stu ∈ tu.stopTimeUpdate, ∀ recorded startDate o,
    observationRow tu.trip recorded startDate stu = some o → o.IntegersFit

/-- The same of one pass of `ingest_vehicle_positions`. -/
structure FeedEntity.VehicleFits (entity : FeedEntity) (now : Instant) : Prop where
  timestamp : ∃ row, vehicleRow entity now = .ok row
  row : ∀ r, vehicleRow entity now = .ok (some r) → r.IntegersFit

/-! ## What else can be wrong -/

/-- Nothing but a range can keep the trip update from being stored: its date is one,
no text has a NUL, no stop is observed twice, and not more of them than one statement
takes the rows of. -/
structure TripUpdateMsg.Sound (tu : TripUpdateMsg) : Prop where
  startDate : ∃ d, parseStartDate tu.trip.startDate = .ok d
  tripTexts : textFits tu.trip.tripId = true ∧ textFits tu.trip.routeId = true ∧
    textFits tu.vehicleId = true
  stopTexts : ∀ stu ∈ tu.stopTimeUpdate, textFits stu.stopId = true
  observedOnce : ∀ recorded startDate, ((tu.stopTimeUpdate.filterMap
    (observationRow tu.trip recorded startDate)).map DelayObservation.naturalKey).Nodup
  fitsStatement : ∀ recorded startDate, 8 * (tu.stopTimeUpdate.filterMap
    (observationRow tu.trip recorded startDate)).length ≤ maxArguments

/-- Nor the vehicle of an entity: no text has a NUL, and its position is a point. -/
structure FeedEntity.VehicleSound (isPoint : XFloat → XFloat → Bool) (entity : FeedEntity) :
    Prop where
  id : textFits entity.id = true
  texts : ∀ vp, entity.vehicle = some vp → textFits vp.vehicleId = true ∧
    textFits vp.tripId = true ∧ textFits vp.routeId = true ∧ textFits vp.stopId = true
  point : ∀ vp position, entity.vehicle = some vp → vp.position = some position →
    isPoint position.latitude position.longitude = true

namespace Poll

/-- No trip update of the feed overflows anything, and none aborts the others. -/
structure StoresTripUpdates (poll : Poll) : Prop where
  fits : ∀ x ∈ poll.tripUpdates, x.1.Fits x.2
  commits : (∀ x ∈ poll.tripUpdates, x.1.Sound) →
    ∀ db, ∃ db', ingestTripUpdates db poll = .ok db'

/-- No vehicle of the feed does. -/
structure StoresVehicles (isPoint : XFloat → XFloat → Bool) (poll : Poll) : Prop where
  fits : ∀ x ∈ poll, x.1.VehicleFits x.2
  commits : (∀ x ∈ poll, x.1.VehicleSound isPoint) →
    ∀ db, ∃ db', ingestVehiclePositions isPoint db poll = .ok db'

end Poll

/-! ## What the wire says -/

/-- A number of one of the enumerations of `gtfs-realtime.proto`, of which none goes past
eight.  They are closed: decoding sets any other number aside as an unknown field. -/
def Declared (number : Option ℕ) : Prop := ∀ n, number = some n → n ≤ 8

/-- The stop sequence is one that its column can hold. -/
def SequenceInRange (sequence : Option UInt32) : Prop :=
  ∀ n, sequence = some n → n.toNat ≤ 2147483647

namespace FeedEntity

/-- The enumerations of the entity carry declared numbers, as they do once decoded. -/
structure EnumsDeclared (entity : FeedEntity) : Prop where
  trip : ∀ tu, entity.tripUpdate = some tu → Declared tu.trip.scheduleRelationship
  stops : ∀ tu, entity.tripUpdate = some tu →
    ∀ stu ∈ tu.stopTimeUpdate, Declared stu.scheduleRelationship
  vehicle : ∀ vp, entity.vehicle = some vp →
    Declared vp.currentStatus ∧ Declared vp.congestionLevel

/-- The vehicle of the entity, if it has a position, has a time and a stop sequence in
range. -/
def VehicleInRange (entity : FeedEntity) : Prop :=
  ∀ vp, entity.vehicle = some vp → vp.position.isSome →
    EpochInRange vp.timestamp.toNat ∧ SequenceInRange vp.currentStopSequence

end FeedEntity

/-- The times and the stop sequences of the trip update are in range. -/
def TripUpdateMsg.InRange (tu : TripUpdateMsg) : Prop :=
  EpochInRange tu.timestamp.toNat ∧
    ∀ stu ∈ tu.stopTimeUpdate, stu.TimesInRange ∧ SequenceInRange stu.stopSequence

/-! ## Integers that always fit -/

theorem smallIntegerFits_iff {n : ℤ} : smallIntegerFits n = true ↔ -32768 ≤ n ∧ n ≤ 32767 := by
  simp [smallIntegerFits]

theorem enumFits_of_declared {number : Option ℕ} (h : Declared number) : enumFits number := by
  intro n hn
  have hle := h n hn
  rw [smallIntegerFits_iff]
  omega

/-- An observation fits whatever the feed says. -/
theorem observationRow_integersFit {trip : TripDescriptor} {recorded : Instant}
    {startDate : Option Date} {stu : StopTimeUpdateMsg} {o : DelayObservation}
    (h : observationRow trip recorded startDate stu = some o) : o.IntegersFit := by
  have hcoherent := (observationRow_eq_some h).2.2.2.2.2
  simp only [observationRow, Option.bind_eq_bind, Option.bind_eq_some_iff] at h
  obtain ⟨delay, hdelay, date, -, h⟩ := h
  refine ⟨?_, ?_, ?_⟩
  · rw [hcoherent.hour, smallIntegerFits_iff, PyTime.hourOfDay]
    omega
  · rw [hcoherent.weekday, smallIntegerFits_iff, weekdayOf]
    omega
  · have hsome : (some delay).all integerFits = true := by
      rw [← hdelay]
      cases stu.arrival with
      | none => exact delaysFit stu.departure
      | some a => exact delaysFit (some a)
    split at h
    · cases h
    · cases h
      exact hsome

/-! ## One trip update -/

theorem stopTimeValues_integersFit_iff {stu : StopTimeUpdateMsg} {v : StopTimeValues}
    (henum : Declared stu.scheduleRelationship) (h : stopTimeValues stu = .ok v) :
    v.IntegersFit ↔ SequenceInRange stu.stopSequence := by
  obtain ⟨arrivalTime, departureTime, -, -, rfl⟩ := stopTimeValues_eq_ok_iff.1 h
  rw [SequenceInRange, ← sequenceFits_iff]
  refine ⟨?_, ?_⟩
  · intro hv
    exact hv.stopSequence
  · intro hseq
    exact ⟨hseq, delaysFit stu.arrival, delaysFit stu.departure, enumFits_of_declared henum⟩

/-- **A trip update fits exactly when its times and stop sequences are in range.** -/
theorem TripUpdateMsg.fits_iff {tu : TripUpdateMsg} (htrip : Declared tu.trip.scheduleRelationship)
    (hstops : ∀ stu ∈ tu.stopTimeUpdate, Declared stu.scheduleRelationship) (now : Instant) :
    tu.Fits now ↔ tu.InRange := by
  refine ⟨?_, ?_⟩
  · intro h
    refine ⟨(recordedAt_isOk_iff tu.timestamp now).1 h.timestamp, ?_⟩
    intro stu hstu
    obtain ⟨harrival, hdeparture⟩ := h.eventTimes stu hstu
    have htimes : stu.TimesInRange :=
      ⟨(eventTime_isOk_iff _).1 harrival, (eventTime_isOk_iff _).1 hdeparture⟩
    obtain ⟨v, hv⟩ := (stopTimeValues_isOk_iff stu).2 htimes
    exact ⟨htimes, (stopTimeValues_integersFit_iff (hstops stu hstu) hv).1
      (h.stopTimes stu hstu v hv)⟩
  · rintro ⟨htimestamp, hupdates⟩
    refine ⟨(recordedAt_isOk_iff tu.timestamp now).2 htimestamp, ?_, enumFits_of_declared htrip,
      ?_, ?_⟩
    · intro stu hstu
      obtain ⟨⟨harrival, hdeparture⟩, -⟩ := hupdates stu hstu
      exact ⟨(eventTime_isOk_iff _).2 harrival, (eventTime_isOk_iff _).2 hdeparture⟩
    · intro stu hstu v hv
      exact (stopTimeValues_integersFit_iff (hstops stu hstu) hv).2 (hupdates stu hstu).2
    · intro stu _ recorded startDate o ho
      exact observationRow_integersFit ho

/-- In range, a sound trip update is stored. -/
theorem TripUpdateMsg.storable_of_inRange {tu : TripUpdateMsg} (h : tu.InRange)
    (hsound : tu.Sound) (now : Instant) :
    ∃ r, decodeTripUpdate now tu = .ok r ∧ r.Storable := by
  obtain ⟨recorded, hrecorded⟩ := (recordedAt_isOk_iff tu.timestamp now).2 h.1
  obtain ⟨startDate, hdate⟩ := hsound.startDate
  obtain ⟨vs, hvs⟩ := (stopTimeRows_isOk_iff tu.stopTimeUpdate).2 fun stu hs => (h.2 stu hs).1
  have hfits : ∀ v ∈ vs, v.fits = true := by
    refine (stopTimeRows_fits_iff hvs).2 ?_
    intro stu hstu
    exact ⟨hsound.stopTexts stu hstu, (h.2 stu hstu).2⟩
  refine ⟨_, decodeTripUpdate_eq_ok_iff.2 ⟨recorded, startDate, vs, hrecorded, hdate, hvs, rfl⟩,
    ?_, hfits, hsound.fitsStatement recorded startDate, hsound.observedOnce recorded startDate⟩
  simpa [TripUpdate.fits, textFits_orNone, and_assoc] using hsound.tripTexts

/-- What is stored was in range. -/
theorem TripUpdateMsg.inRange_of_stored {tu : TripUpdateMsg} {now : Instant} {r : TripRows}
    (h : decodeTripUpdate now tu = .ok r) (hstorable : r.Storable) : tu.InRange := by
  obtain ⟨recorded, startDate, hrecorded, -, -, hstops, -⟩ := decodeTripUpdate_eq_ok h
  refine ⟨(recordedAt_isOk_iff tu.timestamp now).1 ⟨recorded, hrecorded⟩, ?_⟩
  intro stu hstu
  have htimes := (stopTimeRows_isOk_iff tu.stopTimeUpdate).1 ⟨r.stopTimes, hstops⟩ stu hstu
  have hcolumns := (stopTimeRows_fits_iff hstops).1 hstorable.2.1 stu hstu
  exact ⟨htimes, hcolumns.2⟩

/-! ## One vehicle -/

section

variable {entity : FeedEntity} {isPoint : XFloat → XFloat → Bool}

/-- A vehicle without a position gets no row. -/
theorem vehicleRow_of_no_position (h : ∀ vp, entity.vehicle = some vp → vp.position = none)
    (now : Instant) : vehicleRow entity now = .ok none := by
  unfold vehicleRow
  cases hvehicle : entity.vehicle with
  | none => rfl
  | some vp => simp only [h vp hvehicle]

/-- One with a position gets it, once its time is one. -/
theorem vehicleRow_eq_ok_iff {vp : VehicleMsg} {position : PositionMsg}
    (hvehicle : entity.vehicle = some vp) (hposition : vp.position = some position)
    (now : Instant) (row : Option VehiclePosition) :
    vehicleRow entity now = .ok row ↔ ∃ recorded, recordedAt vp.timestamp now = .ok recorded ∧
      row = some {
        vehicleId := if vp.vehicleId = "" then entity.id else vp.vehicleId
        tripId := orNone vp.tripId
        routeId := orNone vp.routeId
        recordedAt := recorded
        lat := position.latitude
        lon := position.longitude
        bearing := position.bearing
        speed := position.speed
        status := vp.currentStatus
        congestionLevel := vp.congestionLevel
        stopSequence := vp.currentStopSequence.map fun n => (n.toNat : ℤ)
        currentStopId := orNone vp.stopId } := by
  simp only [vehicleRow, hvehicle, hposition, bind_eq_ok_iff, pure_eq_ok_iff, eq_comm (b := row)]

theorem position_cases (entity : FeedEntity) :
    (∀ vp, entity.vehicle = some vp → vp.position = none) ∨
      ∃ vp position, entity.vehicle = some vp ∧ vp.position = some position := by
  by_cases h : ∃ vp position, entity.vehicle = some vp ∧ vp.position = some position
  · exact .inr h
  · left
    intro vp hvp
    rw [Option.eq_none_iff_forall_ne_some]
    intro position hposition
    exact h ⟨vp, position, hvp, hposition⟩

/-- **A vehicle fits exactly when its time and its stop sequence are in range.** -/
theorem FeedEntity.vehicleFits_iff (henums : entity.EnumsDeclared) (now : Instant) :
    entity.VehicleFits now ↔ entity.VehicleInRange := by
  rcases position_cases entity with hnone | ⟨vp, position, hvehicle, hposition⟩
  · have hrow := vehicleRow_of_no_position hnone now
    refine ⟨?_, ?_⟩
    · intro _ vp hvp hisSome
      rw [hnone vp hvp] at hisSome
      cases hisSome
    · intro _
      refine ⟨⟨none, hrow⟩, ?_⟩
      intro r hr
      rw [hrow] at hr
      cases hr
  · have hrow := vehicleRow_eq_ok_iff hvehicle hposition now
    refine ⟨?_, ?_⟩
    · intro h vp' hvp' _
      obtain rfl : vp = vp' := Option.some.inj (hvehicle.symm.trans hvp')
      obtain ⟨row, h'⟩ := h.timestamp
      obtain ⟨recorded, hrecorded, rfl⟩ := (hrow row).1 h'
      exact ⟨(recordedAt_isOk_iff _ now).1 ⟨recorded, hrecorded⟩,
        (sequenceFits_iff _).1 (h.row _ h').stopSequence⟩
    · intro h
      obtain ⟨htimestamp, hsequence⟩ := h vp hvehicle (by simp [hposition])
      obtain ⟨recorded, hrecorded⟩ := (recordedAt_isOk_iff vp.timestamp now).2 htimestamp
      refine ⟨⟨_, (hrow _).2 ⟨recorded, hrecorded, rfl⟩⟩, ?_⟩
      intro r hr
      obtain ⟨recorded, -, hr⟩ := (hrow _).1 hr
      cases hr
      obtain ⟨hstatus, hcongestion⟩ := henums.vehicle vp hvehicle
      exact ⟨enumFits_of_declared hstatus, enumFits_of_declared hcongestion,
        (sequenceFits_iff _).2 hsequence⟩

/-- What is stored was in range. -/
theorem FeedEntity.vehicleInRange_of_stored {now : Instant} {row : Option VehiclePosition}
    (h : vehicleRow entity now = .ok row) (hfits : ∀ r ∈ row, r.fits isPoint = true) :
    entity.VehicleInRange := by
  intro vp hvehicle hisSome
  obtain ⟨position, hposition⟩ := Option.isSome_iff_exists.1 hisSome
  obtain ⟨recorded, hrecorded, rfl⟩ := (vehicleRow_eq_ok_iff hvehicle hposition now row).1 h
  have hfits := hfits _ rfl
  simp only [VehiclePosition.fits, Bool.and_eq_true] at hfits
  exact ⟨(recordedAt_isOk_iff _ now).1 ⟨recorded, hrecorded⟩, (sequenceFits_iff _).1 hfits.1.2⟩

/-- In range, the row of a sound vehicle fits. -/
theorem FeedEntity.vehicleStorable_of_inRange (h : entity.VehicleInRange)
    (hsound : entity.VehicleSound isPoint) (now : Instant) :
    ∃ row, vehicleRow entity now = .ok row ∧ ∀ r ∈ row, r.fits isPoint = true := by
  rcases position_cases entity with hnone | ⟨vp, position, hvehicle, hposition⟩
  · exact ⟨none, vehicleRow_of_no_position hnone now, by simp⟩
  · obtain ⟨htimestamp, hsequence⟩ := h vp hvehicle (by simp [hposition])
    obtain ⟨recorded, hrecorded⟩ := (recordedAt_isOk_iff vp.timestamp now).2 htimestamp
    refine ⟨_, (vehicleRow_eq_ok_iff hvehicle hposition now _).2 ⟨recorded, hrecorded, rfl⟩, ?_⟩
    intro r hr
    cases hr
    obtain ⟨hvehicleId, htripId, hrouteId, hstopId⟩ := hsound.texts vp hvehicle
    have hid : textFits (if vp.vehicleId = "" then entity.id else vp.vehicleId) = true := by
      split
      · exact hsound.id
      · exact hvehicleId
    simp only [VehiclePosition.fits, textFits_orNone, hid, htripId, hrouteId, hstopId,
      hsound.point vp position hvehicle hposition, (sequenceFits_iff _).2 hsequence, Bool.and_self]

end

/-! ## A whole feed -/

section

variable (isPoint : XFloat → XFloat → Bool)

theorem vehicleRows_fit_iff {poll : Poll} :
    (∃ rows, vehicleRows poll = .ok rows ∧ ∀ r ∈ rows, r.fits isPoint = true) ↔
      ∀ x ∈ poll, ∃ row, vehicleRow x.1 x.2 = .ok row ∧ ∀ r ∈ row, r.fits isPoint = true := by
  induction poll with
  | nil => simp [vehicleRows]
  | cons x rest ih =>
    obtain ⟨entity, now⟩ := x
    rw [List.forall_mem_cons, ← ih]
    simp only [vehicleRows, bind_eq_ok_iff, pure_eq_ok_iff]
    refine ⟨?_, ?_⟩
    · rintro ⟨-, ⟨row, hrow, rows, hrows, rfl⟩, hfits⟩
      refine ⟨⟨row, hrow, ?_⟩, rows, hrows, ?_⟩
      · intro r hr
        exact hfits r (List.mem_append_left _ (Option.mem_toList.2 hr))
      · intro r hr
        exact hfits r (List.mem_append_right _ hr)
    · rintro ⟨⟨row, hrow, hrowFits⟩, rows, hrows, hfits⟩
      refine ⟨_, ⟨row, hrow, rows, hrows, rfl⟩, ?_⟩
      intro r hr
      rcases List.mem_append.1 hr with hr | hr
      · exact hrowFits r (Option.mem_toList.1 hr)
      · exact hfits r hr

/-- **A vehicle poll commits** exactly when each of its rows can be made and fits. -/
theorem ingestVehicles_commits_iff (db : Db) (poll : Poll) :
    (∃ db', ingestVehiclePositions isPoint db poll = .ok db') ↔
      ∀ x ∈ poll, ∃ row, vehicleRow x.1 x.2 = .ok row ∧ ∀ r ∈ row, r.fits isPoint = true := by
  rw [← vehicleRows_fit_iff]
  simp only [ingestVehiclePositions, bind_eq_ok_iff]
  refine ⟨?_, ?_⟩
  · rintro ⟨db', rows, hrows, hdb⟩
    refine ⟨rows, hrows, ?_⟩
    by_contra hfits
    rw [if_neg fun hall => hfits (List.all_eq_true.1 hall)] at hdb
    cases hdb
  · rintro ⟨rows, hrows, hfits⟩
    exact ⟨_, rows, hrows, if_pos (List.all_eq_true.2 hfits)⟩

end

/-- **One value out of range loses the poll**, whatever its other entities say. -/
theorem pollTripUpdates_of_not_inRange {poll : Poll} {x : TripUpdateMsg × Instant}
    (hx : x ∈ poll.tripUpdates) (h : ¬ x.1.InRange) (db : Db) : pollTripUpdates db poll = db := by
  unfold pollTripUpdates
  cases hingest : ingestTripUpdates db poll with
  | error e => rfl
  | ok db' =>
    obtain ⟨r, hr, hstorable⟩ := (ingest_commits_iff db poll).1 ⟨db', hingest⟩ x hx
    exact absurd (TripUpdateMsg.inRange_of_stored hr hstorable) h

/-- The same of a vehicle poll. -/
theorem pollVehiclePositions_of_not_inRange {poll : Poll} {x : FeedEntity × Instant} (hx : x ∈ poll)
    (h : ¬ x.1.VehicleInRange) (isPoint : XFloat → XFloat → Bool) (db : Db) :
    pollVehiclePositions isPoint db poll = db := by
  unfold pollVehiclePositions
  cases hingest : ingestVehiclePositions isPoint db poll with
  | error e => rfl
  | ok db' =>
    obtain ⟨row, hrow, hfits⟩ := (ingestVehicles_commits_iff isPoint db poll).1 ⟨db', hingest⟩ x hx
    exact absurd (FeedEntity.vehicleInRange_of_stored hrow hfits) h

namespace Poll

/-- The enumerations of the feed carry declared numbers, as they do in one that protobuf
has decoded. -/
def EnumsDeclared (poll : Poll) : Prop := ∀ x ∈ poll, x.1.EnumsDeclared

theorem mem_tripUpdates {poll : Poll} {x : TripUpdateMsg × Instant} (h : x ∈ poll.tripUpdates) :
    ∃ entity, (entity, x.2) ∈ poll ∧ entity.tripUpdate = some x.1 := by
  induction poll with
  | nil => cases h
  | cons entry rest ih =>
    obtain ⟨entity, now⟩ := entry
    cases htu : entity.tripUpdate with
    | none =>
      simp only [Poll.tripUpdates, htu] at h
      obtain ⟨e, he, hx⟩ := ih h
      exact ⟨e, List.mem_cons_of_mem _ he, hx⟩
    | some tu =>
      simp only [Poll.tripUpdates, htu] at h
      rcases List.mem_cons.1 h with rfl | h
      · exact ⟨entity, List.mem_cons_self, htu⟩
      · obtain ⟨e, he, hx⟩ := ih h
        exact ⟨e, List.mem_cons_of_mem _ he, hx⟩

theorem storesTripUpdates_iff {poll : Poll} (h : poll.EnumsDeclared) :
    poll.StoresTripUpdates ↔ ∀ x ∈ poll.tripUpdates, x.1.InRange := by
  have hfits : ∀ x ∈ poll.tripUpdates, x.1.Fits x.2 ↔ x.1.InRange := by
    intro x hx
    obtain ⟨entity, hentity, htu⟩ := mem_tripUpdates hx
    have henums := h _ hentity
    exact TripUpdateMsg.fits_iff (henums.trip _ htu) (henums.stops _ htu) x.2
  refine ⟨?_, ?_⟩
  · intro hstores x hx
    exact (hfits x hx).1 (hstores.fits x hx)
  · intro hrange
    refine ⟨fun x hx => (hfits x hx).2 (hrange x hx), ?_⟩
    intro hsound db
    refine (ingest_commits_iff db poll).2 ?_
    intro x hx
    exact TripUpdateMsg.storable_of_inRange (hrange x hx) (hsound x hx) x.2

theorem storesVehicles_iff {poll : Poll} (h : poll.EnumsDeclared)
    (isPoint : XFloat → XFloat → Bool) :
    poll.StoresVehicles isPoint ↔ ∀ x ∈ poll, x.1.VehicleInRange := by
  have hfits : ∀ x ∈ poll, x.1.VehicleFits x.2 ↔ x.1.VehicleInRange := by
    intro x hx
    exact FeedEntity.vehicleFits_iff (h x hx) x.2
  refine ⟨?_, ?_⟩
  · intro hstores x hx
    exact (hfits x hx).1 (hstores.fits x hx)
  · intro hrange
    refine ⟨fun x hx => (hfits x hx).2 (hrange x hx), ?_⟩
    intro hsound db
    refine (ingestVehicles_commits_iff isPoint db poll).2 ?_
    intro x hx
    exact FeedEntity.vehicleStorable_of_inRange (hrange x hx) (hsound x hx) x.2

end Poll

/-- **When a decoded feed overflows nothing**: exactly when the times and the stop sequences
that its loop reads are in range. -/
theorem pollStores_iff {poll : Poll} (h : poll.EnumsDeclared)
    (isPoint : XFloat → XFloat → Bool) :
    (poll.StoresTripUpdates ↔ ∀ x ∈ poll.tripUpdates, x.1.InRange) ∧
      (poll.StoresVehicles isPoint ↔ ∀ x ∈ poll, x.1.VehicleInRange) :=
  ⟨poll.storesTripUpdates_iff h, poll.storesVehicles_iff h isPoint⟩

/-- Two trips of route `M1`, the second with the given time and stop sequence. -/
def twoTripFeed (timestamp : UInt64) (stopSequence : UInt32) : Poll :=
  ["T1", "T2"].map fun tripId =>
    ({ id := tripId
       tripUpdate := some {
         trip := { tripId, routeId := "M1", startDate := "", scheduleRelationship := some 0 }
         vehicleId := ""
         stopTimeUpdate := [{
           stopSequence := some (if tripId = "T1" then 1 else stopSequence)
           stopId := "S1"
           arrival := none
           departure := some ⟨some 60, some 1778637600⟩
           scheduleRelationship := some 0 }]
         timestamp := if tripId = "T1" then 1778637600 else timestamp }
       vehicle := none }, seconds 1778637610)

theorem twoTripFeed_enumsDeclared (timestamp : UInt64) (stopSequence : UInt32) :
    (twoTripFeed timestamp stopSequence).EnumsDeclared := by
  intro x hx
  obtain ⟨tripId, -, rfl⟩ := List.mem_map.1 hx
  refine ⟨?_, ?_, ?_⟩
  · intro tu htu
    cases htu
    simp [Declared]
  · intro tu htu stu hstu
    cases htu
    obtain rfl := List.mem_singleton.1 hstu
    simp [Declared]
  · intro vp hvp
    cases hvp

/-- Times in seconds and a stop sequence of two are stored. -/
theorem twoTripFeed_stores :
    (twoTripFeed 1778637600 2).StoresTripUpdates ∧
      (twoTripFeed 1778637600 2).StoresVehicles fun _ _ => true := by
  have hstores := pollStores_iff (twoTripFeed_enumsDeclared 1778637600 2) fun _ _ => true
  refine ⟨hstores.1.2 ?_, hstores.2.2 ?_⟩
  · simp [twoTripFeed, Poll.tripUpdates, TripUpdateMsg.InRange, EpochInRange,
      StopTimeUpdateMsg.TimesInRange, SequenceInRange]
  · simp [twoTripFeed, FeedEntity.VehicleInRange]

/-- A time in milliseconds is not, and with it the poll is lost. -/
theorem millisecondFeed_overflows :
    (¬ ∀ isPoint poll, Poll.EnumsDeclared poll →
      poll.StoresTripUpdates ∧ poll.StoresVehicles isPoint) ∧
    ∀ db, pollTripUpdates db (twoTripFeed 1778637600000 2) = db := by
  have hmem : ∃ x ∈ (twoTripFeed 1778637600000 2).tripUpdates, ¬ x.1.InRange := by
    simp [twoTripFeed, Poll.tripUpdates, TripUpdateMsg.InRange, EpochInRange]
  obtain ⟨x, hx, hrange⟩ := hmem
  refine ⟨?_, pollTripUpdates_of_not_inRange hx hrange⟩
  intro hall
  have henums := twoTripFeed_enumsDeclared 1778637600000 2
  have hstores := (hall (fun _ _ => true) _ henums).1
  exact hrange ((Poll.storesTripUpdates_iff henums).1 hstores x hx)

end DelayPredictor
