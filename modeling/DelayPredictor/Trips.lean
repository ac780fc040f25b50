import DelayPredictor.Departures
import DelayPredictor.StaticContents

/-!
# A trip and its stop times

`get_trip` (`app/api/routes/trips.py`): three statements, between any two of which a
refresh of the static feed may commit.

* `tripDetail` — what the endpoint makes of the rows it loads, in whatever order they come.
* `GetTrip` — a call, with the tables each of its statements finds.  Trips of more than
  32767 stop times are left out: the last statement has an argument for each of them.
* `getTrip_iff` — **what a call answers** is determined by the feeds committed so far:
  the stop times are those of one feed, whatever commits in the meantime.
* `getTrip_named` — **every stop of an answer has a name**, and their sequence goes up.
-/

namespace DelayPredictor

open Keyed Raising Runs Stats Transaction

/-! ## The endpoint -/

/-- `TripOut`. -/
structure TripOut where
  tripId : String
  routeId : String
  serviceId : String
  headsign : Option String
  shortName : Option String
  directionId : Option ℤ
  deriving DecidableEq, Repr

/-- `StopTimeOut`. -/
structure StopTimeOut where
  stopSequence : ℤ
  stopId : String
  stopName : Option String
  arrivalTime : ℤ
  departureTime : ℤ
  deriving DecidableEq, Repr

/-- `TripDetailOut`. -/
structure TripDetailOut extends TripOut where
  stopTimes : List StopTimeOut
  deriving DecidableEq, Repr

/-- `TripOut.model_validate`. -/
def Trip.out (trip : Trip) : TripOut where
  tripId := trip.tripId
  routeId := trip.routeId
  serviceId := trip.serviceId
  headsign := trip.headsign
  shortName := trip.shortName
  directionId := trip.directionId

/-- A stop time under a name. -/
def StopTime.out (st : StopTime) (stopName : Option String) : StopTimeOut where
  stopSequence := st.stopSequence
  stopId := st.stopId
  stopName
  arrivalTime := st.arrivalTime
  departureTime := st.departureTime

/-- `key=lambda x: x.stop_sequence`. -/
def BySequence (a b : StopTime) : Prop := a.stopSequence ≤ b.stopSequence

instance : DecidableRel BySequence := fun _ _ => inferInstanceAs (Decidable (_ ≤ _))

instance : Std.Total BySequence := ⟨fun a b => le_total a.stopSequence b.stopSequence⟩

instance : IsTrans StopTime BySequence := ⟨fun _ _ _ hab hbc => le_trans hab hbc⟩

/-- `stops_by_id.get`: of the loaded stops under an identifier, the last. -/
def stopsById (stops : List Stop) (stopId : String) : Option Stop :=
  lastRow Stop.upsert stops stopId

/-- What the endpoint makes of the rows it loads. -/
def tripDetail (trip : Trip) (loaded : List StopTime) (stops : List Stop) : TripDetailOut :=
  ⟨trip.out, (loaded.insertionSort BySequence).map fun st =>
    st.out ((stopsById stops st.stopId).map Stop.name)⟩

/-- The rows of `Trip.stop_times`. -/
def stopTimesOf (T : StaticTables) (tripId : String) : List StopTime :=
  T.stopTimes.data.filter fun st => st.tripId = tripId

/-- The stops of some stop times. -/
def stopsOf (T : StaticTables) (loaded : List StopTime) : List Stop :=
  T.stops.data.filter fun stop => stop.stopId ∈ loaded.map StopTime.stopId

/-- A call: the trip, its stop times and their stops are each read from the tables the
statement finds, the rows in any order. -/
inductive GetTrip (atTrip atStopTimes atStops : StaticTables) (tripId : String) :
    Except HTTPException TripDetailOut → Prop
  | notFound (htrip : atTrip.trips.contents tripId = none) :
    GetTrip atTrip atStopTimes atStops tripId (.error ⟨404, "trip not found"⟩)
  | found {trip : Trip} {loaded : List StopTime} {stops : List Stop}
    (htrip : atTrip.trips.contents tripId = some trip)
    (hloaded : loaded.Perm (stopTimesOf atStopTimes tripId))
    (hstops : stops.Perm (stopsOf atStops loaded)) :
    GetTrip atTrip atStopTimes atStops tripId (.ok (tripDetail trip loaded stops))

/-! ## The rows it loads -/

/-- The stop times of a trip have distinct places in its sequence. -/
theorem sequence_injective (T : StaticTables) {tripId : String} {a b : StopTime}
    (ha : a ∈ stopTimesOf T tripId) (hb : b ∈ stopTimesOf T tripId)
    (h : a.stopSequence = b.stopSequence) : a = b := by
  obtain ⟨ha, hatrip⟩ := List.mem_filter.1 ha
  obtain ⟨hb, hbtrip⟩ := List.mem_filter.1 hb
  have hkey : StopTime.upsert.key a = StopTime.upsert.key b :=
    Prod.ext ((of_decide_eq_true hatrip).trans (of_decide_eq_true hbtrip).symm) h
  exact List.inj_on_of_nodup_map T.stopTimes.data_keys_nodup ha hb hkey

/-- They are sorted in one way. -/
theorem insertionSort_eq {T : StaticTables} {tripId : String} {loaded : List StopTime}
    (h : loaded.Perm (stopTimesOf T tripId)) :
    loaded.insertionSort BySequence = (stopTimesOf T tripId).insertionSort BySequence := by
  have hsorted := List.perm_insertionSort BySequence
  refine List.Perm.eq_of_pairwise ?_ (List.pairwise_insertionSort BySequence _)
    (List.pairwise_insertionSort BySequence _) ((hsorted loaded).trans (h.trans (hsorted _).symm))
  intro a b ha hb hab hba
  exact sequence_injective T (h.subset ((hsorted _).subset ha)) ((hsorted _).subset hb)
    (le_antisymm hab hba)

/-- Sorted, their sequence goes up. -/
theorem insertionSort_ascending (T : StaticTables) (tripId : String) :
    ((stopTimesOf T tripId).insertionSort BySequence).Pairwise
      fun a b => a.stopSequence < b.stopSequence := by
  have hperm := List.perm_insertionSort BySequence (stopTimesOf T tripId)
  have hnodup : (stopTimesOf T tripId).Nodup :=
    (List.Nodup.of_map _ T.stopTimes.data_keys_nodup).filter _
  have hsorted := List.pairwise_insertionSort BySequence (stopTimesOf T tripId)
  refine (hsorted.and (hperm.nodup_iff.2 hnodup)).imp_of_mem ?_
  rintro a b ha hb ⟨hle, hne⟩
  refine lt_of_le_of_ne hle fun heq => hne ?_
  exact sequence_injective T (hperm.subset ha) (hperm.subset hb) heq

/-- The stop under an identifier is the one the table holds. -/
theorem stopsById_eq {T : StaticTables} {loaded : List StopTime} {stops : List Stop}
    (h : stops.Perm (stopsOf T loaded)) {st : StopTime} (hst : st ∈ loaded) :
    stopsById stops st.stopId = T.stops.contents st.stopId := by
  refine lastRow_eq_contents T.stops (fun stop hstop => List.mem_of_mem_filter (h.subset hstop)) ?_
  intro stop hstop hkey
  have hid : stop.stopId ∈ loaded.map StopTime.stopId :=
    List.mem_map.2 ⟨st, hst, (show stop.stopId = st.stopId from hkey).symm⟩
  exact h.symm.subset (List.mem_filter.2 ⟨hstop, by simpa using hid⟩)

/-- **The answer in terms of the tables**, whatever order the rows are loaded in. -/
theorem tripDetail_eq {T T' : StaticTables} {trip : Trip} {loaded : List StopTime}
    {stops : List Stop} (hloaded : loaded.Perm (stopTimesOf T trip.tripId))
    (hstops : stops.Perm (stopsOf T' loaded)) :
    tripDetail trip loaded stops =
      ⟨trip.out, ((stopTimesOf T trip.tripId).insertionSort BySequence).map fun st =>
        st.out ((T'.stops.contents st.stopId).map Stop.name)⟩ := by
  unfold tripDetail
  rw [← insertionSort_eq hloaded]
  refine congrArg (TripDetailOut.mk trip.out) ?_
  refine List.map_congr_left fun st hst => ?_
  rw [stopsById_eq hstops ((List.perm_insertionSort BySequence loaded).subset hst)]

/-! ## What a call answers -/

section Answers

variable (isPoint : XFloat → XFloat → Bool)

/-- What a call answers, given the feeds that its three statements find committed. -/
def answerOf (atTrip atStopTimes atStops : List FeedRows) (tripId : String) :
    Except HTTPException TripDetailOut :=
  match lastRow Trip.upsert (atTrip.flatMap (·.trips)) tripId with
  | none => .error ⟨404, "trip not found"⟩
  | some trip =>
    let stopTimes := (atStopTimes.getLast?.map (·.stopTimes)).getD []
    let served := (stopTimes.filter fun st => st.tripId = tripId).insertionSort BySequence
    .ok ⟨trip.out, served.map fun st =>
      st.out ((lastRow Stop.upsert (atStops.flatMap (·.stops)) st.stopId).map Stop.name)⟩

/-- The tables after a history that starts with none. -/
abbrev tablesAfter (history : List Refresh) : StaticTables :=
  (replay (refresh isPoint) StaticDb.empty history).toStaticTables

theorem trips_tablesAfter (history : List Refresh) (tripId : String) :
    (tablesAfter isPoint history).trips.contents tripId =
      lastRow Trip.upsert
        ((committedFeeds isPoint StaticDb.empty history).flatMap (·.trips)) tripId := by
  obtain ⟨htables, -⟩ := replay_refresh isPoint StaticDb.empty history
  obtain ⟨-, -, -, htrips, -, -⟩ :=
    foldl_apply (committedFeeds isPoint StaticDb.empty history) StaticDb.empty.toStaticTables
  rw [tablesAfter, htables, htrips, Table.contents_putAll_last _ Trip.upsert_replaces]
  exact Option.or_none

theorem stops_tablesAfter (history : List Refresh) (stopId : String) :
    (tablesAfter isPoint history).stops.contents stopId =
      lastRow Stop.upsert
        ((committedFeeds isPoint StaticDb.empty history).flatMap (·.stops)) stopId := by
  obtain ⟨htables, -⟩ := replay_refresh isPoint StaticDb.empty history
  obtain ⟨-, -, hstops, -, -, -⟩ :=
    foldl_apply (committedFeeds isPoint StaticDb.empty history) StaticDb.empty.toStaticTables
  rw [tablesAfter, htables, hstops, Table.contents_putAll_last _ Stop.upsert_replaces]
  exact Option.or_none

/-- **What a call answers** while refreshes commit before it and between its
statements. -/
theorem getTrip_iff (before between after : List Refresh) (tripId : String)
    (result : Except HTTPException TripDetailOut) :
    let feeds := committedFeeds isPoint StaticDb.empty
    GetTrip (tablesAfter isPoint before) (tablesAfter isPoint (before ++ between))
        (tablesAfter isPoint (before ++ between ++ after)) tripId result ↔
      result = answerOf (feeds before) (feeds (before ++ between))
        (feeds (before ++ between ++ after)) tripId := by
  intro feeds
  have htrips := trips_tablesAfter isPoint before tripId
  have hstopTimes := (replay_refresh isPoint StaticDb.empty (before ++ between)).2
  have hanswer : ∀ trip : Trip, trip.tripId = tripId →
      lastRow Trip.upsert ((feeds before).flatMap (·.trips)) tripId = some trip →
      answerOf (feeds before) (feeds (before ++ between)) (feeds (before ++ between ++ after))
          tripId = .ok
        ⟨trip.out, ((stopTimesOf (tablesAfter isPoint (before ++ between)) trip.tripId)
          |>.insertionSort BySequence).map fun st => st.out
            (((tablesAfter isPoint (before ++ between ++ after)).stops.contents st.stopId).map
              Stop.name)⟩ := by
    intro trip hkey hlast
    simp only [answerOf, hlast, stopTimesOf, tablesAfter, hstopTimes, hkey]
    simp only [stops_tablesAfter, feeds]
    rfl
  constructor
  · intro h
    cases h with
    | notFound hnone =>
      rw [htrips] at hnone
      simp only [answerOf, feeds, hnone]
    | found hsome hloaded hstops =>
      have hkey := Table.key_of_contents _ hsome
      rw [htrips] at hsome
      rw [hanswer _ hkey hsome]
      obtain rfl := hkey
      exact congrArg Except.ok (tripDetail_eq hloaded hstops)
  · rintro rfl
    cases hlast : lastRow Trip.upsert ((feeds before).flatMap (·.trips)) tripId with
    | none =>
      simp only [answerOf, hlast]
      exact .notFound (htrips.trans hlast)
    | some trip =>
      have hsome := htrips.trans hlast
      have hkey := Table.key_of_contents _ hsome
      rw [hanswer trip hkey hlast]
      obtain rfl := hkey
      rw [← tripDetail_eq (.refl _) (.refl _)]
      exact .found hsome (.refl _) (.refl _)

/-- The stops of the static tables are never lost. -/
theorem mem_stops_replay (db : StaticDb) (history : List Refresh) {stopId : String}
    (h : stopId ∈ db.stops.keys) :
    stopId ∈ (replay (refresh isPoint) db history).stops.keys := by
  obtain ⟨htables, -⟩ := replay_refresh isPoint db history
  obtain ⟨-, -, hstops, -, -, -⟩ :=
    foldl_apply (committedFeeds isPoint db history) db.toStaticTables
  rw [htables, hstops, Table.mem_keys_putAll]
  exact .inl h

/-- Every stop time refers to a stop, now and after any refreshes. -/
theorem exists_stop (db : StaticDb) (after : List Refresh) {tripId : String} {st : StopTime}
    (hst : st ∈ stopTimesOf db.toStaticTables tripId) :
    ∃ stop, (replay (refresh isPoint) db after).stops.contents st.stopId = some stop := by
  obtain ⟨r, hr, rfl⟩ := List.mem_map.1 (List.mem_filter.1 hst).1
  have hkey : r.data.stopId ∈ db.stops.keys :=
    db.linked.stopTime_stop r.data (List.mem_map_of_mem hr) _ rfl
  obtain ⟨row, hrow, hrowKey⟩ := List.mem_map.1 (mem_stops_replay isPoint db after hkey)
  exact ⟨row.data, (Table.contents_eq_some_iff _).2 ⟨row, hrow, hrowKey, rfl⟩⟩

/-- **Every stop of an answer has a name, and their sequence goes up**, whatever commits
between the statements. -/
theorem getTrip_named (db : StaticDb) (between after : List Refresh) {tripId : String}
    {detail : TripDetailOut}
    (h : GetTrip db.toStaticTables (replay (refresh isPoint) db between).toStaticTables
      (replay (refresh isPoint) db (between ++ after)).toStaticTables tripId (.ok detail)) :
    (∀ st ∈ detail.stopTimes, st.stopName.isSome) ∧
      detail.stopTimes.Pairwise fun a b => a.stopSequence < b.stopSequence := by
  rw [replay_append] at h
  cases h with
  | @found trip loaded stops htrip hloaded hstops =>
    obtain rfl := Table.key_of_contents _ htrip
    rw [tripDetail_eq hloaded hstops]
    have hperm := List.perm_insertionSort BySequence
      (stopTimesOf (replay (refresh isPoint) db between).toStaticTables (Trip.upsert.key trip))
    constructor
    · intro out hout
      obtain ⟨st, hst, rfl⟩ := List.mem_map.1 hout
      obtain ⟨stop, hstop⟩ := exists_stop isPoint _ after (hperm.subset hst)
      show (Option.map Stop.name _).isSome
      rw [hstop]
      rfl
    · rw [List.pairwise_map]
      exact insertionSort_ascending _ _

end Answers

/-- A feed without the service is committed before the stops are read. -/
theorem nightArchive_named :
    let db := refresh (fun _ _ => true) StaticDb.empty (noFaults, .ok nightArchive)
    ∃ trip, db.trips.contents "T1" = some trip ∧
      let stops := stopsOf (replay (refresh fun _ _ => true) db
        [(noFaults, .ok smallArchive)]).toStaticTables (stopTimesOf db.toStaticTables "T1")
      let detail := tripDetail trip (stopTimesOf db.toStaticTables "T1") stops
      (∀ st ∈ detail.stopTimes, st.stopName.isSome) ∧
        detail.stopTimes.Pairwise fun a b => a.stopSequence < b.stopSequence := by
  intro db
  have hsome : (db.trips.contents "T1").isSome := by decide +kernel
  obtain ⟨trip, htrip⟩ := Option.isSome_iff_exists.1 hsome
  exact ⟨trip, htrip, getTrip_named _ db [] [(noFaults, .ok smallArchive)]
    (.found htrip (.refl _) (.refl _))⟩

end DelayPredictor
