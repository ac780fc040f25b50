import DelayPredictor.Observations

/-!
# The live snapshot

`live_delays` (`app/api/routes/delays.py`) over the rows that
`ingest_trip_updates` stores.

* `liveJoin`, `LiveAnswers` — the statement: the join of the two realtime tables,
  a window back from the newest `recorded_at`, newest first, cut off at a limit.
* `liveJoin_afterPolls` — after any sequence of polls the join holds what each of
  them stored, one after the other.
* `snapshotIsLastPoll_iff` — **when the snapshot is the last poll**: exactly when
  everything the earlier polls stored lies outside the window, everything the
  last one stored lies in it, and it names no visit twice.  The window is wider
  than the time between two polls, so the first of these fails as a rule.
-/

namespace DelayPredictor

open Keyed PyTime Runs

/-! ## The endpoint -/

/-- A joined row of `trip_updates` and `stop_time_updates`. -/
abbrev LiveRow := TripUpdate × StopTimeValues

/-- `LiveDelay`. -/
structure LiveDelay where
  tripId : String
  routeId : Option String
  stopId : Option String
  stopSequence : Option ℤ
  arrivalDelaySeconds : Option ℤ
  departureDelaySeconds : Option ℤ
  delaySeconds : Option ℤ
  arrivalTime : Option Instant
  departureTime : Option Instant
  recordedAt : Instant
  deriving DecidableEq, Repr

/-- `LiveDelaysOut`. -/
structure LiveDelaysOut where
  snapshotAt : Option Instant
  count : ℕ
  delays : List LiveDelay
  deriving DecidableEq, Repr

/-- The parameters of the endpoint.  The function is read at any window and limit, those out
of the bounds that its `Query(ge=…, le=…)` sets included. -/
structure LiveQuery where
  routeId : Option String
  stopId : Option String
  snapshotWindowSeconds : ℤ
  limit : ℕ

/-- The response's entry for a joined row. -/
def LiveRow.delay (row : LiveRow) : LiveDelay where
  tripId := row.1.tripId
  routeId := row.1.routeId
  stopId := row.2.stopId
  stopSequence := row.2.stopSequence
  arrivalDelaySeconds := row.2.arrivalDelaySeconds
  departureDelaySeconds := row.2.departureDelaySeconds
  delaySeconds := row.2.departureDelaySeconds.or row.2.arrivalDelaySeconds
  arrivalTime := row.2.arrivalTime
  departureTime := row.2.departureTime
  recordedAt := row.1.recordedAt

/-- `MAX(trip_updates.recorded_at)`. -/
def latestRecorded (updates : List TripUpdate) : Option Instant :=
  (updates.map (·.recordedAt)).max?

/-- The trip updates of a database. -/
def Db.updates (db : Db) : List TripUpdate := db.tripUpdates.rows.map Row.data

/-- The join of the two tables. -/
def liveJoin (db : Db) : List LiveRow :=
  db.tripUpdates.rows.flatMap fun tu =>
    (db.stopTimeUpdates.rows.filter fun stu => stu.data.tripUpdateId = tu.id).map fun stu =>
      (tu.data, stu.data.toStopTimeValues)

/-- The `WHERE` clauses. -/
def LiveQuery.selects (q : LiveQuery) (latest : Instant) (row : LiveRow) : Bool :=
  latest - seconds q.snapshotWindowSeconds ≤ row.1.recordedAt &&
    q.routeId.all (fun routeId => row.1.routeId = some routeId) &&
    q.stopId.all (fun stopId => row.2.stopId = some stopId)

/-- `ORDER BY trip_updates.recorded_at DESC`. -/
def NewestFirst (a b : LiveRow) : Prop := b.1.recordedAt ≤ a.1.recordedAt

instance : DecidableRel NewestFirst := fun _ _ => inferInstanceAs (Decidable (_ ≤ _))

instance : Std.Total NewestFirst := ⟨fun a b => le_total b.1.recordedAt a.1.recordedAt⟩

instance : IsTrans LiveRow NewestFirst := ⟨fun _ _ _ hab hbc => le_trans hbc hab⟩

/-- What `live_delays` may return: the selected rows, newest first and otherwise
in any order, cut off at the limit. -/
def LiveAnswers (db : Db) (q : LiveQuery) (out : LiveDelaysOut) : Prop :=
  match latestRecorded db.updates with
  | none => out = { snapshotAt := none, count := 0, delays := [] }
  | some latest => ∃ rows : List LiveRow, rows.Perm ((liveJoin db).filter (q.selects latest)) ∧
    rows.Pairwise NewestFirst ∧
    out = {
      snapshotAt := some latest
      count := (rows.take q.limit).length
      delays := (rows.take q.limit).map LiveRow.delay }

/-! ## What the polls leave in the join -/

/-- The joined rows a trip update's rows make. -/
def TripRows.liveRows (r : TripRows) : List LiveRow := r.stopTimes.map fun v => (r.tripUpdate, v)

/-- The joined rows a poll makes. -/
def Poll.liveRows (poll : Poll) : List LiveRow := poll.stored.flatMap TripRows.liveRows

/-- The trip updates a poll stores. -/
def Poll.updates (poll : Poll) : List TripUpdate := poll.stored.map TripRows.tripUpdate

theorem updates_applyTrip (db : Db) (r : TripRows) :
    (db.applyTrip r).updates = db.updates ++ [r.tripUpdate] := by
  simp [Db.updates, Db.applyTrip, Db.addTripUpdate, Db.putObservations]

/-- A stop time update joins the trip update it was stored with, and no other. -/
theorem filter_addedStopTimes (n : ℕ) (id id' : ℕ) (vs : List StopTimeValues) :
    ((Log.number n (vs.map fun v => ({ v with tripUpdateId := id } : StopTimeUpdate))).filter
      fun stu => stu.data.tripUpdateId = id').map (fun stu => stu.data.toStopTimeValues) =
        if id = id' then vs else [] := by
  induction vs generalizing n with
  | nil => simp
  | cons v vs ih =>
    by_cases h : id = id'
    · simpa [h] using ih (n + 1)
    · simpa [h] using ih (n + 1)

/-- **Storing a trip update** adds its joined rows and changes none. -/
theorem liveJoin_applyTrip (db : Db) (r : TripRows) :
    liveJoin (db.applyTrip r) = liveJoin db ++ r.liveRows := by
  have hrows : (db.applyTrip r).tripUpdates.rows =
      db.tripUpdates.rows ++ [⟨db.tripUpdates.nextId, r.tripUpdate⟩] := by
    simp [Db.applyTrip, Db.addTripUpdate, Db.putObservations]
  have hstops : (db.applyTrip r).stopTimeUpdates.rows = db.stopTimeUpdates.rows ++
      Log.number db.stopTimeUpdates.nextId (r.stopTimes.map fun v =>
        ({ v with tripUpdateId := db.tripUpdates.nextId } : StopTimeUpdate)) := rfl
  have hjoin : ∀ (tu : Row TripUpdate),
      ((db.applyTrip r).stopTimeUpdates.rows.filter fun stu => stu.data.tripUpdateId = tu.id).map
          (fun stu => (tu.data, stu.data.toStopTimeValues)) =
        ((db.stopTimeUpdates.rows.filter fun stu => stu.data.tripUpdateId = tu.id).map
          fun stu => (tu.data, stu.data.toStopTimeValues)) ++
        (if db.tripUpdates.nextId = tu.id then r.stopTimes else []).map fun v => (tu.data, v) := by
    intro tu
    rw [hstops, List.filter_append, List.map_append, ← filter_addedStopTimes
      db.stopTimeUpdates.nextId, List.map_map]
    rfl
  have hnew : (db.stopTimeUpdates.rows.filter fun stu =>
      stu.data.tripUpdateId = db.tripUpdates.nextId) = [] := by
    rw [List.filter_eq_nil_iff]
    intro stu hstu hid
    obtain ⟨tu, htu, hfk⟩ := List.mem_map.1 (db.stopTime_fk stu hstu)
    have hlt := db.tripUpdates.ids_lt tu htu
    have hid := of_decide_eq_true hid
    omega
  rw [liveJoin, hrows, List.flatMap_append, List.flatMap_singleton, hjoin, hnew]
  congr 1
  · refine List.flatMap_congr fun tu htu => ?_
    have hlt := db.tripUpdates.ids_lt tu htu
    rw [hjoin, if_neg (by omega), List.map_nil, List.append_nil]
  · rw [if_pos rfl]
    rfl

theorem updates_afterPolls (polls : List Poll) :
    (afterPolls polls).updates = polls.flatMap Poll.updates := by
  unfold afterPolls
  refine replay_history (P := fun l (db : Db) => db.updates = l.flatMap Poll.updates) rfl
    (fun l poll ih => ?_) polls
  rw [pollTripUpdates_eq, List.flatMap_append, List.flatMap_singleton, ← ih, Poll.updates]
  generalize replay pollTripUpdates Db.empty l = db
  induction poll.stored generalizing db with
  | nil => simp
  | cons r rs ih => rw [List.foldl_cons, ih, updates_applyTrip]; simp

/-- **The join after any sequence of polls**: what each of them stored. -/
theorem liveJoin_afterPolls (polls : List Poll) :
    liveJoin (afterPolls polls) = polls.flatMap Poll.liveRows := by
  unfold afterPolls
  refine replay_history (P := fun l (db : Db) => liveJoin db = l.flatMap Poll.liveRows) rfl
    (fun l poll ih => ?_) polls
  rw [pollTripUpdates_eq, List.flatMap_append, List.flatMap_singleton, ← ih, Poll.liveRows]
  generalize replay pollTripUpdates Db.empty l = db
  induction poll.stored generalizing db with
  | nil => simp
  | cons r rs ih => rw [List.foldl_cons, ih, liveJoin_applyTrip]; simp

/-! ## When the snapshot is the last poll -/

/-- What a reported delay is about. -/
def LiveDelay.visit (d : LiveDelay) : String × Option String × Option ℤ :=
  (d.tripId, d.stopId, d.stopSequence)

/-- The default window, no filters. -/
def LiveQuery.unfiltered (limit : ℕ) : LiveQuery where
  routeId := none
  stopId := none
  snapshotWindowSeconds := 90
  limit

/-- With the default window, no filters and a large enough limit, the endpoint
returns exactly the delays of `rows`, and no visit twice. -/
def SnapshotIs (db : Db) (rows : List LiveRow) : Prop :=
  ∀ limit out, (liveJoin db).length ≤ limit → LiveAnswers db (LiveQuery.unfiltered limit) out →
    out.delays.Perm (rows.map LiveRow.delay) ∧ (out.delays.map LiveDelay.visit).Nodup

/-- Joined rows within the default window of `latest`. -/
def inWindow (latest : Instant) (rows : List LiveRow) : List LiveRow :=
  rows.filter fun row => latest - seconds 90 ≤ row.1.recordedAt

theorem filter_selects_unfiltered (limit : ℕ) (latest : Instant) (rows : List LiveRow) :
    rows.filter ((LiveQuery.unfiltered limit).selects latest) = inWindow latest rows := by
  refine List.filter_congr fun row _ => ?_
  simp [LiveQuery.selects, LiveQuery.unfiltered]

/-- Some answer is always possible. -/
theorem exists_liveAnswers {db : Db} {latest : Instant}
    (h : latestRecorded db.updates = some latest) {limit : ℕ}
    (hlimit : (liveJoin db).length ≤ limit) :
    ∃ out, LiveAnswers db (LiveQuery.unfiltered limit) out ∧
      out.delays.Perm ((inWindow latest (liveJoin db)).map LiveRow.delay) := by
  let sorted := (inWindow latest (liveJoin db)).insertionSort NewestFirst
  have hperm : sorted.Perm (inWindow latest (liveJoin db)) := List.perm_insertionSort _ _
  have hsorted : sorted.Pairwise NewestFirst := List.pairwise_insertionSort _ _
  have hlen : sorted.length ≤ limit :=
    hperm.length_eq.le.trans ((List.length_filter_le _ _).trans hlimit)
  refine ⟨⟨some latest, (sorted.take limit).length, (sorted.take limit).map LiveRow.delay⟩, ?_, ?_⟩
  · unfold LiveAnswers
    rw [h]
    exact ⟨sorted, by rw [filter_selects_unfiltered]; exact hperm, hsorted, rfl⟩
  · show ((sorted.take limit).map LiveRow.delay).Perm _
    rw [List.take_of_length_le hlen]
    exact hperm.map _

/-- Every answer holds the rows of the window. -/
theorem LiveAnswers.delays_perm {db : Db} {latest : Instant}
    (h : latestRecorded db.updates = some latest) {limit : ℕ}
    (hlimit : (liveJoin db).length ≤ limit) {out : LiveDelaysOut}
    (hout : LiveAnswers db (LiveQuery.unfiltered limit) out) :
    out.delays.Perm ((inWindow latest (liveJoin db)).map LiveRow.delay) := by
  unfold LiveAnswers at hout
  rw [h] at hout
  obtain ⟨rows, hperm, -, rfl⟩ := hout
  rw [filter_selects_unfiltered] at hperm
  have hlen : rows.length ≤ limit := by
    rw [hperm.length_eq]
    exact (List.length_filter_le _ _).trans hlimit
  show ((rows.take limit).map LiveRow.delay).Perm _
  rw [List.take_of_length_le hlen]
  exact hperm.map _

/-- Rows that are exactly the window of a longer list: nothing else is in the
window, and nothing of them is outside. -/
theorem window_perm_iff {latest : Instant} {earlier last : List LiveRow} :
    ((inWindow latest (earlier ++ last)).map LiveRow.delay).Perm (last.map LiveRow.delay) ↔
      (∀ row ∈ earlier, row.1.recordedAt < latest - seconds 90) ∧
        ∀ row ∈ last, latest - seconds 90 ≤ row.1.recordedAt := by
  refine ⟨?_, ?_⟩
  · intro h
    have hlast : ∀ row ∈ last, latest - seconds 90 ≤ row.1.recordedAt := by
      intro row hrow
      -- What is reported carries its time, so a row of the right side is in the window too.
      obtain ⟨row', hrow', hdelay⟩ := List.mem_map.1 (h.symm.subset (List.mem_map_of_mem hrow))
      have hwin := of_decide_eq_true (List.mem_filter.1 hrow').2
      have htime : row'.1.recordedAt = row.1.recordedAt := congrArg LiveDelay.recordedAt hdelay
      rwa [htime] at hwin
    have hself : inWindow latest last = last :=
      List.filter_eq_self.2 fun row hrow => decide_eq_true (hlast row hrow)
    have hlen := h.length_eq
    rw [List.length_map, List.length_map, inWindow, List.filter_append, List.length_append] at hlen
    have hnil : inWindow latest earlier = [] := by
      rw [← List.length_eq_zero_iff]
      unfold inWindow at hself ⊢
      rw [hself] at hlen
      omega
    refine ⟨fun row hrow => ?_, hlast⟩
    have hout := List.filter_eq_nil_iff.1 hnil row hrow
    exact not_le.1 fun hle => hout (decide_eq_true hle)
  · rintro ⟨hearlier, hlast⟩
    have hnil : inWindow latest earlier = [] :=
      List.filter_eq_nil_iff.2 fun row hrow hin =>
        absurd (of_decide_eq_true hin) (not_le.2 (hearlier row hrow))
    have hself : inWindow latest last = last :=
      List.filter_eq_self.2 fun row hrow => decide_eq_true (hlast row hrow)
    unfold inWindow at hnil hself ⊢
    rw [List.filter_append, hnil, hself, List.nil_append]

/-- The window separates the last poll from the earlier ones, and the last poll
names no visit twice. -/
def WindowSeparates (earlier : List Poll) (last : Poll) : Prop :=
  (∀ latest, latestRecorded ((earlier ++ [last]).flatMap Poll.updates) = some latest →
    (∀ row ∈ earlier.flatMap Poll.liveRows, row.1.recordedAt < latest - seconds 90) ∧
      ∀ row ∈ last.liveRows, latest - seconds 90 ≤ row.1.recordedAt) ∧
  (last.liveRows.map fun row => row.delay.visit).Nodup

theorem Poll.fst_mem_updates {poll : Poll} {row : LiveRow} (h : row ∈ poll.liveRows) :
    row.1 ∈ poll.updates := by
  obtain ⟨r, hr, hrow⟩ := List.mem_flatMap.1 h
  obtain ⟨v, -, rfl⟩ := List.mem_map.1 hrow
  exact List.mem_map_of_mem hr

/-- A poll after which the table is empty has stored nothing. -/
theorem liveRows_eq_nil {earlier : List Poll} {last : Poll}
    (h : latestRecorded (afterPolls (earlier ++ [last])).updates = none) :
    last.liveRows = [] := by
  have hupdates : (afterPolls (earlier ++ [last])).updates = [] := by
    simpa [latestRecorded] using h
  rw [List.eq_nil_iff_forall_not_mem]
  intro row hrow
  have hmem : row.1 ∈ (afterPolls (earlier ++ [last])).updates := by
    rw [updates_afterPolls, List.flatMap_append, List.flatMap_singleton]
    exact List.mem_append_right _ (Poll.fst_mem_updates hrow)
  rw [hupdates] at hmem
  cases hmem

/-- **When the snapshot is the last poll.** -/
theorem snapshotIsLastPoll_iff (earlier : List Poll) (last : Poll) :
    SnapshotIs (afterPolls (earlier ++ [last])) last.liveRows ↔ WindowSeparates earlier last := by
  have hjoin : liveJoin (afterPolls (earlier ++ [last])) =
      earlier.flatMap Poll.liveRows ++ last.liveRows := by
    rw [liveJoin_afterPolls, List.flatMap_append, List.flatMap_singleton]
  rw [WindowSeparates, ← updates_afterPolls]
  cases hlatest : latestRecorded (afterPolls (earlier ++ [last])).updates with
  | none =>
    have hnone := liveRows_eq_nil hlatest
    refine iff_of_true ?_ ⟨by simp, by simp [hnone]⟩
    intro limit out _ hout
    unfold LiveAnswers at hout
    rw [hlatest] at hout
    rw [hout, hnone]
    exact ⟨List.Perm.refl _, List.nodup_nil⟩
  | some latest =>
    have hvisits : last.liveRows.map (fun row => row.delay.visit) =
        (last.liveRows.map LiveRow.delay).map LiveDelay.visit := by
      rw [List.map_map]
      rfl
    rw [hvisits]
    refine ⟨?_, ?_⟩
    · intro h
      obtain ⟨out, hout, hwin⟩ := exists_liveAnswers hlatest le_rfl
      obtain ⟨hperm, hnodup⟩ := h _ out le_rfl hout
      refine ⟨?_, (hperm.map _).nodup_iff.1 hnodup⟩
      rintro _ ⟨⟩
      rw [hjoin] at hwin
      exact window_perm_iff.1 (hwin.symm.trans hperm)
    · rintro ⟨hwin, hnodup⟩ limit out hlimit hout
      have hdelays := hout.delays_perm hlatest hlimit
      rw [hjoin] at hdelays
      have hperm := hdelays.trans (window_perm_iff.2 (hwin latest rfl))
      exact ⟨hperm, (hperm.map _).nodup_iff.2 hnodup⟩

/-- The polls start `interval` after one another, and none takes longer. -/
def PolledEvery (interval : ℤ) : Instant → List Poll → Prop
  | _, [] => True
  | start, poll :: polls =>
    (∀ x ∈ poll, start ≤ x.2 ∧ x.2 < start + interval) ∧
      PolledEvery interval (start + interval) polls

/-- At the default interval, the poll before the last is still in the window. -/
theorem previousPoll_leaksIn :
    ¬ ∀ start earlier last, PolledEvery (seconds 60) start (earlier ++ [last]) →
      SnapshotIs (afterPolls (earlier ++ [last])) last.liveRows := by
  intro h
  have hspaced : PolledEvery (seconds 60) (seconds 1000)
      ([tripFeed 1000 [("S1", 60)]] ++ [tripFeed 1060 [("S1", 60)]]) := by
    simp [PolledEvery, tripFeed, seconds]
  have hjoin :
      liveJoin (afterPolls ([tripFeed 1000 [("S1", 60)]] ++ [tripFeed 1060 [("S1", 60)]])) =
      [tripFeed 1000 [("S1", 60)], tripFeed 1060 [("S1", 60)]].flatMap Poll.liveRows :=
    liveJoin_afterPolls _
  have hlatest : latestRecorded
      (afterPolls ([tripFeed 1000 [("S1", 60)]] ++ [tripFeed 1060 [("S1", 60)]])).updates =
        some (seconds 1060) := by
    rw [updates_afterPolls]
    decide
  obtain ⟨out, hout, hwin⟩ := exists_liveAnswers hlatest le_rfl
  obtain ⟨hperm, -⟩ := h _ _ _ hspaced _ out le_rfl hout
  have hlen := (hwin.symm.trans hperm).length_eq
  rw [hjoin] at hlen
  exact absurd hlen (by decide)

end DelayPredictor
