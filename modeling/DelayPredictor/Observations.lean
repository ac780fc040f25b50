import DelayPredictor.Lib.Runs
import DelayPredictor.Ingest

/-!
# The observation history

What the table `delay_observations` holds after any sequence of trip update
polls, and when a poll goes through.

* `contents_afterPolls` — under a natural key, the table holds what the
  observations processed for that key leave of one another: the route of the
  first and everything else of the last (`foldl_merge_eq`).
* `latestWins_iff` — **when the latest observation wins**: exactly when, at every
  commit, the observation processed last for a key is also the newest for it and
  was emitted under the key's first route.  The upsert asks for neither.
* `commitsOnce_iff` — **when a feed is ingested**: exactly when no trip of it
  reports the same stop twice, its values being ones the columns can hold.  A
  loop route in any entity costs the whole poll.
* `redelivered_rows` — **a redelivered poll is harmless**: a feed whose trips are
  all timestamped leaves the table the second time as it did the first.
-/

namespace DelayPredictor

open Keyed PyTime Runs

/-! ## After any sequence of polls -/

/-- The database after a sequence of polls of a freshly migrated system, in the
order in which they ended. -/
def afterPolls (polls : List Poll) : Db := replay pollTripUpdates Db.empty polls

/-- Every observation those polls wrote, in writing order. -/
def processed (polls : List Poll) : List DelayObservation := polls.flatMap Poll.emitted

/-- The ones of a natural key. -/
def forKey (k : String × String × Date) (seen : List DelayObservation) : List DelayObservation :=
  seen.filter fun o => o.naturalKey = k

theorem mem_forKey {k : String × String × Date} {seen : List DelayObservation}
    {o : DelayObservation} : o ∈ forKey k seen ↔ o ∈ seen ∧ o.naturalKey = k := by
  simp [forKey]

theorem delayObservations_afterPolls (polls : List Poll) :
    (afterPolls polls).delayObservations = Table.empty.putAll (processed polls) := by
  unfold afterPolls
  refine replay_history
    (P := fun l (db : Db) => db.delayObservations = Table.empty.putAll (processed l))
    rfl (fun l poll ih => ?_) polls
  rw [pollTripUpdates_delayObservations, ih, ← Table.putAll_append]
  simp [processed]

/-- What the table holds under a natural key. -/
theorem contents_afterPolls (polls : List Poll) (k : String × String × Date) :
    (afterPolls polls).delayObservations.contents k =
      (forKey k (processed polls)).foldl DelayObservation.upsert.absorb none := by
  rw [delayObservations_afterPolls, Table.contents_putAll, Table.contents_empty]
  rfl

/-- Updating a row of the same key takes everything but the route. -/
theorem merge_eq {d o : DelayObservation} (h : o.naturalKey = d.naturalKey) :
    DelayObservation.upsert.merge d o = { o with routeId := d.routeId } := by
  simp only [DelayObservation.naturalKey, Prod.mk.injEq] at h
  obtain ⟨ht, hs, hd⟩ := h
  simp [DelayObservation.upsert, ht, hs, hd]

/-- **The columns a key's row ends up with**: the route of the first observation
of the key, and every other column of the last. -/
theorem foldl_merge_eq {k : String × String × Date} {o : DelayObservation}
    {os : List DelayObservation} (h : ∀ x ∈ o :: os, x.naturalKey = k) :
    os.foldl DelayObservation.upsert.merge o =
      { (o :: os).getLast (List.cons_ne_nil o os) with routeId := o.routeId } := by
  induction os using List.reverseRecOn with
  | nil => rfl
  | append_singleton os x ih =>
    have hrow := ih fun y hy => h y (by simp at hy ⊢; tauto)
    have hkey : x.naturalKey = (os.foldl DelayObservation.upsert.merge o).naturalKey := by
      have := DelayObservation.upsert.key_foldl_merge o os
      exact (h x (by simp)).trans ((h o (by simp)).symm.trans this.symm)
    rw [List.foldl_append, List.foldl_cons, List.foldl_nil, merge_eq hkey, hrow]
    simp

theorem foldl_absorb_eq {k : String × String × Date} {l : List DelayObservation} (h : l ≠ [])
    (hkey : ∀ x ∈ l, x.naturalKey = k) :
    l.foldl DelayObservation.upsert.absorb none =
      some { l.getLast h with routeId := (l.head h).routeId } := by
  cases l with
  | nil => exact absurd rfl h
  | cons o os => rw [Upsert.foldl_absorb_none_cons, foldl_merge_eq hkey]; rfl

/-! ## The latest observation wins -/

/-- The table holds, under every key an observation was processed for, one of
these observations whole, and none of them is newer. -/
def HoldsLatest (db : Db) (seen : List DelayObservation) : Prop :=
  ∀ k, forKey k seen ≠ [] → ∃ o ∈ forKey k seen,
    (∀ o' ∈ forKey k seen, o'.observedAt ≤ o.observedAt) ∧ db.delayObservations.contents k = some o

/-- After every commit, each key's row is its latest observation. -/
def LatestWins (polls : List Poll) : Prop :=
  ∀ done, done <+: polls → HoldsLatest (afterPolls done) (processed done)

/-- The order of processing respects the order of recording: the observation
processed last for a key is as new as any other, and one just like it, recorded
at the same time, was emitted under the route the key was first seen with. -/
def InOrder (seen : List DelayObservation) : Prop :=
  ∀ k, ∀ h : forKey k seen ≠ [],
    (∀ o ∈ forKey k seen, o.observedAt ≤ ((forKey k seen).getLast h).observedAt) ∧
    ∃ o ∈ forKey k seen, o.routeId = ((forKey k seen).head h).routeId ∧
      o.observedAt = ((forKey k seen).getLast h).observedAt ∧
      o.delaySeconds = ((forKey k seen).getLast h).delaySeconds

theorem contents_of_forKey_ne_nil {polls : List Poll} {k : String × String × Date}
    (h : forKey k (processed polls) ≠ []) :
    (afterPolls polls).delayObservations.contents k =
      some { (forKey k (processed polls)).getLast h with
        routeId := ((forKey k (processed polls)).head h).routeId } := by
  rw [contents_afterPolls]
  exact foldl_absorb_eq h fun x hx => (mem_forKey.1 hx).2

/-- Observations of a key recorded at the same time with the same delay differ
at most in their route. -/
theorem eq_of_coherent {o o' : DelayObservation} (h : o.Coherent) (h' : o'.Coherent)
    (hk : o.naturalKey = o'.naturalKey) (ht : o.observedAt = o'.observedAt)
    (hd : o.delaySeconds = o'.delaySeconds) : o = { o' with routeId := o.routeId } := by
  have hhour : o.hourOfDay = o'.hourOfDay := by rw [h.hour, h'.hour, ht]
  have hday : o.dayOfWeek = o'.dayOfWeek := by rw [h.weekday, h'.weekday, ht]
  simp only [DelayObservation.naturalKey, Prod.mk.injEq] at hk
  obtain ⟨htrip, hstop, hdate⟩ := hk
  cases o
  cases o'
  simp_all

theorem processed_coherent (polls : List Poll) : ∀ o ∈ processed polls, o.Coherent := by
  intro o ho
  obtain ⟨poll, -, h⟩ := List.mem_flatMap.1 ho
  exact emitted_coherent poll o h

theorem holdsLatest_iff (polls : List Poll) :
    HoldsLatest (afterPolls polls) (processed polls) ↔ InOrder (processed polls) := by
  have hco : ∀ {k o}, o ∈ forKey k (processed polls) → o.Coherent := fun ho =>
    processed_coherent polls _ (mem_forKey.1 ho).1
  have hkey : ∀ {k o}, o ∈ forKey k (processed polls) → o.naturalKey = k := fun ho =>
    (mem_forKey.1 ho).2
  refine ⟨?_, ?_⟩
  · intro h k hne
    obtain ⟨o, ho, hmax, hc⟩ := h k hne
    rw [contents_of_forKey_ne_nil hne] at hc
    obtain rfl := Option.some.inj hc
    exact ⟨hmax, _, ho, rfl, rfl, rfl⟩
  · intro h k hne
    obtain ⟨hmax, o, ho, hroute, htime, hdelay⟩ := h k hne
    have hlast := List.getLast_mem hne
    have heq := eq_of_coherent (hco ho) (hco hlast) ((hkey ho).trans (hkey hlast).symm) htime hdelay
    refine ⟨o, ho, fun o' ho' => (hmax o' ho').trans htime.ge, ?_⟩
    rw [contents_of_forKey_ne_nil hne, ← hroute]
    exact congrArg some heq.symm

/-- **The latest observation wins exactly when polls are processed in order.** -/
theorem latestWins_iff (polls : List Poll) :
    LatestWins polls ↔ ∀ done, done <+: polls → InOrder (processed done) :=
  forall_congr' fun done => imp_congr_right fun _ => holdsLatest_iff done

/-- One trip of route `M1` on 2026-05-13, reporting a delay at each of `stops`,
polled at the second of its timestamp. -/
def tripFeed (timestamp : UInt64) (stops : List (String × Int32)) : Poll :=
  [({ id := "1"
      tripUpdate := some {
        trip := {
          tripId := "T1", routeId := "M1", startDate := "20260513", scheduleRelationship := none }
        vehicleId := "V1"
        stopTimeUpdate := stops.map fun (stopId, delay) => {
          stopSequence := none
          stopId
          arrival := some { delay := some delay, time := none }
          departure := none
          scheduleRelationship := none }
        timestamp }
      vehicle := none }, seconds timestamp.toNat)]

/-- The natural key of the stop `S1` on that trip. -/
def tripFeedKey : String × String × Date :=
  ("T1", "S1", ⟨2026, 5, 13, by decide, by decide, by decide⟩)

/-- A snapshot taken at second 400 and committed after the one of second 1000
replaces it. -/
theorem stalePoll_wins : ¬ LatestWins [tripFeed 1000 [("S1", 60)], tripFeed 400 [("S1", 15)]] := by
  intro h
  have hseen : forKey tripFeedKey
      (processed [tripFeed 1000 [("S1", 60)], tripFeed 400 [("S1", 15)]]) ≠ [] := by decide
  obtain ⟨o, -, hmax, hrow⟩ := h _ (List.prefix_refl _) tripFeedKey hseen
  -- The row is the one of second 400, and the one of second 1000 was processed.
  have holds :
      (afterPolls [tripFeed 1000 [("S1", 60)], tripFeed 400 [("S1", 15)]]).delayObservations
      |>.contents tripFeedKey |>.map (·.observedAt) |>.any (· = seconds 400) := by
    rw [contents_afterPolls]
    decide
  have hnewer : ∃ o' ∈ forKey tripFeedKey
      (processed [tripFeed 1000 [("S1", 60)], tripFeed 400 [("S1", 15)]]),
      o'.observedAt = seconds 1000 := by decide
  obtain ⟨o', ho', htime⟩ := hnewer
  have hle := hmax o' ho'
  rw [hrow] at holds
  have h400 : o.observedAt = seconds 400 := by simpa using holds
  rw [htime, h400] at hle
  exact absurd hle (by decide)

/-! ## A feed is ingested as a whole -/

/-- The natural keys of the stops a trip update states a delay for. -/
def TripUpdateMsg.reportedKeys (tu : TripUpdateMsg) : List (String × String × Date) :=
  match strptimeYmd tu.trip.startDate with
  | none => []
  | some d => ((tu.stopTimeUpdate.filter (·.statesDelay)).map (·.stopId)).map fun s =>
    (tu.trip.tripId, s, d)

/-- Every trip update of the poll has a valid start date, a timestamp in range
and no empty id. -/
def Poll.WellFormed (poll : Poll) : Prop := ∀ x ∈ poll.tripUpdates, x.1.WellFormed

/-- The table holds exactly one row with the natural key `k`. -/
def HoldsOnce (db : Db) (k : String × String × Date) : Prop :=
  (db.delayObservations.rows.filter fun r => r.data.naturalKey = k).length = 1

/-- The poll commits, and leaves one row for every key any of its entities reports. -/
def CommitsOnce (db : Db) (poll : Poll) : Prop :=
  ∃ db', ingestTripUpdates db poll = .ok db' ∧
    ∀ x ∈ poll.tripUpdates, ∀ k ∈ x.1.reportedKeys, HoldsOnce db' k

/-- The reported keys are the keys of the observations the loop body proposes. -/
theorem reportedKeys_eq {tu : TripUpdateMsg} (hwf : tu.WellFormed) {now : Instant} {r : TripRows}
    (h : decodeTripUpdate now tu = .ok r) :
    r.observations.map DelayObservation.naturalKey = tu.reportedKeys := by
  obtain ⟨hdate, -, -, hroute, hstops⟩ := hwf
  obtain ⟨d, hd⟩ := Option.isSome_iff_exists.1 hdate
  obtain ⟨t, startDate, -, hparse, -, -, hobs⟩ := decodeTripUpdate_eq_ok h
  rw [parseStartDate_of_strptime hd] at hparse
  cases hparse
  rw [hobs, observationRow_naturalKeys hroute t d hstops, TripUpdateMsg.reportedKeys, hd]

/-- A key that is among the rows of a committed poll is held once. -/
theorem holdsOnce_foldl {db : Db} {rs : List TripRows} {r : TripRows} (hr : r ∈ rs)
    {k : String × String × Date} (hk : k ∈ r.observations.map DelayObservation.naturalKey) :
    HoldsOnce (rs.foldl Db.applyTrip db) k := by
  obtain ⟨o, ho, rfl⟩ := List.mem_map.1 hk
  have hmem : o ∈ rs.flatMap TripRows.observations := List.mem_flatMap.2 ⟨r, hr, ho⟩
  have hne := db.delayObservations.contents_putAll_ne_none hmem
  rw [← foldl_applyTrip_delayObservations] at hne
  obtain ⟨d, hd⟩ := Option.ne_none_iff_exists'.1 hne
  exact Table.length_filter_key _ hd

/-- **When a feed is ingested**: exactly when each of its trip updates can be
stored, reports no stop twice and not too many for one statement. -/
theorem commitsOnce_iff (db : Db) (poll : Poll) (hwf : poll.WellFormed) :
    CommitsOnce db poll ↔
      ∀ x ∈ poll.tripUpdates, x.1.Representable ∧ x.1.VisitsOnce ∧ x.1.FitsStatement := by
  refine ⟨?_, ?_⟩
  · rintro ⟨db', hok, -⟩ x hx
    exact (accepted_iff (hwf x hx) x.2).1 ((ingest_commits_iff db poll).1 ⟨db', hok⟩ x hx)
  · intro h
    obtain ⟨db', hok⟩ := (ingest_commits_iff db poll).2 fun x hx =>
      (accepted_iff (hwf x hx) x.2).2 (h x hx)
    obtain ⟨rs, hrs, -, rfl⟩ := ingestTripUpdates_eq_ok_iff.1 hok
    refine ⟨_, hok, fun x hx k hk => ?_⟩
    obtain ⟨r, hr, hdec⟩ := exists_row_of_decoded hrs hx
    rw [← reportedKeys_eq (hwf x hx) hdec] at hk
    exact holdsOnce_foldl hr hk

theorem tripFeed_wellFormed {timestamp : UInt64} (hts : EpochInRange timestamp.toNat)
    {stops : List (String × Int32)} (hstops : ∀ s ∈ stops, s.1 ≠ "") :
    (tripFeed timestamp stops).WellFormed := by
  intro x hx
  obtain rfl := List.mem_singleton.1 hx
  have hdate : (strptimeYmd "20260513").isSome := by decide
  refine ⟨hdate, hts, by simp, by simp, ?_⟩
  intro stu hstu
  obtain ⟨s, hs, rfl⟩ := List.mem_map.1 hstu
  exact hstops s hs

/-- A trip that passes each of its stops once is ingested. -/
theorem commitsOnce_lineTrip : CommitsOnce Db.empty (tripFeed 1000 [("S1", 60), ("S2", 30)]) := by
  have hwf : (tripFeed 1000 [("S1", 60), ("S2", 30)]).WellFormed :=
    tripFeed_wellFormed (by constructor <;> decide) (by decide)
  refine (commitsOnce_iff Db.empty _ hwf).2 fun x hx => ?_
  obtain rfl := List.mem_singleton.1 hx
  refine ⟨⟨by decide, by decide, by decide, fun stu hstu => ?_⟩, ?_, ?_⟩
  rotate_left
  · unfold TripUpdateMsg.VisitsOnce
    decide
  · unfold TripUpdateMsg.FitsStatement
    decide
  simp only [List.map_cons, List.map_nil, List.mem_cons, List.not_mem_nil, or_false] at hstu
  rcases hstu with rfl | rfl
  · exact ⟨⟨by simp, by simp⟩, by decide, by simp⟩
  · exact ⟨⟨by simp, by simp⟩, by decide, by simp⟩

/-- A trip that comes back to its first stop is not. -/
theorem loopTrip_loses_poll :
    ¬ ∀ db poll, Poll.WellFormed poll → CommitsOnce db poll := by
  intro h
  have hwf : (tripFeed 1000 [("S1", 60), ("S2", 30), ("S1", 90)]).WellFormed :=
    tripFeed_wellFormed (by constructor <;> decide) (by decide)
  obtain ⟨db', hok, -⟩ := h Db.empty _ hwf
  obtain ⟨rs, hrs, hstor, -⟩ := ingestTripUpdates_eq_ok_iff.1 hok
  have hkeys : ∃ r, Poll.decoded (tripFeed 1000 [("S1", 60), ("S2", 30), ("S1", 90)]) = .ok [r] ∧
      ¬ (r.observations.map DelayObservation.naturalKey).Nodup := ⟨_, rfl, by decide⟩
  obtain ⟨r, hr, hdup⟩ := hkeys
  rw [hrs] at hr
  cases hr
  exact hdup (hstor r (by simp)).2.2.2

/-! ## A redelivered poll -/

/-- The polls fetched the same feed, each with its own clock readings. -/
def Poll.SameFeed (poll poll' : Poll) : Prop := poll.map Prod.fst = poll'.map Prod.fst

/-- Every trip update of the poll states its timestamp. -/
def Poll.Timestamped (poll : Poll) : Prop := ∀ x ∈ poll.tripUpdates, x.1.timestamp ≠ 0

/-- A stated timestamp is taken whatever the clock says. -/
theorem recordedAt_eq_of_ne_zero {timestamp : UInt64} (h : timestamp ≠ 0) (now now' : Instant) :
    recordedAt timestamp now = recordedAt timestamp now' := by
  have hne : (timestamp.toNat : ℤ) ≠ 0 := by
    intro h0
    apply h
    rw [← UInt64.toNat_inj]
    exact_mod_cast h0
  unfold recordedAt epochToDt
  rw [if_neg hne]
  cases fromTimestamp timestamp.toNat <;> rfl

theorem decodeTripUpdate_eq_of_ne_zero {tu : TripUpdateMsg} (h : tu.timestamp ≠ 0)
    (now now' : Instant) : decodeTripUpdate now tu = decodeTripUpdate now' tu := by
  unfold decodeTripUpdate
  rw [recordedAt_eq_of_ne_zero h now now']

/-- So the same feed decodes to the same rows. -/
theorem decoded_eq_of_sameFeed {poll poll' : Poll} (hfeed : poll.SameFeed poll')
    (hts : poll.Timestamped) : poll.decoded = poll'.decoded := by
  unfold Poll.SameFeed at hfeed
  unfold Poll.Timestamped at hts
  induction poll generalizing poll' with
  | nil =>
    obtain rfl := List.map_eq_nil_iff.1 hfeed.symm
    rfl
  | cons entry rest ih =>
    obtain ⟨entity, now⟩ := entry
    rw [List.map_cons] at hfeed
    obtain ⟨⟨entity', now'⟩, rest', rfl, hentity, hrest⟩ := List.map_eq_cons_iff.1 hfeed.symm
    obtain rfl : entity' = entity := hentity
    cases htu : entity'.tripUpdate with
    | none =>
      simp only [Poll.decoded, Poll.tripUpdates, htu] at hts ⊢
      exact ih hrest.symm hts
    | some tu =>
      simp only [Poll.decoded, Poll.tripUpdates, htu, List.forall_mem_cons] at hts ⊢
      rw [decodeTripUpdate_eq_of_ne_zero hts.1 now now', ih hrest.symm hts.2]

theorem delayObservation_columnwise : DelayObservation.upsert.Columnwise :=
  ⟨fun _ _ _ => rfl, fun _ => rfl⟩

/-- **A redelivered poll is harmless**, whatever the table held and whichever
trips of the feed share a key: the rows are the same, ids included. -/
theorem redelivered_rows (db : Db) {poll poll' : Poll} (hfeed : poll.SameFeed poll')
    (hts : poll.Timestamped) :
    (pollTripUpdates (pollTripUpdates db poll) poll').delayObservations.rows =
      (pollTripUpdates db poll).delayObservations.rows := by
  have hemitted : poll'.emitted = poll.emitted := by
    unfold Poll.emitted Poll.stored
    rw [decoded_eq_of_sameFeed hfeed hts]
  rw [pollTripUpdates_delayObservations, pollTripUpdates_delayObservations, hemitted]
  exact Table.putAll_putAll_rows _ delayObservation_columnwise _

/-- A feed polled again a second later. -/
theorem redelivered_lineTrip :
    (pollTripUpdates (pollTripUpdates Db.empty (tripFeed 1000 [("S1", 60), ("S2", 30)]))
      ((tripFeed 1000 [("S1", 60), ("S2", 30)]).map fun x =>
        (x.1, x.2 + seconds 1))).delayObservations.rows =
      (pollTripUpdates Db.empty (tripFeed 1000 [("S1", 60), ("S2", 30)])).delayObservations.rows :=
    by
  refine redelivered_rows Db.empty ?_ ?_
  · unfold Poll.SameFeed
    rw [List.map_map]
    rfl
  · intro x hx
    obtain rfl := List.mem_singleton.1 hx
    show (1000 : UInt64) ≠ 0
    decide

end DelayPredictor
