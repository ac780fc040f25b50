import DelayPredictor.Lib.Samples
import DelayPredictor.Interleavings
import DelayPredictor.PredictionCache

/-!
# Predictions from the feeds

What the trip update feeds polled so far lead `predict_delay` to say, through the upserts of
the polls and whatever the other tasks do in between.

* `record` — the purpose of `delay_observations`: for every key that was ever observed, its
  last observation, under the route of its first.
* `estimate` — the estimate from a record, as statistics of two samples.
* `prediction_of_feeds` — **a prediction is the estimate from the record of the feeds**,
  after any sequence of tasks.  A loaded model is also told the weather of the bucket, as it
  is read from the database.
* `prediction_without_poll` — **a poll that is lost costs nothing** once later polls
  observe its keys again.
-/

namespace DelayPredictor

open Keyed PyTime Runs Stats

/-! ## The record of a history -/

/-- What is on record under a key: its last observation, under the route of its first. -/
def onRecord (seen : List DelayObservation) (k : String × String × Date) :
    Option DelayObservation :=
  match (forKey k seen).head?, (forKey k seen).getLast? with
  | some first, some last => some { last with routeId := first.routeId }
  | _, _ => none

/-- Everything on record. -/
def record (seen : List DelayObservation) : Finset DelayObservation :=
  (seen.map DelayObservation.naturalKey).toFinset.biUnion fun k => (onRecord seen k).toFinset

theorem onRecord_of_nil {seen : List DelayObservation} {k : String × String × Date}
    (h : forKey k seen = []) : onRecord seen k = none := by
  simp [onRecord, h]

theorem onRecord_of_ne_nil {seen : List DelayObservation} {k : String × String × Date}
    (h : forKey k seen ≠ []) :
    onRecord seen k =
      some { (forKey k seen).getLast h with routeId := ((forKey k seen).head h).routeId } := by
  simp [onRecord, List.head?_eq_some_head h, List.getLast?_eq_some_getLast h]

/-- A record is kept under its own key. -/
theorem naturalKey_of_onRecord {seen : List DelayObservation} {k : String × String × Date}
    {o : DelayObservation} (h : onRecord seen k = some o) : o.naturalKey = k := by
  by_cases hnil : forKey k seen = []
  · rw [onRecord_of_nil hnil] at h
    cases h
  · rw [onRecord_of_ne_nil hnil, Option.some.injEq] at h
    obtain rfl := h
    exact (mem_forKey.1 (List.getLast_mem hnil)).2

theorem mem_record {seen : List DelayObservation} {o : DelayObservation} :
    o ∈ record seen ↔ onRecord seen o.naturalKey = some o := by
  simp only [record, Finset.mem_biUnion, List.mem_toFinset, List.mem_map, Option.mem_toFinset]
  constructor
  · rintro ⟨k, -, hk⟩
    rw [naturalKey_of_onRecord hk]
    exact hk
  · intro h
    have hne : forKey o.naturalKey seen ≠ [] := fun hnil => by
      rw [onRecord_of_nil hnil] at h
      cases h
    obtain ⟨x, hx⟩ := List.exists_mem_of_ne_nil _ hne
    obtain ⟨hseen, hkey⟩ := mem_forKey.1 hx
    exact ⟨o.naturalKey, ⟨x, hseen, hkey⟩, h⟩

/-- The record is what the upserts leave of a history. -/
theorem onRecord_eq_foldl (seen : List DelayObservation) (k : String × String × Date) :
    onRecord seen k = (forKey k seen).foldl DelayObservation.upsert.absorb none := by
  by_cases hnil : forKey k seen = []
  · rw [onRecord_of_nil hnil, hnil]
    rfl
  · rw [onRecord_of_ne_nil hnil, foldl_absorb_eq hnil fun x hx => (mem_forKey.1 hx).2]

/-! ## The table after any tasks -/

/-- The observations a task writes. -/
def BeatTask.observed : BeatTask → List DelayObservation
  | .pollTripUpdates poll => poll.emitted
  | _ => []

/-- Every observation the tasks of a run wrote, in writing order. -/
def observed (tasks : List BeatTask) : List DelayObservation := tasks.flatMap BeatTask.observed

section Tasks

variable (isPoint : XFloat → XFloat → Bool)

omit isPoint in
/-- Only the polls write observations. -/
theorem not_mem_writes {k : TaskKind} (h : k ≠ .pollTripUpdates) :
    TableName.delayObservations ∉ k.writes := by
  cases k <;> first | exact absurd rfl h | decide

/-- What a task does to the observations. -/
theorem delayObservations_exec (d : Database) (task : BeatTask) :
    (d.exec isPoint task).live.delayObservations =
      d.live.delayObservations.putAll task.observed := by
  by_cases hkind : task.kind = .pollTripUpdates
  · cases task with
    | pollTripUpdates poll => exact pollTripUpdates_delayObservations d.live poll
    | _ => cases hkind
  · have hobserved : task.observed = [] := by
      cases task with
      | pollTripUpdates poll => exact absurd rfl hkind
      | _ => rfl
    rw [hobserved]
    exact (footprint isPoint task).frame d .delayObservations (not_mem_writes hkind)

/-- What any sequence of tasks leaves of them. -/
theorem delayObservations_replay (tasks : List BeatTask) :
    (replay (Database.exec isPoint) Database.empty tasks).live.delayObservations =
      Table.empty.putAll (observed tasks) := by
  refine replay_history
    (P := fun l (d : Database) => d.live.delayObservations = Table.empty.putAll (observed l))
    rfl (fun l task ih => ?_) tasks
  rw [delayObservations_exec, ih, ← Table.putAll_append, observed, observed, List.flatMap_append,
    List.flatMap_singleton]

/-- **The rows are the record** of what was observed. -/
theorem data_toFinset (tasks : List BeatTask) :
    (replay (Database.exec isPoint) Database.empty tasks).live.delayObservations.data.toFinset =
      record (observed tasks) := by
  ext o
  have hcontents := Table.contents_putAll (Table.empty : Table DelayObservation.upsert)
    (observed tasks) o.naturalKey
  rw [Table.contents_empty] at hcontents
  rw [List.mem_toFinset, mem_record, onRecord_eq_foldl, delayObservations_replay]
  rw [show forKey o.naturalKey (observed tasks) =
    (observed tasks).filter fun v => DelayObservation.upsert.key v = o.naturalKey from rfl,
    ← hcontents]
  constructor
  · intro h
    obtain ⟨r, hr, rfl⟩ := List.mem_map.1 h
    exact (Table.contents_eq_some_iff _).2 ⟨r, hr, rfl, rfl⟩
  · exact Table.mem_data_of_contents

end Tasks

/-! ## Estimates from a record -/

/-- The delays on record for a route, a stop, an hour and a weekday since `since`. -/
def bucketSample (seen : Finset DelayObservation) (routeId stopId : String)
    (hour dayOfWeek : ℤ) (since : Instant) : Multiset ℤ :=
  (seen.filter fun o => o.routeId = routeId ∧ o.stopId = stopId ∧ o.hourOfDay = hour ∧
    o.dayOfWeek = dayOfWeek ∧ since ≤ o.observedAt).val.map (·.delaySeconds)

/-- The delays on record for a route since `since`. -/
def routeSample (seen : Finset DelayObservation) (routeId : String) (since : Instant) :
    Multiset ℤ :=
  (seen.filter fun o => o.routeId = routeId ∧ since ≤ o.observedAt).val.map (·.delaySeconds)

/-- The estimate from a record: of the bucket if it has enough observations, else of the
route. -/
def estimate (rt : Runtime) (settings : Settings) (seen : Finset DelayObservation)
    (now : Instant) (req : PredictionRequest) : PredictionOut :=
  let since := now - days settings.predictorHistoryDays
  let bucket := bucketSample seen req.routeId req.stopId req.targetTime.hour
    req.targetTime.weekday since
  let route := routeSample seen req.routeId since
  if settings.predictorMinObservations ≤ bucket.card then
    { routeId := req.routeId
      stopId := req.stopId
      targetTime := req.targetTime
      predictedDelaySeconds := roundHalfEven (sampleMean bucket)
      sampleSize := bucket.card
      confidence := confidence rt.exp bucket.card
      method := .bucketMean
      p50DelaySeconds := (quantile (1 / 2) bucket).map roundHalfEven
      p90DelaySeconds := (quantile (9 / 10) bucket).map roundHalfEven }
  else
    { routeId := req.routeId
      stopId := req.stopId
      targetTime := req.targetTime
      predictedDelaySeconds := roundHalfEven (sampleMean route)
      sampleSize := route.card
      confidence := confidence rt.exp route.card * (1 / 2)
      method := fallbackMethod route.card
      p50DelaySeconds := none
      p90DelaySeconds := none }

/-- The estimate with an interval, for the weather that is met. -/
def estimateWithInterval (rt : Runtime) (settings : Settings) (seen : Finset DelayObservation)
    (weather : WeatherCondition) (now : Instant) (routeId stopId : String) (target : DateTime) :
    PredictWithIntervalOut :=
  let since := now - days settings.predictorHistoryDays
  let bucket := bucketSample seen routeId stopId target.hour target.weekday since
  let route := routeSample seen routeId since
  if settings.predictorMinObservations ≤ bucket.card then
    { routeId
      stopId
      datetime := target
      predictedDelaySeconds := roundHalfEven <| match rt.model with
        | some predictSingle => predictSingle routeId stopId target.hour target.weekday weather
        | none => sampleMean bucket
      confidenceInterval := do
        let p10 ← quantile (1 / 10) bucket
        let p90 ← quantile (9 / 10) bucket
        return ⟨roundHalfEven p10, roundHalfEven p90, 4 / 5⟩
      method := if rt.model.isSome then .mlModel else .bucketMean
      sampleSize := bucket.card
      confidence := confidence rt.exp bucket.card }
  else
    { routeId
      stopId
      datetime := target
      predictedDelaySeconds := roundHalfEven (sampleMean route)
      confidenceInterval := none
      method := fallbackMethod route.card
      sampleSize := route.card
      confidence := confidence rt.exp route.card * (1 / 2) }

/-- The rows of a table that a condition selects, as a finite set. -/
theorem coe_map_filter {U : Upsert (String × String × Date) DelayObservation} (T : Table U)
    {p : DelayObservation → Bool} {q : DelayObservation → Prop} [DecidablePred q]
    (h : ∀ o, p o = true ↔ q o) :
    ((T.data.filter p).map (·.delaySeconds) : Multiset ℤ) =
      (T.data.toFinset.filter q).val.map (·.delaySeconds) := by
  have hnodup : T.data.Nodup := List.Nodup.of_map _ T.data_keys_nodup
  have hfilter : T.data.filter p = T.data.filter fun o => decide (q o) :=
    List.filter_congr fun o _ => by simp [← h o]
  rw [Finset.filter_val, List.toFinset_val, hnodup.dedup, Multiset.filter_coe, Multiset.map_coe,
    hfilter]

theorem coe_bucketDelays (db : Db) (routeId stopId : String) (hour dayOfWeek : ℤ)
    (since : Instant) :
    (bucketDelays db routeId stopId hour dayOfWeek since : Multiset ℤ) =
      bucketSample db.delayObservations.data.toFinset routeId stopId hour dayOfWeek since := by
  refine coe_map_filter db.delayObservations fun o => ?_
  simp [and_assoc]

theorem coe_routeDelays (db : Db) (routeId : String) (since : Instant) :
    (routeDelays db routeId since : Multiset ℤ) =
      routeSample db.delayObservations.data.toFinset routeId since := by
  refine coe_map_filter db.delayObservations fun o => ?_
  simp

/-- `predict_delay` is the estimate from the rows of the table, in whatever order the
database aggregates them. -/
theorem predictDelayUncached_eq_estimate (rt : Runtime) (settings : Settings) (db : Db)
    (now : Instant) (req : PredictionRequest) :
    predictDelayUncached rt settings db now req =
      estimate rt settings db.delayObservations.data.toFinset now req := by
  unfold predictDelayUncached predictDelayFor bucketStats routeFallback estimate
  simp only [mean_eq_sampleMean, percentileCont_eq_quantile, ← coe_bucketDelays,
    ← coe_routeDelays, Multiset.coe_card]

/-- So is `predict_with_interval`. -/
theorem predictWithInterval_eq_estimate (rt : Runtime) (settings : Settings) (db : Db)
    (now : Instant) (routeId stopId : String) (target : DateTime) :
    predictWithInterval rt settings db now routeId stopId target =
      estimateWithInterval rt settings db.delayObservations.data.toFinset
        (weatherConditionFor
          (latestRainfallForBucket db routeId stopId target.hour target.weekday))
        now routeId stopId target := by
  unfold predictWithInterval predictWithIntervalFor bucketWithQuantiles routeFallback
    estimateWithInterval interval
  simp only [mean_eq_sampleMean, percentileCont_eq_quantile, ← coe_bucketDelays,
    ← coe_routeDelays, Multiset.coe_card]
  split
  · cases rt.model <;> rfl
  · rfl

/-! ## What the feeds lead to -/

section Feeds

variable (isPoint : XFloat → XFloat → Bool) (rt : Runtime) (settings : Settings) (now : Instant)

/-- **A prediction is the estimate from the record of the feeds**, whatever the tasks of the
run and their order. -/
theorem prediction_of_feeds (tasks : List BeatTask) (routeId stopId : String)
    (target : DateTime) :
    let db := (replay (Database.exec isPoint) Database.empty tasks).live
    let seen := record (observed tasks)
    let rainfall := latestRainfallForBucket db routeId stopId target.hour target.weekday
    predictDelayUncached rt settings db now ⟨routeId, stopId, target⟩ =
        estimate rt settings seen now ⟨routeId, stopId, target⟩ ∧
      predictWithInterval rt settings db now routeId stopId target =
        estimateWithInterval rt settings seen (weatherConditionFor rainfall) now routeId stopId
          target := by
  intro db seen rainfall
  have hseen : db.delayObservations.data.toFinset = seen := data_toFinset isPoint tasks
  rw [predictDelayUncached_eq_estimate, predictWithInterval_eq_estimate, hseen]
  exact ⟨rfl, rfl⟩

/-! ### Lost polls -/

/-- The observations of a key, in a part of a run and after it. -/
theorem forKey_append (seen seen' : List DelayObservation) (k : String × String × Date) :
    forKey k (seen ++ seen') = forKey k seen ++ forKey k seen' := List.filter_append ..

/-- What is on record without some observations that are made again later, under the same
route. -/
theorem onRecord_without {before lost after : List DelayObservation}
    (hagain : ∀ o ∈ lost, ∃ o' ∈ after, o'.naturalKey = o.naturalKey)
    (hroute : ∀ o ∈ lost, ∀ o' ∈ after, o'.naturalKey = o.naturalKey → o'.routeId = o.routeId)
    (k : String × String × Date) :
    onRecord (before ++ lost ++ after) k = onRecord (before ++ after) k := by
  by_cases hlost : forKey k lost = []
  · simp only [onRecord, forKey_append, hlost, List.append_nil]
  · -- The last observation is a later one, and the first is an earlier one if there is any.
    have hmem := mem_forKey.1 (List.head_mem hlost)
    obtain ⟨o', ho', hkey'⟩ := hagain _ hmem.1
    have hafter : forKey k after ≠ [] :=
      List.ne_nil_of_mem (mem_forKey.2 ⟨ho', hkey'.trans hmem.2⟩)
    have hfirst := mem_forKey.1 (List.head_mem hafter)
    have hsame : ((forKey k after).head hafter).routeId = ((forKey k lost).head hlost).routeId :=
      hroute _ hmem.1 _ hfirst.1 (hfirst.2.trans hmem.2.symm)
    have hne : ∀ l : List DelayObservation, l ++ forKey k after ≠ [] :=
      fun l h => hafter (List.append_eq_nil_iff.1 h).2
    rw [onRecord_of_ne_nil (by rw [forKey_append]; exact hne _),
      onRecord_of_ne_nil (by rw [forKey_append]; exact hne _)]
    simp only [forKey_append, List.getLast_append_of_ne_nil _ hafter]
    by_cases hbefore : forKey k before = []
    · simp only [hbefore, List.nil_append, List.head_append_of_ne_nil hlost, hsame]
    · simp only [List.append_assoc, List.head_append_of_ne_nil hbefore]

/-- **A poll that is lost costs nothing** once later polls observe its keys again, under the
same routes. -/
theorem prediction_without_poll (before after : List BeatTask) (lost : Poll)
    (hagain : ∀ o ∈ lost.emitted, ∃ o' ∈ observed after, o'.naturalKey = o.naturalKey)
    (hroute : ∀ o ∈ lost.emitted, ∀ o' ∈ observed after,
      o'.naturalKey = o.naturalKey → o'.routeId = o.routeId) (req : PredictionRequest) :
    let after' := fun tasks => (replay (Database.exec isPoint) Database.empty tasks).live
    predictDelayUncached rt settings (after' (before ++ [.pollTripUpdates lost] ++ after)) now req =
      predictDelayUncached rt settings (after' (before ++ after)) now req := by
  intro after'
  have hobserved : observed (before ++ [.pollTripUpdates lost] ++ after) =
      observed before ++ lost.emitted ++ observed after := by
    simp [observed, BeatTask.observed]
  have hrecord : record (observed (before ++ [.pollTripUpdates lost] ++ after)) =
      record (observed (before ++ after)) := by
    ext o
    rw [mem_record, mem_record, hobserved, onRecord_without hagain hroute, observed, observed,
      observed, List.flatMap_append]
  rw [predictDelayUncached_eq_estimate, predictDelayUncached_eq_estimate, data_toFinset,
    data_toFinset, hrecord]

end Feeds

/-- The poll of second 1000 is lost, the next one reports the stop again. -/
theorem prediction_without_firstPoll :
    let after := fun tasks => (replay (Database.exec fun _ _ => true) Database.empty tasks).live
    let next := BeatTask.pollTripUpdates (tripFeed 1060 [("S1", 90), ("S2", 30)])
    let req : PredictionRequest := ⟨"M1", "S1", DateTime.utc (days 7)⟩
    predictDelayUncached Runtime.bare Settings.default
        (after ([] ++ [.pollTripUpdates (tripFeed 1000 [("S1", 60)])] ++ [next])) (hours 1) req =
      predictDelayUncached Runtime.bare Settings.default (after ([] ++ [next])) (hours 1) req :=
  prediction_without_poll _ Runtime.bare Settings.default (hours 1) [] _ _ (by decide) (by decide)
    _

end DelayPredictor
