import DelayPredictor.Coverage
import DelayPredictor.Lib.ConcurrentCalls
import DelayPredictor.PredictionCache

/-!
# Concurrent calls of `predict_delay`

`predict_delay` step by step (`app/services/predictor.py`): between any two of its awaits the
server goes on with other calls, and the pollers with theirs.

* `predictDelayReading` — what it does past a cache miss; `predictionCalls` — the calls.
* `exists_predictDelay` — a call that is left alone is `predictDelay`.
* `concurrent_predictions` — **where an answer comes from**: from what the statements of one
  call with the same cache key met, each in its turn, stored at most
  `predictor_cache_ttl_seconds` earlier.
* `concurrent_honest` — **every answer and every cache entry passes validation**, and claims
  no more than the observations it counts.
-/

namespace DelayPredictor

open ConcurrentCalls Keyed PyTime ReadThrough Runs Stats

/-! ## The steps of a call -/

section Steps

variable (rt : Runtime) (settings : Settings) (req : PredictionRequest)

/-- The answer from a bucket that is large enough. -/
def bucketPrediction (bucket : BucketStats) : PredictionOut where
  routeId := req.routeId
  stopId := req.stopId
  targetTime := req.targetTime
  predictedDelaySeconds := roundHalfEven bucket.mean
  sampleSize := bucket.sampleSize
  confidence := confidence rt.exp bucket.sampleSize
  method := .bucketMean
  p50DelaySeconds := bucket.p50.map roundHalfEven
  p90DelaySeconds := bucket.p90.map roundHalfEven

/-- The answer from the whole route. -/
def fallbackPrediction (fallback : BucketStats) : PredictionOut where
  routeId := req.routeId
  stopId := req.stopId
  targetTime := req.targetTime
  predictedDelaySeconds := roundHalfEven fallback.mean
  sampleSize := fallback.sampleSize
  confidence := confidence rt.exp fallback.sampleSize * (1 / 2)
  method := fallbackMethod fallback.sampleSize
  p50DelaySeconds := none
  p90DelaySeconds := none

/-- What `predict_delay` does between its cache check and the cache write: it reads the
clock, awaits the statement over the bucket, and maybe the one over the route. -/
def predictDelayReading : Reading Db PredictionOut :=
  .clock fun now =>
    let since := now - days settings.predictorHistoryDays
    .query fun db =>
      let bucket := bucketStats db req.routeId req.stopId req.targetTime.hour
        req.targetTime.weekday since
      if settings.predictorMinObservations ≤ bucket.sampleSize then
        .ret (bucketPrediction rt req bucket)
      else
        .query fun db => .ret (fallbackPrediction rt req (routeFallback db req.routeId since))

/-- Its answer when the clock, the bucket and the route are read at different moments. -/
def predictDelayAt (now : Instant) (atBucket atRoute : Db) : PredictionOut :=
  let since := now - days settings.predictorHistoryDays
  let bucket := bucketStats atBucket req.routeId req.stopId req.targetTime.hour
    req.targetTime.weekday since
  if settings.predictorMinObservations ≤ bucket.sampleSize then bucketPrediction rt req bucket
  else fallbackPrediction rt req (routeFallback atRoute req.routeId since)

/-- The answer from one state of the database. -/
theorem predictDelayAt_self (now : Instant) (db : Db) :
    predictDelayAt rt settings req now db db = predictDelayUncached rt settings db now req := by
  unfold predictDelayAt predictDelayUncached predictDelayFor bucketPrediction fallbackPrediction
  dsimp only

/-- Read at one moment, the steps are the function. -/
theorem run_predictDelayReading (m : Moment Db) :
    (predictDelayReading rt settings req).run m =
      predictDelayUncached rt settings m.world m.now req := by
  rw [← predictDelayAt_self]
  unfold predictDelayReading predictDelayAt
  simp only [Reading.run]
  split <;> rfl

/-- The answer of the reads at some moments: the clock, the statement over the bucket, and
the one over the route when the bucket is too small. -/
def PredictedFrom (p : PredictionOut) : List (Moment Db) → Prop
  | [clock, bucket] =>
    let stats := bucketStats bucket.world req.routeId req.stopId req.targetTime.hour
      req.targetTime.weekday (clock.now - days settings.predictorHistoryDays)
    settings.predictorMinObservations ≤ stats.sampleSize ∧ p = bucketPrediction rt req stats
  | [clock, bucket, route] =>
    let since := clock.now - days settings.predictorHistoryDays
    let stats := bucketStats bucket.world req.routeId req.stopId req.targetTime.hour
      req.targetTime.weekday since
    stats.sampleSize < settings.predictorMinObservations ∧
      p = fallbackPrediction rt req (routeFallback route.world req.routeId since)
  | _ => False

/-- What the steps come to at some moments. -/
theorem after_predictDelayReading {ms : List (Moment Db)} {p : PredictionOut}
    (h : (predictDelayReading rt settings req).after ms = some (.ret p)) :
    PredictedFrom rt settings req p ms := by
  unfold predictDelayReading at h
  match ms, h with
  | [], h => cases h
  | [_], h => cases h
  | clock :: bucket :: rest, h =>
    simp only [Reading.after_clock_cons, Reading.after_query_cons] at h
    split at h
    · rename_i hlarge
      cases rest with
      | nil => exact ⟨hlarge, by simpa using h.symm⟩
      | cons route rest => cases h
    · rename_i hsmall
      match rest, h with
      | [], h => cases h
      | [_], h => exact ⟨not_le.1 hsmall, by simpa using h.symm⟩
      | _ :: _ :: _, h => cases h

/-- In terms of the three reads. -/
theorem PredictedFrom.eq_predictDelayAt {ms : List (Moment Db)} {p : PredictionOut}
    (h : PredictedFrom rt settings req p ms) : ∃ clock rest, ms = clock :: rest ∧
      ∃ bucket ∈ rest, ∃ route ∈ rest,
        p = predictDelayAt rt settings req clock.now bucket.world route.world := by
  unfold predictDelayAt
  match ms, h with
  | [clock, bucket], ⟨hlarge, hp⟩ =>
    refine ⟨clock, _, rfl, bucket, by simp, bucket, by simp, ?_⟩
    rw [if_pos hlarge, hp]
  | [clock, bucket, route], ⟨hsmall, hp⟩ =>
    refine ⟨clock, _, rfl, bucket, by simp, route, by simp, ?_⟩
    rw [if_neg (not_le.2 hsmall), hp]

/-- The calls of `predict_delay`. -/
def predictionCalls : CachedCalls Db PredictionRequest String PredictionOut where
  key := PredictionRequest.cacheKey
  body := predictDelayReading rt settings
  ttl := seconds settings.predictorCacheTtlSeconds
  ttl_pos := by
    have := settings.ttl_pos
    unfold seconds
    omega

/-- What can happen while calls are served; they are numbered. -/
abbrev ServerEvent := ConcurrentCalls.Event Db PredictionRequest ℕ

/-- The server after a run. -/
abbrev serverAfter (m : Moment Db) (events : List ServerEvent) :=
  (predictionCalls rt settings).run m events

end Steps

/-! ## Calls that are left alone -/

section Calls

variable (rt : Runtime) (settings : Settings)

/-- In one step, a call is `predictDelay`. -/
theorem atomic_eq (s : ConcurrentCalls.State Db PredictionRequest String PredictionOut ℕ)
    (req : PredictionRequest) :
    (predictionCalls rt settings).atomic s req =
      predictDelay rt settings s.moment.world s.moment.now s.store req := by
  unfold CachedCalls.atomic predictDelay
  rw [show (predictionCalls rt settings).key req = req.cacheKey from rfl,
    show (predictionCalls rt settings).body req = predictDelayReading rt settings req from rfl,
    run_predictDelayReading]
  cases s.store.get s.moment.now req.cacheKey <;> rfl

/-- **A call that is left alone** is `predictDelay`. -/
theorem exists_predictDelay {s : ConcurrentCalls.State Db PredictionRequest String PredictionOut ℕ}
    {i : ℕ} {req : PredictionRequest} (h : s.calls i = some (.asked req)) :
    ∃ n, replay (predictionCalls rt settings).exec s (List.replicate n (.step i)) =
      let out := predictDelay rt settings s.moment.world s.moment.now s.store req
      { s with
        store := out.2
        calls := Function.update s.calls i (some (.answered req out.1 s.moment.now)) } := by
  obtain ⟨n, hn⟩ := CachedCalls.exists_uninterrupted (S := predictionCalls rt settings) h
  rw [atomic_eq] at hn
  exact ⟨n, hn⟩

/-! ## Where answers come from -/

/-- What a call that was answered, or an entry, was produced by. -/
theorem predictedFrom_of_produced {m : Moment Db} {events : List ServerEvent} {k : String}
    {p : PredictionOut} {time : ℤ}
    (h : (predictionCalls rt settings).Produced m events k p time) :
    ∃ past j req' lookup reads, past ++ [.step j] <+: events ∧ req'.cacheKey = k ∧
      CachedCalls.Running m past j req' (lookup :: reads) ∧ PredictedFrom rt settings req' p reads ∧
      (replay tick m past).now = time := by
  obtain ⟨past, j, req', lookup, reads, hpast, hkey, hrunning, hreads, htime⟩ := h
  exact ⟨past, j, req', lookup, reads, hpast, hkey, hrunning,
    after_predictDelayReading rt settings req' hreads, htime⟩

/-- Where an answer given at a time comes from.  A call with the same cache key looked its key
up, met the clock and then the database in its next steps, one after the other, and stored
the answer of these reads at most an expiry ago.  If nothing was written between its first
and its last step, it is the answer of that state of the database. -/
def ComesFrom (m : Moment Db) (events : List ServerEvent) (req : PredictionRequest)
    (p : PredictionOut) (time : ℤ) : Prop :=
  ∃ before j req' during lookup clock rest,
    before ++ .call j req' :: during ++ [.step j] <+: events ∧ (∀ r, .call j r ∉ before) ∧
    req'.cacheKey = req.cacheKey ∧
    ownMoments j (replay tick m before) during = lookup :: clock :: rest ∧
    PredictedFrom rt settings req' p (clock :: rest) ∧
    (replay tick m (before ++ .call j req' :: during)).now ∈
      Set.Icc (time - seconds settings.predictorCacheTtlSeconds) time ∧
    ((∀ db, .change db ∉ during) →
      p = predictDelayUncached rt settings (replay tick m before).world clock.now req')

/-- **Where every answer comes from**, whatever is interleaved with the call that gets it. -/
theorem concurrent_predictions (m : Moment Db) (events : List ServerEvent) {i : ℕ}
    {req : PredictionRequest} {p : PredictionOut} {time : ℤ}
    (h : (serverAfter rt settings m events).calls i = some (.answered req p time)) :
    ComesFrom rt settings m events req p time := by
  obtain ⟨stored, hstored, hproduced⟩ :=
    (CachedCalls.explained_run (predictionCalls rt settings) m events).calls i _ h
  obtain ⟨_, j, req', lookup, reads, hpast, hkey, ⟨before, during, rfl, hfresh, hown⟩, hpredicted,
    rfl⟩ := predictedFrom_of_produced rt settings hproduced
  obtain ⟨clock, rest, rfl, bucket, hbucket, route, hroute, hp⟩ := hpredicted.eq_predictDelayAt
  refine ⟨before, j, req', during, lookup, clock, rest, hpast, hfresh, hkey, hown, hpredicted,
    hstored, fun hquiet => ?_⟩
  have hworld : ∀ moment ∈ rest, moment.world = (replay tick m before).world := by
    intro moment hmem
    refine world_of_mem_ownMoments (i := j) hquiet ?_
    rw [hown]
    exact List.mem_cons_of_mem _ (List.mem_cons_of_mem _ hmem)
  rw [hp, hworld bucket hbucket, hworld route hroute, predictDelayAt_self]

/-- A stop at which five delays are observed in the end. -/
def observedStop : PredictionRequest := ⟨"M1", "S1", DateTime.utc (days 399)⟩

/-- Two calls for that stop.  The second begins before the first has read the database, and
the delays are written between the two statements of the first. -/
def interleavedCalls : List ServerEvent :=
  [.call 0 observedStop, .step 0, .step 0, .call 1 observedStop, .step 1, .step 0,
    .change fiveDelays, .step 1, .step 1, .step 0, .wait 7, .step 1, .step 0]

/-- The first finds no delays in the bucket and five on the route. -/
theorem concurrent_predictions_interleaved :
    ComesFrom Runtime.bare Settings.default ⟨Db.empty, days 399⟩ interleavedCalls observedStop
      (fallbackPrediction Runtime.bare observedStop (routeFallback fiveDelays "M1" (days 385)))
      (days 399 + 7) :=
  concurrent_predictions Runtime.bare Settings.default ⟨Db.empty, days 399⟩ interleavedCalls
    (i := 0) rfl

/-! ## Valid answers -/

/-- What a client may rely on in an answer: its confidence is one, an estimate from the route
is given half of it, what no observation supports is zero with no confidence, and the
quantiles come together and only from a bucket. -/
structure PredictionOut.Honest (settings : Settings) (p : PredictionOut) : Prop where
  confidence_nonneg : 0 ≤ p.confidence
  confidence_le_one : p.confidence ≤ 1
  fallback_le : p.method ≠ .bucketMean → p.confidence ≤ 1 / 2
  bucket_large : p.method = .bucketMean → settings.predictorMinObservations ≤ p.sampleSize
  unsupported : p.sampleSize = 0 → p.predictedDelaySeconds = 0 ∧ p.confidence = 0
  quantiles : p.p50DelaySeconds.isSome = p.p90DelaySeconds.isSome
  quantiles_bucket : p.p50DelaySeconds.isSome → p.method = .bucketMean

theorem confidence_mem {exp : ℚ → ℚ} (hexp : ∀ x ≤ 0, exp x ∈ Set.Icc 0 1) (n : ℕ) :
    confidence exp n ∈ Set.Icc 0 1 := by
  unfold confidence
  split
  · simp
  · have hle : (-(n : ℚ) / 30) ≤ 0 := by
      have : (0 : ℚ) ≤ n := Nat.cast_nonneg n
      linarith
    obtain ⟨h₀, h₁⟩ := hexp _ hle
    exact ⟨le_min (by norm_num) (by linarith), min_le_left _ _⟩

theorem confidence_zero (exp : ℚ → ℚ) : confidence exp 0 = 0 := by
  simp [confidence]

theorem percentileCont_isSome {f : ℚ} (hf : f ≤ 1) (xs : List ℤ) :
    (percentileCont f xs).isSome = !xs.isEmpty := by
  cases xs with
  | nil => simp [percentileCont]
  | cons x xs =>
    obtain ⟨y, hy⟩ := Option.ne_none_iff_exists'.1
      (percentileCont_ne_none hf (List.cons_ne_nil x xs))
    simp [hy]

/-- An answer from a bucket is honest. -/
theorem honest_bucketPrediction (hexp : ∀ x ≤ 0, rt.exp x ∈ Set.Icc 0 1) (db : Db)
    (req : PredictionRequest) (hour dow : ℤ) (since : Instant)
    (hlarge : settings.predictorMinObservations ≤
      (bucketStats db req.routeId req.stopId hour dow since).sampleSize) :
    (bucketPrediction rt req
      (bucketStats db req.routeId req.stopId hour dow since)).Honest settings where
  confidence_nonneg := (confidence_mem hexp _).1
  confidence_le_one := (confidence_mem hexp _).2
  fallback_le := fun h => absurd rfl h
  bucket_large := fun _ => hlarge
  unsupported := by
    intro h
    have hnil : bucketDelays db req.routeId req.stopId hour dow since = [] :=
      List.eq_nil_of_length_eq_zero h
    simp [bucketPrediction, bucketStats, hnil, mean, confidence_zero, roundHalfEven]
  quantiles := by
    simp only [bucketPrediction, bucketStats, Option.isSome_map]
    rw [percentileCont_isSome (by norm_num), percentileCont_isSome (by norm_num)]
  quantiles_bucket := fun _ => rfl

/-- So is one from the route. -/
theorem honest_fallbackPrediction (hexp : ∀ x ≤ 0, rt.exp x ∈ Set.Icc 0 1) (db : Db)
    (req : PredictionRequest) (since : Instant) :
    (fallbackPrediction rt req (routeFallback db req.routeId since)).Honest settings := by
  obtain ⟨h₀, h₁⟩ := confidence_mem hexp (routeFallback db req.routeId since).sampleSize
  have hmethod : fallbackMethod (routeFallback db req.routeId since).sampleSize ≠ .bucketMean := by
    unfold fallbackMethod
    split <;> simp
  have hhalf : (fallbackPrediction rt req (routeFallback db req.routeId since)).confidence =
      confidence rt.exp (routeFallback db req.routeId since).sampleSize * (1 / 2) := rfl
  refine ⟨by rw [hhalf]; linarith, by rw [hhalf]; linarith, fun _ => by rw [hhalf]; linarith,
    fun h => absurd h hmethod, ?_, rfl, fun h => by cases h⟩
  intro h
  have hnil : routeDelays db req.routeId since = [] := List.eq_nil_of_length_eq_zero h
  simp [fallbackPrediction, routeFallback, hnil, mean, confidence_zero, roundHalfEven]

/-- Every answer that reading can come to is honest. -/
theorem honest_predictDelayAt (hexp : ∀ x ≤ 0, rt.exp x ∈ Set.Icc 0 1) (req : PredictionRequest)
    (now : Instant) (db db' : Db) :
    (predictDelayAt rt settings req now db db').Honest settings := by
  unfold predictDelayAt
  dsimp only
  split
  · rename_i hlarge
    exact honest_bucketPrediction rt settings hexp db req _ _ _ hlarge
  · exact honest_fallbackPrediction rt settings hexp db' req _

/-- **Every answer and every entry is honest**, at any point of any run. -/
theorem concurrent_honest (hexp : ∀ x ≤ 0, rt.exp x ∈ Set.Icc 0 1) (m : Moment Db)
    (events : List ServerEvent) :
    let server := serverAfter rt settings m events
    (∀ i req p time, server.calls i = some (.answered req p time) → p.Honest settings) ∧
      ∀ key entry, server.store key = some entry → entry.value.Honest settings := by
  have hrun := CachedCalls.explained_run (predictionCalls rt settings) m events
  have hproduced : ∀ k p time,
      (predictionCalls rt settings).Produced m events k p time → p.Honest settings := by
    intro k p time h
    obtain ⟨_, _, req, _, _, -, -, -, hpredicted, -⟩ := predictedFrom_of_produced rt settings h
    obtain ⟨clock, _, -, bucket, -, route, -, rfl⟩ := hpredicted.eq_predictDelayAt
    exact honest_predictDelayAt rt settings hexp req clock.now bucket.world route.world
  constructor
  · intro i req p time h
    obtain ⟨stored, -, h⟩ := hrun.calls i _ h
    exact hproduced _ _ _ h
  · intro key entry h
    exact hproduced _ _ _ (hrun.kept key entry h).2

end Calls

/-- A call for the stop once the delays are there, and one for another stop of the route,
step by step in turn. -/
def twoStopCalls : List ServerEvent :=
  [.call 0 observedStop, .call 1 { observedStop with stopId := "S2" }, .step 0, .step 1, .step 0,
    .step 1, .step 0, .step 1, .step 0, .step 1, .step 1]

/-- The first has its quantiles from the five delays. -/
theorem concurrent_honest_observed :
    (∃ p, (serverAfter Runtime.bare Settings.default ⟨fiveDelays, days 399⟩ twoStopCalls).calls 0 =
      some (.answered observedStop p (days 399)) ∧ p.p50DelaySeconds = some 20) ∧
    let server := serverAfter Runtime.bare Settings.default ⟨fiveDelays, days 399⟩ twoStopCalls
    (∀ i req p time, server.calls i = some (.answered req p time) → p.Honest Settings.default) ∧
      ∀ key entry, server.store key = some entry → entry.value.Honest Settings.default :=
  ⟨⟨bucketPrediction Runtime.bare observedStop
      (bucketStats fiveDelays "M1" "S1" 0 3 (days 385)), rfl, by decide +kernel⟩,
    concurrent_honest Runtime.bare Settings.default (fun x _ => by simp [Runtime.bare])
      ⟨fiveDelays, days 399⟩ twoStopCalls⟩

end DelayPredictor
