import DelayPredictor.Schema

/-!
# The predictor

`app/services/predictor.py` without its cache: both estimators, as functions of
the database and the clock.

* `Settings` — the settings they read.
* `Runtime` — what they call outside the repository: the exponential of the
  confidence curve, and the trained model if one is loaded.
* `predictDelayUncached`, `predictWithInterval` — the two predictions.  They read
  their target time twice: for its hour and weekday, and to repeat it
  (`predictDelayUncached_congr`, `predictWithInterval_congr`).
* `predictors_agree` — **they agree** on everything but the estimate of a loaded
  model and the name of the method that made it.

Delays are integers and averages exact rationals; `round` sends halves to the
even neighbour.
-/

namespace DelayPredictor

open Keyed PyTime Stats

/-! ## Requests and responses -/

/-- The settings the predictor reads.  An expiry that is not positive is refused
by the cache server. -/
structure Settings where
  predictorHistoryDays : ℤ
  predictorMinObservations : ℤ
  predictorCacheTtlSeconds : ℤ
  /-- The expiry is positive. -/
  ttl_pos : 0 < predictorCacheTtlSeconds

/-- The settings' defaults. -/
def Settings.default : Settings where
  predictorHistoryDays := 14
  predictorMinObservations := 5
  predictorCacheTtlSeconds := 60
  ttl_pos := by decide

/-- `_weather_condition_for`. -/
inductive WeatherCondition where
  | unknown
  | heavyRain
  | lightRain
  | clear
  deriving DecidableEq, Repr

/-- What the predictor uses from outside the repository. -/
structure Runtime where
  /-- `math.exp`, on the numbers it is given and returns. -/
  exp : ℚ → ℚ
  /-- The loaded pipeline's prediction for a route, a stop, an hour, a weekday and
  a weather condition; `none` when no model is available. -/
  model : Option (String → String → ℤ → ℤ → WeatherCondition → ℚ)

/-- `PredictionRequest`. -/
@[ext] structure PredictionRequest where
  routeId : String
  stopId : String
  targetTime : DateTime
  deriving DecidableEq, Repr

/-- Where an estimate comes from. -/
inductive Method where
  | bucketMean
  | routeFallback
  | noData
  | mlModel
  deriving DecidableEq, Repr

/-- `PredictionOut`. -/
structure PredictionOut where
  routeId : String
  stopId : String
  targetTime : DateTime
  predictedDelaySeconds : ℤ
  sampleSize : ℕ
  confidence : ℚ
  method : Method
  p50DelaySeconds : Option ℤ
  p90DelaySeconds : Option ℤ
  deriving DecidableEq, Repr

/-- `PredictionInterval`. -/
structure PredictionInterval where
  lowerSeconds : ℤ
  upperSeconds : ℤ
  level : ℚ
  deriving DecidableEq, Repr

/-- `PredictWithIntervalOut`. -/
structure PredictWithIntervalOut where
  routeId : String
  stopId : String
  datetime : DateTime
  predictedDelaySeconds : ℤ
  confidenceInterval : Option PredictionInterval
  method : Method
  sampleSize : ℕ
  confidence : ℚ
  deriving DecidableEq, Repr

/-! ## Statistics of past delays -/

/-- `_BucketStats`. -/
structure BucketStats where
  sampleSize : ℕ
  mean : ℚ
  p50 : Option ℚ
  p90 : Option ℚ
  deriving DecidableEq, Repr

/-- The delays observed since `since` for a route and a stop in an hour of a
weekday. -/
def bucketDelays (db : Db) (routeId stopId : String) (hour dayOfWeek : ℤ) (since : Instant) :
    List ℤ :=
  ((db.delayObservations.rows.map Row.data).filter fun o =>
    o.routeId = routeId && o.stopId = stopId && o.hourOfDay = hour &&
      o.dayOfWeek = dayOfWeek && since ≤ o.observedAt).map (·.delaySeconds)

/-- The delays observed since `since` for a route. -/
def routeDelays (db : Db) (routeId : String) (since : Instant) : List ℤ :=
  ((db.delayObservations.rows.map Row.data).filter fun o =>
    o.routeId = routeId && since ≤ o.observedAt).map (·.delaySeconds)

/-- `_bucket_stats`. -/
def bucketStats (db : Db) (routeId stopId : String) (hour dayOfWeek : ℤ) (since : Instant) :
    BucketStats :=
  let delays := bucketDelays db routeId stopId hour dayOfWeek since
  { sampleSize := delays.length
    mean := mean delays
    p50 := percentileCont (1 / 2) delays
    p90 := percentileCont (9 / 10) delays }

/-- `_route_fallback`. -/
def routeFallback (db : Db) (routeId : String) (since : Instant) : BucketStats :=
  let delays := routeDelays db routeId since
  { sampleSize := delays.length
    mean := mean delays
    p50 := none
    p90 := none }

/-- `_confidence`: a saturating curve. -/
def confidence (exp : ℚ → ℚ) (sampleSize : ℕ) : ℚ :=
  if sampleSize ≤ 0 then 0 else min 1 (1 - exp (-sampleSize / 30))

/-- `"route_fallback" if fallback.sample_size else "no_data"`. -/
def fallbackMethod (sampleSize : ℕ) : Method :=
  if sampleSize = 0 then .noData else .routeFallback

/-! ## `predict_delay` on a cache miss -/

/-- The estimate of `predict_delay`, for a request whose target time shows the
given hour and weekday. -/
def predictDelayFor (rt : Runtime) (settings : Settings) (db : Db) (now : Instant)
    (req : PredictionRequest) (hour dow : ℤ) : PredictionOut :=
  let since := now - days settings.predictorHistoryDays
  let bucket := bucketStats db req.routeId req.stopId hour dow since
  if settings.predictorMinObservations ≤ bucket.sampleSize then
    { routeId := req.routeId
      stopId := req.stopId
      targetTime := req.targetTime
      predictedDelaySeconds := roundHalfEven bucket.mean
      sampleSize := bucket.sampleSize
      confidence := confidence rt.exp bucket.sampleSize
      method := .bucketMean
      p50DelaySeconds := bucket.p50.map roundHalfEven
      p90DelaySeconds := bucket.p90.map roundHalfEven }
  else
    let fallback := routeFallback db req.routeId since
    { routeId := req.routeId
      stopId := req.stopId
      targetTime := req.targetTime
      predictedDelaySeconds := roundHalfEven fallback.mean
      sampleSize := fallback.sampleSize
      confidence := confidence rt.exp fallback.sampleSize * (1 / 2)
      method := fallbackMethod fallback.sampleSize
      p50DelaySeconds := none
      p90DelaySeconds := none }

/-- `predict_delay` past its cache check. -/
def predictDelayUncached (rt : Runtime) (settings : Settings) (db : Db) (now : Instant)
    (req : PredictionRequest) : PredictionOut :=
  predictDelayFor rt settings db now req req.targetTime.hour req.targetTime.weekday

/-! ## `predict_with_interval` -/

/-- `_IntervalBucket`, without the rainfall field nothing sets. -/
structure IntervalBucket where
  sampleSize : ℕ
  mean : ℚ
  p10 : Option ℚ
  p50 : Option ℚ
  p90 : Option ℚ
  deriving DecidableEq, Repr

/-- `_bucket_with_quantiles`. -/
def bucketWithQuantiles (db : Db) (routeId stopId : String) (hour dayOfWeek : ℤ)
    (since : Instant) : IntervalBucket :=
  let delays := bucketDelays db routeId stopId hour dayOfWeek since
  { sampleSize := delays.length
    mean := mean delays
    p10 := percentileCont (1 / 10) delays
    p50 := percentileCont (1 / 2) delays
    p90 := percentileCont (9 / 10) delays }

/-- `_latest_rainfall_for_bucket`. -/
def latestRainfallForBucket (db : Db) (routeId stopId : String) (hour dayOfWeek : ℤ) :
    Option XFloat :=
  let rows := (db.trainingFeatures.rows.map Row.data).filter fun f =>
    f.routeId = routeId && f.stopId = stopId && f.hourOfDay = hour && f.dayOfWeek = dayOfWeek
  (latestBy (·.observedAt) rows).bind (·.rainfallMm)

/-- The double that `0.2` is. -/
def pointTwo : ℚ := 3602879701896397 / 18014398509481984

/-- `_weather_condition_for`. -/
def weatherConditionFor (rainfallMm : Option XFloat) : WeatherCondition :=
  match rainfallMm with
  | none => .unknown
  | some x => if x.gt 2 then .heavyRain else if x.gt pointTwo then .lightRain else .clear

/-- The empirical interval of a bucket that is large enough. -/
def interval (settings : Settings) (bucket : IntervalBucket) : Option PredictionInterval :=
  if settings.predictorMinObservations ≤ bucket.sampleSize then do
    let p10 ← bucket.p10
    let p90 ← bucket.p90
    return { lowerSeconds := roundHalfEven p10, upperSeconds := roundHalfEven p90, level := 4 / 5 }
  else none

/-- The prediction of `predict_with_interval`, for a time that shows the given
hour and weekday. -/
def predictWithIntervalFor (rt : Runtime) (settings : Settings) (db : Db) (now : Instant)
    (routeId stopId : String) (target : DateTime) (hour dow : ℤ) : PredictWithIntervalOut :=
  let since := now - days settings.predictorHistoryDays
  let bucket := bucketWithQuantiles db routeId stopId hour dow since
  if settings.predictorMinObservations ≤ bucket.sampleSize then
    match rt.model with
    | some predictSingle =>
      let rainfall := latestRainfallForBucket db routeId stopId hour dow
      let point := predictSingle routeId stopId hour dow (weatherConditionFor rainfall)
      { routeId
        stopId
        datetime := target
        predictedDelaySeconds := roundHalfEven point
        confidenceInterval := interval settings bucket
        method := .mlModel
        sampleSize := bucket.sampleSize
        confidence := confidence rt.exp bucket.sampleSize }
    | none =>
      { routeId
        stopId
        datetime := target
        predictedDelaySeconds := roundHalfEven bucket.mean
        confidenceInterval := interval settings bucket
        method := .bucketMean
        sampleSize := bucket.sampleSize
        confidence := confidence rt.exp bucket.sampleSize }
  else
    let fallback := routeFallback db routeId since
    { routeId
      stopId
      datetime := target
      predictedDelaySeconds := roundHalfEven fallback.mean
      confidenceInterval := none
      method := fallbackMethod fallback.sampleSize
      sampleSize := fallback.sampleSize
      confidence := confidence rt.exp fallback.sampleSize * (1 / 2) }

/-- `predict_with_interval`. -/
def predictWithInterval (rt : Runtime) (settings : Settings) (db : Db) (now : Instant)
    (routeId stopId : String) (target : DateTime) : PredictWithIntervalOut :=
  predictWithIntervalFor rt settings db now routeId stopId target target.hour target.weekday

/-! ## What a prediction depends on -/

section Dependence

variable (rt : Runtime) (settings : Settings) (db : Db) (now : Instant)

/-- A prediction repeats its request. -/
theorem predictDelayUncached_request (req : PredictionRequest) :
    (predictDelayUncached rt settings db now req).routeId = req.routeId ∧
      (predictDelayUncached rt settings db now req).stopId = req.stopId ∧
      (predictDelayUncached rt settings db now req).targetTime = req.targetTime := by
  unfold predictDelayUncached predictDelayFor
  dsimp only
  split <;> exact ⟨rfl, rfl, rfl⟩

/-- So equal predictions are predictions for the same request. -/
theorem request_eq_of_prediction_eq {db db' : Db} {now now' : Instant}
    {req req' : PredictionRequest}
    (h : predictDelayUncached rt settings db now req =
      predictDelayUncached rt settings db' now' req') : req = req' := by
  obtain ⟨hroute, hstop, htime⟩ := predictDelayUncached_request rt settings db now req
  obtain ⟨hroute', hstop', htime'⟩ := predictDelayUncached_request rt settings db' now' req'
  rw [h] at hroute hstop htime
  exact PredictionRequest.ext (hroute.symm.trans hroute') (hstop.symm.trans hstop')
    (htime.symm.trans htime')

/-- **The estimate depends on the target time only through its hour and weekday.** -/
theorem predictDelayUncached_congr (routeId stopId : String) {a b : DateTime}
    (hhour : a.hour = b.hour) (hdow : a.weekday = b.weekday) :
    predictDelayUncached rt settings db now ⟨routeId, stopId, a⟩ =
      { predictDelayUncached rt settings db now ⟨routeId, stopId, b⟩ with targetTime := a } := by
  unfold predictDelayUncached predictDelayFor
  dsimp only
  rw [hhour, hdow]
  split <;> rfl

/-- So does the prediction with an interval. -/
theorem predictWithInterval_congr (routeId stopId : String) {a b : DateTime}
    (hhour : a.hour = b.hour) (hdow : a.weekday = b.weekday) :
    predictWithInterval rt settings db now routeId stopId a =
      { predictWithInterval rt settings db now routeId stopId b with datetime := a } := by
  unfold predictWithInterval predictWithIntervalFor
  dsimp only
  rw [hhour, hdow]
  split
  · cases rt.model <;> rfl
  · rfl

end Dependence

/-! ## The two predictors agree -/

/-- What a response of `predict_with_interval` repeats of the one `predict_delay`
gives to the same request. -/
structure PredictWithIntervalOut.AgreesWith (out : PredictWithIntervalOut) (p : PredictionOut) :
    Prop where
  sampleSize : out.sampleSize = p.sampleSize
  confidence : out.confidence = p.confidence
  /-- The interval ends at the 90th percentile. -/
  upper : ∀ i, out.confidenceInterval = some i → p.p90DelaySeconds = some i.upperSeconds

/-- The method `predict_with_interval` names where `predict_delay` names `method`. -/
def Method.withModel : Method → Method
  | .bucketMean => .mlModel
  | method => method

/-- An interval is only given for a bucket that is large enough, and ends at its
90th percentile. -/
theorem interval_eq_some {settings : Settings} {bucket : IntervalBucket} {i : PredictionInterval}
    (h : interval settings bucket = some i) :
    bucket.p90.map roundHalfEven = some i.upperSeconds := by
  unfold interval at h
  split at h
  · obtain ⟨p10, -, h⟩ := Option.bind_eq_some_iff.1 h
    obtain ⟨p90, hp90, h⟩ := Option.bind_eq_some_iff.1 h
    cases h
    rw [hp90]
    rfl
  · cases h

/-- **The two predictors agree** on every request, with and without a model. -/
theorem predictors_agree (rt : Runtime) (settings : Settings) (db : Db) (now : Instant)
    (routeId stopId : String) (target : DateTime) :
    let p := predictDelayUncached rt settings db now ⟨routeId, stopId, target⟩
    let out := predictWithInterval rt settings db now routeId stopId target
    out.AgreesWith p ∧
      (rt.model = none →
        out.predictedDelaySeconds = p.predictedDelaySeconds ∧ out.method = p.method) ∧
      (rt.model ≠ none → out.method = p.method.withModel) := by
  have hfallback : ∀ n, (fallbackMethod n).withModel = fallbackMethod n := by
    intro n
    unfold fallbackMethod
    split <;> rfl
  unfold predictDelayUncached predictDelayFor predictWithInterval predictWithIntervalFor
  dsimp only
  by_cases hlarge : settings.predictorMinObservations ≤
      (bucketStats db routeId stopId target.hour target.weekday
        (now - days settings.predictorHistoryDays)).sampleSize
  · -- The bucket is large enough: both answer from it.
    have hlarge' : settings.predictorMinObservations ≤
        (bucketWithQuantiles db routeId stopId target.hour target.weekday
          (now - days settings.predictorHistoryDays)).sampleSize := hlarge
    rw [if_pos hlarge, if_pos hlarge']
    cases rt.model with
    | none =>
      refine ⟨⟨rfl, rfl, fun i hi => interval_eq_some hi⟩, fun _ => ⟨rfl, rfl⟩, ?_⟩
      intro h
      exact absurd rfl h
    | some predictSingle =>
      refine ⟨⟨rfl, rfl, fun i hi => interval_eq_some hi⟩, ?_, fun _ => rfl⟩
      intro h
      cases h
  · -- It is not: both fall back to the route, the model or not.
    have hlarge' : ¬ settings.predictorMinObservations ≤
        (bucketWithQuantiles db routeId stopId target.hour target.weekday
          (now - days settings.predictorHistoryDays)).sampleSize := hlarge
    rw [if_neg hlarge, if_neg hlarge']
    refine ⟨⟨rfl, rfl, ?_⟩, fun _ => ⟨rfl, rfl⟩, fun _ => (hfallback _).symm⟩
    intro i hi
    cases hi

end DelayPredictor
