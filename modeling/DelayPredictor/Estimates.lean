import DelayPredictor.Lib.Quantiles
import DelayPredictor.PredictionCache

/-!
# Ordered estimates

What the two predictors return, against the delays they average.

* `Between` — from the smallest delay to the largest.
* `PredictionOut.Ordered`, `PredictWithIntervalOut.Ordered` — the estimate is between
  them, the percentiles are in order, and the interval encloses the median.
* `estimates_ordered` — **every response is ordered**: of `predict_delay` along every run,
  its cache included, and of `predict_with_interval` in every state.
-/

namespace DelayPredictor

open PyTime Runs Stats

/-! ## Ordered responses -/

/-- A number is between the smallest and the largest delay. -/
structure Between (delays : List ℤ) (x : ℤ) : Prop where
  least : ∃ lo, delays.min? = some lo ∧ lo ≤ x
  greatest : ∃ hi, delays.max? = some hi ∧ x ≤ hi

/-- The ends of an interval are on both sides of the median, and between the smallest
and the largest delay. -/
structure PredictionInterval.Ordered (i : PredictionInterval) (delays : List ℤ) : Prop where
  lower : Between delays i.lowerSeconds
  upper : Between delays i.upperSeconds
  median : ∃ p50, percentileCont (1 / 2) delays = some p50 ∧
    i.lowerSeconds ≤ roundHalfEven p50 ∧ roundHalfEven p50 ≤ i.upperSeconds

section Ordered

variable (settings : Settings) (db : Db) (now : Instant)

/-- The delays a bucket is estimated from. -/
def bucketHistory (routeId stopId : String) (target : DateTime) : List ℤ :=
  bucketDelays db routeId stopId target.hour target.weekday
    (now - days settings.predictorHistoryDays)

/-- The delays a route is estimated from. -/
def routeHistory (routeId : String) : List ℤ :=
  routeDelays db routeId (now - days settings.predictorHistoryDays)

/-- A response of `predict_delay` is ordered and bounded by the delays of its bucket, or
by those of its route where the bucket is too small. -/
structure PredictionOut.Ordered (out : PredictionOut) : Prop where
  bucket : ∀ delays, delays = bucketHistory settings db now out.routeId out.stopId out.targetTime →
    settings.predictorMinObservations ≤ delays.length → delays ≠ [] →
    Between delays out.predictedDelaySeconds ∧
      ∃ p50 p90, out.p50DelaySeconds = some p50 ∧ out.p90DelaySeconds = some p90 ∧ p50 ≤ p90
  route : ∀ delays, delays = routeHistory settings db now out.routeId →
    ¬ settings.predictorMinObservations ≤
      (bucketHistory settings db now out.routeId out.stopId out.targetTime).length →
    delays ≠ [] → Between delays out.predictedDelaySeconds

/-- So is a response of `predict_with_interval`; the estimate of a model is its own. -/
structure PredictWithIntervalOut.Ordered (out : PredictWithIntervalOut) : Prop where
  bucket : ∀ delays, delays = bucketHistory settings db now out.routeId out.stopId out.datetime →
    settings.predictorMinObservations ≤ delays.length → delays ≠ [] →
    (∃ i, out.confidenceInterval = some i ∧ i.Ordered delays) ∧
      (out.method = .bucketMean → Between delays out.predictedDelaySeconds)
  route : ∀ delays, delays = routeHistory settings db now out.routeId →
    ¬ settings.predictorMinObservations ≤
      (bucketHistory settings db now out.routeId out.stopId out.datetime).length →
    delays ≠ [] → Between delays out.predictedDelaySeconds

end Ordered

/-! ## Bounds by the data -/

section Bounds

variable {delays : List ℤ}

/-- What is bounded by every delay is between the smallest and the largest. -/
theorem between_of_bounds (h : delays ≠ []) {x : ℤ}
    (hlo : ∀ lo, (∀ d ∈ delays, lo ≤ d) → lo ≤ x) (hhi : ∀ hi, (∀ d ∈ delays, d ≤ hi) → x ≤ hi) :
    Between delays x := by
  refine ⟨?_, ?_⟩
  · obtain ⟨lo, hmin⟩ := Option.isSome_iff_exists.1 (List.isSome_min?_of_ne_nil h)
    exact ⟨lo, hmin, hlo lo (List.min?_eq_some_iff.1 hmin).2⟩
  · obtain ⟨hi, hmax⟩ := Option.isSome_iff_exists.1 (List.isSome_max?_of_ne_nil h)
    exact ⟨hi, hmax, hhi hi (List.max?_eq_some_iff.1 hmax).2⟩

theorem between_mean (h : delays ≠ []) : Between delays (roundHalfEven (mean delays)) := by
  apply between_of_bounds h
  · intro lo hlo
    exact le_roundHalfEven (le_mean h hlo)
  · intro hi hhi
    exact roundHalfEven_le (mean_le h hhi)

theorem between_percentile (h : delays ≠ []) {f x : ℚ} (h₀ : 0 ≤ f) (h₁ : f ≤ 1)
    (hx : percentileCont f delays = some x) : Between delays (roundHalfEven x) := by
  obtain ⟨lo, hmin⟩ := Option.isSome_iff_exists.1 (List.isSome_min?_of_ne_nil h)
  obtain ⟨hi, hmax⟩ := Option.isSome_iff_exists.1 (List.isSome_max?_of_ne_nil h)
  have hle := (List.min?_eq_some_iff.1 hmin).2
  have hge := (List.max?_eq_some_iff.1 hmax).2
  obtain ⟨hlo, hhi⟩ := percentileCont_mem h₀ h₁ h hle hge hx
  exact ⟨⟨lo, hmin, le_roundHalfEven hlo⟩, ⟨hi, hmax, roundHalfEven_le hhi⟩⟩

/-- **The interval of a bucket is ordered.** -/
theorem exists_interval {settings : Settings} {db : Db} {routeId stopId : String}
    {hour dow : ℤ} {since : Instant}
    (hlarge : settings.predictorMinObservations ≤
      (bucketDelays db routeId stopId hour dow since).length)
    (h : bucketDelays db routeId stopId hour dow since ≠ []) :
    ∃ i, interval settings (bucketWithQuantiles db routeId stopId hour dow since) = some i ∧
      i.Ordered (bucketDelays db routeId stopId hour dow since) := by
  obtain ⟨p10, h10⟩ := exists_percentileCont (f := 1 / 10) (by norm_num) (by norm_num) h
  obtain ⟨p50, h50⟩ := exists_percentileCont (f := 1 / 2) (by norm_num) (by norm_num) h
  obtain ⟨p90, h90⟩ := exists_percentileCont (f := 9 / 10) (by norm_num) (by norm_num) h
  have hlow := percentileCont_mono (by norm_num) (by norm_num) (by norm_num) h h10 h50
  have hhigh := percentileCont_mono (by norm_num) (by norm_num) (by norm_num) h h50 h90
  refine ⟨⟨roundHalfEven p10, roundHalfEven p90, 4 / 5⟩, ?_, ?_⟩
  · simp only [interval, bucketWithQuantiles, hlarge, if_true, h10, h90]
    rfl
  · constructor
    · exact between_percentile h (by norm_num) (by norm_num) h10
    · exact between_percentile h (by norm_num) (by norm_num) h90
    · exact ⟨p50, h50, roundHalfEven_mono hlow, roundHalfEven_mono hhigh⟩

end Bounds

/-! ## The two predictors -/

theorem predictDelayUncached_ordered (rt : Runtime) (settings : Settings) (db : Db)
    (now : Instant) (req : PredictionRequest) :
    (predictDelayUncached rt settings db now req).Ordered settings db now := by
  obtain ⟨hroute, hstop, htime⟩ := predictDelayUncached_request rt settings db now req
  refine ⟨?_, ?_⟩
  · rw [hroute, hstop, htime]
    rintro delays rfl hlarge hne
    obtain ⟨p50, h50⟩ := exists_percentileCont (f := 1 / 2) (by norm_num) (by norm_num) hne
    obtain ⟨p90, h90⟩ := exists_percentileCont (f := 9 / 10) (by norm_num) (by norm_num) hne
    have hle := percentileCont_mono (by norm_num) (by norm_num) (by norm_num) hne h50 h90
    unfold bucketHistory at *
    simp only [predictDelayUncached, predictDelayFor, bucketStats, hlarge, if_true, h50, h90,
      Option.map_some]
    exact ⟨between_mean hne, _, _, rfl, rfl, roundHalfEven_mono hle⟩
  · rw [hroute, hstop, htime]
    rintro delays rfl hsmall hne
    unfold bucketHistory routeHistory at *
    simp only [predictDelayUncached, predictDelayFor, bucketStats, hsmall, if_false, routeFallback]
    exact between_mean hne

/-- A response with an interval repeats its request as well. -/
theorem predictWithInterval_request (rt : Runtime) (settings : Settings) (db : Db)
    (now : Instant) (routeId stopId : String) (target : DateTime) :
    (predictWithInterval rt settings db now routeId stopId target).routeId = routeId ∧
      (predictWithInterval rt settings db now routeId stopId target).stopId = stopId ∧
      (predictWithInterval rt settings db now routeId stopId target).datetime = target := by
  unfold predictWithInterval predictWithIntervalFor
  dsimp only
  split
  · cases rt.model <;> exact ⟨rfl, rfl, rfl⟩
  · exact ⟨rfl, rfl, rfl⟩

theorem predictWithInterval_ordered (rt : Runtime) (settings : Settings) (db : Db)
    (now : Instant) (routeId stopId : String) (target : DateTime) :
    (predictWithInterval rt settings db now routeId stopId target).Ordered settings db now := by
  obtain ⟨hroute, hstop, htime⟩ :=
    predictWithInterval_request rt settings db now routeId stopId target
  refine ⟨?_, ?_⟩
  · rw [hroute, hstop, htime]
    rintro delays rfl hlarge hne
    obtain ⟨i, hi, hordered⟩ := exists_interval hlarge hne
    unfold bucketHistory at *
    have hlarge' : settings.predictorMinObservations ≤
        (bucketWithQuantiles db routeId stopId target.hour target.weekday
          (now - days settings.predictorHistoryDays)).sampleSize := hlarge
    unfold predictWithInterval predictWithIntervalFor
    dsimp only
    rw [if_pos hlarge']
    cases rt.model with
    | none => exact ⟨⟨i, hi, hordered⟩, fun _ => between_mean hne⟩
    | some predictSingle =>
      refine ⟨⟨i, hi, hordered⟩, ?_⟩
      intro hmethod
      cases hmethod
  · rw [hroute, hstop, htime]
    rintro delays rfl hsmall hne
    unfold bucketHistory routeHistory at *
    have hsmall' : ¬ settings.predictorMinObservations ≤
        (bucketWithQuantiles db routeId stopId target.hour target.weekday
          (now - days settings.predictorHistoryDays)).sampleSize := hsmall
    unfold predictWithInterval predictWithIntervalFor
    dsimp only
    rw [if_neg hsmall']
    exact between_mean hne

/-- What `predict_delay` answers in a run was computed at some moment of it. -/
theorem exists_computed (rt : Runtime) (settings : Settings) (db : Db) (now : Instant)
    (before : List ServingEvent) (req : PredictionRequest) :
    ∃ past, past <+: before ∧ ∃ req', (predictDelay rt settings
        (served rt settings db now before).world (served rt settings db now before).now
        (served rt settings db now before).store req).1 =
      predictDelayUncached rt settings (served rt settings db now past).world
        (served rt settings db now past).now req' := by
  rw [predictDelay_eq]
  simp only [served_eq]
  have hcases := ReadThrough.Service.respond_cases (S := predictionService rt settings)
    db now before req
  rcases hcases with ⟨-, hresp⟩ | ⟨req', -, past, hpast, -, hresp⟩
  · exact ⟨before, List.prefix_refl _, req, hresp⟩
  · exact ⟨past, hpast, req', hresp⟩

/-- **Every response is ordered and bounded by its data**: what `predict_delay` answers in a
run by the data of a moment of it, and what `predict_with_interval` answers by that of its
own. -/
theorem estimates_ordered (rt : Runtime) (settings : Settings) :
    (∀ db now before req, ∃ past, past <+: before ∧
      (predictDelay rt settings (served rt settings db now before).world
        (served rt settings db now before).now (served rt settings db now before).store
        req).1.Ordered settings (served rt settings db now past).world
          (served rt settings db now past).now) ∧
    ∀ db now routeId stopId target,
      (predictWithInterval rt settings db now routeId stopId target).Ordered settings db now := by
  refine ⟨?_, ?_⟩
  · intro db now before req
    obtain ⟨past, hpast, req', hresp⟩ := exists_computed rt settings db now before req
    refine ⟨past, hpast, ?_⟩
    rw [hresp]
    exact predictDelayUncached_ordered rt settings _ _ req'
  · exact predictWithInterval_ordered rt settings

end DelayPredictor
