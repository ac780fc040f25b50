import DelayPredictor.Lib.ReadThrough
import DelayPredictor.Predictor

/-!
# The prediction cache

`predict_delay` with its cache (`app/services/predictor.py`,
`app/services/cache.py`).

* `bucketKey` — the cache key: route, stop, hour and weekday.
* `predictDelay` — the whole function.  What is stored is the response, its
  target time included.
* `cacheTransparent_iff` — **when the cache cannot be seen**: exactly when no
  request finds an entry that was stored for another request.  Two requests an
  hour or a week apart share a key, and the second is answered with the target
  time of the first.

The cache server's clock is the one clock of the model, and a call takes no time
of its own.
-/

namespace DelayPredictor

open Keyed PyTime ReadThrough Runs

/-- `_BUCKET_KEY`. -/
def bucketKey (route stop : String) (hour dow : ℤ) : String :=
  "predict:bucket:v1:" ++ route ++ ":" ++ stop ++ ":" ++ toString hour ++ ":" ++ toString dow

/-- The key of a request. -/
def PredictionRequest.cacheKey (req : PredictionRequest) : String :=
  bucketKey req.routeId req.stopId req.targetTime.hour req.targetTime.weekday

/-- `predict_delay`: the response, and the cache afterwards. -/
def predictDelay (rt : Runtime) (settings : Settings) (db : Db) (now : Instant)
    (cache : Store String PredictionOut) (req : PredictionRequest) :
    PredictionOut × Store String PredictionOut :=
  match cache.get now req.cacheKey with
  | some cached => (cached, cache)
  | none =>
    let prediction := predictDelayUncached rt settings db now req
    (prediction, cache.set now req.cacheKey prediction
      (seconds settings.predictorCacheTtlSeconds))

/-! ## Runs -/

/-- The database, the clock and the cache. -/
abbrev ServingState := State Db String PredictionOut

/-- A call of `predict_delay`, a write to the database, or the passing of time. -/
abbrev ServingEvent := Event Db PredictionRequest

section Serving

variable (rt : Runtime) (settings : Settings)

/-- What an event does. -/
def serve (s : ServingState) : ServingEvent → ServingState
  | .change db => { s with world := db }
  | .wait duration => { s with now := s.now + duration }
  | .request req => { s with store := (predictDelay rt settings s.world s.now s.store req).2 }

/-- The state after a run that starts with an empty cache. -/
def served (db : Db) (now : Instant) (events : List ServingEvent) : ServingState :=
  replay (serve rt settings) ⟨db, now, Store.empty⟩ events

/-- Every response of a run is what the uncached path would have computed for
that request at some moment at most `predictor_cache_ttl_seconds` earlier. -/
def CacheTransparent (db : Db) (now : Instant) (events : List ServingEvent) : Prop :=
  ∀ before req, before ++ [.request req] <+: events → ∃ past, past <+: before ∧
    (served rt settings db now before).now - seconds settings.predictorCacheTtlSeconds ≤
      (served rt settings db now past).now ∧
    (predictDelay rt settings (served rt settings db now before).world
        (served rt settings db now before).now (served rt settings db now before).store req).1 =
      predictDelayUncached rt settings (served rt settings db now past).world
        (served rt settings db now past).now req

/-! ## The cache as a service -/

/-- `predict_delay` as a read-through cache. -/
def predictionService : Service Db PredictionRequest String PredictionOut where
  key := PredictionRequest.cacheKey
  compute := predictDelayUncached rt settings
  ttl := seconds settings.predictorCacheTtlSeconds

theorem predictDelay_eq (s : ServingState) (req : PredictionRequest) :
    predictDelay rt settings s.world s.now s.store req =
      ((predictionService rt settings).respond s req,
        ((predictionService rt settings).exec s (.request req)).store) := by
  unfold predictDelay Service.respond Service.exec
  show (match s.store.get s.now req.cacheKey with | some _ => _ | none => _) = _
  cases h : s.store.get s.now req.cacheKey with
  | none => simp [predictionService, h]
  | some cached => simp [predictionService, h]

/-- The runs of `predict_delay` are the runs of the service. -/
theorem serve_eq : serve rt settings = (predictionService rt settings).exec := by
  funext s e
  cases e with
  | change db => rfl
  | wait duration => rfl
  | request req =>
    show { s with store := (predictDelay rt settings s.world s.now s.store req).2 } = _
    rw [predictDelay_eq]
    unfold Service.exec
    dsimp only
    split <;> rfl

theorem served_eq (db : Db) (now : Instant) (events : List ServingEvent) :
    served rt settings db now events = (predictionService rt settings).run db now events := by
  rw [served, serve_eq, Service.run]

theorem cacheTransparent_eq (db : Db) (now : Instant) (events : List ServingEvent) :
    CacheTransparent rt settings db now events ↔
      (predictionService rt settings).Transparent db now events := by
  simp only [CacheTransparent, Service.Transparent, served_eq, predictDelay_eq]
  rfl

/-! ## When the cache cannot be seen -/

/-- The request whose response the cache holds under a key, if there is one and it
has not expired: of the requests alone, and of the times between them. -/
def storedFor (db : Db) (now : Instant) (before : List ServingEvent) (key : String) :
    Option PredictionRequest :=
  (predictionService rt settings).holder db now before key

/-- No request finds an entry that was stored for another one. -/
def OnlyOwnEntries (db : Db) (now : Instant) (events : List ServingEvent) : Prop :=
  ∀ before req, before ++ [.request req] <+: events →
    ∀ req', storedFor rt settings db now before req.cacheKey = some req' → req' = req

/-- **When the prediction cache is transparent.** -/
theorem cacheTransparent_iff (db : Db) (now : Instant) (events : List ServingEvent) :
    CacheTransparent rt settings db now events ↔ OnlyOwnEntries rt settings db now events := by
  rw [cacheTransparent_eq]
  apply Service.transparent_iff
  · have := settings.ttl_pos
    show 0 ≤ seconds settings.predictorCacheTtlSeconds
    unfold seconds
    omega
  · intro db now req db' now' req' h
    exact request_eq_of_prediction_eq rt settings h

end Serving

/-- A runtime for examples: no model, and an exponential that is never asked. -/
def Runtime.bare : Runtime where
  exp := fun _ => 1
  model := none

/-- The same stop asked for twice, the second time for a week later. -/
def weekApart : List ServingEvent :=
  [.request ⟨"M1", "S1", DateTime.utc 0⟩, .request ⟨"M1", "S1", DateTime.utc (days 7)⟩]

/-- The second response carries the target time of the first. -/
theorem weekApart_not_transparent :
    ¬ ∀ rt settings db now events, CacheTransparent rt settings db now events := by
  intro h
  obtain ⟨past, -, -, hresp⟩ := h Runtime.bare Settings.default Db.empty 0 weekApart
    [.request ⟨"M1", "S1", DateTime.utc 0⟩] ⟨"M1", "S1", DateTime.utc (days 7)⟩
    (List.prefix_refl _)
  have htime := congrArg PredictionOut.targetTime hresp
  rw [(predictDelayUncached_request _ _ _ _ _).2.2] at htime
  exact absurd htime (by decide)

end DelayPredictor
