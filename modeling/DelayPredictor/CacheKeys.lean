import DelayPredictor.Lib.Joined
import DelayPredictor.PredictionCache

/-!
# Cache keys

The key that `predict_delay` caches a prediction under is made of two ids and two numbers with
colons between them, and the ids, which come from a query or a body as they are, may have
colons of their own.

* `Bucket.Overlaps` — two tuples with one key, cut at two of its colons.
* `keysApart_iff` — **when a key tells its tuple, and when a response is for its own
  ids**: exactly when no request finds an entry stored for a tuple that overlaps its own.
-/

namespace DelayPredictor

open Joined PyTime ReadThrough

/-! ## Keys of tuples -/

/-- The tuple a prediction is cached for. -/
structure Bucket where
  route : String
  stop : String
  hour : ℤ
  dow : ℤ
  deriving DecidableEq

namespace Bucket

/-- Its key. -/
def key (b : Bucket) : String := bucketKey b.route b.stop b.hour b.dow

/-- The colon after the route of `a` is one within the route of `b`, and the one before the
stop of `b` is one within the stop of `a`. -/
def CutsBefore (a b : Bucket) : Prop :=
  ∃ t, b.route = a.route ++ ":" ++ t ∧ a.stop = t ++ ":" ++ b.stop

/-- The numbers of the two tuples are the same, and so are their ids with a colon between
them, but not the colon. -/
structure Overlaps (a b : Bucket) : Prop where
  hour : a.hour = b.hour
  dow : a.dow = b.dow
  ids : a.CutsBefore b ∨ b.CutsBefore a

end Bucket

/-- The tuple of a request. -/
def PredictionRequest.bucket (req : PredictionRequest) : Bucket :=
  ⟨req.routeId, req.stopId, req.targetTime.hour, req.targetTime.weekday⟩

/-! ## When keys are the same -/

namespace Bucket

theorem colon_eq : ":" = String.singleton ':' := by decide

theorem colon_not_mem (n : ℤ) : ':' ∉ (toString n).toList :=
  sep_not_mem_toString (by decide) (by decide) n

/-- The numbers are read off the end of a key. -/
theorem bucketKey_eq_iff {route stop route' stop' : String} {hour dow hour' dow' : ℤ} :
    bucketKey route stop hour dow = bucketKey route' stop' hour' dow' ↔
      (route ++ ":" ++ stop = route' ++ ":" ++ stop' ∧ hour = hour') ∧ dow = dow' := by
  unfold bucketKey
  simp only [colon_eq]
  rw [join_inj_right (colon_not_mem dow) (colon_not_mem dow'),
    join_inj_right (colon_not_mem hour) (colon_not_mem hour'), toString_int_injective.eq_iff,
    toString_int_injective.eq_iff]
  simp only [String.append_assoc, String.append_right_inj]

/-- **Two tuples share a key** only if they overlap. -/
theorem key_eq_iff {a b : Bucket} : a.key = b.key ↔ a = b ∨ a.Overlaps b := by
  have hids : a.route ++ ":" ++ a.stop = b.route ++ ":" ++ b.stop ↔
      (a.route = b.route ∧ a.stop = b.stop) ∨ a.CutsBefore b ∨ b.CutsBefore a := by
    unfold CutsBefore
    simp only [colon_eq]
    exact join_eq_iff
  unfold key
  rw [bucketKey_eq_iff, hids]
  refine ⟨?_, ?_⟩
  · rintro ⟨⟨⟨hroute, hstop⟩ | hcuts, hhour⟩, hdow⟩
    · left
      cases a
      cases b
      simp_all
    · exact .inr ⟨hhour, hdow, hcuts⟩
  · rintro (rfl | h)
    · exact ⟨⟨.inl ⟨rfl, rfl⟩, rfl⟩, rfl⟩
    · exact ⟨⟨.inr h.ids, h.hour⟩, h.dow⟩

theorem length_lt_of_cutsBefore {a b : Bucket} (h : a.CutsBefore b) :
    a.route.length < b.route.length := by
  obtain ⟨t, hroute, -⟩ := h
  rw [hroute, String.length_append, String.length_append]
  have hcolon : (":" : String).length = 1 := by decide
  omega

/-- Tuples that overlap are for different routes. -/
theorem Overlaps.route_ne {a b : Bucket} (h : a.Overlaps b) : a.route ≠ b.route := by
  intro heq
  rcases h.ids with hcuts | hcuts
  · exact (length_lt_of_cutsBefore hcuts).ne (congrArg String.length heq)
  · exact (length_lt_of_cutsBefore hcuts).ne' (congrArg String.length heq)

/-- A key tells its tuple from every one that it does not overlap. -/
theorem key_tells_iff (a b : Bucket) : (a.key = b.key → a = b) ↔ ¬ a.Overlaps b := by
  rw [key_eq_iff]
  refine ⟨?_, ?_⟩
  · intro h hoverlaps
    exact hoverlaps.route_ne (congrArg route (h (.inr hoverlaps)))
  · rintro h (heq | hoverlaps)
    · exact heq
    · exact absurd hoverlaps h

end Bucket

/-! ## Whose prediction is returned -/

section

variable (rt : Runtime) (settings : Settings) (db : Db) (now : Instant)

/-- Every response of a run is for the route and the stop of its own request. -/
def OwnIds (events : List ServingEvent) : Prop :=
  ∀ before req, before ++ [.request req] <+: events →
    ∀ response, response = (predictDelay rt settings (served rt settings db now before).world
        (served rt settings db now before).now (served rt settings db now before).store req).1 →
      response.routeId = req.routeId ∧ response.stopId = req.stopId

/-- No request of a run finds an entry that was stored for a tuple overlapping its own. -/
def NoOverlapFound (events : List ServingEvent) : Prop :=
  ∀ before req, before ++ [.request req] <+: events →
    ∀ req', storedFor rt settings db now before req.cacheKey = some req' →
      ¬ req'.bucket.Overlaps req.bucket

/-- What is found under a key was stored under it. -/
theorem key_of_storedFor {before : List ServingEvent} {key : String} {req : PredictionRequest}
    (h : storedFor rt settings db now before key = some req) : req.bucket.key = key :=
  Service.key_of_holder h

/-- The tuple whose entry a request finds is its own, or one that overlaps it. -/
theorem own_ids_iff_of_storedFor {before : List ServingEvent} {req req' : PredictionRequest}
    (h : storedFor rt settings db now before req.cacheKey = some req') :
    req'.routeId = req.routeId ∧ req'.stopId = req.stopId ↔ ¬ req'.bucket.Overlaps req.bucket := by
  have hkey : req'.bucket.key = req.bucket.key := key_of_storedFor rt settings db now h
  refine ⟨?_, ?_⟩
  · rintro ⟨hroute, -⟩ hoverlaps
    exact hoverlaps.route_ne hroute
  · intro hnot
    have heq := (Bucket.key_tells_iff _ _).2 hnot hkey
    exact ⟨congrArg Bucket.route heq, congrArg Bucket.stop heq⟩

/-- **Of one response**: it is for its own ids exactly when no overlapping entry was found. -/
theorem response_ownIds_iff (before : List ServingEvent) (req : PredictionRequest) :
    (∀ response, response = (predictDelay rt settings (served rt settings db now before).world
        (served rt settings db now before).now (served rt settings db now before).store req).1 →
      response.routeId = req.routeId ∧ response.stopId = req.stopId) ↔
    ∀ req', storedFor rt settings db now before req.cacheKey = some req' →
      ¬ req'.bucket.Overlaps req.bucket := by
  simp only [forall_eq, predictDelay_eq]
  rw [served_eq]
  rcases Service.respond_cases (S := predictionService rt settings) db now before req with
    ⟨hnone, hresp⟩ | ⟨req', hsome, past, -, -, hresp⟩
  · have hids := predictDelayUncached_request rt settings
      ((predictionService rt settings).run db now before).world
      ((predictionService rt settings).run db now before).now req
    have hstored : storedFor rt settings db now before req.cacheKey = none := hnone
    rw [hresp, hstored]
    exact iff_of_true ⟨hids.1, hids.2.1⟩ (by simp)
  · have hids := predictDelayUncached_request rt settings
      ((predictionService rt settings).run db now past).world
      ((predictionService rt settings).run db now past).now req'
    have hstored : storedFor rt settings db now before req.cacheKey = some req' := hsome
    rw [hresp, hstored]
    simp only [Option.some.injEq, forall_eq']
    rw [← own_ids_iff_of_storedFor rt settings db now hstored]
    exact and_congr (by rw [← hids.1]; rfl) (by rw [← hids.2.1]; rfl)

end

/-- **When a key tells its tuple, and a response is for its own ids.** -/
theorem keysApart_iff (a b : Bucket) (rt : Runtime) (settings : Settings) (db : Db)
    (now : Instant) (events : List ServingEvent) :
    ((a.key = b.key → a = b) ↔ ¬ a.Overlaps b) ∧
      (OwnIds rt settings db now events ↔ NoOverlapFound rt settings db now events) := by
  refine ⟨Bucket.key_tells_iff a b, ?_⟩
  unfold OwnIds NoOverlapFound
  refine ⟨?_, ?_⟩
  · intro h before req hreq
    exact (response_ownIds_iff rt settings db now before req).1 (h before req hreq)
  · intro h before req hreq
    exact (response_ownIds_iff rt settings db now before req).2 (h before req hreq)

/-- The route `a:b` at the stop `c`, and the route `a` at the stop `b:c`. -/
def overlappingRequests : List ServingEvent :=
  [.request ⟨"a:b", "c", DateTime.utc 0⟩, .request ⟨"a", "b:c", DateTime.utc 0⟩]

/-- They share a key, and the second is answered with the prediction for the first. -/
theorem overlappingRequests_shareEntry :
    (¬ ∀ a b : Bucket, a.key = b.key → a = b) ∧
      ¬ ∀ rt settings db now events, OwnIds rt settings db now events := by
  refine ⟨?_, ?_⟩
  · intro h
    have heq := h ⟨"a:b", "c", 0, 0⟩ ⟨"a", "b:c", 0, 0⟩ (by decide)
    exact absurd (congrArg Bucket.route heq) (by decide)
  · intro h
    have hids := h Runtime.bare Settings.default Db.empty 0 overlappingRequests
      [.request ⟨"a:b", "c", DateTime.utc 0⟩] ⟨"a", "b:c", DateTime.utc 0⟩
      (List.prefix_refl _) _ rfl
    exact absurd hids.1 (by decide)

end DelayPredictor
