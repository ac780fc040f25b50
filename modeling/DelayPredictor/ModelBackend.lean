import DelayPredictor.ModelCache
import DelayPredictor.Predictor

/-!
# Failing model backends

`get_model` (`app/services/ml_inference.py`) with both of its backends, by what each call
to the outside ends in, and `predict_with_interval` on top of it.

* `LocalBackend`, `S3Backend` — the calls to the outside, each with its outcome.
* `getModel` — one call from start to end; `getModel_releases`: it never keeps the lock.
* `unbroken_iff` — **when a backend leaves the prediction alone**: exactly when no call
  that is made raises what is not caught.  A missing file, a client error of
  `head_object` and a failed load are caught; nothing else is.
-/

namespace DelayPredictor

open PyTime

/-! ## The calls to the outside -/

/-- What a call may raise, as far as the classes are told apart. -/
inductive BackendError where
  | fileNotFoundError
  /-- `botocore.exceptions.ClientError`, with the code of its response. -/
  | clientError (code : String)
  | attributeError
  /-- Anything else: of the file system, the network, the credentials, an import. -/
  | other
  deriving DecidableEq, Repr

section

variable {π μ ν : Type}

/-- The local backend: `path.stat()`, and `load_model(path)`. -/
structure LocalBackend (π μ ν : Type) where
  stat : Except BackendError ν
  load : Except BackendError (π × μ)

/-- The S3 backend: `boto3.client` with its import, `head_object`, `mkdir`,
`download_file`, and `load_model(path)`. -/
structure S3Backend (π μ ν : Type) where
  client : Except BackendError Unit
  head : Except BackendError ν
  mkdir : Except BackendError Unit
  download : Except BackendError Unit
  load : Except BackendError (π × μ)

/-- The backend that is configured. -/
inductive Backend (π μ ν : Type) where
  | localFile (backend : LocalBackend π μ ν)
  | s3 (backend : S3Backend π μ ν)

/-! ## One call -/

/-- What a call sees of its process: `_cache`, and whether it holds `_LOCK`. -/
structure CallState (π μ ν : Type) where
  cache : Option (CacheEntry (π × μ) ν)
  holdsLock : Bool

/-- Code of a call.  The state an exception leaves is the one it was raised in. -/
abbrev ModelCall (π μ ν : Type) := EStateM BackendError (CallState π μ ν)

/-- A call to the outside. -/
def external {α : Type} (x : Except BackendError α) : ModelCall π μ ν α :=
  match x with
  | .ok a => pure a
  | .error e => throw e

/-- `with _LOCK`.  When the lock is free, other calls have left `found` in the cache. -/
def withLock {α : Type} (found : Option (CacheEntry (π × μ) ν)) (body : ModelCall π μ ν α) :
    ModelCall π μ ν α := fun _ =>
  match body ⟨found, true⟩ with
  | .ok a s => .ok a { s with holdsLock := false }
  | .error e s => .error e { s with holdsLock := false }

/-- `_load_into_cache`.  The metrics are asked for two entries when they are logged;
`hasGet` tells whether an object can be. -/
def loadIntoCache (hasGet : μ → Bool) (load : Except BackendError (π × μ)) (version : ν) :
    ModelCall π μ ν (Option (π × μ)) :=
  match load with
  | .error _ => return none
  | .ok bundle => do
    modify fun s => { s with cache := some ⟨bundle, version⟩ }
    if hasGet bundle.2 then return some bundle else throw .attributeError

variable [DecidableEq ν] (hasGet : μ → Bool) (found : Option (CacheEntry (π × μ) ν))

/-- Return the cached bundle of `version`, or go on. -/
def cachedOr (version : ν) (otherwise : ModelCall π μ ν (Option (π × μ))) :
    ModelCall π μ ν (Option (π × μ)) := do
  match cachedAs (← get).cache version with
  | some bundle => return some bundle
  | none => otherwise

/-- The part of a call that both backends have: look for the version, and once more under
the lock, before fetching it. -/
def lookupLocked (version : ν) (fetch : ModelCall π μ ν (Option (π × μ))) :
    ModelCall π μ ν (Option (π × μ)) :=
  cachedOr version (withLock found (cachedOr version fetch))

/-- `_load_under_lock`. -/
def loadUnderLock (load : Except BackendError (π × μ)) (version : ν) :
    ModelCall π μ ν (Option (π × μ)) :=
  lookupLocked found version (loadIntoCache hasGet load version)

/-- `_get_from_local`. -/
def getFromLocal (b : LocalBackend π μ ν) : ModelCall π μ ν (Option (π × μ)) :=
  match b.stat with
  | .error .fileNotFoundError => return none
  | .error e => throw e
  | .ok version => loadUnderLock hasGet found b.load version

/-- `_get_from_s3`. -/
def getFromS3 (b : S3Backend π μ ν) : ModelCall π μ ν (Option (π × μ)) := do
  external b.client
  match b.head with
  -- the codes of a missing object differ from the others in what is logged
  | .error (.clientError _) => return none
  | .error e => throw e
  | .ok etag =>
    lookupLocked found etag do
      external b.mkdir
      external b.download
      loadIntoCache hasGet b.load etag

/-- `get_model`. -/
def getModel : Backend π μ ν → ModelCall π μ ν (Option (π × μ))
  | .localFile b => getFromLocal hasGet found b
  | .s3 b => getFromS3 hasGet found b

/-- `predict_with_interval`, which asks for the model whatever it then makes of it. -/
def predictWithIntervalFrom (backend : Backend π μ ν) (exp : ℚ → ℚ)
    (predictSingle : π → String → String → ℤ → ℤ → WeatherCondition → ℚ) (settings : Settings)
    (db : Db) (now : Instant) (routeId stopId : String) (target : DateTime) :
    ModelCall π μ ν PredictWithIntervalOut := do
  let bundle ← getModel hasGet found backend
  let rt : Runtime := { exp, model := bundle.map fun b => predictSingle b.1 }
  return predictWithInterval rt settings db now routeId stopId target

/-! ## The lock -/

/-- The code has ended, normally or not, without the lock. -/
def Released {α : Type} : EStateM.Result BackendError (CallState π μ ν) α → Prop
  | .ok _ s => s.holdsLock = false
  | .error _ s => s.holdsLock = false

omit [DecidableEq ν] in
theorem withLock_releases {α : Type} (body : ModelCall π μ ν α) (s : CallState π μ ν) :
    Released (withLock found body s) := by
  unfold withLock
  cases body ⟨found, true⟩ <;> rfl

theorem cachedOr_apply (version : ν) (otherwise : ModelCall π μ ν (Option (π × μ)))
    (s : CallState π μ ν) :
    cachedOr version otherwise s =
      match cachedAs s.cache version with
      | some bundle => .ok (some bundle) s
      | none => otherwise s := by
  show (match cachedAs s.cache version with | some bundle => _ | none => _ :
    ModelCall π μ ν (Option (π × μ))) s = _
  cases cachedAs s.cache version <;> rfl

theorem lookupLocked_releases (version : ν) (fetch : ModelCall π μ ν (Option (π × μ)))
    {s : CallState π μ ν} (hs : s.holdsLock = false) :
    Released (lookupLocked found version fetch s) := by
  unfold lookupLocked
  rw [cachedOr_apply]
  cases cachedAs s.cache version with
  | some bundle => exact hs
  | none => exact withLock_releases found _ s

/-- **However a call ends**, it does not keep the lock. -/
theorem getModel_releases (backend : Backend π μ ν) {s : CallState π μ ν}
    (hs : s.holdsLock = false) : Released (getModel hasGet found backend s) := by
  cases backend with
  | localFile b =>
    show Released (getFromLocal hasGet found b s)
    unfold getFromLocal
    cases b.stat with
    | ok version => exact lookupLocked_releases found version _ hs
    | error e => cases e <;> exact hs
  | s3 b =>
    show Released (getFromS3 hasGet found b s)
    unfold getFromS3
    cases b.client with
    | error e => exact hs
    | ok _ =>
      cases b.head with
      | ok etag => exact lookupLocked_releases found etag _ hs
      | error e => cases e <;> exact hs

/-! ## When a call returns -/

/-- The version is in the cache neither before the lock is taken nor under it. -/
def Uncached (cache found : Option (CacheEntry (π × μ) ν)) (version : ν) : Prop :=
  cachedAs cache version = none ∧ cachedAs found version = none

/-- What is loaded can be logged. -/
def Loggable (load : Except BackendError (π × μ)) : Prop :=
  ∀ bundle, load = .ok bundle → hasGet bundle.2 = true

/-- The file can be stat'ed or is missing, and what is loaded of it can be logged. -/
structure LocalBackend.Harmless (cache : Option (CacheEntry (π × μ) ν))
    (b : LocalBackend π μ ν) : Prop where
  stat : ∀ e, b.stat = .error e → e = .fileNotFoundError
  load : ∀ version, b.stat = .ok version → Uncached cache found version → Loggable hasGet b.load

/-- There is a client, the object can be asked for or is refused with a client error, and
what is not cached can be downloaded and logged. -/
structure S3Backend.Harmless (cache : Option (CacheEntry (π × μ) ν))
    (b : S3Backend π μ ν) : Prop where
  client : b.client = .ok ()
  head : ∀ e, b.head = .error e → ∃ code, e = .clientError code
  fetch : ∀ etag, b.head = .ok etag → Uncached cache found etag →
    b.mkdir = .ok () ∧ b.download = .ok () ∧ Loggable hasGet b.load

/-- No call that is made raises what is not caught. -/
def Backend.Harmless (cache : Option (CacheEntry (π × μ) ν)) : Backend π μ ν → Prop
  | .localFile b => b.Harmless hasGet found cache
  | .s3 b => b.Harmless hasGet found cache

/-- The code returns. -/
def Returns {α : Type} (m : ModelCall π μ ν α) (s : CallState π μ ν) : Prop :=
  ∃ a s', m s = .ok a s'

theorem lookupLocked_returns_iff (version : ν) (fetch : ModelCall π μ ν (Option (π × μ)))
    (cache : Option (CacheEntry (π × μ) ν)) (holdsLock : Bool) :
    Returns (lookupLocked found version fetch) ⟨cache, holdsLock⟩ ↔
      (Uncached cache found version → Returns fetch ⟨found, true⟩) := by
  unfold lookupLocked Returns Uncached
  rw [cachedOr_apply]
  dsimp only
  cases cachedAs cache version with
  | some bundle => simp
  | none =>
    unfold withLock
    rw [cachedOr_apply]
    dsimp only
    cases cachedAs found version with
    | some bundle => simp
    | none => cases fetch ⟨found, true⟩ <;> simp

omit [DecidableEq ν] in
theorem loadIntoCache_returns_iff (load : Except BackendError (π × μ)) (version : ν)
    (s : CallState π μ ν) :
    Returns (loadIntoCache hasGet load version) s ↔ Loggable hasGet load := by
  unfold Returns Loggable
  cases load with
  | error e =>
    have hnone : loadIntoCache hasGet (.error e : Except BackendError (π × μ)) version s =
      .ok none s := rfl
    simp [hnone]
  | ok bundle =>
    have hstore : loadIntoCache hasGet (.ok bundle) version s =
        (if hasGet bundle.2 then pure (some bundle) else throw .attributeError :
          ModelCall π μ ν _) { s with cache := some ⟨bundle, version⟩ } := rfl
    rw [hstore]
    by_cases hget : hasGet bundle.2 = true
    · rw [if_pos hget]
      exact iff_of_true ⟨_, _, rfl⟩ fun _ h => Except.ok.inj h ▸ hget
    · rw [if_neg hget]
      refine iff_of_false ?_ fun h => hget (h bundle rfl)
      rintro ⟨a, s', h⟩
      cases h

omit [DecidableEq ν] in
/-- What is done with an object that is not cached. -/
theorem fetch_returns_iff (b : S3Backend π μ ν) (etag : ν) (s : CallState π μ ν) :
    Returns (do external b.mkdir; external b.download; loadIntoCache hasGet b.load etag) s ↔
      b.mkdir = .ok () ∧ b.download = .ok () ∧ Loggable hasGet b.load := by
  rw [← loadIntoCache_returns_iff hasGet b.load etag s]
  cases b.mkdir with
  | error e =>
    refine iff_of_false ?_ (by simp)
    rintro ⟨a, s', h⟩
    cases h
  | ok _ =>
    cases b.download with
    | error e =>
      refine iff_of_false ?_ (by simp)
      rintro ⟨a, s', h⟩
      cases h
    | ok _ =>
      have hload : (do external (.ok () : Except BackendError Unit)
                       external (.ok () : Except BackendError Unit)
                       loadIntoCache hasGet b.load etag : ModelCall π μ ν _) s =
        loadIntoCache hasGet b.load etag s := rfl
      unfold Returns
      rw [hload]
      simp

theorem getFromLocal_returns_iff (b : LocalBackend π μ ν)
    (cache : Option (CacheEntry (π × μ) ν)) :
    Returns (getFromLocal hasGet found b) ⟨cache, false⟩ ↔ b.Harmless hasGet found cache := by
  unfold getFromLocal
  cases hstat : b.stat with
  | ok version =>
    show Returns (lookupLocked found version _) _ ↔ _
    rw [lookupLocked_returns_iff, loadIntoCache_returns_iff]
    constructor
    · intro h
      refine ⟨by simp [hstat], ?_⟩
      intro version' hversion'
      obtain rfl : version = version' := by simpa [hstat] using hversion'
      exact h
    · intro h
      exact h.load version hstat
  | error e =>
    cases e with
    | fileNotFoundError =>
      refine iff_of_true ⟨none, _, rfl⟩ ⟨?_, by simp [hstat]⟩
      intro e he
      simpa [hstat, eq_comm] using he
    | _ =>
      refine iff_of_false ?_ fun h => by simpa using h.stat _ hstat
      rintro ⟨a, s, h⟩
      cases h

theorem getFromS3_returns_iff (b : S3Backend π μ ν) (cache : Option (CacheEntry (π × μ) ν)) :
    Returns (getFromS3 hasGet found b) ⟨cache, false⟩ ↔ b.Harmless hasGet found cache := by
  unfold getFromS3
  cases hclient : b.client with
  | error e =>
    refine iff_of_false ?_ fun h => by simpa [hclient] using h.client
    rintro ⟨a, s, h⟩
    cases h
  | ok _ =>
    cases hhead : b.head with
    | ok etag =>
      show Returns (lookupLocked found etag _) _ ↔ _
      rw [lookupLocked_returns_iff, fetch_returns_iff]
      constructor
      · intro h
        refine ⟨hclient, by simp [hhead], ?_⟩
        intro etag' hetag'
        obtain rfl : etag = etag' := by simpa [hhead] using hetag'
        exact h
      · intro h
        exact h.fetch etag hhead
    | error e =>
      cases e with
      | clientError code =>
        refine iff_of_true ⟨none, _, rfl⟩ ⟨hclient, ?_, by simp [hhead]⟩
        intro e he
        exact ⟨code, by simpa [hhead, eq_comm] using he⟩
      | _ =>
        refine iff_of_false ?_ fun h => by simpa using h.head _ hhead
        rintro ⟨a, s, h⟩
        cases h

/-- **When a call returns.** -/
theorem getModel_returns_iff (backend : Backend π μ ν)
    (cache : Option (CacheEntry (π × μ) ν)) :
    Returns (getModel hasGet found backend) ⟨cache, false⟩ ↔
      backend.Harmless hasGet found cache := by
  cases backend with
  | localFile b => exact getFromLocal_returns_iff hasGet found b cache
  | s3 b => exact getFromS3_returns_iff hasGet found b cache

/-! ## The prediction -/

/-- The method is one of `predict_delay`. -/
def Method.isFallback : Method → Bool
  | .mlModel => false
  | _ => true

/-- A call returns a bundle or nothing, without the lock, and every prediction that asks
for it is made, from the bucket or the route if there is no bundle. -/
def Unbroken (cache : Option (CacheEntry (π × μ) ν)) (backend : Backend π μ ν) : Prop :=
  ∃ bundle s, getModel hasGet found backend ⟨cache, false⟩ = .ok bundle s ∧
    s.holdsLock = false ∧
    ∀ exp predictSingle settings db now routeId stopId target, ∃ out,
      predictWithIntervalFrom hasGet found backend exp predictSingle settings db now routeId stopId
        target ⟨cache, false⟩ = .ok out s ∧
      (bundle = none → out.method.isFallback = true)

/-- Without a model the answer is that of a fallback. -/
theorem isFallback_of_noModel {rt : Runtime} (hrt : rt.model = none) (settings : Settings)
    (db : Db) (now : Instant) (routeId stopId : String) (target : DateTime) :
    (predictWithInterval rt settings db now routeId stopId target).method.isFallback = true := by
  unfold predictWithInterval predictWithIntervalFor
  dsimp only
  rw [hrt]
  split
  · rfl
  · show (fallbackMethod _).isFallback = true
    unfold fallbackMethod
    split <;> rfl

/-- **When a backend leaves the prediction alone.** -/
theorem unbroken_iff (cache : Option (CacheEntry (π × μ) ν)) (backend : Backend π μ ν) :
    Unbroken hasGet found cache backend ↔ backend.Harmless hasGet found cache := by
  rw [← getModel_returns_iff]
  constructor
  · rintro ⟨bundle, s, hs, -⟩
    exact ⟨bundle, s, hs⟩
  · rintro ⟨bundle, s, hs⟩
    have hlock := getModel_releases hasGet found backend (s := ⟨cache, false⟩) rfl
    rw [hs] at hlock
    refine ⟨bundle, s, hs, hlock, ?_⟩
    intro exp predictSingle settings db now routeId stopId target
    let rt : Runtime := { exp, model := bundle.map fun b => predictSingle b.1 }
    refine ⟨predictWithInterval rt settings db now routeId stopId target, ?_, ?_⟩
    · show EStateM.bind (getModel hasGet found backend) _ ⟨cache, false⟩ = _
      unfold EStateM.bind
      rw [hs]
      rfl
    · rintro rfl
      exact isFallback_of_noModel rfl settings db now routeId stopId target

end

/-! ## Two outcomes that are not caught -/

/-- An artifact that may not be read. -/
def unreadable : Backend Unit Unit ℕ := .localFile ⟨.error .other, .error .other⟩

/-- An object that is deleted after it was asked for. -/
def deletedMeanwhile : Backend Unit Unit ℕ :=
  .s3 ⟨.ok (), .ok 1, .ok (), .error (.clientError "404"), .error .fileNotFoundError⟩

/-- Both make `get_model` raise, with nothing in the cache. -/
theorem unreadable_breaks :
    ¬ Unbroken (fun _ => true) none none unreadable ∧
      ¬ Unbroken (fun _ => true) none none deletedMeanwhile := by
  constructor
  · rintro ⟨bundle, s, h, -⟩
    cases h
  · rintro ⟨bundle, s, h, -⟩
    cases h

end DelayPredictor
