import DelayPredictor.Lib.Runs
import DelayPredictor.Lib.Versioned

/-!
# The in-memory model cache

`get_model` with the local backend (`app/services/ml_inference.py`): any number
of calls in one process, each taking its steps one at a time, interleaved with
each other and with the trainer's writes of the artifact.

* `LocalCall.advance` — the next step of one call: stat, unlocked check of
  `_cache`, lock, check again, load, store, return.
* `ModelProcess.exec` — one step of the whole: of a call, or a write.
* `neverOlder` — **no call is served a model older than the file it stat'ed**,
  whatever the interleaving, and once the writes have stopped every new call
  gets the newest one.

A version is the artifact's modification time as a string, which is only ever
compared; no two writes have the same one.  The artifact is replaced as a whole
and a load succeeds.
-/

namespace DelayPredictor

open Runs Versioned

variable {β ν : Type*}

/-! ## The module's globals -/

/-- `_CacheEntry`: a bundle, and the version it is cached as. -/
structure CacheEntry (β ν : Type*) where
  bundle : β
  version : ν
  deriving DecidableEq, Repr

/-- The globals of a process: `_cache`, and the call that holds `_LOCK`. -/
structure Globals (β ν : Type*) where
  cache : Option (CacheEntry β ν)
  lock : Option ℕ
  deriving DecidableEq, Repr

/-- The globals of a process that has just started. -/
def Globals.fresh : Globals β ν := ⟨none, none⟩

/-- The bundle that is cached as `version`, if one is. -/
def cachedAs [DecidableEq ν] (cache : Option (CacheEntry β ν)) (version : ν) : Option β :=
  match cache with
  | none => none
  | some cached => if cached.version = version then some cached.bundle else none

theorem cachedAs_eq_some [DecidableEq ν] {cache : Option (CacheEntry β ν)} {version : ν}
    {bundle : β} (h : cachedAs cache version = some bundle) : cache = some ⟨bundle, version⟩ := by
  cases cache with
  | none => cases h
  | some cached =>
    obtain ⟨b, v⟩ := cached
    by_cases hv : v = version
    · simp [cachedAs, hv] at h
      rw [h, hv]
    · simp [cachedAs, hv] at h

/-! ## One call -/

/-- Where a call of `_get_from_local` is, with its local variables. -/
inductive LocalCall (β ν : Type*)
  /-- Before the stat. -/
  | start
  /-- The artifact has this modification time. -/
  | statted (version : ν)
  /-- The unlocked check did not find the version. -/
  | missed (version : ν)
  /-- The call holds the lock. -/
  | locked (version : ν)
  /-- The check under the lock did not find the version either. -/
  | rechecked (version : ν)
  /-- The artifact has been loaded. -/
  | loaded (version : ν) (bundle : β)
  /-- The call is about to return, from inside the `with _LOCK` or not. -/
  | leaving (version : ν) (bundle : β) (holdsLock : Bool)
  /-- The call has returned a model. -/
  | returned (version : ν) (bundle : β)
  /-- There was no artifact: the call has returned `None`. -/
  | noModel
  deriving DecidableEq, Repr

namespace LocalCall

/-- The call is inside the `with _LOCK`. -/
def holdsLock : LocalCall β ν → Bool
  | .locked _ | .rechecked _ | .loaded _ _ => true
  | .leaving _ _ holdsLock => holdsLock
  | _ => false

/-- What the call has returned, if it has. -/
def outcome : LocalCall β ν → Option (Option β)
  | .returned _ bundle => some (some bundle)
  | .noModel => some none
  | _ => none

/-- The version the call has read. -/
def version? : LocalCall β ν → Option ν
  | .start | .noModel => none
  | .statted version | .missed version | .locked version | .rechecked version
  | .loaded version _ | .leaving version _ _ | .returned version _ => some version

/-- The number of steps the call has still to take, at most. -/
def remaining : LocalCall β ν → ℕ
  | .start => 7
  | .statted _ => 6
  | .missed _ => 5
  | .locked _ => 4
  | .rechecked _ => 3
  | .loaded _ _ => 2
  | .leaving _ _ _ => 1
  | .returned _ _ | .noModel => 0

variable [DecidableEq ν]

/-- The next step of call `i`: where it is then, and the globals.  A call that
waits for the lock, or has returned, has none. -/
def advance (artifact : File β ν) (g : Globals β ν) (i : ℕ) :
    LocalCall β ν → Option (LocalCall β ν × Globals β ν)
  | .start =>
    match artifact.current with
    | none => some (.noModel, g)
    | some file => some (.statted file.tag, g)
  | .statted version =>
    match cachedAs g.cache version with
    | some bundle => some (.leaving version bundle false, g)
    | none => some (.missed version, g)
  | .missed version =>
    if g.lock = none then some (.locked version, { g with lock := some i }) else none
  | .locked version =>
    match cachedAs g.cache version with
    | some bundle => some (.leaving version bundle true, g)
    | none => some (.rechecked version, g)
  | .rechecked version =>
    artifact.current.map fun file => (.loaded version file.content, g)
  | .loaded version bundle =>
    some (.leaving version bundle true, { g with cache := some ⟨bundle, version⟩ })
  | .leaving version bundle holdsLock =>
    some (.returned version bundle, { g with lock := if holdsLock then none else g.lock })
  | .returned _ _ | .noModel => none

/-- The version the call has read is one the artifact has had, and its bundle, once
it has one, is at least as new. -/
def Sound (artifact : File β ν) : LocalCall β ν → Prop
  | .start | .noModel => True
  | .statted version | .missed version | .locked version | .rechecked version =>
    version ∈ artifact.tags
  | .loaded version bundle | .leaving version bundle _ | .returned version bundle =>
    artifact.AsNewAs version bundle

end LocalCall

/-- The cached bundle is at least as new as the version it is cached as. -/
def Globals.Sound [DecidableEq ν] (artifact : File β ν) (g : Globals β ν) : Prop :=
  ∀ entry, g.cache = some entry → artifact.AsNewAs entry.version entry.bundle

/-! ## All calls of a process, and the trainer -/

/-- The artifact on disk, the globals, and where every call is. -/
structure ModelProcess (β ν : Type*) where
  artifact : File β ν
  globals : Globals β ν
  call : ℕ → LocalCall β ν

/-- One step of a call, or `save_model` replacing the artifact. -/
inductive ModelStep (β ν : Type*)
  | call (i : ℕ)
  | write (version : Version β ν)
  deriving DecidableEq, Repr

/-- The step is no write. -/
def ModelStep.isCall : ModelStep β ν → Bool
  | .call _ => true
  | .write _ => false

namespace ModelProcess

/-- A process that has just started. -/
def start (artifact : File β ν) : ModelProcess β ν := ⟨artifact, .fresh, fun _ => .start⟩

variable [DecidableEq ν]

/-- Take a step, if it can be taken. -/
def exec (s : ModelProcess β ν) : ModelStep β ν → Option (ModelProcess β ν)
  | .call i =>
    ((s.call i).advance s.artifact s.globals i).map fun (c, g) =>
      { s with globals := g, call := Function.update s.call i c }
  | .write version =>
    if h : version.tag ∈ s.artifact.tags then none
    else some { s with artifact := s.artifact.write version h }

/-- The steps of a process. -/
def Steps (s : ModelProcess β ν) (a : ModelStep β ν) (t : ModelProcess β ν) : Prop :=
  s.exec a = some t

/-- **Of one step of a call**: the process, but for the call and the globals, is
unchanged. -/
theorem Steps.call_inv {s t : ModelProcess β ν} {i : ℕ} (h : s.Steps (.call i) t) :
    ∃ c g, (s.call i).advance s.artifact s.globals i = some (c, g) ∧
      t = { s with globals := g, call := Function.update s.call i c } := by
  obtain ⟨⟨c, g⟩, hadv, rfl⟩ := Option.map_eq_some_iff.1 h
  exact ⟨c, g, hadv, rfl⟩

theorem Steps.write_inv {s t : ModelProcess β ν} {version : Version β ν}
    (h : s.Steps (.write version) t) :
    ∃ hv : version.tag ∉ s.artifact.tags,
      t = { s with artifact := s.artifact.write version hv } := by
  by_cases hv : version.tag ∈ s.artifact.tags
  · simp [Steps, exec, hv] at h
  · refine ⟨hv, ?_⟩
    simpa [Steps, exec, hv] using h.symm

end ModelProcess

/-! ## What a step of a call can do -/

namespace LocalCall

variable [DecidableEq ν] {artifact : File β ν} {g g' : Globals β ν} {i : ℕ} {c c' : LocalCall β ν}

/-- The ways a call `i` can move on, with what it finds. -/
inductive Advances (artifact : File β ν) (g : Globals β ν) (i : ℕ) :
    LocalCall β ν → LocalCall β ν → Globals β ν → Prop
  | absent : artifact.current = none → Advances artifact g i .start .noModel g
  | stat {file} : artifact.current = some file →
      Advances artifact g i .start (.statted file.tag) g
  | hit {version bundle} : g.cache = some ⟨bundle, version⟩ →
      Advances artifact g i (.statted version) (.leaving version bundle false) g
  | miss {version} : Advances artifact g i (.statted version) (.missed version) g
  | acquire {version} : g.lock = none →
      Advances artifact g i (.missed version) (.locked version) { g with lock := some i }
  | rehit {version bundle} : g.cache = some ⟨bundle, version⟩ →
      Advances artifact g i (.locked version) (.leaving version bundle true) g
  | remiss {version} : Advances artifact g i (.locked version) (.rechecked version) g
  | load {version file} : artifact.current = some file →
      Advances artifact g i (.rechecked version) (.loaded version file.content) g
  | store {version bundle} : Advances artifact g i (.loaded version bundle)
      (.leaving version bundle true) { g with cache := some ⟨bundle, version⟩ }
  | leave {version bundle} :
      Advances artifact g i (.leaving version bundle false) (.returned version bundle) g
  | release {version bundle} : Advances artifact g i (.leaving version bundle true)
      (.returned version bundle) { g with lock := none }

theorem advances_of_advance (h : c.advance artifact g i = some (c', g')) :
    Advances artifact g i c c' g' := by
  cases c with
  | start =>
    cases hcur : artifact.current with
    | none =>
      obtain ⟨rfl, rfl⟩ : LocalCall.noModel = c' ∧ g = g' := by simpa [advance, hcur] using h
      exact .absent hcur
    | some file =>
      obtain ⟨rfl, rfl⟩ : .statted file.tag = c' ∧ g = g' := by simpa [advance, hcur] using h
      exact .stat hcur
  | statted version =>
    cases hhit : cachedAs g.cache version with
    | none =>
      obtain ⟨rfl, rfl⟩ : .missed version = c' ∧ g = g' := by simpa [advance, hhit] using h
      exact .miss
    | some bundle =>
      obtain ⟨rfl, rfl⟩ : .leaving version bundle false = c' ∧ g = g' := by
        simpa [advance, hhit] using h
      exact .hit (cachedAs_eq_some hhit)
  | missed version =>
    obtain ⟨hfree, rfl, rfl⟩ : g.lock = none ∧ .locked version = c' ∧
        { g with lock := some i } = g' := by simpa [advance] using h
    exact .acquire hfree
  | locked version =>
    cases hhit : cachedAs g.cache version with
    | none =>
      obtain ⟨rfl, rfl⟩ : .rechecked version = c' ∧ g = g' := by simpa [advance, hhit] using h
      exact .remiss
    | some bundle =>
      obtain ⟨rfl, rfl⟩ : .leaving version bundle true = c' ∧ g = g' := by
        simpa [advance, hhit] using h
      exact .rehit (cachedAs_eq_some hhit)
  | rechecked version =>
    obtain ⟨file, hcur, rfl, rfl⟩ : ∃ file, artifact.current = some file ∧
        .loaded version file.content = c' ∧ g = g' := by simpa [advance] using h
    exact .load hcur
  | loaded version bundle =>
    obtain ⟨rfl, rfl⟩ : .leaving version bundle true = c' ∧
        { g with cache := some ⟨bundle, version⟩ } = g' := by simpa [advance] using h
    exact .store
  | leaving version bundle holds =>
    cases holds with
    | false =>
      obtain ⟨rfl, rfl⟩ : .returned version bundle = c' ∧ g = g' := by simpa [advance] using h
      exact .leave
    | true =>
      obtain ⟨rfl, rfl⟩ : .returned version bundle = c' ∧ { g with lock := none } = g' := by
        simpa [advance] using h
      exact .release
  | returned version bundle => cases h
  | noModel => cases h

/-- **The step lemma.**  What a call holds, and what it caches, is at least as new
as the version it has read. -/
theorem Advances.sound (h : Advances artifact g i c c' g') (hc : c.Sound artifact)
    (hg : g.Sound artifact) : c'.Sound artifact ∧ g'.Sound artifact := by
  cases h with
  | absent hcur => exact ⟨trivial, hg⟩
  | stat hcur => exact ⟨File.tag_mem_of_current hcur, hg⟩
  | hit hcache => exact ⟨hg _ hcache, hg⟩
  | rehit hcache => exact ⟨hg _ hcache, hg⟩
  | miss | acquire _ | remiss | leave | release => exact ⟨hc, hg⟩
  | load hcur =>
    -- the artifact may have been replaced since the stat: what is loaded is newer
    exact ⟨File.asNewAs_current hc hcur, hg⟩
  | store =>
    refine ⟨hc, ?_⟩
    intro entry hentry
    obtain rfl := Option.some.inj hentry
    exact hc

omit [DecidableEq ν] in
/-- The version a call goes by is the one it finds in its first step. -/
theorem Advances.version?_eq (h : Advances artifact g i c c' g')
    (hc : c = .start ∨ c.version? = artifact.current.map Version.tag) :
    c'.version? = artifact.current.map Version.tag := by
  cases h with
  | absent hcur | stat hcur => rw [hcur]; rfl
  | _ => exact hc.resolve_left (by simp)

omit [DecidableEq ν] in
/-- What a step does to the lock. -/
theorem Advances.lock (h : Advances artifact g i c c' g') :
    g'.lock = g.lock ∧ c'.holdsLock = c.holdsLock ∨
      g.lock = none ∧ g'.lock = some i ∧ c'.holdsLock = true ∨
      c.holdsLock = true ∧ g'.lock = none ∧ c'.holdsLock = false := by
  cases h with
  | acquire hfree => exact .inr (.inl ⟨hfree, rfl, rfl⟩)
  | release => exact .inr (.inr ⟨rfl, rfl, rfl⟩)
  | _ => exact .inl ⟨rfl, rfl⟩

omit [DecidableEq ν] in
/-- A step brings the call closer to its end. -/
theorem Advances.remaining_lt (h : Advances artifact g i c c' g') : c'.remaining < c.remaining := by
  cases h <;> simp [remaining]

/-- A call that has not returned can take its next step, unless another one holds
the lock. -/
theorem exists_advance (hc : c.Sound artifact) (hlock : g.lock = none ∨ c.holdsLock = true)
    (h : c.outcome = none) : ∃ c' g', c.advance artifact g i = some (c', g') := by
  cases c with
  | start =>
    cases hcur : artifact.current with
    | none => exact ⟨.noModel, g, by simp [advance, hcur]⟩
    | some file => exact ⟨.statted file.tag, g, by simp [advance, hcur]⟩
  | statted version =>
    cases hhit : cachedAs g.cache version with
    | none => exact ⟨.missed version, g, by simp [advance, hhit]⟩
    | some bundle => exact ⟨.leaving version bundle false, g, by simp [advance, hhit]⟩
  | missed version =>
    have hfree : g.lock = none := hlock.resolve_right (by simp [holdsLock])
    exact ⟨.locked version, { g with lock := some i }, by simp [advance, hfree]⟩
  | locked version =>
    cases hhit : cachedAs g.cache version with
    | none => exact ⟨.rechecked version, g, by simp [advance, hhit]⟩
    | some bundle => exact ⟨.leaving version bundle true, g, by simp [advance, hhit]⟩
  | rechecked version =>
    obtain ⟨file, hcur⟩ := File.exists_current hc
    exact ⟨.loaded version file.content, g, by simp [advance, hcur]⟩
  | loaded version bundle => exact ⟨_, _, rfl⟩
  | leaving version bundle holds => exact ⟨_, _, rfl⟩
  | returned version bundle => cases h
  | noModel => cases h

/-- A new version of the artifact makes nothing older. -/
theorem Sound.write (hc : c.Sound artifact) (v : Version β ν) (hv : v.tag ∉ artifact.tags) :
    c.Sound (artifact.write v hv) := by
  cases c with
  | start | noModel => trivial
  | statted _ | missed _ | locked _ | rechecked _ =>
    show _ ∈ (artifact.write v hv).tags
    rw [File.tags_write]
    exact List.mem_append_left _ hc
  | loaded _ _ | leaving _ _ _ | returned _ _ => exact File.AsNewAs.write hc v hv

end LocalCall

/-! ## What holds of a process in every run -/

namespace ModelProcess

variable [DecidableEq ν] {s t : ModelProcess β ν} {i : ℕ}

/-- The calls and the cache are sound, and the lock is held by the call that is
inside the `with _LOCK`. -/
structure Consistent (s : ModelProcess β ν) : Prop where
  call : ∀ i, (s.call i).Sound s.artifact
  globals : s.globals.Sound s.artifact
  lock : ∀ i, s.globals.lock = some i ↔ (s.call i).holdsLock = true

theorem consistent_start (artifact : File β ν) : (start artifact).Consistent where
  call := fun _ => trivial
  globals := by
    intro entry hentry
    cases hentry
  lock := by simp [start, Globals.fresh, LocalCall.holdsLock]

theorem Consistent.step {a : ModelStep β ν} (hs : s.Consistent) (h : s.Steps a t) :
    t.Consistent := by
  cases a with
  | write version =>
    obtain ⟨hv, rfl⟩ := h.write_inv
    exact ⟨fun i => (hs.call i).write version hv, fun entry hentry =>
      (hs.globals entry hentry).write version hv, hs.lock⟩
  | call i =>
    obtain ⟨c, g, hadv, rfl⟩ := h.call_inv
    have hmove := LocalCall.advances_of_advance hadv
    obtain ⟨hc, hg⟩ := hmove.sound (hs.call i) hs.globals
    refine ⟨?_, hg, ?_⟩
    · intro j
      by_cases hj : j = i
      · subst hj
        simpa using hc
      · simpa [hj] using hs.call j
    · intro j
      have hi := hs.lock i
      have hjlock := hs.lock j
      by_cases hj : j = i
      · subst hj
        rcases hmove.lock with ⟨hl, hh⟩ | ⟨-, hl, hh⟩ | ⟨-, hl, hh⟩
        · simpa [hl, hh] using hjlock
        · simp [hl, hh]
        · simp [hl, hh]
      · rcases hmove.lock with ⟨hl, -⟩ | ⟨hfree, hl, -⟩ | ⟨hheld, hl, -⟩
        · simpa [hl, hj] using hjlock
        · simpa [hl, hj, hfree, Ne.symm hj] using hjlock
        · rw [hi.2 hheld] at hjlock
          simpa [hl, hj, Ne.symm hj] using hjlock

theorem consistent_of_run {artifact : File β ν} {l : List (ModelStep β ν)}
    (hrun : Run Steps (start artifact) l s) : s.Consistent :=
  hrun.invariant (consistent_start artifact) fun _ _ _ hs h => hs.step h

/-! ## A stretch without writes -/

/-- While nothing is written, a call that has not started before goes by the
version of the current artifact. -/
theorem version?_of_run {m : List (ModelStep β ν)} (hrun : Run Steps s m t)
    (hcalls : ∀ a ∈ m, a.isCall = true) (hstart : s.call i = .start) :
    t.artifact = s.artifact ∧ (t.call i = .start ∨
      (t.call i).version? = s.artifact.current.map Version.tag) := by
  refine hrun.invariant_of_labels (C := fun a => a.isCall = true)
    (P := fun t : ModelProcess β ν => t.artifact = s.artifact ∧ (t.call i = .start ∨
      (t.call i).version? = s.artifact.current.map Version.tag)) ⟨rfl, .inl hstart⟩ hcalls ?_
  rintro t a u ha ⟨hart, hver⟩ hstep
  cases a with
  | write version => cases ha
  | call j =>
    obtain ⟨c, g, hadv, rfl⟩ := hstep.call_inv
    refine ⟨hart, ?_⟩
    by_cases hj : i = j
    · subst hj
      rw [← hart] at hver ⊢
      simpa using .inr ((LocalCall.advances_of_advance hadv).version?_eq hver)
    · simpa [hj] using hver

/-- A call that goes by the current version can only return the current bundle. -/
theorem Consistent.outcome_eq {r : Option β} (hs : s.Consistent)
    (hver : (s.call i).version? = s.artifact.current.map Version.tag)
    (hr : (s.call i).outcome = some r) : r = s.artifact.current.map Version.content := by
  have hsound := hs.call i
  cases hcall : s.call i with
  | returned version bundle =>
    rw [hcall] at hver hr hsound
    obtain ⟨file, hcur, rfl⟩ := Option.map_eq_some_iff.1 hver.symm
    obtain rfl := Option.some.inj hr
    rw [hcur, Option.map_some, File.AsNewAs.eq_current hcur hsound]
  | noModel =>
    rw [hcall] at hver hr
    obtain rfl := Option.some.inj hr
    rw [Option.map_eq_none_iff.1 hver.symm, Option.map_none]
  | _ => simp [hcall, LocalCall.outcome] at hr

/-! ## Every call can be finished -/

/-- **A call that no other one keeps out of the lock runs to its end**, and leaves
the lock free. -/
theorem exists_run_outcome (hs : s.Consistent)
    (hlock : s.globals.lock = none ∨ s.globals.lock = some i) :
    ∃ m t, (∀ a ∈ m, a.isCall = true) ∧ Run Steps s m t ∧ (t.call i).outcome.isSome = true ∧
      t.globals.lock = none := by
  -- by induction on the number of steps the call has still to take
  induction hn : (s.call i).remaining using Nat.strong_induction_on generalizing s with
  | _ n ih =>
    cases hout : (s.call i).outcome with
    | some r =>
      refine ⟨[], s, by simp, .refl, by simp [hout], hlock.resolve_right fun hi => ?_⟩
      have hholds := (hs.lock i).1 hi
      cases hcall : s.call i <;> simp [hcall, LocalCall.outcome, LocalCall.holdsLock] at hout hholds
    | none =>
      obtain ⟨c, g, hadv⟩ := LocalCall.exists_advance (i := i) (hs.call i)
        (hlock.imp_right (hs.lock i).1) hout
      have hstep : s.Steps (.call i)
          { s with globals := g, call := Function.update s.call i c } := by
        simp [Steps, exec, hadv]
      have hmove := LocalCall.advances_of_advance hadv
      have hfree : g.lock = none ∨ g.lock = some i := by
        rcases hmove.lock with ⟨hl, -⟩ | ⟨-, hl, -⟩ | ⟨-, hl, -⟩
        · rwa [hl]
        · exact .inr hl
        · exact .inl hl
      obtain ⟨m, t, hm, hrun, hdone⟩ := ih _ (by rw [← hn]; exact hmove.remaining_lt)
        (hs.step hstep) hfree (by simp)
      refine ⟨.call i :: m, t, ?_, (Run.single hstep).trans hrun, hdone⟩
      intro a ha
      rcases List.mem_cons.1 ha with rfl | ha
      · rfl
      · exact hm a ha

/-- Whatever the calls of a process are doing, any one of them can be finished: the
call that holds the lock first, then the one in question. -/
theorem Consistent.can_finish (hs : s.Consistent) (i : ℕ) :
    ∃ m t, (∀ a ∈ m, a.isCall = true) ∧ Run Steps s m t ∧ (t.call i).outcome.isSome = true := by
  have hfree : ∃ m t, (∀ a ∈ m, a.isCall = true) ∧ Run Steps s m t ∧ t.globals.lock = none := by
    cases hlock : s.globals.lock with
    | none => exact ⟨[], s, by simp, .refl, hlock⟩
    | some j =>
      obtain ⟨m, t, hm, hrun, -, hfree⟩ := exists_run_outcome hs (.inr hlock)
      exact ⟨m, t, hm, hrun, hfree⟩
  obtain ⟨m, t, hm, hrun, hfree⟩ := hfree
  have ht : t.Consistent := hrun.invariant hs fun _ _ _ hs h => hs.step h
  obtain ⟨m', u, hm', hrun', hdone, -⟩ := exists_run_outcome (i := i) ht (.inl hfree)
  refine ⟨m ++ m', u, ?_, hrun.trans hrun', hdone⟩
  intro a ha
  exact (List.mem_append.1 ha).elim (hm a) (hm' a)

/-- **No model older than the one the caller saw**, in every run of a process:

* what a call returns is at least as new as the file it stat'ed;
* what is cached is at least as new as the version it is cached as;
* while nothing is written, a call that starts returns the newest bundle;
* every call can be finished. -/
theorem neverOlder (artifact : File β ν) {l : List (ModelStep β ν)} {s : ModelProcess β ν}
    (hrun : Run Steps (start artifact) l s) :
    (∀ i version bundle, s.call i = .returned version bundle →
        s.artifact.AsNewAs version bundle) ∧
      (∀ entry, s.globals.cache = some entry →
        s.artifact.AsNewAs entry.version entry.bundle) ∧
      (∀ m t i r, Run Steps s m t → (∀ a ∈ m, a.isCall = true) → s.call i = .start →
        (t.call i).outcome = some r → r = t.artifact.current.map Version.content) ∧
      ∀ i, ∃ m t, (∀ a ∈ m, a.isCall = true) ∧ Run Steps s m t ∧
        (t.call i).outcome.isSome = true := by
  have hs := consistent_of_run hrun
  refine ⟨?_, hs.globals, ?_, hs.can_finish⟩
  · intro i version bundle hcall
    have hsound := hs.call i
    rwa [hcall] at hsound
  · intro m t i r hrun' hcalls hstart hr
    have ht := consistent_of_run (hrun.trans hrun')
    obtain ⟨hart, hver⟩ := version?_of_run hrun' hcalls hstart
    refine ht.outcome_eq ?_ hr
    rw [hart]
    refine hver.resolve_left ?_
    intro h
    simp [h, LocalCall.outcome] at hr

/-- A call that has stat'ed the artifact while it is replaced, and goes on after
another call has cached the new one. -/
def slowCall : List (ModelStep ℕ ℕ) :=
  [.call 0, .call 0, .write ⟨2, 20⟩] ++ List.replicate 7 (.call 1) ++ List.replicate 5 (.call 0)

/-- The slow call stores its entry last, under the old version: it holds the new
bundle, and the next call replaces it. -/
theorem slowCall_neverOlder : ∃ s : ModelProcess ℕ ℕ,
    Run Steps (start (File.absent.write ⟨1, 10⟩ (by decide))) slowCall s ∧
      s.globals.cache = some ⟨2, 10⟩ ∧ s.artifact.AsNewAs 10 2 ∧
      ∀ m t r, Run Steps s m t → (∀ a ∈ m, a.isCall = true) → (t.call 2).outcome = some r →
        r = t.artifact.current.map Version.content := by
  obtain ⟨s, hs, hcache, hcall⟩ : ∃ s : ModelProcess ℕ ℕ,
      slowCall.foldlM exec (start (File.absent.write ⟨1, 10⟩ (by decide))) = some s ∧
        s.globals.cache = some ⟨2, 10⟩ ∧ s.call 2 = .start := ⟨_, rfl, rfl, rfl⟩
  obtain ⟨-, hentry, hnewest, -⟩ := neverOlder _ (Run.of_foldlM hs)
  exact ⟨s, Run.of_foldlM hs, hcache, hentry _ hcache,
    fun m t r hrun hm hr => hnewest m t 2 r hrun hm hcall hr⟩

end ModelProcess

end DelayPredictor
