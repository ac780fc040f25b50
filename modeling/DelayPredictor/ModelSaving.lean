import DelayPredictor.ModelCache

/-!
# Saving a model that is being served

`save_model` (`app/services/ml_predictor.py`) writes the artifact in place.  Any number of
processes call `get_model` with the local backend meanwhile.

* `LocalCall.next` — the next step of one call, by what a stat and a load would find: a
  load that fails ends the call with `None`.
* `Serving.exec` — one step of the whole: a save truncates the artifact, appends to it,
  and finishes or is interrupted; a call takes its next step.
* `servedAlong_iff` — **when saving takes no model away**, in every run: exactly when no
  call loads the artifact while it is only partly there.

A modification time is that of one write.  A load reads the file as it is at one moment.
-/

namespace DelayPredictor

open Runs Versioned

variable {β ν : Type*}

/-! ## One call -/

namespace LocalCall

variable [DecidableEq ν]

/-- The next step of call `i`, when the artifact has the modification time `stat` and
`load` is what `load_model` makes of it, if it makes anything. -/
def next (stat : Option ν) (load : Option β) (g : Globals β ν) (i : ℕ) :
    LocalCall β ν → Option (LocalCall β ν × Globals β ν)
  | .start =>
    match stat with
    | none => some (.noModel, g)
    | some version => some (.statted version, g)
  | .statted version =>
    match cachedAs g.cache version with
    | some bundle => some (.leaving version bundle false, g)
    | none => some (.missed version, g)
  | .missed version =>
    if g.lock = none then some (.locked version, { g with lock := some i }) else none
  | .locked version =>
    match cachedAs g.cache version with
    | some bundle => some (.leaving version bundle true, g)
    | none => some (.rechecked version, g)
  | .rechecked version =>
    match load with
    | some bundle => some (.loaded version bundle, g)
    -- the exception is logged, and `None` is returned from inside the `with _LOCK`
    | none => some (.noModel, { g with lock := none })
  | .loaded version bundle =>
    some (.leaving version bundle true, { g with cache := some ⟨bundle, version⟩ })
  | .leaving version bundle holdsLock =>
    some (.returned version bundle, { g with lock := if holdsLock then none else g.lock })
  | .returned _ _ | .noModel => none

variable {stat : Option ν} {load : Option β} {g g' : Globals β ν} {i : ℕ}
  {c c' : LocalCall β ν}

/-- The ways a call `i` can move on, with what it finds. -/
inductive Moves (stat : Option ν) (load : Option β) (g : Globals β ν) (i : ℕ) :
    LocalCall β ν → LocalCall β ν → Globals β ν → Prop
  | absent : stat = none → Moves stat load g i .start .noModel g
  | stat {version} : stat = some version → Moves stat load g i .start (.statted version) g
  | hit {version bundle} : g.cache = some ⟨bundle, version⟩ →
      Moves stat load g i (.statted version) (.leaving version bundle false) g
  | miss {version} : Moves stat load g i (.statted version) (.missed version) g
  | acquire {version} : g.lock = none →
      Moves stat load g i (.missed version) (.locked version) { g with lock := some i }
  | rehit {version bundle} : g.cache = some ⟨bundle, version⟩ →
      Moves stat load g i (.locked version) (.leaving version bundle true) g
  | remiss {version} : Moves stat load g i (.locked version) (.rechecked version) g
  | load {version bundle} : load = some bundle →
      Moves stat load g i (.rechecked version) (.loaded version bundle) g
  | unreadable {version} : load = none →
      Moves stat load g i (.rechecked version) .noModel { g with lock := none }
  | store {version bundle} : Moves stat load g i (.loaded version bundle)
      (.leaving version bundle true) { g with cache := some ⟨bundle, version⟩ }
  | leave {version bundle} :
      Moves stat load g i (.leaving version bundle false) (.returned version bundle) g
  | release {version bundle} : Moves stat load g i (.leaving version bundle true)
      (.returned version bundle) { g with lock := none }

theorem moves_of_next (h : c.next stat load g i = some (c', g')) :
    Moves stat load g i c c' g' := by
  cases c with
  | start =>
    cases stat with
    | none =>
      cases h
      exact .absent rfl
    | some version =>
      cases h
      exact .stat rfl
  | statted version =>
    cases hhit : cachedAs g.cache version with
    | none =>
      obtain ⟨rfl, rfl⟩ : .missed version = c' ∧ g = g' := by simpa [next, hhit] using h
      exact .miss
    | some bundle =>
      obtain ⟨rfl, rfl⟩ : .leaving version bundle false = c' ∧ g = g' := by
        simpa [next, hhit] using h
      exact .hit (cachedAs_eq_some hhit)
  | missed version =>
    obtain ⟨hfree, rfl, rfl⟩ : g.lock = none ∧ .locked version = c' ∧
        { g with lock := some i } = g' := by simpa [next] using h
    exact .acquire hfree
  | locked version =>
    cases hhit : cachedAs g.cache version with
    | none =>
      obtain ⟨rfl, rfl⟩ : .rechecked version = c' ∧ g = g' := by simpa [next, hhit] using h
      exact .remiss
    | some bundle =>
      obtain ⟨rfl, rfl⟩ : .leaving version bundle true = c' ∧ g = g' := by
        simpa [next, hhit] using h
      exact .rehit (cachedAs_eq_some hhit)
  | rechecked version =>
    cases load with
    | none =>
      cases h
      exact .unreadable rfl
    | some bundle =>
      cases h
      exact .load rfl
  | loaded version bundle =>
    cases h
    exact .store
  | leaving version bundle holds =>
    cases h
    cases holds with
    | false => exact .leave
    | true => exact .release
  | returned version bundle => cases h
  | noModel => cases h

/-- The next step is the load. -/
def loads : LocalCall β ν → Bool
  | .rechecked _ => true
  | _ => false

omit [DecidableEq ν] in
theorem loads_iff : c.loads = true ↔ ∃ version, c = .rechecked version := by
  cases c <;> simp [loads]

omit [DecidableEq ν] in
/-- **Only a stat or a load can end a call without a model.** -/
theorem Moves.noModel_iff (h : Moves stat load g i c c' g') (hstat : stat ≠ none) :
    c' = .noModel ↔ load = none ∧ ∃ version, c = .rechecked version := by
  cases h with
  | absent hnone => exact absurd hnone hstat
  | load hload => simp [hload]
  | unreadable hload => simp [hload]
  | _ => simp

omit [DecidableEq ν] in
/-- What a step does to the lock. -/
theorem Moves.lock (h : Moves stat load g i c c' g') :
    g'.lock = g.lock ∧ c'.holdsLock = c.holdsLock ∨
      g.lock = none ∧ g'.lock = some i ∧ c'.holdsLock = true ∨
      c.holdsLock = true ∧ g'.lock = none ∧ c'.holdsLock = false := by
  cases h with
  | acquire hfree => exact .inr (.inl ⟨hfree, rfl, rfl⟩)
  | release => exact .inr (.inr ⟨rfl, rfl, rfl⟩)
  | unreadable _ => exact .inr (.inr ⟨rfl, rfl, rfl⟩)
  | _ => exact .inl ⟨rfl, rfl⟩

omit [DecidableEq ν] in
/-- A step brings the call closer to its end. -/
theorem Moves.remaining_lt (h : Moves stat load g i c c' g') : c'.remaining < c.remaining := by
  cases h <;> simp [remaining]

/-- A call that has not ended has a next step, unless another one holds the lock. -/
theorem exists_next (stat : Option ν) (load : Option β)
    (hlock : g.lock = none ∨ c.holdsLock = true) (h : c.outcome = none) :
    ∃ c' g', c.next stat load g i = some (c', g') := by
  cases c with
  | start => cases stat <;> exact ⟨_, _, rfl⟩
  | statted version =>
    cases hhit : cachedAs g.cache version with
    | none => exact ⟨.missed version, g, by simp [next, hhit]⟩
    | some bundle => exact ⟨.leaving version bundle false, g, by simp [next, hhit]⟩
  | missed version =>
    have hfree : g.lock = none := hlock.resolve_right (by simp [holdsLock])
    exact ⟨.locked version, { g with lock := some i }, by simp [next, hfree]⟩
  | locked version =>
    cases hhit : cachedAs g.cache version with
    | none => exact ⟨.rechecked version, g, by simp [next, hhit]⟩
    | some bundle => exact ⟨.leaving version bundle true, g, by simp [next, hhit]⟩
  | rechecked version => cases load <;> exact ⟨_, _, rfl⟩
  | loaded version bundle => exact ⟨_, _, rfl⟩
  | leaving version bundle holds => exact ⟨_, _, rfl⟩
  | returned version bundle => cases h
  | noModel => cases h

end LocalCall

/-! ## All calls, and the saves -/

/-- The artifact on disk, the model that is being saved, the globals of every process,
and where every call is.  A version without content is one that is only partly there. -/
structure Serving (β ν : Type*) where
  artifact : File (Option β) ν
  saving : Option β
  globals : ℕ → Globals β ν
  call : ℕ → LocalCall β ν

/-- A step of `save_model`, with the modification time of what it writes, or of a call. -/
inductive SavingStep (β ν : Type*)
  /-- The artifact is opened for writing. -/
  | truncate (bundle : β) (mtime : ν)
  | append (mtime : ν)
  /-- The last part is written. -/
  | finish (mtime : ν)
  /-- An exception, a time limit, or the end of the process. -/
  | interrupt
  | call (i : ℕ)
  deriving DecidableEq, Repr

/-- The step is no part of a save. -/
def SavingStep.isCall : SavingStep β ν → Bool
  | .call _ => true
  | _ => false

namespace Serving

/-- A save has completed, and no call has been made yet. -/
def saved (artifact : File (Option β) ν) : Serving β ν :=
  ⟨artifact, none, fun _ => .fresh, fun _ => .start⟩

/-- The modification time a stat finds. -/
def stat (s : Serving β ν) : Option ν := s.artifact.current.map Version.tag

/-- What a load makes of the artifact. -/
def load (s : Serving β ν) : Option β := s.artifact.current.bind Version.content

variable [DecidableEq ν]

/-- A write, unless its time has been seen before. -/
def writeAs (s : Serving β ν) (content saving : Option β) (mtime : ν) : Serving β ν :=
  if h : mtime ∈ s.artifact.tags then s
  else { s with artifact := s.artifact.write ⟨content, mtime⟩ h, saving }

/-- Take a step; one that cannot be taken changes nothing.  `processOf` is the process a
call is made in. -/
def exec (processOf : ℕ → ℕ) (s : Serving β ν) : SavingStep β ν → Serving β ν
  | .truncate bundle mtime =>
    if s.saving.isNone then s.writeAs none (some bundle) mtime else s
  | .append mtime => if s.saving.isSome then s.writeAs none s.saving mtime else s
  | .finish mtime => if s.saving.isSome then s.writeAs s.saving none mtime else s
  | .interrupt => { s with saving := none }
  | .call i =>
    match (s.call i).next s.stat s.load (s.globals (processOf i)) i with
    | none => s
    | some (c, g) =>
      { s with
        globals := Function.update s.globals (processOf i) g
        call := Function.update s.call i c }

/-! ## What a step can do -/

variable {processOf : ℕ → ℕ} {s : Serving β ν}

/-- **Of one step of a save**: the artifact may be written, and nothing else of what
calls see is changed. -/
theorem exec_save (processOf : ℕ → ℕ) (s : Serving β ν) {a : SavingStep β ν}
    (ha : a.isCall = false) :
    (s.exec processOf a).globals = s.globals ∧ (s.exec processOf a).call = s.call ∧
      ((s.exec processOf a).artifact = s.artifact ∨ ∃ v, ∃ hv : v.tag ∉ s.artifact.tags,
        (s.exec processOf a).artifact = s.artifact.write v hv) := by
  have hwrite : ∀ (content saving : Option β) (mtime : ν),
      (s.writeAs content saving mtime).globals = s.globals ∧
        (s.writeAs content saving mtime).call = s.call ∧
        ((s.writeAs content saving mtime).artifact = s.artifact ∨
          ∃ v, ∃ hv : v.tag ∉ s.artifact.tags,
            (s.writeAs content saving mtime).artifact = s.artifact.write v hv) := by
    intro content saving mtime
    unfold writeAs
    split
    · exact ⟨rfl, rfl, .inl rfl⟩
    · rename_i hv
      exact ⟨rfl, rfl, .inr ⟨⟨content, mtime⟩, hv, rfl⟩⟩
  cases a with
  | truncate bundle mtime =>
    unfold exec
    dsimp only
    split
    · exact hwrite _ _ _
    · exact ⟨rfl, rfl, .inl rfl⟩
  | append mtime =>
    unfold exec
    dsimp only
    split
    · exact hwrite _ _ _
    · exact ⟨rfl, rfl, .inl rfl⟩
  | finish mtime =>
    unfold exec
    dsimp only
    split
    · exact hwrite _ _ _
    · exact ⟨rfl, rfl, .inl rfl⟩
  | interrupt => exact ⟨rfl, rfl, .inl rfl⟩
  | call i => cases ha

/-- **Of one step of a call**: it moves on, or nothing happens. -/
theorem exec_call (processOf : ℕ → ℕ) (s : Serving β ν) (i : ℕ) :
    (s.call i).next s.stat s.load (s.globals (processOf i)) i = none ∧
        s.exec processOf (.call i) = s ∨
      ∃ c g, LocalCall.Moves s.stat s.load (s.globals (processOf i)) i (s.call i) c g ∧
        s.exec processOf (.call i) =
          { s with
            globals := Function.update s.globals (processOf i) g
            call := Function.update s.call i c } := by
  unfold exec
  dsimp only
  cases hnext : (s.call i).next s.stat s.load (s.globals (processOf i)) i with
  | none => exact .inl ⟨rfl, rfl⟩
  | some p => exact .inr ⟨p.1, p.2, LocalCall.moves_of_next hnext, rfl⟩

/-! ## What holds in every run -/

/-- The version a call has read is one the artifact has had, and its bundle, once it has
one, is that of this version or of a later one. -/
def Sound (artifact : File (Option β) ν) : LocalCall β ν → Prop
  | .start | .noModel => True
  | .statted version | .missed version | .locked version | .rechecked version =>
    version ∈ artifact.tags
  | .loaded version bundle | .leaving version bundle _ | .returned version bundle =>
    artifact.AsNewAs version (some bundle)

/-- The cached bundle is that of the version it is cached as or of a later one. -/
def CacheSound (artifact : File (Option β) ν) (g : Globals β ν) : Prop :=
  ∀ entry, g.cache = some entry → artifact.AsNewAs entry.version (some entry.bundle)

/-- There is an artifact, calls and caches are sound, and a lock is held by the call of
its process that is inside the `with _LOCK`. -/
structure Consistent (processOf : ℕ → ℕ) (s : Serving β ν) : Prop where
  artifact : s.artifact.current ≠ none
  call : ∀ i, Sound s.artifact (s.call i)
  globals : ∀ p, CacheSound s.artifact (s.globals p)
  lock : ∀ p i, (s.globals p).lock = some i ↔ processOf i = p ∧ (s.call i).holdsLock = true

theorem consistent_saved (processOf : ℕ → ℕ) {artifact : File (Option β) ν}
    (h : artifact.current ≠ none) : (saved artifact : Serving β ν).Consistent processOf where
  artifact := h
  call _ := trivial
  globals p := by
    intro entry hentry
    cases hentry
  lock := by simp [saved, Globals.fresh, LocalCall.holdsLock]

/-- Writing makes nothing older. -/
theorem Sound.write {artifact : File (Option β) ν} {c : LocalCall β ν} (hc : Sound artifact c)
    (v : Version (Option β) ν) (hv : v.tag ∉ artifact.tags) : Sound (artifact.write v hv) c := by
  cases c with
  | start | noModel => trivial
  | statted _ | missed _ | locked _ | rechecked _ =>
    show _ ∈ (artifact.write v hv).tags
    rw [File.tags_write]
    exact List.mem_append_left _ hc
  | loaded _ _ | leaving _ _ _ | returned _ _ => exact File.AsNewAs.write hc v hv

theorem Consistent.write {t : Serving β ν} (hs : s.Consistent processOf)
    (hglobals : t.globals = s.globals) (hcall : t.call = s.call) {v : Version (Option β) ν}
    {hv : v.tag ∉ s.artifact.tags} (hart : t.artifact = s.artifact.write v hv) :
    t.Consistent processOf where
  artifact := by
    rw [hart]
    simp [File.current, File.write]
  call i := by
    rw [hart, hcall]
    exact (hs.call i).write v hv
  globals p := by
    rw [hart, hglobals]
    intro entry hentry
    exact (hs.globals p entry hentry).write v hv
  lock := by
    rw [hglobals, hcall]
    exact hs.lock

/-- What a call holds, and what it caches, is at least as new as the version it has read. -/
theorem sound_of_moves {artifact : File (Option β) ν} {i : ℕ} {c c' : LocalCall β ν}
    {g g' : Globals β ν} (h : LocalCall.Moves (artifact.current.map Version.tag)
      (artifact.current.bind Version.content) g i c c' g')
    (hc : Sound artifact c) (hg : CacheSound artifact g) :
    Sound artifact c' ∧ CacheSound artifact g' := by
  cases h with
  | absent hstat => exact ⟨trivial, hg⟩
  | stat hstat =>
    obtain ⟨file, hcur, rfl⟩ := Option.map_eq_some_iff.1 hstat
    exact ⟨File.tag_mem_of_current hcur, hg⟩
  | hit hcache => exact ⟨hg _ hcache, hg⟩
  | rehit hcache => exact ⟨hg _ hcache, hg⟩
  | miss | acquire _ | remiss | leave | release => exact ⟨hc, hg⟩
  | load hload =>
    obtain ⟨file, hcur, hcontent⟩ := Option.bind_eq_some_iff.1 hload
    refine ⟨?_, hg⟩
    have hnew := File.asNewAs_current hc hcur
    rwa [hcontent] at hnew
  | unreadable _ => exact ⟨trivial, hg⟩
  | store =>
    refine ⟨hc, ?_⟩
    intro entry hentry
    obtain rfl := Option.some.inj hentry
    exact hc

/-- A step passes the lock on correctly. -/
theorem lock_of_moves (hs : s.Consistent processOf) {i : ℕ} {c : LocalCall β ν}
    {g : Globals β ν}
    (h : LocalCall.Moves s.stat s.load (s.globals (processOf i)) i (s.call i) c g) (p j : ℕ) :
    (Function.update s.globals (processOf i) g p).lock = some j ↔
      processOf j = p ∧ (Function.update s.call i c j).holdsLock = true := by
  have hi := hs.lock (processOf i) i
  have hj := hs.lock p j
  by_cases hp : p = processOf i
  · subst hp
    rw [Function.update_self]
    by_cases hji : j = i
    · subst hji
      rw [Function.update_self]
      rcases h.lock with ⟨hl, hh⟩ | ⟨-, hl, hh⟩ | ⟨-, hl, hh⟩
      · rw [hl, hh]
        exact hj
      · simp [hl, hh]
      · simp [hl, hh]
    · rw [Function.update_of_ne hji]
      rcases h.lock with ⟨hl, -⟩ | ⟨hfree, hl, -⟩ | ⟨hheld, hl, -⟩
      · rw [hl]
        exact hj
      · rw [hfree] at hj
        rw [hl, ← hj]
        simp [Ne.symm hji]
      · rw [hi.2 ⟨rfl, hheld⟩] at hj
        rw [hl, ← hj]
        simp [Ne.symm hji]
  · rw [Function.update_of_ne hp]
    by_cases hji : j = i
    · subst hji
      rw [hj]
      simp [Ne.symm hp]
    · rw [Function.update_of_ne hji]
      exact hj

/-- **The step lemma.** -/
theorem Consistent.step (hs : s.Consistent processOf) (a : SavingStep β ν) :
    (s.exec processOf a).Consistent processOf := by
  cases ha : a.isCall with
  | false =>
    obtain ⟨hglobals, hcall, hart | ⟨v, hv, hart⟩⟩ := exec_save processOf s ha
    · exact {
        artifact := by rw [hart]; exact hs.artifact
        call := by rw [hart, hcall]; exact hs.call
        globals := by rw [hart, hglobals]; exact hs.globals
        lock := by rw [hglobals, hcall]; exact hs.lock }
    · exact hs.write hglobals hcall hart
  | true =>
    obtain ⟨i, rfl⟩ : ∃ i, a = .call i := by
      cases a with
      | call i => exact ⟨i, rfl⟩
      | _ => cases ha
    rcases exec_call processOf s i with ⟨-, heq⟩ | ⟨c, g, hmove, heq⟩
    · rw [heq]
      exact hs
    · rw [heq]
      obtain ⟨hc, hg⟩ := sound_of_moves hmove (hs.call i) (hs.globals _)
      exact {
        artifact := hs.artifact
        call := fun j => by
          by_cases hj : j = i
          · subst hj
            simpa using hc
          · simpa [hj] using hs.call j
        globals := fun p => by
          by_cases hp : p = processOf i
          · subst hp
            simpa using hg
          · simpa [hp] using hs.globals p
        lock := lock_of_moves hs hmove }

theorem consistent_replay (processOf : ℕ → ℕ) {artifact : File (Option β) ν}
    (h : artifact.current ≠ none) (l : List (SavingStep β ν)) :
    (replay (exec processOf) (saved artifact) l).Consistent processOf :=
  replay_invariant (consistent_saved processOf h) (fun _ a hs => hs.step a) l

/-! ## Every call can be finished -/

/-- **A call that no other one keeps out of the lock runs to its end**, and leaves the lock
free. -/
theorem exists_replay_outcome {i : ℕ} (hs : s.Consistent processOf)
    (hlock : (s.globals (processOf i)).lock = none ∨ (s.globals (processOf i)).lock = some i) :
    ∃ m : List (SavingStep β ν), (∀ a ∈ m, a.isCall = true) ∧
      ((replay (exec processOf) s m).call i).outcome.isSome = true ∧
      ((replay (exec processOf) s m).globals (processOf i)).lock = none := by
  -- by induction on the number of steps the call has still to take
  induction hn : (s.call i).remaining using Nat.strong_induction_on generalizing s with
  | _ n ih =>
    cases hout : (s.call i).outcome with
    | some r =>
      refine ⟨[], by simp, by simp [hout], hlock.resolve_right fun hi => ?_⟩
      have hholds := ((hs.lock _ i).1 hi).2
      cases hcall : s.call i <;> simp [hcall, LocalCall.outcome, LocalCall.holdsLock] at hout hholds
    | none =>
      obtain ⟨c', g', hnext⟩ := LocalCall.exists_next (i := i) s.stat s.load
        (hlock.imp_right fun hi => ((hs.lock _ i).1 hi).2) hout
      rcases exec_call processOf s i with ⟨hnone, -⟩ | ⟨c, g, hmove, heq⟩
      · rw [hnone] at hnext
        cases hnext
      · have hfree : g.lock = none ∨ g.lock = some i := by
          rcases hmove.lock with ⟨hl, -⟩ | ⟨-, hl, -⟩ | ⟨-, hl, -⟩
          · rwa [hl]
          · exact .inr hl
          · exact .inl hl
        have hnext := hs.step (.call i)
        rw [heq] at hnext
        obtain ⟨m, hm, hdone, hreleased⟩ := ih _ (by rw [← hn]; exact hmove.remaining_lt)
          hnext (by simpa using hfree) (by simp)
        refine ⟨.call i :: m, ?_, ?_⟩
        · intro a ha
          rcases List.mem_cons.1 ha with rfl | ha
          · rfl
          · exact hm a ha
        · rw [replay_cons, heq]
          exact ⟨hdone, hreleased⟩

/-- Any call can be finished: the one that holds the lock of its process first. -/
theorem Consistent.can_finish (hs : s.Consistent processOf) (i : ℕ) :
    ∃ m : List (SavingStep β ν), (∀ a ∈ m, a.isCall = true) ∧
      ((replay (exec processOf) s m).call i).outcome.isSome = true := by
  have hfree : ∃ m : List (SavingStep β ν), (∀ a ∈ m, a.isCall = true) ∧
      ((replay (exec processOf) s m).globals (processOf i)).lock = none := by
    cases hlock : (s.globals (processOf i)).lock with
    | none => exact ⟨[], by simp, hlock⟩
    | some j =>
      have hj := ((hs.lock _ j).1 hlock).1
      rw [← hj] at hlock ⊢
      obtain ⟨m, hm, -, hreleased⟩ := exists_replay_outcome hs (.inr hlock)
      exact ⟨m, hm, hreleased⟩
  obtain ⟨m, hm, hreleased⟩ := hfree
  have ht : (replay (exec processOf) s m).Consistent processOf :=
    replay_invariant hs (fun _ a ht => ht.step a) m
  obtain ⟨m', hm', hdone, -⟩ := exists_replay_outcome (i := i) ht (.inl hreleased)
  refine ⟨m ++ m', ?_, ?_⟩
  · intro a ha
    exact (List.mem_append.1 ha).elim (hm a) (hm' a)
  · rw [replay_append]
    exact hdone

/-! ## When saving takes no model away -/

/-- No call has returned `None`, what calls have returned is a complete bundle, of the
version they have read or a later one, and every call can be finished. -/
structure Served (processOf : ℕ → ℕ) (s : Serving β ν) : Prop where
  model : ∀ i, s.call i ≠ .noModel
  newEnough : ∀ i version bundle, s.call i = .returned version bundle →
    s.artifact.AsNewAs version (some bundle)
  finishes : ∀ i, ∃ m : List (SavingStep β ν), (∀ a ∈ m, a.isCall = true) ∧
    ((replay (exec processOf) s m).call i).outcome.isSome = true

theorem Consistent.served_iff (hs : s.Consistent processOf) :
    s.Served processOf ↔ ∀ i, s.call i ≠ .noModel := by
  constructor
  · intro h
    exact h.model
  · intro h
    refine ⟨h, ?_, hs.can_finish⟩
    intro i version bundle hcall
    have hsound := hs.call i
    rwa [hcall] at hsound

/-- If the step is the load of a call, the artifact is all there. -/
def LoadsComplete (s : Serving β ν) : SavingStep β ν → Prop
  | .call i => (s.call i).loads = true → s.load.isSome = true
  | _ => True

instance (s : Serving β ν) (a : SavingStep β ν) : Decidable (s.LoadsComplete a) := by
  cases a <;> unfold LoadsComplete <;> infer_instance

/-- **A step takes no model away** exactly when it is no load of half an artifact. -/
theorem noModel_exec_iff (hs : s.Consistent processOf) (h : ∀ i, s.call i ≠ .noModel)
    (a : SavingStep β ν) :
    (∀ i, (s.exec processOf a).call i ≠ .noModel) ↔ s.LoadsComplete a := by
  cases ha : a.isCall with
  | false =>
    rw [(exec_save processOf s ha).2.1]
    refine iff_of_true h ?_
    cases a with
    | call i => cases ha
    | _ => trivial
  | true =>
    obtain ⟨i, rfl⟩ : ∃ i, a = .call i := by
      cases a with
      | call i => exact ⟨i, rfl⟩
      | _ => cases ha
    have hstat : s.stat ≠ none := by simpa [stat] using hs.artifact
    rcases exec_call processOf s i with ⟨hnone, heq⟩ | ⟨c, g, hmove, heq⟩
    · rw [heq]
      refine iff_of_true h ?_
      intro hloads
      obtain ⟨version, hcall⟩ := LocalCall.loads_iff.1 hloads
      cases hload : s.load with
      | some bundle => rfl
      | none => simp [hcall, LocalCall.next, hload] at hnone
    · have hmodel := hmove.noModel_iff hstat
      rw [heq]
      dsimp only
      constructor
      · intro hall hloads
        have hi := hall i
        rw [Function.update_self] at hi
        rw [← Option.ne_none_iff_isSome]
        intro hload
        exact hi (hmodel.2 ⟨hload, LocalCall.loads_iff.1 hloads⟩)
      · intro hcomplete j
        by_cases hj : j = i
        · subst hj
          rw [Function.update_self]
          intro hc
          obtain ⟨hload, hloads⟩ := hmodel.1 hc
          have hsome := hcomplete (LocalCall.loads_iff.2 hloads)
          rw [hload] at hsome
          cases hsome
        · rw [Function.update_of_ne hj]
          exact h j

/-- **When saving takes no model away**, all along a run that starts when a save has
completed. -/
theorem servedAlong_iff (processOf : ℕ → ℕ) {artifact : File (Option β) ν}
    (h : (saved artifact : Serving β ν).load ≠ none) (l : List (SavingStep β ν)) :
    (∀ p, p <+: l → (replay (exec processOf) (saved artifact) p).Served processOf) ↔
      ∀ p a, p ++ [a] <+: l → (replay (exec processOf) (saved artifact) p).LoadsComplete a := by
  have hcur : artifact.current ≠ none := by
    intro hnone
    exact h (by simp [saved, load, hnone])
  have hP := @invariant_along_iff _ _ (exec processOf) (saved artifact)
    (fun s => s.Consistent processOf ∧ ∀ i, s.call i ≠ .noModel) LoadsComplete
    ⟨consistent_saved processOf hcur, by simp [saved]⟩ ?_ l
  · rw [← hP]
    refine forall₂_congr fun p _ => ?_
    have hs := consistent_replay processOf hcur p
    rw [hs.served_iff]
    exact (and_iff_right hs).symm
  · rintro t a ⟨ht, hmodel⟩
    rw [← noModel_exec_iff ht hmodel a]
    exact and_iff_right (ht.step a)

/-- The file of one completed save. -/
def savedOnce : File (Option ℕ) ℕ := File.absent.write ⟨some 1, 10⟩ (by decide)

/-- A save is interrupted after it has opened the artifact, and a call is made. -/
def interruptedSave : List (SavingStep ℕ ℕ) :=
  [.truncate 2 20, .interrupt, .call 0, .call 0, .call 0, .call 0, .call 0]

/-- That call, and every later one of a process without an entry, returns `None`. -/
theorem interruptedSave_noModel :
    ¬ (replay (exec id) (saved savedOnce) interruptedSave).Served id := by
  intro h
  exact h.model 0 rfl

/-- A save that completes while a call is on its way. -/
def completedSave : List (SavingStep ℕ ℕ) :=
  [.call 0, .truncate 2 20, .call 0, .append 21, .call 0, .call 0, .finish 22, .call 0, .call 0,
    .call 0]

/-- That call returns the new model. -/
theorem completedSave_served :
    (replay (exec id) (saved savedOnce) completedSave).call 0 = .returned 10 2 ∧
      (replay (exec id) (saved savedOnce) completedSave).Served id := by
  refine ⟨rfl, (servedAlong_iff id (by decide) completedSave).2 ?_ _ (List.prefix_refl _)⟩
  exact along_iff.1 (by decide)

end Serving

end DelayPredictor
