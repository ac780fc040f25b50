import DelayPredictor.Lib.ReadThrough

/-!
# Concurrent calls of a read-through cache

Calls that look their key up, compute an answer when nothing is there, and store it.  Each
of these is a step of its own, and the steps of several calls, the changes of the data and
the passing of time come in any order.

* `Reading` — a computation that reads the clock and the data, one after the other.
* `CachedCalls` — the service; `CachedCalls.exec` — what an event does.
* `ownMoments` — the moments at which a call takes its steps, in order.
* `Produced` — an answer that one call computed, each of its reads at its own next step, and
  stored at a certain time.
* `explained_run` — **every answer of a run was produced by a call with the same key**, and
  stored not longer ago than an entry is kept.
* `exists_uninterrupted` — a call that is left alone does what `CachedCalls.atomic` says.
-/

namespace ConcurrentCalls

open ReadThrough Runs

variable {World Req κ Resp ι : Type*}

/-! ## Computations that read -/

/-- The data and the clock at a moment. -/
structure Moment (World : Type*) where
  world : World
  now : ℤ

/-- A computation that reads one thing at a time. -/
inductive Reading (World Resp : Type*) where
  /-- It is done. -/
  | ret (x : Resp)
  /-- It reads the clock. -/
  | clock (next : ℤ → Reading World Resp)
  /-- It runs a statement. -/
  | query (next : World → Reading World Resp)

namespace Reading

/-- What is left to do after the next read, if there is one. -/
def read (m : Moment World) : Reading World Resp → Option (Reading World Resp)
  | ret _ => none
  | clock next => some (next m.now)
  | query next => some (next m.world)

/-- What is left to do after a read at each of some moments, if there are so many. -/
def after (c : Reading World Resp) (ms : List (Moment World)) : Option (Reading World Resp) :=
  ms.foldlM (fun c m => c.read m) c

/-- The answer when every read is at the same moment. -/
def run (m : Moment World) : Reading World Resp → Resp
  | ret x => x
  | clock next => (next m.now).run m
  | query next => (next m.world).run m

@[simp] theorem after_nil (c : Reading World Resp) : c.after [] = some c := rfl

@[simp] theorem after_ret_cons (x : Resp) (m : Moment World) (ms : List (Moment World)) :
    (ret x : Reading World Resp).after (m :: ms) = none := rfl

@[simp] theorem after_clock_cons (next : ℤ → Reading World Resp) (m : Moment World)
    (ms : List (Moment World)) : (clock next).after (m :: ms) = (next m.now).after ms := rfl

@[simp] theorem after_query_cons (next : World → Reading World Resp) (m : Moment World)
    (ms : List (Moment World)) : (query next).after (m :: ms) = (next m.world).after ms := rfl

theorem after_snoc (c : Reading World Resp) (ms : List (Moment World)) (m : Moment World) :
    c.after (ms ++ [m]) = (c.after ms).bind fun rest => rest.read m := by
  simp [after, List.foldlM_append]

end Reading

/-! ## The service -/

/-- A read-through cache whose answers are computed by reading. -/
structure CachedCalls (World Req κ Resp : Type*) where
  /-- The key an answer is kept under. -/
  key : Req → κ
  /-- How an answer is computed. -/
  body : Req → Reading World Resp
  /-- For how long an answer is kept. -/
  ttl : ℤ
  /-- Answers are kept for a while. -/
  ttl_pos : 0 < ttl

/-- How far a call is. -/
inductive Call (World Req Resp : Type*) where
  /-- It is about to look its key up. -/
  | asked (r : Req)
  /-- It found nothing and is computing, or about to store what it computed. -/
  | reading (r : Req) (rest : Reading World Resp)
  /-- It was answered at a time. -/
  | answered (r : Req) (x : Resp) (time : ℤ)

/-- The data, the clock, the cache and the calls. -/
structure State (World Req κ Resp ι : Type*) where
  moment : Moment World
  store : Store κ Resp
  calls : ι → Option (Call World Req Resp)

/-- What can happen. -/
inductive Event (World Req ι : Type*) where
  /-- The data changes. -/
  | change (world : World)
  /-- Time passes. -/
  | wait (duration : ℕ)
  /-- A call begins. -/
  | call (i : ι) (r : Req)
  /-- A call takes its next step. -/
  | step (i : ι)

/-- What an event does to the data and the clock. -/
def tick (m : Moment World) : Event World Req ι → Moment World
  | .change world => { m with world }
  | .wait duration => { m with now := m.now + duration }
  | .call _ _ => m
  | .step _ => m

section OwnMoments

variable [DecidableEq ι]

/-- The event is a step of the call. -/
def Event.isStep (i : ι) : Event World Req ι → Bool
  | .step j => j = i
  | _ => false

/-- The moments at which a call takes its steps. -/
def ownMoments (i : ι) (m : Moment World) : List (Event World Req ι) → List (Moment World)
  | [] => []
  | e :: es =>
    if e.isStep i then m :: ownMoments i (tick m e) es else ownMoments i (tick m e) es

theorem ownMoments_snoc (i : ι) (m : Moment World) (es : List (Event World Req ι))
    (e : Event World Req ι) :
    ownMoments i m (es ++ [e]) =
      ownMoments i m es ++ if e.isStep i then [replay tick m es] else [] := by
  induction es generalizing m with
  | nil => rfl
  | cons a es ih =>
    rw [List.cons_append, ownMoments, ownMoments, ih, replay_cons]
    split <;> rfl

/-- The steps of other calls are at other moments. -/
theorem ownMoments_snoc_other {i : ι} {e : Event World Req ι} (h : e.isStep i = false)
    (m : Moment World) (es : List (Event World Req ι)) :
    ownMoments i m (es ++ [e]) = ownMoments i m es := by
  rw [ownMoments_snoc, h]
  simp

theorem ownMoments_snoc_step (i : ι) (m : Moment World) (es : List (Event World Req ι)) :
    ownMoments i m (es ++ [.step i]) = ownMoments i m es ++ [replay tick m es] := by
  rw [ownMoments_snoc]
  simp [Event.isStep]

/-- While the data does not change it is the same at every moment. -/
theorem world_of_mem_ownMoments {i : ι} {m m' : Moment World} {es : List (Event World Req ι)}
    (hquiet : ∀ world, .change world ∉ es) (h : m' ∈ ownMoments i m es) :
    m'.world = m.world := by
  induction es generalizing m with
  | nil => cases h
  | cons e es ih =>
    have htick : (tick m e).world = m.world := by
      cases e with
      | change world => exact absurd (List.mem_cons_self ..) (hquiet world)
      | _ => rfl
    have hrest : m' ∈ ownMoments i (tick m e) es → m'.world = m.world := by
      intro h
      rw [ih (fun world hw => hquiet world (List.mem_cons_of_mem e hw)) h, htick]
    rw [ownMoments] at h
    split at h
    · rcases List.mem_cons.1 h with rfl | h
      · rfl
      · exact hrest h
    · exact hrest h

end OwnMoments

/-- The clock does not go back. -/
theorem now_le_replay (m : Moment World) (es : List (Event World Req ι)) :
    m.now ≤ (replay tick m es).now := by
  induction es using List.reverseRecOn with
  | nil => exact le_refl _
  | append_singleton es e ih =>
    rw [replay_snoc]
    cases e with
    | wait duration => exact ih.trans (le_add_of_nonneg_right (Int.natCast_nonneg _))
    | _ => exact ih

namespace CachedCalls

variable (S : CachedCalls World Req κ Resp)

section Exec

variable [DecidableEq κ] [DecidableEq ι]

/-- The next step of a call. -/
def advance (s : State World Req κ Resp ι) (i : ι) :
    Call World Req Resp → State World Req κ Resp ι
  | .asked r =>
    match s.store.get s.moment.now (S.key r) with
    | some x => { s with calls := Function.update s.calls i (some (.answered r x s.moment.now)) }
    | none => { s with calls := Function.update s.calls i (some (.reading r (S.body r))) }
  | .reading r (.ret x) =>
    { s with
      store := s.store.set s.moment.now (S.key r) x S.ttl
      calls := Function.update s.calls i (some (.answered r x s.moment.now)) }
  | .reading r (.clock next) =>
    { s with calls := Function.update s.calls i (some (.reading r (next s.moment.now))) }
  | .reading r (.query next) =>
    { s with calls := Function.update s.calls i (some (.reading r (next s.moment.world))) }
  | .answered _ _ _ => s

/-- What an event does.  A name is used for one call. -/
def exec (s : State World Req κ Resp ι) (e : Event World Req ι) : State World Req κ Resp ι :=
  match e with
  | .change _ => { s with moment := tick s.moment e }
  | .wait _ => { s with moment := tick s.moment e }
  | .call i r =>
    match s.calls i with
    | none => { s with calls := Function.update s.calls i (some (.asked r)) }
    | some _ => s
  | .step i =>
    match s.calls i with
    | none => s
    | some c => S.advance s i c

/-- A run from an empty cache, without calls. -/
def run (m : Moment World) (events : List (Event World Req ι)) : State World Req κ Resp ι :=
  replay S.exec ⟨m, Store.empty, fun _ => none⟩ events

end Exec

/-! ## Where answers come from -/

section Explained

variable [DecidableEq ι]

/-- The call `i` begins with a request here, and has taken its steps at some moments since. -/
def Running (m : Moment World) (events : List (Event World Req ι)) (i : ι) (r : Req)
    (steps : List (Moment World)) : Prop :=
  ∃ before during, events = before ++ .call i r :: during ∧ (∀ r', .call i r' ∉ before) ∧
    ownMoments i (replay tick m before) during = steps

/-- In a run, a call with the key `k` looked the key up, computed `x` in its next steps, a read
in each, and stored it in the step after those, at a time. -/
def Produced (m : Moment World) (events : List (Event World Req ι)) (k : κ) (x : Resp)
    (time : ℤ) : Prop :=
  ∃ past i r lookup ms, past ++ [.step i] <+: events ∧ S.key r = k ∧
    Running m past i r (lookup :: ms) ∧ (S.body r).after ms = some (.ret x) ∧
    (replay tick m past).now = time

/-- What a run has to say about a call. -/
def Explained (m : Moment World) (events : List (Event World Req ι)) (i : ι) :
    Call World Req Resp → Prop
  | .asked r => Running m events i r []
  | .reading r rest => ∃ lookup ms, Running m events i r (lookup :: ms) ∧
      (S.body r).after ms = some rest
  | .answered r x time => ∃ stored ∈ Set.Icc (time - S.ttl) time,
      S.Produced m events (S.key r) x stored

/-- What a run has to say about an entry. -/
def Kept (m : Moment World) (events : List (Event World Req ι)) (k : κ) (e : Entry Resp) : Prop :=
  e.expiresAt - S.ttl ≤ (replay tick m events).now ∧
    S.Produced m events k e.value (e.expiresAt - S.ttl)

variable {S} {m : Moment World} {l l' : List (Event World Req ι)} {i : ι}

/-- A call takes a step. -/
theorem Running.step {r : Req} {steps : List (Moment World)} (h : Running m l i r steps) :
    Running m (l ++ [.step i]) i r (steps ++ [replay tick m l]) := by
  obtain ⟨before, during, rfl, hfresh, rfl⟩ := h
  refine ⟨before, during ++ [.step i], by simp, hfresh, ?_⟩
  rw [ownMoments_snoc_step, replay_append, replay_cons]
  rfl

/-- Something else happens. -/
theorem Running.other {r : Req} {steps : List (Moment World)} (h : Running m l i r steps)
    {e : Event World Req ι} (he : e.isStep i = false) : Running m (l ++ [e]) i r steps := by
  obtain ⟨before, during, rfl, hfresh, rfl⟩ := h
  exact ⟨before, during ++ [e], by simp, hfresh, ownMoments_snoc_other he _ _⟩

theorem Produced.mono (hl : l <+: l') {k : κ} {x : Resp} {time : ℤ}
    (h : S.Produced m l k x time) : S.Produced m l' k x time := by
  obtain ⟨past, i, r, lookup, ms, hpast, hrest⟩ := h
  exact ⟨past, i, r, lookup, ms, hpast.trans hl, hrest⟩

/-- What others do leaves true what is said about a call. -/
theorem Explained.other {c : Call World Req Resp} (h : S.Explained m l i c)
    {e : Event World Req ι} (he : e.isStep i = false) : S.Explained m (l ++ [e]) i c := by
  cases c with
  | asked r => exact Running.other h he
  | reading r rest =>
    obtain ⟨lookup, ms, hrunning, hrest⟩ := h
    exact ⟨lookup, ms, hrunning.other he, hrest⟩
  | answered r x time =>
    obtain ⟨stored, htime, hproduced⟩ := h
    exact ⟨stored, htime, hproduced.mono (List.prefix_append l [e])⟩

/-- Whatever happens next, what is said about an entry remains true of it. -/
theorem Kept.snoc {k : κ} {e : Entry Resp} (h : S.Kept m l k e) (a : Event World Req ι) :
    S.Kept m (l ++ [a]) k e := by
  refine ⟨h.1.trans ?_, h.2.mono (List.prefix_append l [a])⟩
  rw [replay_append]
  exact now_le_replay _ [a]

/-- The next step of a call, from what is said about it. -/
theorem Explained.read {r : Req} {rest rest' : Reading World Resp}
    (h : S.Explained m l i (.reading r rest)) (hread : rest.read (replay tick m l) = some rest') :
    S.Explained m (l ++ [.step i]) i (.reading r rest') := by
  obtain ⟨lookup, ms, hrunning, hrest⟩ := h
  refine ⟨lookup, ms ++ [replay tick m l], hrunning.step, ?_⟩
  rw [Reading.after_snoc, hrest]
  exact hread

/-- An answer that has been computed is stored in the next step. -/
theorem Explained.produced {r : Req} {x : Resp} (h : S.Explained m l i (.reading r (.ret x))) :
    S.Produced m (l ++ [.step i]) (S.key r) x (replay tick m l).now := by
  obtain ⟨lookup, ms, hrunning, hrest⟩ := h
  exact ⟨l, i, r, lookup, ms, List.prefix_refl _, rfl, hrunning, hrest, rfl⟩

/-- An entry that is found. -/
theorem Kept.found {r : Req} {e : Entry Resp} (h : S.Kept m l (S.key r) e)
    (hlive : (replay tick m l).now < e.expiresAt) :
    S.Explained m l i (.answered r e.value (replay tick m l).now) :=
  ⟨_, ⟨by linarith, h.1⟩, h.2⟩

/-- What a run has to say about its state. -/
structure ExplainedState (S : CachedCalls World Req κ Resp) (m : Moment World)
    (l : List (Event World Req ι)) (s : State World Req κ Resp ι) : Prop where
  moment : s.moment = replay tick m l
  kept : ∀ k e, s.store k = some e → S.Kept m l k e
  calls : ∀ i c, s.calls i = some c → S.Explained m l i c
  /-- A name that is not in use was not used. -/
  unused : ∀ i, s.calls i = none → ∀ r, .call i r ∉ l

/-- The entries that an event leaves alone. -/
theorem ExplainedState.kept_snoc {s : State World Req κ Resp ι} (h : ExplainedState S m l s)
    (e : Event World Req ι) :
    ∀ k entry, s.store k = some entry → S.Kept m (l ++ [e]) k entry :=
  fun k entry hk => (h.kept k entry hk).snoc e

/-- The names that are not in use after an event that begins no call. -/
theorem ExplainedState.unused_snoc {s : State World Req κ Resp ι} (h : ExplainedState S m l s)
    {e : Event World Req ι} (he : ∀ i r, e ≠ .call i r) :
    ∀ i, s.calls i = none → ∀ r, .call i r ∉ l ++ [e] := by
  intro i hi r hr
  rcases List.mem_append.1 hr with hr | hr
  · exact h.unused i hi r hr
  · exact he i r (List.mem_singleton.1 hr).symm

/-- One call is updated, and the event is no step of the others. -/
theorem ExplainedState.update {s : State World Req κ Resp ι} (h : ExplainedState S m l s)
    {e : Event World Req ι} (he : ∀ j, j ≠ i → e.isStep j = false) {c : Call World Req Resp}
    (hi : S.Explained m (l ++ [e]) i c) :
    ∀ j d, Function.update s.calls i (some c) j = some d → S.Explained m (l ++ [e]) j d := by
  intro j d hd
  by_cases hj : j = i
  · subst hj
    rw [Function.update_self, Option.some.injEq] at hd
    exact hd ▸ hi
  · rw [Function.update_of_ne hj] at hd
    exact (h.calls j d hd).other (he j hj)

theorem isStep_step_of_ne {i j : ι} (h : j ≠ i) :
    (Event.step i : Event World Req ι).isStep j = false := by
  simpa [Event.isStep] using h.symm

/-- The names not in use after a step of a call. -/
theorem ExplainedState.unused_update {s : State World Req κ Resp ι} (h : ExplainedState S m l s)
    (c : Call World Req Resp) :
    ∀ j, Function.update s.calls i (some c) j = none → ∀ r, .call j r ∉ l ++ [.step i] := by
  intro j hj
  have hne : j ≠ i := by
    rintro rfl
    simp at hj
  rw [Function.update_of_ne hne] at hj
  exact h.unused_snoc (fun _ _ h => by cases h) j hj

variable [DecidableEq κ]

/-- **What one step of a call preserves.** -/
theorem ExplainedState.advance {s : State World Req κ Resp ι} (h : ExplainedState S m l s)
    {c : Call World Req Resp} (hc : s.calls i = some c) :
    ExplainedState S m (l ++ [.step i]) (S.advance s i c) := by
  have hkept := h.kept_snoc (.step i)
  have hmoment : s.moment = replay tick m (l ++ [.step i]) := by
    rw [h.moment, replay_snoc]
    rfl
  have hexplained := h.calls i c hc
  have hother : ∀ j, j ≠ i → (Event.step i : Event World Req ι).isStep j = false :=
    fun j hj => isStep_step_of_ne hj
  cases c with
  | asked r =>
    unfold CachedCalls.advance
    dsimp only
    cases hget : s.store.get s.moment.now (S.key r) with
    | none =>
      refine ⟨hmoment, hkept, h.update hother ?_, h.unused_update _⟩
      exact ⟨_, [], Running.step hexplained, rfl⟩
    | some x =>
      refine ⟨hmoment, hkept, h.update hother ?_, h.unused_update _⟩
      obtain ⟨e, he, rfl⟩ := Option.map_eq_some_iff.1 hget
      obtain ⟨hentry, hlive⟩ := Option.filter_eq_some_iff.1 he
      rw [hmoment] at hlive ⊢
      exact (hkept _ e hentry).found (of_decide_eq_true hlive)
  | reading r rest =>
    cases rest with
    | ret x =>
      have hproduced := hexplained.produced
      have hnow : (replay tick m l).now = (replay tick m (l ++ [.step i])).now := by
        rw [← h.moment, hmoment]
      refine ⟨hmoment, ?_, h.update hother ?_, h.unused_update _⟩
      · intro k e he
        replace he : s.store.set s.moment.now (S.key r) x S.ttl k = some e := he
        by_cases hk : k = S.key r
        · subst hk
          rw [Store.set_self, Option.some.injEq, h.moment] at he
          subst he
          exact ⟨by simp [hnow], by simpa using hproduced⟩
        · rw [Store.set_other _ _ hk] at he
          exact hkept k e he
      · rw [h.moment]
        exact ⟨_, ⟨by linarith [S.ttl_pos], le_refl _⟩, hproduced⟩
    | clock next =>
      refine ⟨hmoment, hkept, h.update hother ?_, h.unused_update _⟩
      rw [h.moment]
      exact hexplained.read rfl
    | query next =>
      refine ⟨hmoment, hkept, h.update hother ?_, h.unused_update _⟩
      rw [h.moment]
      exact hexplained.read rfl
  | answered r x time =>
    refine ⟨hmoment, hkept, ?_, h.unused_snoc fun _ _ h => by cases h⟩
    intro j d hd
    replace hd : s.calls j = some d := hd
    by_cases hj : j = i
    · subst hj
      rw [hc, Option.some.injEq] at hd
      subst hd
      obtain ⟨stored, htime, hproduced⟩ := hexplained
      exact ⟨stored, htime, hproduced.mono (List.prefix_append l _)⟩
    · exact (h.calls j d hd).other (hother j hj)

/-- **What a run preserves.** -/
theorem explained_run (S : CachedCalls World Req κ Resp) (m : Moment World)
    (l : List (Event World Req ι)) : ExplainedState S m l (S.run m l) := by
  refine replay_history (P := fun l s => ExplainedState S m l s) ?_ (fun l e ih => ?_) l
  · exact ⟨rfl, (fun k e h => by cases h), (fun i c h => by cases h), fun i _ r h => by cases h⟩
  · have hkept := ih.kept_snoc e
    have hmoment : tick (replay S.exec ⟨m, Store.empty, fun _ => none⟩ l).moment e =
        replay tick m (l ++ [e]) := by
      rw [ih.moment, replay_snoc]
    cases e with
    | change world =>
      exact ⟨hmoment, hkept, fun j d hd => (ih.calls j d hd).other rfl,
        ih.unused_snoc fun _ _ h => by cases h⟩
    | wait duration =>
      exact ⟨hmoment, hkept, fun j d hd => (ih.calls j d hd).other rfl,
        ih.unused_snoc fun _ _ h => by cases h⟩
    | call i r =>
      simp only [exec]
      split
      · rename_i hnone
        refine ⟨hmoment, hkept, ih.update (fun _ _ => rfl) ?_, ?_⟩
        · exact ⟨l, [], rfl, ih.unused i hnone, rfl⟩
        · intro j hj r' hr'
          have hne : j ≠ i := by
            rintro rfl
            simp at hj
          rcases List.mem_append.1 hr' with hr' | hr'
          · exact ih.unused j ((Function.update_of_ne hne _ _).symm.trans hj) r' hr'
          · cases List.mem_singleton.1 hr'
            exact hne rfl
      · rename_i c hc
        refine ⟨hmoment, hkept, fun j d hd => (ih.calls j d hd).other rfl, ?_⟩
        intro j hj r' hr'
        rcases List.mem_append.1 hr' with hr' | hr'
        · exact ih.unused j hj r' hr'
        · cases List.mem_singleton.1 hr'
          rw [hc] at hj
          cases hj
    | step i =>
      simp only [exec]
      split
      · rename_i hnone
        refine ⟨hmoment, hkept, ?_, ih.unused_snoc fun _ _ h => by cases h⟩
        intro j d hd
        refine (ih.calls j d hd).other (isStep_step_of_ne ?_)
        rintro rfl
        rw [hnone] at hd
        cases hd
      · rename_i c hc
        exact ih.advance hc

end Explained

/-! ## Calls that are left alone -/

variable [DecidableEq κ] [DecidableEq ι] {S} {i : ι}

variable (S) in
/-- A call in one step: the answer, and the cache afterwards. -/
def atomic (s : State World Req κ Resp ι) (r : Req) : Resp × Store κ Resp :=
  match s.store.get s.moment.now (S.key r) with
  | some x => (x, s.store)
  | none =>
    let x := (S.body r).run s.moment
    (x, s.store.set s.moment.now (S.key r) x S.ttl)

theorem exec_step {s : State World Req κ Resp ι} {c : Call World Req Resp}
    (h : s.calls i = some c) : S.exec s (.step i) = S.advance s i c := by
  simp only [exec, h]

/-- A computation that is left alone comes to its answer. -/
theorem exists_computed {s : State World Req κ Resp ι} {r : Req} {rest : Reading World Resp}
    (h : s.calls i = some (.reading r rest)) :
    ∃ n, replay S.exec s (List.replicate n (.step i)) =
      { s with
        store := s.store.set s.moment.now (S.key r) (rest.run s.moment) S.ttl
        calls := Function.update s.calls i
          (some (.answered r (rest.run s.moment) s.moment.now)) } := by
  induction rest generalizing s with
  | ret x => exact ⟨1, exec_step h⟩
  | clock next ih =>
    obtain ⟨n, hn⟩ := ih s.moment.now
      (s := { s with
        calls := Function.update s.calls i (some (.reading r (next s.moment.now))) })
      (Function.update_self ..)
    refine ⟨n + 1, ?_⟩
    rw [List.replicate_succ, replay_cons, exec_step h]
    simp only [Function.update_idem] at hn
    exact hn
  | query next ih =>
    obtain ⟨n, hn⟩ := ih s.moment.world
      (s := { s with
        calls := Function.update s.calls i (some (.reading r (next s.moment.world))) })
      (Function.update_self ..)
    refine ⟨n + 1, ?_⟩
    rw [List.replicate_succ, replay_cons, exec_step h]
    simp only [Function.update_idem] at hn
    exact hn

/-- **A call that is left alone** is answered as in one step. -/
theorem exists_uninterrupted {s : State World Req κ Resp ι} {r : Req}
    (h : s.calls i = some (.asked r)) :
    ∃ n, replay S.exec s (List.replicate n (.step i)) =
      { s with
        store := (S.atomic s r).2
        calls := Function.update s.calls i
          (some (.answered r (S.atomic s r).1 s.moment.now)) } := by
  unfold atomic
  cases hget : s.store.get s.moment.now (S.key r) with
  | some x =>
    refine ⟨1, ?_⟩
    show S.exec s (.step i) = _
    rw [exec_step h, CachedCalls.advance]
    simp only [hget]
  | none =>
    obtain ⟨n, hn⟩ := exists_computed (S := S) (i := i) (r := r)
      (s := { s with calls := Function.update s.calls i (some (.reading r (S.body r))) })
      (Function.update_self ..)
    refine ⟨n + 1, ?_⟩
    rw [List.replicate_succ, replay_cons, exec_step h, CachedCalls.advance]
    simp only [hget]
    simpa only [Function.update_idem] using hn

end CachedCalls

end ConcurrentCalls
