import DelayPredictor.Lib.Runs

/-!
# Read-through caches

A service that answers from a cache with expiring entries, and fills it when it
has to compute an answer itself.

* `Store` — keys with values that expire; `Store.get`, `Store.set`.
* `Service` — how requests are keyed and answered, and for how long an answer is
  kept.  The data answers are computed from may change at any time.
* `Transparent` — every answer is one the service would have computed, for that
  very request, at some moment of the run not longer ago than an entry is kept.
* `holder` — the request an entry was stored for.  It depends on nothing but the
  requests and their times: it is what `echo`, the same cache with the request
  itself as the answer, keeps.
* `transparent_of_ownEntries` — **a cache is transparent when no request is given
  the entry of another one**; `transparent_iff` — for answers that repeat their
  request, that is also necessary.
-/

namespace ReadThrough

open Runs

variable {World Req κ Resp : Type*}

/-! ## Stores with expiry -/

/-- A value and the time it expires at. -/
structure Entry (ρ : Type*) where
  /-- The value. -/
  value : ρ
  /-- From this time on the entry is gone. -/
  expiresAt : ℤ

/-- A key-value store with expiry. -/
abbrev Store (κ ρ : Type*) := κ → Option (Entry ρ)

namespace Store

variable {ρ : Type*}

/-- The store without entries. -/
def empty : Store κ ρ := fun _ => none

/-- The value of an unexpired entry. -/
def get (s : Store κ ρ) (now : ℤ) (k : κ) : Option ρ :=
  ((s k).filter fun e => now < e.expiresAt).map Entry.value

/-- Set a key, to expire after `ttl`. -/
def set [DecidableEq κ] (s : Store κ ρ) (now : ℤ) (k : κ) (v : ρ) (ttl : ℤ) : Store κ ρ :=
  Function.update s k (some ⟨v, now + ttl⟩)

@[simp] theorem set_self [DecidableEq κ] (s : Store κ ρ) (now : ℤ) (k : κ) (v : ρ) (ttl : ℤ) :
    s.set now k v ttl k = some ⟨v, now + ttl⟩ := Function.update_self ..

theorem set_other [DecidableEq κ] (s : Store κ ρ) (now : ℤ) {k k' : κ} (h : k' ≠ k) (v : ρ)
    (ttl : ℤ) : s.set now k v ttl k' = s k' := Function.update_of_ne h ..

end Store

/-! ## The service -/

/-- A read-through cache over changing data. -/
structure Service (World Req κ Resp : Type*) where
  /-- The key an answer is kept under. -/
  key : Req → κ
  /-- The answer computed from the data at a time. -/
  compute : World → ℤ → Req → Resp
  /-- For how long an answer is kept. -/
  ttl : ℤ

/-- The data, the clock and the cache. -/
structure State (World κ Resp : Type*) where
  /-- The data answers are computed from. -/
  world : World
  /-- The clock. -/
  now : ℤ
  /-- The cache. -/
  store : Store κ Resp

/-- What can happen. -/
inductive Event (World Req : Type*) where
  /-- The data changes. -/
  | change (world : World)
  /-- Time passes. -/
  | wait (duration : ℕ)
  /-- A request is answered. -/
  | request (r : Req)

namespace Service

variable (S : Service World Req κ Resp)

/-- The same cache, keeping the request an answer was computed for. -/
def echo : Service World Req κ Req := { S with compute := fun _ _ r => r }

@[simp] theorem echo_key : S.echo.key = S.key := rfl

@[simp] theorem echo_ttl : S.echo.ttl = S.ttl := rfl

@[simp] theorem echo_compute (w : World) (t : ℤ) (r : Req) : S.echo.compute w t r = r := rfl

variable [DecidableEq κ]

/-- The answer a request gets. -/
def respond (s : State World κ Resp) (r : Req) : Resp :=
  (s.store.get s.now (S.key r)).getD (S.compute s.world s.now r)

/-- What an event does.  An answer that had to be computed is stored. -/
def exec (s : State World κ Resp) : Event World Req → State World κ Resp
  | .change world => { s with world }
  | .wait duration => { s with now := s.now + duration }
  | .request r =>
    match s.store.get s.now (S.key r) with
    | some _ => s
    | none =>
      { s with store := s.store.set s.now (S.key r) (S.compute s.world s.now r) S.ttl }

/-- A run from an empty cache. -/
def run (world : World) (now : ℤ) (events : List (Event World Req)) : State World κ Resp :=
  replay S.exec ⟨world, now, Store.empty⟩ events

/-- Every answer of a run is one the service would have computed for that
request at some moment of the run, at most `ttl` ago. -/
def Transparent (world : World) (now : ℤ) (events : List (Event World Req)) : Prop :=
  ∀ before r, before ++ [.request r] <+: events → ∃ past, past <+: before ∧
    (S.run world now before).now - S.ttl ≤ (S.run world now past).now ∧
    S.respond (S.run world now before) r =
      S.compute (S.run world now past).world (S.run world now past).now r

/-- The request whose answer a run keeps under a key, if there is one and it has
not expired. -/
def holder (world : World) (now : ℤ) (before : List (Event World Req)) (k : κ) : Option Req :=
  (S.echo.run world now before).store.get (S.echo.run world now before).now k

/-- No request of a run finds an entry that was stored for another request. -/
def OwnEntries (world : World) (now : ℤ) (events : List (Event World Req)) : Prop :=
  ∀ before r, before ++ [.request r] <+: events →
    ∀ r', S.holder world now before (S.key r) = some r' → r' = r

/-! ## What the entries are -/

/-- An entry and its echo: the value was computed for the echoed request at some
moment of the run, from which on it is kept for `ttl`. -/
def Explains (world : World) (now : ℤ) (before : List (Event World Req)) :
    Option (Entry Resp) → Option (Entry Req) → Prop
  | none, none => True
  | some e, some q => e.expiresAt = q.expiresAt ∧ ∃ past, past <+: before ∧
      e.expiresAt = (S.run world now past).now + S.ttl ∧
      e.value = S.compute (S.run world now past).world (S.run world now past).now q.value
  | _, _ => False

variable {S} {world : World} {now : ℤ}

theorem Explains.mono {l l' : List (Event World Req)} (hl : l <+: l') {e : Option (Entry Resp)}
    {q : Option (Entry Req)} (h : S.Explains world now l e q) : S.Explains world now l' e q := by
  cases e with
  | none => cases q with
    | none => trivial
    | some q => exact h
  | some e => cases q with
    | none => exact h
    | some q =>
      obtain ⟨hexp, past, hp, hrest⟩ := h
      exact ⟨hexp, past, hp.trans hl, hrest⟩

/-- A live entry is live in the echo, and the other way round. -/
theorem Explains.get {l : List (Event World Req)} {s : Store κ Resp} {e : Store κ Req} {k : κ}
    (h : S.Explains world now l (s k) (e k)) (t : ℤ) :
    (s.get t k = none ∧ e.get t k = none) ∨
      ∃ r', e.get t k = some r' ∧ ∃ past, past <+: l ∧ t - S.ttl ≤ (S.run world now past).now ∧
        s.get t k =
          some (S.compute (S.run world now past).world (S.run world now past).now r') := by
  unfold Store.get
  cases hs : s k with
  | none =>
    cases he : e k with
    | none => exact .inl ⟨rfl, rfl⟩
    | some q => rw [hs, he] at h; exact h.elim
  | some v =>
    cases he : e k with
    | none => rw [hs, he] at h; exact h.elim
    | some q =>
      rw [hs, he] at h
      obtain ⟨hexp, past, hp, hwhen, hval⟩ := h
      by_cases hlive : t < v.expiresAt
      · have hlive' : t < q.expiresAt := hexp ▸ hlive
        refine .inr ⟨q.value, by simp [hlive'], past, hp, by omega, by simp [hlive, hval]⟩
      · have hlive' : ¬ t < q.expiresAt := hexp ▸ hlive
        exact .inl ⟨by simpa using hlive, by simpa using hlive'⟩

/-- What a run preserves: the cache and its echo hold entries under the same
keys, and each entry is explained by its echo. -/
theorem run_explains (world : World) (now : ℤ) (events : List (Event World Req)) :
    (S.run world now events).now = (S.echo.run world now events).now ∧
      ∀ k, S.Explains world now events ((S.run world now events).store k)
        ((S.echo.run world now events).store k) := by
  induction events using List.reverseRecOn with
  | nil => exact ⟨rfl, fun _ => trivial⟩
  | append_singleton l a ih =>
    obtain ⟨hnow, hstore⟩ := ih
    have hrun : S.run world now (l ++ [a]) = S.exec (S.run world now l) a := replay_snoc _ _ l a
    have hecho : S.echo.run world now (l ++ [a]) = S.echo.exec (S.echo.run world now l) a :=
      replay_snoc _ _ l a
    have hmono := fun k => (hstore k).mono (List.prefix_append l [a])
    rw [hrun, hecho]
    cases a with
    | change w => exact ⟨hnow, hmono⟩
    | wait n => exact ⟨by simp only [exec, hnow], hmono⟩
    | request r =>
      rcases (hstore (S.key r)).get (S.run world now l).now with ⟨hs, he⟩ | ⟨r', he, past, -, -, hs⟩
      · rw [hnow] at he
        simp only [exec, hs, echo_key, he, echo_ttl, echo_compute]
        refine ⟨hnow, fun k => ?_⟩
        by_cases hk : k = S.key r
        · subst hk
          rw [Store.set_self, Store.set_self]
          exact ⟨by rw [hnow], l, List.prefix_append l _, rfl, rfl⟩
        · rw [Store.set_other _ _ hk, Store.set_other _ _ hk]
          exact hmono k
      · rw [hnow] at he
        simp only [exec, hs, echo_key, he]
        exact ⟨hnow, hmono⟩

/-- An entry is kept under the key of the request it was stored for. -/
theorem key_of_holder {before : List (Event World Req)} {k : κ} {r : Req}
    (h : S.holder world now before k = some r) : S.key r = k := by
  have hkeyed : ∀ k e, (S.echo.run world now before).store k = some e → S.key e.value = k := by
    refine replay_invariant (P := fun s : State World κ Req =>
      ∀ k e, s.store k = some e → S.key e.value = k) ?_ ?_ before
    · intro k e h
      cases h
    · intro s a ih
      cases a with
      | change w => exact ih
      | wait n => exact ih
      | request r =>
        simp only [exec, echo_key, echo_compute]
        split
        · exact ih
        · intro k e he
          by_cases hk : k = S.key r
          · subst hk
            simp only [Store.set_self, Option.some.injEq] at he
            subst he
            rfl
          · simp only [Store.set_other _ _ hk] at he
            exact ih k e he
  obtain ⟨e, he, rfl⟩ := Option.map_eq_some_iff.1 h
  exact hkeyed k e (Option.filter_eq_some_iff.1 he).1

/-! ## Transparency -/

/-- What a request gets: a new answer when nothing is kept under its key, and
otherwise the answer computed for the holder of the entry. -/
theorem respond_cases (world : World) (now : ℤ) (before : List (Event World Req)) (r : Req) :
    (S.holder world now before (S.key r) = none ∧ S.respond (S.run world now before) r =
        S.compute (S.run world now before).world (S.run world now before).now r) ∨
    ∃ r', S.holder world now before (S.key r) = some r' ∧ ∃ past, past <+: before ∧
      (S.run world now before).now - S.ttl ≤ (S.run world now past).now ∧
      S.respond (S.run world now before) r =
        S.compute (S.run world now past).world (S.run world now past).now r' := by
  obtain ⟨hnow, hstore⟩ := run_explains (S := S) world now before
  rcases (hstore (S.key r)).get (S.run world now before).now with
    ⟨hs, he⟩ | ⟨r', he, past, hp, hfresh, hs⟩
  · rw [hnow] at he
    exact .inl ⟨he, by rw [respond, hs]; rfl⟩
  · rw [hnow] at he
    exact .inr ⟨r', he, past, hp, hfresh, by rw [respond, hs]; rfl⟩

/-- **A cache is transparent when no request is given the entry of another.** -/
theorem transparent_of_ownEntries (httl : 0 ≤ S.ttl) {events : List (Event World Req)}
    (h : S.OwnEntries world now events) : S.Transparent world now events := by
  intro before r hr
  rcases respond_cases (S := S) world now before r with
    ⟨-, hresp⟩ | ⟨r', hholder, past, hp, hfresh, hresp⟩
  · exact ⟨before, List.prefix_refl _, by omega, hresp⟩
  · obtain rfl := h before r hr r' hholder
    exact ⟨past, hp, hfresh, hresp⟩

/-- **For answers that repeat their request**, that is the only way to be
transparent. -/
theorem transparent_iff (httl : 0 ≤ S.ttl)
    (hrepeat : ∀ w t r w' t' r', S.compute w t r = S.compute w' t' r' → r = r')
    (events : List (Event World Req)) :
    S.Transparent world now events ↔ S.OwnEntries world now events := by
  refine ⟨fun h before r hr r' hr' => ?_, transparent_of_ownEntries httl⟩
  obtain ⟨past, -, -, hresp⟩ := h before r hr
  rcases respond_cases (S := S) world now before r with ⟨hnone, -⟩ | ⟨q, hq, past', -, -, hresp'⟩
  · rw [hnone] at hr'
    cases hr'
  · rw [hq] at hr'
    cases hr'
    exact hrepeat _ _ _ _ _ _ (hresp'.symm.trans hresp)

end Service

end ReadThrough
