import DelayPredictor.Lib.Traces

/-!
# Transactions that overlap

Workers that run transactions side by side.  A transaction sends its statements one by one;
each finds what is committed when it is sent.  When the transaction commits, it writes what
it made of that, and others may have committed in between.

* `Phases` — the parts of the transactions, and which of them get in each other's way;
  `Phases.exec` — a transaction that nobody interrupts.
* `Machine`, `Machine.step` — the state, and what each worker is about to write.
* `replay_eq_of_sameOrder` — **only the order of conflicting events matters**;
  `replay_eq_serial` — so a schedule leads where a serial one leads that has the same
  order of conflicting events.
* `view_commitOrder` — **what is written without an early read** is what the transactions
  make of it one by one, in the order in which they commit, whatever the schedule.
-/

namespace Snapshots

open Runs Traces

variable {σ α π κ : Type*}

/-! ## Statements -/

/-- Transactions of one or more statements. -/
structure Phases (σ α π κ : Type*) where
  /-- What a transaction is going to write, as far as its first statement tells. -/
  prepare : α → σ → π
  /-- What the next statement adds to that. -/
  advance : π → σ → π
  /-- How many statements come after the first one. -/
  later : κ → ℕ
  /-- The write. -/
  land : π → σ → σ
  taskKind : α → κ
  kind : π → κ
  /-- What a write takes for granted. -/
  Ready : π → σ → Prop
  /-- The first statement of the first kind reads what the second kind writes. -/
  Overtakes : κ → κ → Prop
  /-- A later statement of the first kind does. -/
  Rereads : κ → κ → Prop
  /-- It matters in which order the two are written. -/
  Overwrites : κ → κ → Prop
  kind_prepare : ∀ a s, kind (prepare a s) = taskKind a
  kind_advance : ∀ p s, kind (advance p s) = kind p
  ready_prepare : ∀ a s, Ready (prepare a s) s
  ready_advance : ∀ p s, Ready p s → Ready (advance p s) s
  ready_land : ∀ p q s, Ready p s → Ready q s → Ready p (land q s)
  prepare_land : ∀ a q s, Ready q s → ¬ Overtakes (taskKind a) (kind q) →
    prepare a (land q s) = prepare a s
  advance_land : ∀ p q s, Ready q s → ¬ Rereads (kind p) (kind q) →
    advance p (land q s) = advance p s
  land_comm : ∀ p q s, Ready p s → Ready q s → ¬ Overwrites (kind p) (kind q) →
    land p (land q s) = land q (land p s)

/-- What happens to a worker. -/
inductive Event (α κ : Type*) where
  | start (worker : ℕ) (task : α)
  /-- Its transaction, which is of this kind, sends its next statement. -/
  | send (worker : ℕ) (kind : κ)
  /-- Its transaction, which is of this kind, commits. -/
  | commit (worker : ℕ) (kind : κ)
  /-- Its transaction is rolled back, or the worker is lost. -/
  | abort (worker : ℕ)

/-- As much of an event as decides what it conflicts with. -/
inductive Label (κ : Type*) where
  | start (worker : ℕ) (kind : κ)
  | send (worker : ℕ) (kind : κ)
  | commit (worker : ℕ) (kind : κ)
  | abort (worker : ℕ)
  deriving DecidableEq

def Label.worker : Label κ → ℕ
  | .start n _ => n
  | .send n _ => n
  | .commit n _ => n
  | .abort n => n

/-- A transaction under way, and the statements it has yet to send. -/
structure Underway (β : Type*) where
  content : β
  left : ℕ

namespace Underway

variable {β : Type*} [DecidableEq κ] (kind : β → κ) (k : κ)

/-- A transaction of the kind sends its next statement, if it has one. -/
def sent (advance : β → β) (u : Underway β) : Underway β :=
  if kind u.content = k ∧ u.left ≠ 0 then ⟨advance u.content, u.left - 1⟩ else u

/-- The transaction is of the kind and has sent all its statements. -/
def Commits (u : Underway β) : Prop := kind u.content = k ∧ u.left = 0

instance (u : Underway β) : Decidable (u.Commits kind k) := inferInstanceAs (Decidable (_ ∧ _))

end Underway

namespace Phases

variable (P : Phases σ α π κ)

/-- What a transaction is going to write, if nobody interrupts it. -/
def prepared (a : α) (s : σ) : π := (P.advance · s)^[P.later (P.taskKind a)] (P.prepare a s)

theorem kind_prepared (a : α) (s : σ) : P.kind (P.prepared a s) = P.taskKind a := by
  unfold prepared
  induction P.later (P.taskKind a) with
  | zero => exact P.kind_prepare a s
  | succ l ih => rw [Function.iterate_succ_apply', P.kind_advance, ih]

/-- The whole transaction at once. -/
def exec (s : σ) (a : α) : σ := P.land (P.prepared a s) s

/-- The label of an event. -/
def label : Event α κ → Label κ
  | .start n a => .start n (P.taskKind a)
  | .send n k => .send n k
  | .commit n k => .commit n k
  | .abort n => .abort n

/-- Of two kinds of transaction, these events are not to be exchanged. -/
def Clash : Label κ → Label κ → Prop
  | .start _ j, .commit _ k => P.Overtakes j k
  | .send _ j, .commit _ k => P.Rereads j k
  | .commit _ j, .commit _ k => P.Overwrites j k
  | _, _ => False

/-- Events of one worker, or events that clash. -/
def Conflicts (a b : Label κ) : Prop := a.worker = b.worker ∨ P.Clash a b ∨ P.Clash b a

theorem conflicts_refl (a : Label κ) : P.Conflicts a a := .inl rfl

theorem conflicts_symm {a b : Label κ} (h : P.Conflicts a b) : P.Conflicts b a :=
  h.imp Eq.symm Or.symm

section NotConflicts

variable {P} {n m : ℕ} {j k : κ}

theorem not_conflicts_of_not_clash {a b : Label κ} (hworker : a.worker ≠ b.worker)
    (hab : ¬ P.Clash a b) (hba : ¬ P.Clash b a) : ¬ P.Conflicts a b := by
  rintro (h | h | h)
  · exact hworker h
  · exact hab h
  · exact hba h

variable (hnm : n ≠ m)
include hnm

theorem not_conflicts_starts : ¬ P.Conflicts (.start n j) (.start m k) :=
  not_conflicts_of_not_clash hnm id id

theorem not_conflicts_start_send : ¬ P.Conflicts (.start n j) (.send m k) :=
  not_conflicts_of_not_clash hnm id id

theorem not_conflicts_start_commit (hjk : ¬ P.Overtakes j k) :
    ¬ P.Conflicts (.start n j) (.commit m k) :=
  not_conflicts_of_not_clash hnm hjk id

theorem not_conflicts_send_commit (hjk : ¬ P.Rereads j k) :
    ¬ P.Conflicts (.send n j) (.commit m k) :=
  not_conflicts_of_not_clash hnm hjk id

theorem not_conflicts_commits (hjk : ¬ P.Overwrites j k) (hkj : ¬ P.Overwrites k j) :
    ¬ P.Conflicts (.commit n j) (.commit m k) :=
  not_conflicts_of_not_clash hnm hjk hkj

end NotConflicts

variable [DecidableEq κ]

/-- The state after an event, by what its worker has under way. -/
def stateAfter (started : Option (Underway π)) (s : σ) : Event α κ → σ
  | .commit _ k =>
    match started with
    | some u => if u.Commits P.kind k then P.land u.content s else s
    | none => s
  | _ => s

/-- What its worker has under way then.  A worker that is busy starts nothing else. -/
def startedAfter (started : Option (Underway π)) (s : σ) : Event α κ → Option (Underway π)
  | .start _ a => started.or (some ⟨P.prepare a s, P.later (P.taskKind a)⟩)
  | .send _ k => started.map (Underway.sent P.kind k (P.advance · s))
  | .commit _ k => started.filter fun u => ¬ u.Commits P.kind k
  | .abort _ => none

end Phases

/-! ## The machine -/

def Event.worker : Event α κ → ℕ
  | .start n _ => n
  | .send n _ => n
  | .commit n _ => n
  | .abort n => n

/-- The state, and what each worker has under way; what its write takes for granted holds. -/
structure Machine (P : Phases σ α π κ) where
  state : σ
  started : ℕ → Option (Underway π)
  ready : ∀ n u, started n = some u → P.Ready u.content state

variable {P : Phases σ α π κ}

@[ext] theorem Machine.ext {m m' : Machine P} (hstate : m.state = m'.state)
    (hstarted : m.started = m'.started) : m = m' := by
  cases m
  cases m'
  cases hstate
  cases hstarted
  rfl

/-- Nobody is at work. -/
def Machine.idle (P : Phases σ α π κ) (s : σ) : Machine P where
  state := s
  started := fun _ => none
  ready := fun _ _ h => by cases h

variable [DecidableEq κ]

/-- An event leaves the state alone, or it is a commit. -/
theorem stateAfter_cases (started : Option (Underway π)) (e : Event α κ) :
    (∀ s, P.stateAfter started s e = s) ∨
      ∃ u n, started = some u ∧ e = .commit n (P.kind u.content) ∧
        ∀ s, P.stateAfter started s e = P.land u.content s := by
  cases e with
  | commit n k =>
    cases started with
    | none => exact .inl fun _ => rfl
    | some u =>
      by_cases h : u.Commits P.kind k
      · refine .inr ⟨u, n, rfl, ?_, fun s => if_pos h⟩
        rw [h.1]
      · exact .inl fun s => if_neg h
  | _ => exact .inl fun _ => rfl

/-- What is ready to be written stays so whatever happens to any worker. -/
theorem ready_stateAfter {p : π} {started : Option (Underway π)} {s : σ} (hp : P.Ready p s)
    (hstarted : ∀ u, started = some u → P.Ready u.content s) (e : Event α κ) :
    P.Ready p (P.stateAfter started s e) := by
  rcases stateAfter_cases started e with he | ⟨u, n, hu, -, he⟩
  · rwa [he]
  · rw [he]
    exact P.ready_land p u.content s hp (hstarted u hu)

/-- A statement that is sent, or none, adds to what is ready. -/
theorem ready_sent {u : Underway π} {s : σ} (h : P.Ready u.content s) (k : κ) :
    P.Ready (u.sent P.kind k (P.advance · s)).content s := by
  unfold Underway.sent
  split
  · exact P.ready_advance u.content s h
  · exact h

/-- What the worker of an event has under way then is ready. -/
theorem ready_startedAfter {u : Underway π} {started : Option (Underway π)} {s : σ}
    (hstarted : ∀ u, started = some u → P.Ready u.content s) {e : Event α κ}
    (h : P.startedAfter started s e = some u) :
    P.Ready u.content (P.stateAfter started s e) := by
  cases e with
  | start n a =>
    cases started with
    | none =>
      obtain rfl := Option.some.inj h
      exact P.ready_prepare a s
    | some v =>
      obtain rfl := Option.some.inj h
      exact hstarted v rfl
  | send n k =>
    obtain ⟨v, hv, rfl⟩ := Option.map_eq_some_iff.1 h
    exact ready_sent (hstarted v hv) k
  | commit n k =>
    exact ready_stateAfter (hstarted u (Option.eq_some_of_filter_eq_some h)) hstarted _
  | abort n => cases h

/-- An event happens. -/
def Machine.step (m : Machine P) (e : Event α κ) : Machine P where
  state := P.stateAfter (m.started e.worker) m.state e
  started := Function.update m.started e.worker
    (P.startedAfter (m.started e.worker) m.state e)
  ready := by
    intro n u h
    have hready := m.ready
    by_cases hn : n = e.worker
    · subst hn
      rw [Function.update_self] at h
      exact ready_startedAfter (hready _) h
    · rw [Function.update_of_ne hn] at h
      exact ready_stateAfter (hready n u h) (hready _) e

/-! ## The order of the events -/

/-- A statement finds the same before and after an event that it does not clash with. -/
theorem startedAfter_stateAfter {e f : Event α κ} (h : ¬ P.Clash (P.label e) (P.label f))
    (p : Option (Underway π)) {q : Option (Underway π)} {s : σ}
    (hq : ∀ u, q = some u → P.Ready u.content s) :
    P.startedAfter p (P.stateAfter q s f) e = P.startedAfter p s e := by
  rcases stateAfter_cases (P := P) q f with hf | ⟨v, m, rfl, rfl, hf⟩
  · rw [hf]
  rw [hf]
  have hv := hq v rfl
  cases e with
  | start n a => simp only [Phases.startedAfter, P.prepare_land a v.content s hv h]
  | send n k =>
    refine Option.map_congr fun u _ => ?_
    unfold Underway.sent
    by_cases hu : P.kind u.content = k ∧ u.left ≠ 0
    · obtain rfl := hu.1
      simp only [P.advance_land u.content v.content s hv h]
    · rw [if_neg hu, if_neg hu]
  | _ => rfl

/-- Events that do not clash change the state alike in either order. -/
theorem stateAfter_comm {e f : Event α κ} (hef : ¬ P.Clash (P.label e) (P.label f))
    {p q : Option (Underway π)} {s : σ} (hp : ∀ u, p = some u → P.Ready u.content s)
    (hq : ∀ u, q = some u → P.Ready u.content s) :
    P.stateAfter q (P.stateAfter p s e) f = P.stateAfter p (P.stateAfter q s f) e := by
  rcases stateAfter_cases (P := P) p e with he | ⟨u, n, rfl, rfl, he⟩
  · rw [he, he]
  rcases stateAfter_cases (P := P) q f with hf | ⟨v, m, rfl, rfl, hf⟩
  · rw [hf, hf]
  rw [he, hf, hf, he]
  exact (P.land_comm u.content v.content s (hp u rfl) (hq v rfl) hef).symm

/-- **Events that do not conflict can happen in either order.** -/
theorem step_comm {e f : Event α κ} (h : ¬ P.Conflicts (P.label e) (P.label f))
    (m : Machine P) : (m.step e).step f = (m.step f).step e := by
  simp only [Phases.Conflicts, not_or] at h
  obtain ⟨hworker, hef, hfe⟩ := h
  have hlabel : ∀ e : Event α κ, (P.label e).worker = e.worker := by
    rintro (_ | _ | _ | _) <;> rfl
  rw [hlabel, hlabel] at hworker
  have hready := m.ready
  ext1
  · show P.stateAfter (Function.update m.started _ _ f.worker) _ f =
      P.stateAfter (Function.update m.started _ _ e.worker) _ e
    rw [Function.update_of_ne (Ne.symm hworker), Function.update_of_ne hworker]
    exact stateAfter_comm hef (hready _) (hready _)
  · show Function.update (Function.update m.started _ _) _
        (P.startedAfter (Function.update m.started _ _ f.worker) (P.stateAfter _ _ e) f) =
      Function.update (Function.update m.started _ _) _
        (P.startedAfter (Function.update m.started _ _ e.worker) (P.stateAfter _ _ f) e)
    rw [Function.update_of_ne (Ne.symm hworker), Function.update_of_ne hworker,
      startedAfter_stateAfter hfe _ (hready _), startedAfter_stateAfter hef _ (hready _),
      Function.update_comm hworker]

/-- **Only the order of conflicting events matters.** -/
theorem replay_eq_of_sameOrder {es es' : List (Event α κ)}
    (h : SameOrder P.label P.Conflicts es es') (m : Machine P) :
    replay Machine.step m es = replay Machine.step m es' :=
  h.replay_eq P.conflicts_refl (fun _ _ => P.conflicts_symm) (fun _ _ hab m => step_comm hab m) m

/-! ## Serial schedules -/

/-- A worker's run of a transaction. -/
structure Turn (α : Type*) where
  worker : ℕ
  task : α
  commits : Bool

/-- The events of a turn: one for each statement, and the end of the transaction. -/
def Phases.eventsOf (P : Phases σ α π κ) (t : Turn α) : List (Event α κ) :=
  let kind := P.taskKind t.task
  .start t.worker t.task :: (List.replicate (P.later kind) (.send t.worker kind) ++
    [if t.commits then .commit t.worker kind else .abort t.worker])

/-- One turn after the other. -/
def Phases.serially (P : Phases σ α π κ) (turns : List (Turn α)) : List (Event α κ) :=
  turns.flatMap P.eventsOf

/-- The transactions that commit. -/
def committedTurns (turns : List (Turn α)) : List α := (turns.filter (·.commits)).map (·.task)

/-- Statements that are sent one right after the other. -/
theorem replay_sends {n l : ℕ} {m : Machine P} {p : π} (h : m.started n = some ⟨p, l⟩) :
    (replay Machine.step m (List.replicate l (.send n (P.kind p)))).state = m.state ∧
      (replay Machine.step m (List.replicate l (.send n (P.kind p)))).started =
        Function.update m.started n (some ⟨(P.advance · m.state)^[l] p, 0⟩) := by
  induction l generalizing m p with
  | zero =>
    refine ⟨rfl, ?_⟩
    show m.started = Function.update m.started n (some ⟨p, 0⟩)
    rw [← h, Function.update_eq_self]
  | succ l ih =>
    have hsent : P.startedAfter (m.started n) m.state (.send n (P.kind p)) =
        some ⟨P.advance p m.state, l⟩ := by
      rw [h]
      simp [Phases.startedAfter, Underway.sent]
    have hstarted : (m.step (.send n (P.kind p))).started =
        Function.update m.started n (some ⟨P.advance p m.state, l⟩) := by rw [← hsent]; rfl
    have hrest := ih (m := m.step (.send n (P.kind p))) (p := P.advance p m.state)
      (by rw [hstarted, Function.update_self])
    rw [P.kind_advance] at hrest
    rw [List.replicate_succ, replay_cons]
    refine ⟨hrest.1, hrest.2.trans ?_⟩
    rw [hstarted, Function.update_idem]
    rfl

/-- A turn is the transaction as a whole, or nothing. -/
theorem replay_eventsOf (t : Turn α) (s : σ) :
    replay Machine.step (Machine.idle P s) (P.eventsOf t) =
      Machine.idle P (if t.commits then P.exec s t.task else s) := by
  obtain ⟨n, a, commits⟩ := t
  set m := (Machine.idle P s).step (.start n a) with hm
  have hfirst : m.started n = some ⟨P.prepare a s, P.later (P.taskKind a)⟩ := by
    rw [hm]
    exact Function.update_self ..
  obtain ⟨hstate, hstarted⟩ := replay_sends hfirst
  rw [P.kind_prepare] at hstate hstarted
  set m' := replay Machine.step m
    (List.replicate (P.later (P.taskKind a)) (.send n (P.taskKind a))) with hm'
  -- The worker is about to write what it would write at once, and nobody else is at work.
  have hbusy : m'.started = Function.update (fun _ => none) n (some ⟨P.prepared a s, 0⟩) := by
    rw [hstarted, hm]
    exact Function.update_idem ..
  have hevents : replay Machine.step (Machine.idle P s) (P.eventsOf ⟨n, a, commits⟩) =
      m'.step (if commits then .commit n (P.taskKind a) else .abort n) := by
    rw [Phases.eventsOf, replay_cons, replay_snoc]
  rw [hevents]
  cases commits with
  | true =>
    show m'.step (.commit n (P.taskKind a)) = Machine.idle P (P.exec s a)
    ext1
    · show P.stateAfter (m'.started n) m'.state (.commit n (P.taskKind a)) = P.exec s a
      rw [hbusy, Function.update_self, hstate]
      exact if_pos ⟨P.kind_prepared a s, rfl⟩
    · show Function.update m'.started n (P.startedAfter (m'.started n) m'.state _) = _
      rw [hbusy, Function.update_self, Function.update_idem]
      simp [Phases.startedAfter, Underway.Commits, P.kind_prepared, Option.filter, Machine.idle]
  | false =>
    show m'.step (.abort n) = Machine.idle P s
    ext1
    · exact hstate
    · show Function.update m'.started n none = _
      rw [hbusy, Function.update_idem]
      exact Function.update_eq_self ..

/-- **A serial schedule** runs the transactions that commit, one after the other. -/
theorem replay_serially (turns : List (Turn α)) (s : σ) :
    replay Machine.step (Machine.idle P s) (P.serially turns) =
      Machine.idle P (replay P.exec s (committedTurns turns)) := by
  induction turns generalizing s with
  | nil => rfl
  | cons t turns ih =>
    rw [Phases.serially, List.flatMap_cons, replay_append, replay_eventsOf]
    refine (ih _).trans ?_
    unfold committedTurns
    cases ht : t.commits with
    | true => rw [List.filter_cons_of_pos ht]; rfl
    | false => rw [List.filter_cons_of_neg (by simp [ht])]; rfl

/-- **A schedule with the order of a serial one** leads where that one leads. -/
theorem replay_eq_serial {es : List (Event α κ)} {turns : List (Turn α)}
    (h : SameOrder P.label P.Conflicts es (P.serially turns)) (s : σ) :
    replay Machine.step (Machine.idle P s) es =
      Machine.idle P (replay P.exec s (committedTurns turns)) :=
  (replay_eq_of_sameOrder h _).trans (replay_serially turns s)

/-! ## The order of the commits -/

namespace Phases

variable (P : Phases σ α π κ)

/-- The transaction that a worker has under way after an event. -/
def taskAfter (task : Option (Underway α)) : Event α κ → Option (Underway α)
  | .start _ a => task.or (some ⟨a, P.later (P.taskKind a)⟩)
  | .send _ k => task.map (Underway.sent P.taskKind k id)
  | .commit _ k => task.filter fun u => ¬ u.Commits P.taskKind k
  | .abort _ => none

/-- The transaction that commits in an event, if any. -/
def commitOf (task : Option (Underway α)) : Event α κ → Option α
  | .commit _ k => (task.filter fun u => u.Commits P.taskKind k).map Underway.content
  | _ => none

/-- The transactions that commit, in the order in which they do; `tasks` are under way. -/
def committed : (ℕ → Option (Underway α)) → List (Event α κ) → List α
  | _, [] => []
  | tasks, e :: es =>
    (P.commitOf (tasks e.worker) e).toList ++
      committed (Function.update tasks e.worker (P.taskAfter (tasks e.worker) e)) es

/-- What a transaction may be going to write, whatever its statements find. -/
inductive Found (a : α) : π → Prop
  | first (s : σ) : Found a (P.prepare a s)
  | later {p : π} (s : σ) : Found a p → Found a (P.advance p s)

/-- What a worker is about to write, and the transaction it has under way. -/
inductive Begun : Option (Underway π) → Option (Underway α) → Prop
  | idle : Begun none none
  | busy {a : α} {p : π} (l : ℕ) (h : P.Found a p) : Begun (some ⟨p, l⟩) (some ⟨a, l⟩)

variable {P}

omit [DecidableEq κ] in
theorem Found.kind_eq {a : α} {p : π} (h : P.Found a p) : P.kind p = P.taskKind a := by
  induction h with
  | first s => exact P.kind_prepare a s
  | later s _ ih => rw [P.kind_advance, ih]

/-- An event keeps track of what is under way. -/
theorem Begun.after {p : Option (Underway π)} {task : Option (Underway α)}
    (h : P.Begun p task) (s : σ) (e : Event α κ) :
    P.Begun (P.startedAfter p s e) (P.taskAfter task e) := by
  cases h with
  | idle =>
    cases e with
    | start n a => exact .busy _ (.first s)
    | _ => exact .idle
  | @busy a p l h =>
    cases e with
    | start n b => exact .busy l h
    | send n k =>
      simp only [startedAfter, taskAfter, Option.map_some, Underway.sent, h.kind_eq]
      split
      · exact .busy _ (.later s h)
      · exact .busy l h
    | commit n k =>
      simp only [startedAfter, taskAfter, Option.filter_some, Underway.Commits, h.kind_eq]
      by_cases hk : P.taskKind a = k ∧ l = 0
      · simpa [hk] using Begun.idle
      · simpa [hk] using Begun.busy l h
    | abort n => exact .idle

end Phases

section CommitOrder

variable {τ : Type*} {view : σ → τ}
  (hview : ∀ a p s t, P.Found a p → P.Ready p s → view s = view t →
    view (P.land p s) = view (P.exec t a))
include hview

/-- What an event preserves. -/
theorem view_stateAfter {p : Option (Underway π)} {task : Option (Underway α)}
    (hbegun : P.Begun p task) {s t : σ} (hready : ∀ u, p = some u → P.Ready u.content s)
    (h : view s = view t) (e : Event α κ) :
    view (P.stateAfter p s e) = view (replay P.exec t (P.commitOf task e).toList) := by
  cases e with
  | commit n k =>
    cases hbegun with
    | idle => exact h
    | @busy a p l hfound =>
      by_cases hk : P.taskKind a = k ∧ l = 0
      · have hland := hview a p s t hfound (hready _ rfl) h
        simpa [Phases.stateAfter, Phases.commitOf, Option.filter_some, Underway.Commits,
          hfound.kind_eq, hk, replay] using hland
      · simpa [Phases.stateAfter, Phases.commitOf, Option.filter_some, Underway.Commits,
          hfound.kind_eq, hk] using h
  | _ => exact h

/-- **What is written without an early read** is what the transactions that commit make of
it one by one, in the order of the commits. -/
theorem view_commitOrder (es : List (Event α κ)) {m : Machine P}
    {tasks : ℕ → Option (Underway α)} (hbegun : ∀ n, P.Begun (m.started n) (tasks n)) {t : σ}
    (h : view m.state = view t) :
    view (replay Machine.step m es).state = view (replay P.exec t (P.committed tasks es)) := by
  induction es generalizing m tasks t with
  | nil => exact h
  | cons e es ih =>
    rw [replay_cons, Phases.committed, replay_append]
    refine ih (m := m.step e) ?_ ?_
    · intro n
      by_cases hn : n = e.worker
      · subst hn
        show P.Begun (Function.update m.started _ _ _) _
        rw [Function.update_self, Function.update_self]
        exact (hbegun _).after m.state e
      · show P.Begun (Function.update m.started _ _ _) _
        rw [Function.update_of_ne hn, Function.update_of_ne hn]
        exact hbegun n
    · exact view_stateAfter hview (hbegun _) (m.ready _) h e

end CommitOrder

end Snapshots
