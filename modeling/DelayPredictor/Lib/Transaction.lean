import Mathlib

/-!
# Transactions

Code that works on a database through one session.

* `Session` — what is committed, and what the open transaction has made of it.
* `Tx` — code that sends statements and may raise.  An exception does not undo
  what was sent before it; `sessionScope` commits or rolls back.
* `Faults` — failures that the statements themselves do not account for: any
  statement, and the commit, may raise one.
* `run_error` — **code that does not commit by itself changes the database
  through `sessionScope` or not at all**; `run_ok`: what it then leaves.
* `Post` — what holds when code ends, normally or not, with a rule for each way
  of composing it; `outcome` — code as a function into `Except`.
-/

namespace Transaction

variable {ε σ α β γ : Type}

/-! ## Sessions -/

/-- A database as one session sees it. -/
structure Session (σ : Type) where
  /-- What other sessions see. -/
  committed : σ
  /-- What this one sees. -/
  working : σ
  /-- How many statements were sent. -/
  sent : ℕ

namespace Session

/-- A new session. -/
def start (db : σ) : Session σ := ⟨db, db, 0⟩

/-- After a statement that failed. -/
def failed (s : Session σ) : Session σ := { s with sent := s.sent + 1 }

/-- After a statement that changed the working copy. -/
def wrote (s : Session σ) (w : σ) : Session σ := { s with working := w, sent := s.sent + 1 }

@[simp] theorem failed_committed (s : Session σ) : s.failed.committed = s.committed := rfl

@[simp] theorem wrote_committed (s : Session σ) (w : σ) : (s.wrote w).committed = s.committed := rfl

@[simp] theorem wrote_working (s : Session σ) (w : σ) : (s.wrote w).working = w := rfl

end Session

/-- Code in a session.  The session an exception leaves is the one at the point
where it was raised. -/
abbrev Tx (ε σ : Type) := EStateM ε (Session σ)

/-- The exception the `n`-th statement of a session ends in, whatever it says. -/
abbrev Faults (ε : Type) := ℕ → Option ε

/-- Nothing fails from outside. -/
def noFaults : Faults ε := fun _ => none

/-- What a statement makes of the working copy. -/
def attempt (faults : Faults ε) (statement : σ → Except ε σ) (s : Session σ) : Except ε σ :=
  match faults s.sent with
  | some e => .error e
  | none => statement s.working

/-- Send one statement. -/
def execute (faults : Faults ε) (statement : σ → Except ε σ) : Tx ε σ Unit := fun s =>
  match attempt faults statement s with
  | .ok w => .ok () (s.wrote w)
  | .error e => .error e s.failed

/-- A computation that does not touch the session. -/
def raising (x : Except ε α) : Tx ε σ α := fun s =>
  match x with
  | .ok a => .ok a s
  | .error e => .error e s

/-- The working copy becomes the committed database. -/
def commit (faults : Faults ε) : Tx ε σ Unit := fun s =>
  match faults s.sent with
  | some e => .error e s.failed
  | none => .ok () { s with committed := s.working }

/-- The committed database becomes the working copy. -/
def rollback : Tx ε σ Unit := fun s => .ok () { s with working := s.committed }

/-- Run, then commit; on an exception roll back and raise it again. -/
def sessionScope (faults : Faults ε) (body : Tx ε σ α) : Tx ε σ α :=
  tryCatch (do let a ← body; commit faults; return a) fun e => do rollback; throw e

/-- How a session over a database ends, and the database it leaves. -/
def run (faults : Faults ε) (body : Tx ε σ α) (db : σ) : Except ε α × σ :=
  match sessionScope faults body (Session.start db) with
  | .ok a s => (.ok a, s.committed)
  | .error e s => (.error e, s.committed)

/-! ## What holds in the end -/

/-- The code, run in the session `s`, ends normally with `Q` or raises with `E`. -/
def Post (m : Tx ε σ α) (Q : α → Session σ → Prop) (E : ε → Session σ → Prop) (s : Session σ) :
    Prop :=
  match m s with
  | .ok a s' => Q a s'
  | .error e s' => E e s'

section Rules

variable {Q : α → Session σ → Prop} {E : ε → Session σ → Prop} {s : Session σ}

theorem Post.of_ok {m : Tx ε σ α} (h : Post m Q E s) {a : α} {s' : Session σ}
    (hm : m s = .ok a s') : Q a s' := by
  unfold Post at h
  rwa [hm] at h

theorem Post.of_error {m : Tx ε σ α} (h : Post m Q E s) {e : ε} {s' : Session σ}
    (hm : m s = .error e s') : E e s' := by
  unfold Post at h
  rwa [hm] at h

theorem Post.imp {m : Tx ε σ α} {Q' : α → Session σ → Prop} {E' : ε → Session σ → Prop}
    (h : Post m Q E s) (hQ : ∀ a s', Q a s' → Q' a s') (hE : ∀ e s', E e s' → E' e s') :
    Post m Q' E' s := by
  unfold Post at h ⊢
  cases hm : m s with
  | ok a s' => rw [hm] at h; exact hQ a s' h
  | error e s' => rw [hm] at h; exact hE e s' h

theorem post_bind {m : Tx ε σ β} {f : β → Tx ε σ α}
    (h : Post m (fun b s' => Post (f b) Q E s') E s) : Post (m >>= f) Q E s := by
  show match EStateM.bind m f s with | .ok a s' => Q a s' | .error e s' => E e s'
  unfold Post at h
  unfold EStateM.bind
  cases hm : m s with
  | ok b s' => rw [hm] at h; exact h
  | error e s' => rw [hm] at h; exact h

theorem post_raising {x : Except ε α} (hQ : ∀ a, x = .ok a → Q a s)
    (hE : ∀ e, x = .error e → E e s) : Post (raising x) Q E s := by
  cases x with
  | ok a => exact hQ a rfl
  | error e => exact hE e rfl

theorem post_execute {faults : Faults ε} {statement : σ → Except ε σ}
    {Q : Unit → Session σ → Prop} (hQ : ∀ w, statement s.working = .ok w → Q () (s.wrote w))
    (hE : ∀ e, E e s.failed) : Post (execute faults statement) Q E s := by
  unfold Post execute attempt
  cases faults s.sent with
  | some e => exact hE e
  | none =>
    dsimp only
    cases hw : statement s.working with
    | ok w => exact hQ w hw
    | error e => exact hE e

/-- A loop: each round takes the invariant from what is left to what is left
after it. -/
theorem post_forM {f : γ → Tx ε σ PUnit} {I : List γ → Session σ → Prop}
    {Q : PUnit → Session σ → Prop}
    (hf : ∀ c cs s, I (c :: cs) s → Post (f c) (fun _ s' => I cs s') E s)
    (hQ : ∀ s, I [] s → Q ⟨⟩ s) : ∀ {l : List γ} {s : Session σ}, I l s → Post (forM l f) Q E s
  | [], s, h => hQ s h
  | c :: cs, s, h => by
    rw [List.forM_cons]
    refine post_bind ((hf c cs s h).imp (fun _ s' h' => ?_) fun _ _ h' => h')
    exact post_forM hf hQ h'

end Rules

/-! ## Code that leaves committing to its scope -/

/-- However the code ends, it has committed nothing. -/
def LeavesCommitted (m : Tx ε σ α) : Prop :=
  ∀ s, Post m (fun _ s' => s'.committed = s.committed) (fun _ s' => s'.committed = s.committed) s

theorem leavesCommitted_pure (a : α) : LeavesCommitted (pure a : Tx ε σ α) := fun _ => rfl

theorem LeavesCommitted.bind {m : Tx ε σ β} {f : β → Tx ε σ α} (hm : LeavesCommitted m)
    (hf : ∀ b, LeavesCommitted (f b)) : LeavesCommitted (m >>= f) := by
  intro s
  refine post_bind ((hm s).imp (fun b s' h => ?_) fun _ _ h => h)
  exact (hf b s').imp (fun _ _ h' => h'.trans h) fun _ _ h' => h'.trans h

theorem leavesCommitted_raising (x : Except ε α) :
    LeavesCommitted (raising x : Tx ε σ α) := fun _ =>
  post_raising (fun _ _ => rfl) fun _ _ => rfl

theorem leavesCommitted_execute (faults : Faults ε) (statement : σ → Except ε σ) :
    LeavesCommitted (execute faults statement) := fun _ =>
  post_execute (fun _ _ => rfl) fun _ => rfl

theorem leavesCommitted_forM {f : γ → Tx ε σ PUnit} (hf : ∀ c, LeavesCommitted (f c))
    (l : List γ) : LeavesCommitted (forM l f) := by
  induction l with
  | nil => exact leavesCommitted_pure _
  | cons c cs ih =>
    rw [List.forM_cons]
    exact (hf c).bind fun _ => ih

/-- How a session ends, by how its body ends. -/
theorem run_eq (faults : Faults ε) (body : Tx ε σ α) (db : σ) :
    run faults body db =
      match body (Session.start db) with
      | .ok a s =>
        match faults s.sent with
        | some e => (.error e, s.committed)
        | none => (.ok a, s.working)
      | .error e s => (.error e, s.committed) := by
  simp only [run, sessionScope, tryCatch, tryCatchThe, MonadExceptOf.tryCatch, EStateM.tryCatch,
    bind, EStateM.bind, commit]
  cases body (Session.start db) with
  | error e s => rfl
  | ok a s =>
    dsimp only
    cases faults s.sent <;> rfl

/-- **A session that raises changes nothing**, wherever it raised. -/
theorem run_error {faults : Faults ε} {body : Tx ε σ α} (hbody : LeavesCommitted body) {db db' : σ}
    {e : ε} (h : run faults body db = (.error e, db')) : db' = db := by
  have hpost := hbody (Session.start db)
  rw [run_eq] at h
  cases hb : body (Session.start db) with
  | error e' s =>
    rw [hb, Prod.mk.injEq] at h
    exact h.2.symm.trans (hpost.of_error hb)
  | ok a s =>
    rw [hb] at h
    cases hf : faults s.sent with
    | some e' =>
      simp only [hf, Prod.mk.injEq] at h
      exact h.2.symm.trans (hpost.of_ok hb)
    | none => simp [hf] at h

/-- A session that ends normally leaves the working copy. -/
theorem run_ok {faults : Faults ε} {body : Tx ε σ α} {db db' : σ} {a : α}
    (h : run faults body db = (.ok a, db')) :
    ∃ s, body (Session.start db) = .ok a s ∧ s.working = db' := by
  rw [run_eq] at h
  cases hb : body (Session.start db) with
  | error e s => simp [hb] at h
  | ok a' s =>
    cases hf : faults s.sent with
    | some e => simp [hb, hf] at h
    | none =>
      simp only [hb, hf, Prod.mk.injEq, Except.ok.injEq] at h
      exact ⟨s, by rw [h.1], h.2⟩

/-! ## Code as a function into `Except` -/

/-- How code ends: normally in some session, or with an exception. -/
def outcome (m : Tx ε σ α) (s : Session σ) : Except ε (α × Session σ) :=
  match m s with
  | .ok a s' => .ok (a, s')
  | .error e _ => .error e

theorem outcome_eq_ok_iff {m : Tx ε σ α} {s s' : Session σ} {a : α} :
    outcome m s = .ok (a, s') ↔ m s = .ok a s' := by
  unfold outcome
  cases m s <;> simp

theorem outcome_bind (m : Tx ε σ β) (f : β → Tx ε σ α) (s : Session σ) :
    outcome (m >>= f) s = outcome m s >>= fun p => outcome (f p.1) p.2 := by
  show (match EStateM.bind m f s with | .ok a s' => _ | .error e _ => _) = _
  unfold EStateM.bind outcome
  cases m s <;> rfl

theorem outcome_raising (x : Except ε α) (s : Session σ) :
    outcome (raising x) s = x.map fun a => (a, s) := by
  cases x <;> rfl

theorem outcome_execute (statement : σ → Except ε σ) (s : Session σ) :
    outcome (execute noFaults statement) s =
      (statement s.working).map fun w => ((), s.wrote w) := by
  unfold outcome execute attempt noFaults
  dsimp only
  cases statement s.working <;> rfl

/-- A session nothing interferes with ends as its body does. -/
theorem run_noFaults (body : Tx ε σ α) (db : σ) :
    (run noFaults body db).1 = (outcome body (Session.start db)).map Prod.fst := by
  rw [run_eq]
  unfold outcome
  cases body (Session.start db) <;> rfl

end Transaction
