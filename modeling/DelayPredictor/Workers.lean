import DelayPredictor.Lib.PyTime
import DelayPredictor.Lib.Runs

/-!
# Connections and event loops

What a Celery worker process does with database connections: `_run`
(`app/workers/tasks.py`) gives every task an event loop of its own, while the
engine of `app/core/database.py` and its pool live as long as the process.

* `Pool.checkout`, `Pool.checkin` — the engine's pool: the longest idle connection
  is handed out again, reopened when it is older than the recycle time.
* `Worker.sessionScope`, `Worker.run` — a `session_scope`, and a task: its sessions
  one after another on a fresh loop.  Nothing in a worker disposes of the engine.
* `ownLoops_iff` — **when every connection is used on the loop that opened it**:
  exactly when each task finds no idle connection that is still young enough to
  be handed out.  With a task every minute and half an hour of recycle time, the
  second task already gets the connection of the first.

The ping before a connection is handed out is itself a use of it on the new loop.
-/

namespace DelayPredictor

open PyTime Runs

/-! ## The pool -/

/-- The settings the engine is created with. -/
structure EngineSettings where
  /-- The idle connections that are kept; 0 keeps all. -/
  dbPoolSize : ℕ
  /-- The age at which a connection is reopened; -1 is never. -/
  dbPoolRecycleSeconds : ℤ
  deriving DecidableEq, Repr

/-- The settings' defaults. -/
def EngineSettings.default : EngineSettings := ⟨10, 1800⟩

/-- A database connection: the loop it was opened on, and when. -/
structure Connection where
  openedOn : ℕ
  openedAt : Instant
  deriving DecidableEq, Repr

/-- The connection is old enough to be reopened. -/
def Connection.expired (settings : EngineSettings) (c : Connection) (now : Instant) : Bool :=
  -1 < settings.dbPoolRecycleSeconds && seconds settings.dbPoolRecycleSeconds < now - c.openedAt

/-- The idle connections of an engine, the longest idle first. -/
structure Pool where
  idle : List Connection
  deriving DecidableEq, Repr

namespace Pool

/-- Hand out a connection to a session on `loop`. -/
def checkout (settings : EngineSettings) (pool : Pool) (loop : ℕ) (now : Instant) :
    Connection × Pool :=
  match pool.idle with
  | [] => (⟨loop, now⟩, pool)
  | c :: idle => (if c.expired settings now then ⟨loop, now⟩ else c, ⟨idle⟩)

/-- Take a connection back. -/
def checkin (settings : EngineSettings) (pool : Pool) (c : Connection) : Pool :=
  if settings.dbPoolSize = 0 ∨ pool.idle.length < settings.dbPoolSize then ⟨pool.idle ++ [c]⟩
  else pool

/-- Out of at most one idle connection, that one or a new one is handed out, and
none is left. -/
theorem checkout_eq (settings : EngineSettings) {pool : Pool} (hidle : pool.idle.length ≤ 1)
    (loop : ℕ) (now : Instant) :
    ∃ c : Connection, pool.checkout settings loop now = (c, ⟨[]⟩) ∧
      (c = ⟨loop, now⟩ ∧ (∀ c' ∈ pool.idle, c'.expired settings now) ∨
        c ∈ pool.idle ∧ ¬ c.expired settings now) := by
  obtain ⟨idle⟩ := pool
  cases idle with
  | nil => exact ⟨⟨loop, now⟩, rfl, .inl ⟨rfl, by simp⟩⟩
  | cons c rest =>
    obtain rfl : rest = [] := by
      rw [← List.length_eq_zero_iff]
      simpa using hidle
    by_cases hexp : c.expired settings now = true
    · exact ⟨⟨loop, now⟩, by simp [checkout, hexp], .inl ⟨rfl, by simpa using hexp⟩⟩
    · exact ⟨c, by simp [checkout, hexp], .inr ⟨by simp, hexp⟩⟩

theorem checkin_empty (settings : EngineSettings) (c : Connection) :
    (checkin settings ⟨[]⟩ c).idle = [] ∨ (checkin settings ⟨[]⟩ c).idle = [c] := by
  unfold checkin
  split
  · exact .inr rfl
  · exact .inl rfl

end Pool

/-! ## The worker process -/

/-- One connection handed out: where it was opened and where it is used. -/
structure Checkout where
  openedOn : ℕ
  usedOn : ℕ
  deriving DecidableEq, Repr

/-- A worker process: its globals, and what its sessions have been handed. -/
structure Worker where
  /-- The pool of the engine behind `_sessionmaker`, once there is one. -/
  pool : Option Pool
  /-- The number of loops created so far. -/
  loops : ℕ
  /-- Every connection handed out so far. -/
  checkouts : List Checkout
  deriving DecidableEq, Repr

/-- One `session_scope`. -/
structure Session where
  /-- When it executes its first statement, if it executes one: then it checks a
  connection out. -/
  firstStatement : Option Instant
  /-- The connection breaks while the session holds it. -/
  breaks : Bool
  deriving DecidableEq, Repr

/-- A task: its sessions, one after another. -/
abbrev Task := List Session

/-- When a task first checks a connection out. -/
def Task.firstCheckout (task : Task) : Option Instant := task.findSome? (·.firstStatement)

namespace Worker

/-- A process that has run nothing. -/
def fresh : Worker := ⟨none, 0, []⟩

/-- The idle connections of the process. -/
def idle (w : Worker) : List Connection := (w.pool.getD ⟨[]⟩).idle

/-- `session_scope`, on `loop`. -/
def sessionScope (settings : EngineSettings) (loop : ℕ) (w : Worker) (s : Session) : Worker :=
  let pool := w.pool.getD ⟨[]⟩
  match s.firstStatement with
  | none => { w with pool := some pool }
  | some now =>
    let (c, rest) := pool.checkout settings loop now
    { w with
      pool := some (if s.breaks then rest else rest.checkin settings c)
      checkouts := w.checkouts ++ [⟨c.openedOn, loop⟩] }

/-- `_run`: the task's sessions on a fresh loop. -/
def run (settings : EngineSettings) (w : Worker) (task : Task) : Worker :=
  task.foldl (sessionScope settings w.loops) { w with loops := w.loops + 1 }

/-- Every connection was handed to a session on the loop that opened it. -/
def OwnLoops (w : Worker) : Prop := ∀ c ∈ w.checkouts, c.openedOn = c.usedOn

/-- No idle connection can be handed to the task's first session that executes a
statement: all are old enough to be reopened. -/
def Reopens (settings : EngineSettings) (w : Worker) (task : Task) : Prop :=
  ∀ now, task.firstCheckout = some now → ∀ c ∈ w.idle, c.expired settings now

/-- Sessions do not overlap, so at most one connection is idle; it was opened by
an earlier task. -/
structure Settled (w : Worker) : Prop where
  idle_length : w.idle.length ≤ 1
  idle_openedOn : ∀ c ∈ w.idle, c.openedOn < w.loops

/-! ## One session -/

theorem sessionScope_none (settings : EngineSettings) (w : Worker) (loop : ℕ) {s : Session}
    (h : s.firstStatement = none) :
    (sessionScope settings loop w s).idle = w.idle ∧
      (sessionScope settings loop w s).checkouts = w.checkouts := by
  unfold sessionScope
  rw [h]
  exact ⟨rfl, rfl⟩

@[simp] theorem sessionScope_loops (settings : EngineSettings) (w : Worker) (loop : ℕ)
    (s : Session) : (sessionScope settings loop w s).loops = w.loops := by
  unfold sessionScope
  split <;> rfl

/-- **What a session that executes a statement does**: the connection it is
handed is the only one that can be idle afterwards. -/
theorem sessionScope_some (settings : EngineSettings) (loop : ℕ) {w : Worker} {s : Session}
    {now : Instant} (h : s.firstStatement = some now) (hidle : w.idle.length ≤ 1) :
    ∃ c : Connection, (c = ⟨loop, now⟩ ∧ (∀ c' ∈ w.idle, c'.expired settings now) ∨
        c ∈ w.idle ∧ ¬ c.expired settings now) ∧
      ((sessionScope settings loop w s).idle = [] ∨
        (sessionScope settings loop w s).idle = [c]) ∧
      (sessionScope settings loop w s).checkouts = w.checkouts ++ [⟨c.openedOn, loop⟩] := by
  obtain ⟨c, hout, hc⟩ := Pool.checkout_eq settings hidle loop now
  refine ⟨c, hc, ?_, ?_⟩
  · unfold sessionScope idle
    rw [h]
    simp only [hout]
    cases s.breaks with
    | false => exact Pool.checkin_empty settings c
    | true => exact .inl rfl
  · unfold sessionScope
    rw [h]
    simp only [hout]

/-- A session that is handed nothing, or a connection of its own loop, keeps the
process on its loops. -/
theorem OwnLoops.congr {w w' : Worker} (h : w.OwnLoops) (hout : w'.checkouts = w.checkouts) :
    w'.OwnLoops := by
  show ∀ c ∈ w'.checkouts, c.openedOn = c.usedOn
  rwa [hout]

theorem OwnLoops.snoc {w w' : Worker} {c : Checkout} (h : w.OwnLoops)
    (hout : w'.checkouts = w.checkouts ++ [c]) (hc : c.openedOn = c.usedOn) : w'.OwnLoops := by
  show ∀ c ∈ w'.checkouts, c.openedOn = c.usedOn
  rw [hout]
  intro x hx
  rcases List.mem_append.1 hx with hx | hx
  · exact h x hx
  · rw [List.mem_singleton.1 hx]
    exact hc

/-! ## One task -/

section Task

variable {settings : EngineSettings} {loop : ℕ}

/-- Nothing that has been handed out is forgotten. -/
theorem checkouts_prefix_foldl (task : Task) (w : Worker) :
    w.checkouts <+: (task.foldl (sessionScope settings loop) w).checkouts := by
  induction task generalizing w with
  | nil => exact List.prefix_refl _
  | cons s task ih =>
    refine List.IsPrefix.trans ?_ (ih _)
    unfold sessionScope
    split
    · exact List.prefix_refl _
    · exact List.prefix_append _ _

/-- After a task at most one connection is idle, and it was opened on a loop that
exists. -/
theorem settled_foldl (task : Task) {w : Worker} (h : w.Settled) (hloop : loop < w.loops) :
    (task.foldl (sessionScope settings loop) w).Settled := by
  induction task generalizing w with
  | nil => exact h
  | cons s task ih =>
    refine ih ?_ (by rwa [sessionScope_loops])
    cases hs : s.firstStatement with
    | none =>
      obtain ⟨hidle, -⟩ := sessionScope_none settings w loop hs
      exact ⟨by rw [hidle]; exact h.idle_length, by
        rw [hidle, sessionScope_loops]; exact h.idle_openedOn⟩
    | some now =>
      obtain ⟨c, hc, hidle, -⟩ :=
        sessionScope_some settings loop hs h.idle_length
      have hopened : c.openedOn < w.loops := by
        rcases hc with ⟨rfl, -⟩ | ⟨hmem, -⟩
        · exact hloop
        · exact h.idle_openedOn c hmem
      constructor
      · rcases hidle with hidle | hidle <;> simp [hidle]
      · rcases hidle with hidle | hidle <;> simp [hidle, hopened]

/-- Once a task has only connections of its own loop, it keeps it so. -/
theorem ownLoops_foldl_of_own (task : Task) {w : Worker} (hlen : w.idle.length ≤ 1)
    (hown : ∀ c ∈ w.idle, c.openedOn = loop) (h : w.OwnLoops) :
    (task.foldl (sessionScope settings loop) w).OwnLoops := by
  induction task generalizing w with
  | nil => exact h
  | cons s task ih =>
    rw [List.foldl_cons]
    cases hs : s.firstStatement with
    | none =>
      obtain ⟨hidle, hout⟩ := sessionScope_none settings w loop hs
      apply ih
      · rwa [hidle]
      · rwa [hidle]
      · exact h.congr hout
    | some now =>
      obtain ⟨c, hc, hidle, hout⟩ :=
        sessionScope_some settings loop hs hlen
      have hopened : c.openedOn = loop := by
        rcases hc with ⟨rfl, -⟩ | ⟨hmem, -⟩
        · rfl
        · exact hown c hmem
      apply ih
      · rcases hidle with hidle | hidle <;> simp [hidle]
      · rcases hidle with hidle | hidle <;> simp [hidle, hopened]
      · exact h.snoc hout hopened

/-- **What a task does**, none of the idle connections being of its loop: it stays
on its loop exactly when its first checkout reopens what it finds. -/
theorem ownLoops_foldl_iff (task : Task) {w : Worker} (hlen : w.idle.length ≤ 1)
    (hother : ∀ c ∈ w.idle, c.openedOn ≠ loop) (h : w.OwnLoops) :
    (task.foldl (sessionScope settings loop) w).OwnLoops ↔ w.Reopens settings task := by
  induction task generalizing w with
  | nil => exact iff_of_true h (by simp [Reopens, Task.firstCheckout])
  | cons s task ih =>
    rw [List.foldl_cons]
    cases hs : s.firstStatement with
    | none =>
      obtain ⟨hidle, hout⟩ := sessionScope_none settings w loop hs
      have hreopens : (sessionScope settings loop w s).Reopens settings task ↔
          w.Reopens settings (s :: task) := by
        simp only [Reopens, Task.firstCheckout, List.findSome?_cons, hs, hidle]
      rw [← hreopens]
      apply ih
      · rwa [hidle]
      · rwa [hidle]
      · exact h.congr hout
    | some now =>
      obtain ⟨c, hc, hidle, hout⟩ :=
        sessionScope_some settings loop hs hlen
      have hreopens : w.Reopens settings (s :: task) ↔ ∀ c ∈ w.idle, c.expired settings now := by
        simp only [Reopens, Task.firstCheckout, List.findSome?_cons, hs]
        simp
      rw [hreopens]
      rcases hc with ⟨rfl, hexp⟩ | ⟨hmem, hexp⟩
      · refine iff_of_true (ownLoops_foldl_of_own task ?_ ?_ ?_) hexp
        · rcases hidle with hidle | hidle <;> simp [hidle]
        · rcases hidle with hidle | hidle <;> simp [hidle]
        · exact h.snoc hout rfl
      · refine iff_of_false (fun hown => ?_) fun hall => hexp (hall c hmem)
        have hin : (⟨c.openedOn, loop⟩ : Checkout) ∈ (task.foldl (sessionScope settings loop)
            (sessionScope settings loop w s)).checkouts := by
          apply (checkouts_prefix_foldl task _).subset
          rw [hout]
          simp
        exact hother c hmem (hown _ hin)

end Task

/-! ## Runs -/

/-- The process after a sequence of tasks. -/
def after (settings : EngineSettings) (tasks : List Task) : Worker :=
  replay (run settings) fresh tasks

/-- Every process is settled between two tasks. -/
theorem settled_run {settings : EngineSettings} {w : Worker} (h : w.Settled) (task : Task) :
    (w.run settings task).Settled := by
  apply settled_foldl
  · exact ⟨h.idle_length, fun c hc => (h.idle_openedOn c hc).trans (Nat.lt_succ_self _)⟩
  · exact Nat.lt_succ_self _

theorem settled_fresh : fresh.Settled := ⟨by simp [fresh, idle], by simp [fresh, idle]⟩

theorem settled_after (settings : EngineSettings) (tasks : List Task) :
    (after settings tasks).Settled :=
  replay_invariant (P := Settled) settled_fresh (fun _ task h => settled_run h task) tasks

/-- **When every connection is used on the loop that opened it**, all along a run. -/
theorem ownLoops_iff (settings : EngineSettings) (tasks : List Task) :
    (∀ done, done <+: tasks → (after settings done).OwnLoops) ↔
      ∀ done task, done ++ [task] <+: tasks → (after settings done).Reopens settings task := by
  have hiff : (∀ done, done <+: tasks → (after settings done).Settled ∧
      (after settings done).OwnLoops) ↔
        ∀ done task, done ++ [task] <+: tasks → (after settings done).Reopens settings task := by
    refine invariant_along_iff (P := fun w : Worker => w.Settled ∧ w.OwnLoops)
      (C := fun w task => w.Reopens settings task) ⟨settled_fresh, ?_⟩ ?_ tasks
    · intro c hc
      cases hc
    · rintro w task ⟨hset, hown⟩
      have hstep : (w.run settings task).OwnLoops ↔ w.Reopens settings task :=
        ownLoops_foldl_iff (w := { w with loops := w.loops + 1 }) task hset.idle_length
          (fun c hc => (hset.idle_openedOn c hc).ne) hown
      exact ⟨fun h => hstep.1 h.2, fun h => ⟨settled_run hset task, hstep.2 h⟩⟩
  rw [← hiff]
  exact forall_congr' fun done => forall_congr' fun _ =>
    ⟨fun h => ⟨settled_after settings done, h⟩, fun h => h.2⟩

/-- A poll that executes a statement at the given second. -/
def pollAt (second : ℤ) : Task := [⟨some (seconds second), false⟩]

/-- The second poll of a worker is handed the connection of the first. -/
theorem secondPoll_crossesLoops :
    ¬ ∀ settings tasks, (after settings tasks).OwnLoops := by
  intro h
  have hcrossed : (⟨0, 1⟩ : Checkout) ∈
      (after EngineSettings.default [pollAt 0, pollAt 60]).checkouts := by decide
  exact absurd (h _ _ _ hcrossed) (by decide)

end Worker

end DelayPredictor
