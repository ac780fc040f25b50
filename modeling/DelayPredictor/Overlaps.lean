import DelayPredictor.Lib.Snapshots
import DelayPredictor.Retraining
import DelayPredictor.TaskHalves

/-!
# Tasks that overlap

The workers run several tasks at a time (`--concurrency`).

* `overlapping` — the nine entries of the beat schedule as transactions that may overlap;
  `overlapping_exec` — nobody interrupts them in the runs of the other files.
* `System.holdings` — what is stored, but for the serial numbers.
* `overlapping_eq_serial` — **a schedule of overlapping tasks that orders their conflicting
  events like a serial one leaves what that one leaves**, up to serial numbers.
* `startedTogether` — **the two stages of the feature pipeline, started together.**
* `decided_at_start` — **what a refresh, a rebuild or a retraining leaves is decided when
  it starts.**
* `predictions_of_commits` — **whatever overlaps, `predict_delay` answers from the trip
  update polls that committed**, in the order of their commits.

Serial numbers are given out at the commit here, and an aborted task uses none up.  PostgreSQL
draws them at the insert, so its rows may have other numbers.  Two refreshes of the static
feed that overlap are left out: what they find, statement by statement, is not modelled, and
no schedule with the order of a serial one has them.
-/

namespace DelayPredictor

open Keyed PyTime Runs Snapshots Stats Traces

/-! ## The system -/

/-- What a task of the beat schedule is about to write. -/
inductive WorkerPending where
  | beat (p : Pending)
  /-- The artifact that a retraining is going to save, if any. -/
  | artifact (new : Option (Pipeline × TrainingMetrics))

def WorkerTask.kind : WorkerTask → Option TaskKind
  | .beat task => some task.kind
  | .retrainDelayModel _ => none

def WorkerPending.kind : WorkerPending → Option TaskKind
  | .beat p => some p.kind
  | .artifact _ => none

/-- What a retraining that has loaded these features is going to save. -/
def Retrain.fresh (run : Retrain) (settings : TrainingSettings)
    (features : Table TrainingFeature.upsert) : Option (Pipeline × TrainingMetrics) :=
  run.artifact settings features none

section Workers

variable (isPoint : XFloat → XFloat → Bool) (training : TrainingSettings)

/-- What a task has found out in its first statement. -/
def WorkerTask.prepare (s : System) : WorkerTask → WorkerPending
  | .beat task => .beat (task.prepare s.database)
  | .retrainDelayModel run => .artifact (run.fresh training s.database.live.trainingFeatures)

/-- What it has found out in the next one. -/
def WorkerPending.advance (s : System) : WorkerPending → WorkerPending
  | .beat p => .beat (p.advance s.database)
  | .artifact new => .artifact new

/-- How many statements that find rows come after the first one. -/
def laterStatements : Option TaskKind → ℕ
  | some k => k.later
  | none => 0

/-- What a commit leaves; a retraining commits when it replaces the artifact. -/
def WorkerPending.land (s : System) : WorkerPending → System
  | .beat p => { s with database := p.land isPoint s.database }
  | .artifact new => { s with artifact := new.or s.artifact }

def WorkerPending.Ready (s : System) : WorkerPending → Prop
  | .beat p => p.Ready s.database
  | .artifact _ => True

/-- It matters whether a task of the one kind starts before or after one of the other
commits: it reads what that writes. -/
def Overtakes : Option TaskKind → Option TaskKind → Prop
  | some j, some k => j.Overtakes k
  | none, some k => .trainingFeatures ∈ k.writes
  | _, none => False

/-- It matters whether its second `DELETE` comes before or after that. -/
def Rereads : Option TaskKind → Option TaskKind → Prop
  | some j, some k => j.Rereads k
  | _, _ => False

/-- It matters in which order the two commit. -/
def Overwrites (j k : Option TaskKind) : Prop := j = k ∧ j ≠ some .pruneRealtime

/-- **The tasks of the beat schedule, as transactions that may overlap.** -/
def overlapping : Phases System WorkerTask WorkerPending (Option TaskKind) where
  prepare task s := task.prepare training s
  advance p s := p.advance s
  later := laterStatements
  land p s := p.land isPoint s
  taskKind := WorkerTask.kind
  kind := WorkerPending.kind
  Ready p s := p.Ready s
  Overtakes := Overtakes
  Rereads := Rereads
  Overwrites := Overwrites
  kind_prepare task s := by
    cases task with
    | beat task => exact congrArg some (kind_prepare s.database task)
    | retrainDelayModel run => rfl
  kind_advance p s := by
    cases p with
    | beat p => exact congrArg some (kind_advance s.database p)
    | artifact new => rfl
  ready_prepare task s := by
    cases task with
    | beat task => exact ready_prepare s.database task
    | retrainDelayModel run => trivial
  ready_advance p s hp := by
    cases p with
    | beat p => exact ready_advance hp
    | artifact new => trivial
  ready_land p q s hp hq := by
    cases p with
    | beat p =>
      cases q with
      | beat q => exact Pending.Ready.of_grows hp (grows_land isPoint q s.database)
      | artifact new => exact hp
    | artifact new => trivial
  prepare_land task q s hq h := by
    cases q with
    | beat q =>
      cases task with
      | beat task => exact congrArg WorkerPending.beat (prepare_land isPoint task q s.database h)
      | retrainDelayModel run =>
        have hfeatures : (q.land isPoint s.database).live.trainingFeatures =
            s.database.live.trainingFeatures := land_frame isPoint q s.database h
        exact congrArg (fun features => WorkerPending.artifact (run.fresh training features))
          hfeatures
    | artifact new => cases task <;> rfl
  advance_land p q s hq h := by
    cases p with
    | beat p =>
      cases q with
      | beat q => exact congrArg WorkerPending.beat (advance_land isPoint p q s.database h)
      | artifact new => rfl
    | artifact new => rfl
  land_comm p q s hp hq h := by
    cases p with
    | beat p =>
      cases q with
      | beat q =>
        refine congrArg (fun database => { s with database }) (land_comm isPoint hp hq ?_)
        rintro ⟨hkind, hne⟩
        exact h ⟨congrArg some hkind, fun hprune => hne (Option.some.inj hprune)⟩
      | artifact new => rfl
    | artifact new =>
      cases q with
      | beat q => rfl
      | artifact new' => exact absurd ⟨rfl, by simp [WorkerPending.kind]⟩ h

omit isPoint training in
/-- The statements of a task of the database. -/
theorem advance_beat (s : System) (l : ℕ) (p : Pending) :
    (WorkerPending.advance s)^[l] (.beat p) = .beat ((Pending.advance s.database)^[l] p) := by
  induction l with
  | zero => rfl
  | succ l ih =>
    rw [Function.iterate_succ_apply', Function.iterate_succ_apply', ih]
    rfl

/-- A task that nobody interrupts. -/
theorem overlapping_exec : (overlapping isPoint training).exec = System.exec isPoint training := by
  funext s task
  cases task with
  | beat task =>
    show ((WorkerPending.advance s)^[task.kind.later] (.beat (task.prepare s.database))).land
      isPoint s = _
    rw [advance_beat]
    exact congrArg (fun database => { s with database }) (land_prepare isPoint _ task)
  | retrainDelayModel run =>
    refine congrArg (fun artifact => { s with artifact }) ?_
    show (run.artifact training s.database.live.trainingFeatures none).or s.artifact =
      run.artifact training s.database.live.trainingFeatures s.artifact
    unfold Retrain.artifact
    split
    · split <;> rfl
    · rfl

/-- What the workers leave after the events of a schedule, if nobody is at work before. -/
def System.schedule (s : System) (events : List (Event WorkerTask (Option TaskKind))) : System :=
  (replay Machine.step (Machine.idle (overlapping isPoint training) s) events).state

/-- A serial schedule runs the tasks that commit. -/
theorem schedule_serially (s : System) (turns : List (Turn WorkerTask)) :
    s.schedule isPoint training ((overlapping isPoint training).serially turns) =
      replay (System.exec isPoint training) s (committedTurns turns) := by
  rw [System.schedule, replay_serially, overlapping_exec]
  rfl

/-- Schedules with the same order of conflicting events leave the same. -/
theorem schedule_eq_of_sameOrder (s : System)
    {events events' : List (Event WorkerTask (Option TaskKind))}
    (h : SameOrder (overlapping isPoint training).label (overlapping isPoint training).Conflicts
      events events') :
    s.schedule isPoint training events = s.schedule isPoint training events' := by
  rw [System.schedule, System.schedule, replay_eq_of_sameOrder h]

/-! ## What is stored, but for the serial numbers -/

/-- The rows of a table, in no order and without their numbers. -/
def rowValues {ν : Type} (log : Log ν) : Multiset ν := log.rows.map Row.data

/-- What the system holds; a row that refers to another one by its number stands with that. -/
structure Holdings where
  tripUpdates : Multiset (TripUpdate × Multiset StopTimeValues)
  vehiclePositions : Multiset VehiclePosition
  delayObservations : Multiset DelayObservation
  weatherObservations : Multiset WeatherObservation
  publicHolidays : Multiset PublicHoliday
  routeDelayStats : Multiset RouteDelayStats
  trainingFeatures : Multiset (Option DelayObservation × TrainingFeature)
  agencies : Multiset Agency
  routes : Multiset Route
  stops : Multiset Stop
  trips : Multiset Trip
  calendar : Multiset Calendar
  calendarDates : Multiset CalendarDate
  stopTimes : Multiset StopTime
  artifact : Option (Pipeline × TrainingMetrics)

def System.holdings (s : System) : Holdings where
  tripUpdates := Multiset.ofList <| s.database.live.tripUpdates.rows.map fun r =>
    (r.data, Multiset.ofList <| (s.database.live.stopTimeUpdates.rows.filter fun u =>
      u.data.tripUpdateId = r.id).map (·.data.toStopTimeValues))
  vehiclePositions := rowValues s.database.live.vehiclePositions
  delayObservations := rowValues s.database.live.delayObservations.toLog
  weatherObservations := rowValues s.database.live.weatherObservations.toLog
  publicHolidays := rowValues s.database.live.publicHolidays.toLog
  routeDelayStats := rowValues s.database.live.routeDelayStats.toLog
  trainingFeatures := s.database.live.trainingFeatures.rows.map fun r =>
    ((s.database.live.delayObservations.rows.find? fun o =>
      o.id = r.data.observationId).map Row.data, { r.data with observationId := 0 })
  agencies := rowValues s.database.static.agencies.toLog
  routes := rowValues s.database.static.routes.toLog
  stops := rowValues s.database.static.stops.toLog
  trips := rowValues s.database.static.trips.toLog
  calendar := rowValues s.database.static.calendar.toLog
  calendarDates := rowValues s.database.static.calendarDates.toLog
  stopTimes := rowValues s.database.static.stopTimes.toLog
  artifact := s.artifact

/-- **A schedule of overlapping tasks that orders their conflicting events like a serial one
leaves what that one leaves**, up to serial numbers. -/
theorem overlapping_eq_serial (s : System) {events : List (Event WorkerTask (Option TaskKind))}
    {turns : List (Turn WorkerTask)}
    (h : SameOrder (overlapping isPoint training).label (overlapping isPoint training).Conflicts
      events ((overlapping isPoint training).serially turns)) :
    (s.schedule isPoint training events).holdings =
      (replay (System.exec isPoint training) s (committedTurns turns)).holdings := by
  rw [schedule_eq_of_sameOrder isPoint training s h, schedule_serially]

/-- Of two polls that commit between the `DELETE`s of a pruning, the one of the vehicles comes
before it and the one of the trip updates after it. -/
theorem pollsAmidPruning :
    let prune := WorkerTask.beat (.pruneRealtime (hours 7) 6)
    let vehicles := WorkerTask.beat (.pollVehiclePositions vehicleFeed)
    let trips := WorkerTask.beat (.pollTripUpdates (tripFeed 1000 [("S1", 60)]))
    (System.empty.schedule (fun _ _ => true) .default
        [.start 0 prune, .start 1 vehicles, .commit 1 vehicles.kind, .start 2 trips,
          .commit 2 trips.kind, .send 0 prune.kind, .commit 0 prune.kind]).holdings =
      (replay (System.exec (fun _ _ => true) .default) System.empty
        [vehicles, prune, trips]).holdings := by
  intro prune vehicles trips
  let P := overlapping (fun _ _ => true) .default
  -- The first `DELETE` reads no positions, and the second no trip updates.
  have hfirst : ¬ P.Overtakes prune.kind vehicles.kind :=
    not_not.2 (show Disjoint TaskKind.pruneRealtime.seen TaskKind.pollVehiclePositions.writes by
      decide)
  have hsecond : ¬ P.Rereads prune.kind trips.kind :=
    not_not.2 (show Disjoint TaskKind.pruneRealtime.seenLater TaskKind.pollTripUpdates.writes by
      decide)
  have htrips : ¬ P.Overtakes trips.kind prune.kind :=
    not_not.2 (show Disjoint TaskKind.pollTripUpdates.seen TaskKind.pruneRealtime.writes by
      decide)
  have hswaps : Swaps (Independent P.label P.Conflicts)
      [.start 0 prune, .start 1 vehicles, .commit 1 vehicles.kind, .start 2 trips,
        .commit 2 trips.kind, .send 0 prune.kind, .commit 0 prune.kind]
      (P.serially [⟨1, vehicles, true⟩, ⟨0, prune, true⟩, ⟨2, trips, true⟩]) := by
    refine .head (.mk [] _ _ _ ?_) (.head (.mk [_] _ _ _ ?_) (.head (.mk [_, _, _, _] _ _ _ ?_)
      (.head (.mk [_, _, _] _ _ _ ?_) (.head (.mk [_, _, _, _, _] _ _ _ ?_)
        (.head (.mk [_, _, _, _] _ _ _ ?_) .refl)))))
    · exact Phases.not_conflicts_starts (by decide)
    · exact Phases.not_conflicts_start_commit (by decide) hfirst
    · exact fun h => Phases.not_conflicts_send_commit (by decide) hsecond (P.conflicts_symm h)
    · exact Phases.not_conflicts_start_send (by decide)
    · exact Phases.not_conflicts_commits (by decide) (fun h => by cases h.1) (fun h => by cases h.1)
    · exact Phases.not_conflicts_start_commit (by decide) htrips
  have hserial := overlapping_eq_serial (fun _ _ => true) .default System.empty
    ((swaps_iff_sameOrder P.conflicts_refl fun _ _ => P.conflicts_symm).1 hswaps)
  exact hserial

-- The stale position of that poll is pruned; it stays when it is committed after the second
-- `DELETE`.
example :
    let prune := WorkerTask.beat (.pruneRealtime (hours 7) 6)
    let poll := WorkerTask.beat (.pollVehiclePositions vehicleFeed)
    let positionsLeft := fun events =>
      (System.empty.schedule (fun _ _ => true) .default
        events).database.live.vehiclePositions.rows.length
    positionsLeft [.start 0 prune, .start 1 poll, .commit 1 poll.kind, .send 0 prune.kind,
        .commit 0 prune.kind] = 0 ∧
      positionsLeft [.start 0 prune, .start 1 poll, .send 0 prune.kind, .commit 1 poll.kind,
        .commit 0 prune.kind] = 1 := by
  decide

/-- **The two stages of the feature pipeline, started together** as the beat schedule does:
whichever starts and whichever commits first, the rebuild has the statistics of before. -/
theorem startedTogether (s : System) {n m : ℕ} (hnm : n ≠ m) (windowDays : ℤ)
    (clock now since now' : Instant) (refreshStarts refreshCommits : Bool) :
    let refresh := WorkerTask.beat (.refreshRouteStats windowDays clock now)
    let rebuild := WorkerTask.beat (.rebuildFeatures since now')
    let starts := [Event.start n refresh, .start m rebuild]
    let commits := [Event.commit n refresh.kind, .commit m rebuild.kind]
    s.schedule isPoint training
        ((if refreshStarts then starts else starts.reverse) ++
          if refreshCommits then commits else commits.reverse) =
      replay (System.exec isPoint training) s [rebuild, refresh] := by
  intro refresh rebuild starts commits
  let P := overlapping isPoint training
  have hstarts : Swaps (Independent P.label P.Conflicts)
      ((if refreshStarts then starts else starts.reverse) ++
        if refreshCommits then commits else commits.reverse)
      ([.start m rebuild, .start n refresh] ++
        if refreshCommits then commits else commits.reverse) := by
    cases refreshStarts with
    | true => exact .single (.mk [] _ _ _ (Phases.not_conflicts_starts hnm))
    | false => exact .refl
  have hcommits : Swaps (Independent P.label P.Conflicts)
      ([.start m rebuild, .start n refresh] ++
        if refreshCommits then commits else commits.reverse)
      [.start m rebuild, .start n refresh, .commit m rebuild.kind, .commit n refresh.kind] := by
    cases refreshCommits with
    | true =>
      refine .single (.mk [_, _] [] _ _ (Phases.not_conflicts_commits hnm ?_ ?_)) <;>
        rintro ⟨h, -⟩ <;> cases h
    | false => exact .refl
  -- The rebuild commits before the refresh starts: that writes nothing the refresh reads.
  have hrebuild : Swaps (Independent P.label P.Conflicts)
      [.start m rebuild, .start n refresh, .commit m rebuild.kind, .commit n refresh.kind]
      (P.serially [⟨m, rebuild, true⟩, ⟨n, refresh, true⟩]) := by
    refine .single (.mk [_] [_] _ _ (Phases.not_conflicts_start_commit hnm (not_not.2 ?_)))
    show Disjoint TaskKind.refreshRouteStats.seen TaskKind.rebuildFeatures.writes
    decide
  have hsame := (swaps_iff_sameOrder P.conflicts_refl fun _ _ => P.conflicts_symm).1
    ((hstarts.trans hcommits).trans hrebuild)
  exact (schedule_eq_of_sameOrder isPoint training s hsame).trans
    (schedule_serially isPoint training s _)

-- A refresh, a poll that commits before a rebuild starts, and the rebuild within the refresh:
-- no serial order of the three leaves the same.
example :
    let isPoint : XFloat → XFloat → Bool := fun _ _ => true
    let poll := fun stopId => WorkerTask.beat (.pollTripUpdates (tripFeed 1000 [(stopId, 60)]))
    let refresh := WorkerTask.beat (.refreshRouteStats 30 2000 2000)
    let rebuild := WorkerTask.beat (.rebuildFeatures 0 2000)
    let s := System.empty.exec isPoint .default (poll "S1")
    let left := fun s : System => (s.database.live.routeDelayStats.data.map (·.sampleCount),
      s.database.live.trainingFeatures.data.map (·.routeAvgDelay30dS))
    left (s.schedule isPoint .default
        [.start 0 refresh, .start 1 (poll "S2"), .commit 1 (some .pollTripUpdates),
          .start 1 rebuild, .commit 1 (some .rebuildFeatures),
          .commit 0 (some .refreshRouteStats)]) ∉
      [[refresh, poll "S2", rebuild], [refresh, rebuild, poll "S2"],
        [poll "S2", refresh, rebuild], [poll "S2", rebuild, refresh],
        [rebuild, refresh, poll "S2"], [rebuild, poll "S2", refresh]].map fun order =>
          left (replay (System.exec isPoint .default) s order) := by
  decide

/-! ## What is decided at the start -/

/-- The tasks that write one part of the system, from what they have read at their start. -/
def WorkerTask.IsStage (task : WorkerTask) : Prop :=
  task.kind ∈ [none, some .refreshRouteStats, some .rebuildFeatures]

omit isPoint training in
/-- Nobody else writes into the tables of the feature pipeline. -/
theorem not_mem_writes_of_stage {j k : TaskKind}
    (hk : some k ∈ [none, some TaskKind.refreshRouteStats, some .rebuildFeatures]) (hjk : j ≠ k)
    {t : TableName} (ht : t ∈ k.writes) : t ∉ j.writes := by
  have hstage : k = .refreshRouteStats ∨ k = .rebuildFeatures := by simpa using hk
  revert hjk ht
  rcases hstage with rfl | rfl <;> cases j <;> cases t <;> decide

/-- Commits of other kinds leave what such a task writes alone. -/
theorem part_land_of_ne {task : WorkerTask} (hstage : task.IsStage) {p : WorkerPending}
    (hne : p.kind ≠ task.kind) (s : System) {part : Option TableName} (hpart : part ∈ task.writes) :
    (p.land isPoint s).part part = s.part part := by
  cases task with
  | beat task =>
    obtain ⟨t, ht, rfl⟩ := hpart
    cases p with
    | beat p =>
      refine land_frame isPoint p s.database (not_mem_writes_of_stage hstage (fun heq => ?_) ht)
      exact hne (congrArg some heq)
    | artifact new => rfl
  | retrainDelayModel run =>
    obtain rfl : part = none := hpart
    cases p with
    | beat p => rfl
    | artifact new => exact absurd rfl hne

/-- What a commit makes of the parts it writes depends on what they hold. -/
theorem part_land_congr {task : WorkerTask} {s₀ s : System}
    (hready : (task.prepare training s₀).Ready s) (h : AgreeOn System.part task.writes s s₀)
    {part : Option TableName} (hpart : part ∈ task.writes) :
    ((task.prepare training s₀).land isPoint s).part part =
      ((task.prepare training s₀).land isPoint s₀).part part := by
  cases task with
  | beat task =>
    obtain ⟨t, ht, rfl⟩ := hpart
    refine land_stable isPoint (task.prepare s₀.database) hready (ready_prepare _ task) ?_ ?_
    · rw [kind_prepare]
      exact fun u hu => h (some u) ⟨u, hu, rfl⟩
    · rwa [kind_prepare]
  | retrainDelayModel run =>
    obtain rfl : part = none := hpart
    have hartifact : s.artifact = s₀.artifact := h none rfl
    exact congrArg (Option.or _) hartifact

/-- All that such a task reads it reads in its first statement. -/
theorem laterStatements_of_stage {task : WorkerTask} (hstage : task.IsStage) :
    laterStatements task.kind = 0 := by
  have hkinds : task.kind = none ∨ task.kind = some .refreshRouteStats ∨
      task.kind = some .rebuildFeatures := by simpa [WorkerTask.IsStage] using hstage
  rcases hkinds with h | h | h <;> rw [h] <;> rfl

theorem land_of_stage {task : WorkerTask} (hstage : task.IsStage) (s : System) :
    (task.prepare training s).land isPoint s = s.exec isPoint training task := by
  rw [← overlapping_exec]
  show _ = WorkerPending.land isPoint s
    ((WorkerPending.advance s)^[laterStatements task.kind] (task.prepare training s))
  rw [laterStatements_of_stage hstage]
  rfl

section Decided

variable {n : ℕ} {task : WorkerTask} (hstage : task.IsStage)
include hstage

/-- What an event between its start and its commit preserves. -/
theorem step_between {m : Machine (overlapping isPoint training)}
    {e : Event WorkerTask (Option TaskKind)} (hworker : e.worker ≠ n)
    (hkind : ∀ w, e ≠ .commit w task.kind) :
    (m.step e).started n = m.started n ∧
      AgreeOn System.part task.writes (m.step e).state m.state := by
  refine ⟨Function.update_of_ne (Ne.symm hworker) .., fun part hpart => ?_⟩
  show ((overlapping isPoint training).stateAfter (m.started e.worker) m.state e).part part =
    m.state.part part
  rcases stateAfter_cases (P := overlapping isPoint training) (m.started e.worker) e with
    he | ⟨u, w, -, rfl, he⟩
  · rw [he]
  · rw [he]
    refine part_land_of_ne isPoint hstage (fun h => hkind w ?_) m.state hpart
    exact congrArg (Event.commit w) h

/-- What a run between its start and its commit preserves. -/
theorem replay_between {between : List (Event WorkerTask (Option TaskKind))}
    (hbetween : ∀ e ∈ between, e.worker ≠ n ∧ ∀ w, e ≠ .commit w task.kind)
    (m : Machine (overlapping isPoint training)) :
    (replay Machine.step m between).started n = m.started n ∧
      AgreeOn System.part task.writes (replay Machine.step m between).state m.state := by
  induction between generalizing m with
  | nil => exact ⟨rfl, fun _ _ => rfl⟩
  | cons e between ih =>
    obtain ⟨hworker, hkind⟩ := hbetween e (by simp)
    obtain ⟨hstarted, hparts⟩ := step_between isPoint training hstage (m := m) hworker hkind
    obtain ⟨hstarted', hparts'⟩ := ih (fun f hf => hbetween f (by simp [hf])) (m.step e)
    rw [replay_cons]
    exact ⟨hstarted'.trans hstarted, fun part hpart =>
      (hparts' part hpart).trans (hparts part hpart)⟩

/-- **What a refresh, a rebuild or a retraining leaves is decided when it starts**, whatever
commits or is aborted in between, unless another one of its kind commits. -/
theorem decided_at_start {m : Machine (overlapping isPoint training)} (hidle : m.started n = none)
    {between : List (Event WorkerTask (Option TaskKind))}
    (hbetween : ∀ e ∈ between, e.worker ≠ n ∧ ∀ w, e ≠ .commit w task.kind) :
    AgreeOn System.part task.writes
      (replay Machine.step m (.start n task :: between ++ [.commit n task.kind])).state
      (m.state.exec isPoint training task) := by
  intro part hpart
  obtain ⟨hstarted, hparts⟩ :=
    replay_between isPoint training hstage hbetween (m.step (.start n task))
  set m' := replay Machine.step (m.step (.start n task)) between with hm'
  -- The worker has been about to write the same all along.
  have hpending : m'.started n = some ⟨task.prepare training m.state, 0⟩ := by
    rw [hstarted]
    show Function.update m.started n _ n = _
    rw [Function.update_self]
    show (m.started n).or (some ⟨task.prepare training m.state, laterStatements task.kind⟩) = _
    rw [hidle, laterStatements_of_stage hstage]
    rfl
  have hkind : ((overlapping isPoint training).prepare task m.state).kind = task.kind :=
    (overlapping isPoint training).kind_prepare task m.state
  have hlanded : (m'.step (.commit n task.kind)).state =
      (task.prepare training m.state).land isPoint m'.state := by
    show (overlapping isPoint training).stateAfter (m'.started n) m'.state
      (.commit n task.kind) = _
    rw [hpending]
    exact if_pos ⟨hkind, rfl⟩
  calc (replay Machine.step m (.start n task :: between ++ [.commit n task.kind])).state.part part
      = (m'.step (.commit n task.kind)).state.part part := by
        rw [List.cons_append, replay_cons, replay_snoc]
    _ = ((task.prepare training m.state).land isPoint m'.state).part part := by rw [hlanded]
    _ = ((task.prepare training m.state).land isPoint m.state).part part :=
        part_land_congr isPoint training (m'.ready n _ hpending) hparts hpart
    _ = (m.state.exec isPoint training task).part part := by
        rw [land_of_stage isPoint training hstage]

end Decided

/-- A rebuild in the midst of which a refresh commits has the statistics of before. -/
theorem refreshAmidRebuild :
    let poll := WorkerTask.beat (.pollTripUpdates (tripFeed 1000 [("S1", 60)]))
    let refresh := WorkerTask.beat (.refreshRouteStats 30 2000 2000)
    let rebuild := WorkerTask.beat (.rebuildFeatures 0 2000)
    let s := System.empty.exec (fun _ _ => true) .default poll
    AgreeOn System.part rebuild.writes
      (replay Machine.step (Machine.idle (overlapping (fun _ _ => true) .default) s)
        (.start 0 rebuild :: [.start 1 refresh, .commit 1 refresh.kind] ++
          [.commit 0 rebuild.kind])).state
      (s.exec (fun _ _ => true) .default rebuild) := by
  intro poll refresh rebuild s
  refine decided_at_start (fun _ _ => true) .default ?_ rfl ?_
  · simp [WorkerTask.IsStage, rebuild, WorkerTask.kind, BeatTask.kind]
  · intro e he
    rcases List.mem_pair.1 he with rfl | rfl
    · exact ⟨by decide, fun w => by simp⟩
    · exact ⟨by decide, fun w => by simp [refresh, rebuild, WorkerTask.kind, BeatTask.kind]⟩

/-! ## What does not depend on the schedule -/

/-- The tables that only tasks write whose statements find no rows. -/
def writtenLate : Finset TableName :=
  {.delayObservations, .weatherObservations, .publicHolidays}

/-- What these tables hold. -/
def lateTables (s : System) (t : writtenLate) : t.1.Content :=
  s.database.table t.1

omit isPoint training in
theorem finds_of_writtenLate {k : TaskKind} {t : TableName} (ht : t ∈ k.writes)
    (hlate : t ∈ writtenLate) : k.finds = false := by
  revert ht hlate
  cases k <;> cases t <;> decide

omit isPoint training in
theorem inputs_of_writtenLate {t : TableName} (hlate : t ∈ writtenLate) : t.inputs = {t} := by
  revert hlate
  cases t <;> decide

/-- A task whose statements find no rows is yet to do all it does. -/
theorem whole_of_found {task : BeatTask} (h : task.kind.finds = false) {p : WorkerPending}
    (hfound : (overlapping isPoint training).Found (.beat task) p) :
    p = .beat (.whole task h) := by
  induction hfound with
  | first s => cases task <;> first | rfl | cases h
  | later s _ ih =>
    rw [ih]
    rfl

/-- A commit makes of these tables what its task would make of them now. -/
theorem lateTables_land (task : WorkerTask) {p : WorkerPending}
    (hfound : (overlapping isPoint training).Found task p) {s t : System}
    (h : lateTables s = lateTables t) :
    lateTables (p.land isPoint s) = lateTables (t.exec isPoint training task) := by
  have htables : ∀ u : TableName, u ∈ writtenLate → s.database.table u = t.database.table u :=
    fun u hu => congrFun h ⟨u, hu⟩
  have hkind : p.kind = task.kind := hfound.kind_eq
  funext ⟨u, hu⟩
  cases task with
  | retrainDelayModel run =>
    cases p with
    | beat p => cases hkind
    | artifact new => exact htables u hu
  | beat task =>
    have htask := footprint isPoint task
    show (p.land isPoint s).database.table u = (t.database.exec isPoint task).table u
    by_cases hw : u ∈ task.kind.writes
    · rw [whole_of_found isPoint training (finds_of_writtenLate hw hu) hfound]
      refine htask.inputs s.database t.database u hw fun v hv => ?_
      rw [inputs_of_writtenLate hu, Finset.coe_singleton, Set.mem_singleton_iff] at hv
      rw [hv]
      exact htables u hu
    · rw [htask.frame t.database u hw, ← htables u hu]
      cases p with
      | beat p =>
        refine land_frame isPoint p s.database ?_
        rwa [Option.some.inj hkind]
      | artifact new => cases hkind

/-- **Whatever overlaps**, the observations, the weather and the holidays are what the tasks
that commit leave of them one by one, in the order in which they commit. -/
theorem lateTables_of_commits (s : System)
    (events : List (Event WorkerTask (Option TaskKind))) :
    lateTables (s.schedule isPoint training events) =
      lateTables (replay (System.exec isPoint training) s
        ((overlapping isPoint training).committed (fun _ => none) events)) := by
  rw [← overlapping_exec]
  refine view_commitOrder ?_ events (fun _ => .idle) rfl
  intro task p s t hfound _ h
  rw [overlapping_exec]
  exact lateTables_land isPoint training task hfound h

/-- **Whatever overlaps, `predict_delay` answers from the trip update polls that committed**,
in the order of their commits. -/
theorem predictions_of_commits (s : System)
    (events : List (Event WorkerTask (Option TaskKind))) (rt : Runtime) (settings : Settings)
    (now : Instant) (req : PredictionRequest) :
    let committed := (overlapping isPoint training).committed (fun _ => none) events
    let polls := (beats committed).filter BeatTask.isTripPoll
    predictDelayUncached rt settings (s.schedule isPoint training events).database.live now req =
      predictDelayUncached rt settings (replay (Database.exec isPoint) s.database polls).live now
        req := by
  intro committed polls
  refine predictDelayUncached_of_observations ?_ rt settings now req
  have hobs := congrFun (lateTables_of_commits isPoint training s events)
    ⟨.delayObservations, by decide⟩
  have hpolls := table_determined isPoint s.database (beats committed) .delayObservations
  rw [feeds_delayObservations] at hpolls
  calc (s.schedule isPoint training events).database.live.delayObservations
      = (replay (System.exec isPoint training) s committed).database.live.delayObservations := hobs
    _ = (replay (Database.exec isPoint) s.database (beats committed)).live.delayObservations := by
        rw [database_replay]
    _ = (replay (Database.exec isPoint) s.database polls).live.delayObservations := hpolls

end Workers

end DelayPredictor
