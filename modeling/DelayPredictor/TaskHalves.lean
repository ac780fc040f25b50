import DelayPredictor.Interleavings

/-!
# The two halves of the tasks

The tasks that write to the database are single transactions under PostgreSQL's default
isolation: an `INSERT … SELECT` and a `DELETE` find the rows that are committed when they
start, and what they write is seen when the task commits.

* `BeatTask.prepare`, `Pending.advance` — what a task finds out in its first statement and in
  the next one; `Pending.land` — what its commit does with that.
* `land_prepare` — **the two halves of a task are the task.**
* `land_comm` — **commits that do not overwrite each other can come in either order**, with
  rows that are deleted as with rows that are added.
* `prepare_land`, `advance_land` — **a statement finds the same before and after a commit that
  writes nothing it reads.**

Serial numbers tell rows apart; they are given out at the commit here, and a task that is
aborted uses none up.  What a refresh of the static feed reads, statement by statement, is
read at the commit here, which is the same as long as no other refresh commits in between.
-/

namespace DelayPredictor

open Keyed PyTime Runs Stats Traces

/-! ## The writes -/

/-- What the two `DELETE`s of `prune_old_realtime` do, given the rows they have found. -/
def Db.delete (db : Db) (tripUpdates vehiclePositions : List ℕ) : Db :=
  { db with
    tripUpdates := db.tripUpdates.drop tripUpdates
    stopTimeUpdates := db.stopTimeUpdates.keep fun s => s.tripUpdateId ∉ tripUpdates
    vehiclePositions := db.vehiclePositions.drop vehiclePositions
    stopTime_fk := by
      intro s hs
      obtain ⟨hmem, hkept⟩ := List.mem_filter.1 hs
      obtain ⟨t, ht, hid⟩ := List.mem_map.1 (db.stopTime_fk s hmem)
      refine List.mem_map.2 ⟨t, List.mem_filter.2 ⟨ht, ?_⟩, hid⟩
      rw [hid]
      exact hkept }

/-- The insert of `_ROUTE_STATS_SQL`, given the rows of its select. -/
def Db.upsertRouteStats (db : Db) (rows : List RouteDelayStats) : Db :=
  match db.routeDelayStats.upsert rows with
  | some routeDelayStats => { db with routeDelayStats }
  | none => db

/-- The insert of `_FEATURES_SQL`, given the rows of its select: the observations they
refer to are looked up when they are written. -/
def Db.upsertFeatures (db : Db) (rows : List TrainingFeature) : Db :=
  match db.trainingFeatures.upsert rows with
  | some trainingFeatures =>
    if fk : ∀ f ∈ trainingFeatures.rows,
        f.data.observationId ∈ db.delayObservations.rows.map Row.id then
      { db with trainingFeatures, feature_fk := fk }
    else db
  | none => db

/-! ## The two halves of a task -/

/-- The tables that a task reads before it commits, but for a second `DELETE`. -/
def TaskKind.seen : TaskKind → Finset TableName
  | .pruneRealtime => {.tripUpdates}
  | .refreshStaticFeed => {.staticFeed}
  | .refreshRouteStats => {.delayObservations}
  | .rebuildFeatures =>
    {.delayObservations, .weatherObservations, .publicHolidays, .routeDelayStats}
  | _ => ∅

/-- The tables that the second `DELETE` reads. -/
def TaskKind.seenLater : TaskKind → Finset TableName
  | .pruneRealtime => {.vehiclePositions}
  | _ => ∅

/-- How many statements that find rows come after the first one. -/
def TaskKind.later : TaskKind → ℕ
  | .pruneRealtime => 1
  | _ => 0

/-- The kinds whose statements find the rows that they write. -/
def TaskKind.finds : TaskKind → Bool
  | .pruneRealtime | .refreshRouteStats | .rebuildFeatures => true
  | _ => false

/-- What a task is about to write. -/
inductive Pending where
  /-- All that a task does whose statements do not find rows. -/
  | whole (task : BeatTask) (late : task.kind.finds = false)
  /-- The rows that the `DELETE`s have found up to now. -/
  | deletions (cutoff : Instant) (tripUpdates vehiclePositions : List ℕ)
  | routeStats (rows : List RouteDelayStats)
  | features (rows : List TrainingFeature)

/-- The kind of the task. -/
def Pending.kind : Pending → TaskKind
  | .whole task _ => task.kind
  | .deletions _ _ _ => .pruneRealtime
  | .routeStats _ => .refreshRouteStats
  | .features _ => .rebuildFeatures

/-- The rows that a `DELETE` of `prune_old_realtime` finds. -/
def staleIds {ν : Type} (recordedAt : ν → Instant) (log : Log ν) (cutoff : Instant) : List ℕ :=
  (log.rows.filter fun r => !decide (cutoff ≤ recordedAt r.data)).map Row.id

/-- What a task has found out in its first statement. -/
def BeatTask.prepare (d : Database) : BeatTask → Pending
  | .pollTripUpdates poll => .whole (.pollTripUpdates poll) rfl
  | .pollVehiclePositions poll => .whole (.pollVehiclePositions poll) rfl
  | .pruneRealtime now retentionHours =>
    let cutoff := now - hours retentionHours
    .deletions cutoff (staleIds TripUpdate.recordedAt d.live.tripUpdates cutoff) []
  | .refreshStaticFeed faults payload => .whole (.refreshStaticFeed faults payload) rfl
  | .pollWeather run => .whole (.pollWeather run) rfl
  | .syncHolidays run => .whole (.syncHolidays run) rfl
  | .refreshRouteStats windowDays clock now =>
    .routeStats (routeStatsSelect d.live (clock - days windowDays) clock now)
  | .rebuildFeatures since now => .features (proposedFeatures d.live since now)

/-- What it has found out in the next one: the second `DELETE` has the cutoff of the first. -/
def Pending.advance (d : Database) : Pending → Pending
  | .deletions cutoff tripUpdates _ =>
    .deletions cutoff tripUpdates
      (staleIds VehiclePosition.recordedAt d.live.vehiclePositions cutoff)
  | p => p

/-- What a commit leaves. -/
def Pending.land (isPoint : XFloat → XFloat → Bool) (d : Database) : Pending → Database
  | .whole task _ => d.exec isPoint task
  | .deletions _ tripUpdates vehiclePositions =>
    { d with live := d.live.delete tripUpdates vehiclePositions }
  | .routeStats rows => { d with live := d.live.upsertRouteStats rows }
  | .features rows => { d with live := d.live.upsertFeatures rows }

/-- What a task has found out when it commits, if nobody interrupts it. -/
def BeatTask.prepared (d : Database) (task : BeatTask) : Pending :=
  (Pending.advance d)^[task.kind.later] (task.prepare d)

theorem kind_prepare (d : Database) (task : BeatTask) : (task.prepare d).kind = task.kind := by
  cases task <;> rfl

theorem kind_advance (d : Database) (p : Pending) : (p.advance d).kind = p.kind := by
  cases p <;> rfl

/-- The deletions of a pruning that nobody interrupts. -/
theorem delete_found (db : Db) (now : Instant) (retentionHours : ℤ) :
    db.delete (staleIds TripUpdate.recordedAt db.tripUpdates (now - hours retentionHours))
        (staleIds VehiclePosition.recordedAt db.vehiclePositions (now - hours retentionHours)) =
      pruneOldRealtime db now retentionHours := by
  unfold Db.delete pruneOldRealtime staleIds
  congr 1
  · exact db.tripUpdates.drop_filter fun r => decide (now - hours retentionHours ≤ r.recordedAt)
  · ext1
    · refine List.filter_congr fun s hs => ?_
      obtain ⟨t, ht, hid⟩ := List.mem_map.1 (db.stopTime_fk s hs)
      -- The trip update is deleted or kept, and has its number to itself.
      beta_reduce
      rw [← hid, Bool.eq_iff_iff, decide_eq_true_iff, List.contains_iff_mem, List.mem_map,
        List.mem_map, Log.keep_rows]
      constructor
      · intro hkept
        refine ⟨t, List.mem_filter.2 ⟨ht, ?_⟩, rfl⟩
        by_contra hold
        exact hkept ⟨t, List.mem_filter.2 ⟨ht, by simpa using hold⟩, rfl⟩
      · rintro ⟨t', ht', hid'⟩ ⟨t'', ht'', hid''⟩
        obtain ⟨hmem', hnew⟩ := List.mem_filter.1 ht'
        obtain ⟨hmem'', hold⟩ := List.mem_filter.1 ht''
        rw [db.tripUpdates.eq_of_id_eq hmem' hmem'' (hid'.trans hid''.symm)] at hnew
        simp only [hnew, Bool.not_true, Bool.false_eq_true] at hold
    · rfl
  · exact db.vehiclePositions.drop_filter fun r =>
      decide (now - hours retentionHours ≤ r.recordedAt)

/-- The insert of a rebuild that nobody interrupts. -/
theorem upsertFeatures_proposed (db : Db) (since now : Instant) :
    db.upsertFeatures (proposedFeatures db since now) = rebuildTrainingFeatures db since now := by
  obtain ⟨fk, h⟩ := rebuildTrainingFeatures_eq db since now
  rw [h]
  unfold Db.upsertFeatures
  rw [Table.upsert_eq_some _ (proposedFeatures_nodup db since now)]
  exact dif_pos fk

/-- **The two halves of a task are the task.** -/
theorem land_prepare (isPoint : XFloat → XFloat → Bool) (d : Database) (task : BeatTask) :
    (task.prepared d).land isPoint d = d.exec isPoint task := by
  cases task with
  | pruneRealtime now retentionHours =>
    exact congrArg (fun live => { d with live }) (delete_found d.live now retentionHours)
  | rebuildFeatures since now =>
    exact congrArg (fun live => { d with live }) (upsertFeatures_proposed d.live since now)
  | _ => rfl

/-! ## What a commit reads and writes -/

/-- What a write takes for granted: the rows it deletes have been there, and the
observations it refers to are. -/
def Pending.Ready (d : Database) : Pending → Prop
  | .deletions _ tripUpdates vehiclePositions =>
    (∀ id ∈ tripUpdates, id < d.live.tripUpdates.nextId) ∧
      ∀ id ∈ vehiclePositions, id < d.live.vehiclePositions.nextId
  | .features rows =>
    (rows.map TrainingFeature.upsert.key).Nodup ∧
      ∀ f ∈ rows, f.observationId ∈ d.live.delayObservations.rows.map Row.id
  | _ => True

theorem staleIds_lt {ν : Type} {recordedAt : ν → Instant} {log : Log ν} {cutoff : Instant}
    {id : ℕ} (h : id ∈ staleIds recordedAt log cutoff) : id < log.nextId := by
  obtain ⟨r, hr, rfl⟩ := List.mem_map.1 h
  exact log.ids_lt r (List.mem_of_mem_filter hr)

theorem ready_prepare (d : Database) (task : BeatTask) : (task.prepare d).Ready d := by
  cases task with
  | pruneRealtime now retentionHours =>
    exact ⟨fun id hid => staleIds_lt hid, fun id hid => by cases hid⟩
  | rebuildFeatures since now =>
    refine ⟨proposedFeatures_nodup d.live since now, fun f hf => ?_⟩
    obtain ⟨c, hc, rfl⟩ := List.mem_map.1 hf
    have hid : c.observationId ∈ (featureSelect d.live since).map (·.observationId) :=
      List.mem_map_of_mem hc
    rw [featureSelect_observationId] at hid
    exact (List.filter_sublist.map Row.id).subset hid
  | _ => trivial

theorem ready_advance {p : Pending} {d : Database} (h : p.Ready d) : (p.advance d).Ready d := by
  cases p with
  | deletions cutoff tripUpdates vehiclePositions => exact ⟨h.1, fun id hid => staleIds_lt hid⟩
  | _ => exact h

/-- Neither numbers nor observations are ever taken back. -/
structure Database.Grows (d d' : Database) : Prop where
  tripUpdates : d.live.tripUpdates.nextId ≤ d'.live.tripUpdates.nextId
  vehiclePositions : d.live.vehiclePositions.nextId ≤ d'.live.vehiclePositions.nextId
  observations : d.live.delayObservations.rows.map Row.id ⊆
    d'.live.delayObservations.rows.map Row.id

theorem Pending.Ready.of_grows {p : Pending} {d d' : Database} (h : p.Ready d)
    (hgrows : d.Grows d') : p.Ready d' := by
  cases p with
  | deletions cutoff tripUpdates vehiclePositions =>
    exact ⟨fun id hid => (h.1 id hid).trans_le hgrows.tripUpdates,
      fun id hid => (h.2 id hid).trans_le hgrows.vehiclePositions⟩
  | features rows => exact ⟨h.1, fun f hf => hgrows.observations (h.2 f hf)⟩
  | _ => trivial

section Land

variable (isPoint : XFloat → XFloat → Bool)

/-- The insert of the features, when it is not refused. -/
theorem upsertFeatures_eq {d : Database} {rows : List TrainingFeature}
    (h : (Pending.features rows).Ready d) :
    ∃ fk, d.live.upsertFeatures rows =
      { d.live with
        trainingFeatures := d.live.trainingFeatures.putAll rows
        feature_fk := fk } := by
  have hfk : ∀ f ∈ (d.live.trainingFeatures.putAll rows).rows,
      f.data.observationId ∈ d.live.delayObservations.rows.map Row.id :=
    Table.forall_mem_putAll _ d.live.feature_fk (fun j _ f hf => h.2 f hf) fun r hr f _ _ => hr
  refine ⟨hfk, ?_⟩
  unfold Db.upsertFeatures
  rw [Table.upsert_eq_some _ h.1]
  exact dif_pos hfk

/-- Trip updates are numbered on. -/
theorem nextId_pollTripUpdates (db : Db) (poll : Poll) :
    db.tripUpdates.nextId ≤ (pollTripUpdates db poll).tripUpdates.nextId := by
  rw [pollTripUpdates_eq]
  induction poll.stored generalizing db with
  | nil => exact le_refl _
  | cons r rs ih =>
    have hadd : (db.applyTrip r).tripUpdates.nextId = db.tripUpdates.nextId + 1 := rfl
    have hrest := ih (db.applyTrip r)
    rw [List.foldl_cons]
    omega

/-- A commit leaves the tables alone that its kind does not write. -/
theorem land_frame (p : Pending) (d : Database) {t : TableName} (ht : t ∉ p.kind.writes) :
    (p.land isPoint d).table t = d.table t := by
  cases p with
  | whole task late => exact (footprint isPoint task).frame d t ht
  | deletions cutoff tripUpdates vehiclePositions =>
    change t ∉ TaskKind.pruneRealtime.writes at ht
    cases t <;> first | rfl | exact absurd (by decide) ht
  | routeStats rows =>
    change t ∉ TaskKind.refreshRouteStats.writes at ht
    show Database.table { d with live := d.live.upsertRouteStats rows } t = _
    unfold Db.upsertRouteStats
    split <;> cases t <;> first | rfl | exact absurd (by decide) ht
  | features rows =>
    change t ∉ TaskKind.rebuildFeatures.writes at ht
    show Database.table { d with live := d.live.upsertFeatures rows } t = _
    unfold Db.upsertFeatures
    split
    · split <;> cases t <;> first | rfl | exact absurd (by decide) ht
    · rfl

/-- A kind that writes none of the tables with numbers that are relied on. -/
theorem not_mem_writes_of_ne {k : TaskKind}
    (hk : k ∉ [TaskKind.pollTripUpdates, .pollVehiclePositions, .pruneRealtime]) :
    .tripUpdates ∉ k.writes ∧ .vehiclePositions ∉ k.writes ∧ .delayObservations ∉ k.writes := by
  cases k <;> first | decide | exact absurd (by decide) hk

theorem grows_of_frame (p : Pending) (d : Database)
    (hk : p.kind ∉ [TaskKind.pollTripUpdates, .pollVehiclePositions, .pruneRealtime]) :
    d.Grows (p.land isPoint d) := by
  obtain ⟨htrips, hvehicles, hobs⟩ := not_mem_writes_of_ne hk
  have htrips' : (p.land isPoint d).live.tripUpdates = d.live.tripUpdates :=
    land_frame isPoint p d htrips
  have hvehicles' : (p.land isPoint d).live.vehiclePositions = d.live.vehiclePositions :=
    land_frame isPoint p d hvehicles
  have hobs' : (p.land isPoint d).live.delayObservations = d.live.delayObservations :=
    land_frame isPoint p d hobs
  exact ⟨htrips' ▸ le_refl _, hvehicles' ▸ le_refl _, hobs' ▸ List.Subset.refl _⟩

/-- **No commit takes a number or an observation back.** -/
theorem grows_land (p : Pending) (d : Database) : d.Grows (p.land isPoint d) := by
  cases p with
  | whole task late =>
    cases task with
    | pollTripUpdates poll =>
      have hobs := pollTripUpdates_delayObservations d.live poll
      have hvehicles : (pollTripUpdates d.live poll).vehiclePositions = d.live.vehiclePositions :=
        (keepsTo_pollTripUpdates poll).frame d .vehiclePositions (by decide)
      refine ⟨nextId_pollTripUpdates d.live poll, hvehicles ▸ le_refl _, ?_⟩
      show _ ⊆ (pollTripUpdates d.live poll).delayObservations.rows.map Row.id
      rw [hobs]
      exact d.live.delayObservations.ids_subset_putAll _
    | pollVehiclePositions poll =>
      have hland : (Pending.whole (.pollVehiclePositions poll) late).land isPoint d = _ :=
        congrArg (fun live => { d with live }) (pollVehiclePositions_eq isPoint d.live poll)
      rw [hland]
      exact ⟨le_refl _, Nat.le_add_right .., List.Subset.refl _⟩
    | pruneRealtime now retentionHours =>
      exact absurd late (by simp [BeatTask.kind, TaskKind.finds])
    | _ => exact grows_of_frame isPoint _ d (by simp [Pending.kind, BeatTask.kind])
  | deletions cutoff tripUpdates vehiclePositions =>
    exact ⟨le_refl _, le_refl _, List.Subset.refl _⟩
  | _ => exact grows_of_frame isPoint _ d (by simp [Pending.kind])

/-! ### The order of two commits -/

omit isPoint in
/-- A task whose statements do not find rows reads, to write a table, only tables it writes. -/
theorem inputs_subset_writes {k : TaskKind} (hk : k.finds = false) {t : TableName}
    (ht : t ∈ k.writes) : t.inputs ⊆ k.writes := by
  cases k <;> first | (revert t; decide) | exact absurd hk (by decide)

/-- What a commit makes of the tables it writes depends on what they hold. -/
theorem land_stable (p : Pending) {d d' : Database} (hd : p.Ready d) (hd' : p.Ready d')
    (h : AgreeOn Database.table (p.kind.writes : Set TableName) d d') {t : TableName}
    (ht : t ∈ p.kind.writes) : (p.land isPoint d).table t = (p.land isPoint d').table t := by
  cases p with
  | whole task late =>
    exact (footprint isPoint task).inputs d d' t ht fun u hu =>
      h u (inputs_subset_writes late ht hu)
  | deletions cutoff tripUpdates vehiclePositions =>
    have htrips : d.live.tripUpdates = d'.live.tripUpdates :=
      h .tripUpdates (by simp [Pending.kind, TaskKind.writes])
    have hstops : d.live.stopTimeUpdates = d'.live.stopTimeUpdates :=
      h .stopTimeUpdates (by simp [Pending.kind, TaskKind.writes])
    have hvehicles : d.live.vehiclePositions = d'.live.vehiclePositions :=
      h .vehiclePositions (by simp [Pending.kind, TaskKind.writes])
    change t ∈ TaskKind.pruneRealtime.writes at ht
    cases t with
    | tripUpdates => exact congrArg (·.drop tripUpdates) htrips
    | stopTimeUpdates =>
      exact congrArg (·.keep fun s : StopTimeUpdate => s.tripUpdateId ∉ tripUpdates) hstops
    | vehiclePositions => exact congrArg (·.drop vehiclePositions) hvehicles
    | _ => exact absurd ht (by decide)
  | routeStats rows =>
    obtain rfl : t = .routeDelayStats := Finset.mem_singleton.1 ht
    have hstats : d.live.routeDelayStats = d'.live.routeDelayStats := h _ ht
    show (d.live.upsertRouteStats rows).routeDelayStats =
      (d'.live.upsertRouteStats rows).routeDelayStats
    unfold Db.upsertRouteStats
    rw [hstats]
    cases hup : d'.live.routeDelayStats.upsert rows with
    | none => exact hstats
    | some _ => rfl
  | features rows =>
    obtain rfl : t = .trainingFeatures := Finset.mem_singleton.1 ht
    have hfeatures : d.live.trainingFeatures = d'.live.trainingFeatures := h _ ht
    obtain ⟨fk, hland⟩ := upsertFeatures_eq hd
    obtain ⟨fk', hland'⟩ := upsertFeatures_eq hd'
    show (d.live.upsertFeatures rows).trainingFeatures =
      (d'.live.upsertFeatures rows).trainingFeatures
    rw [hland, hland']
    exact congrArg (·.putAll rows) hfeatures

/-- Commits that write different tables can come in either order. -/
theorem land_comm_of_disjoint {p q : Pending} {d : Database} (hp : p.Ready d) (hq : q.Ready d)
    (h : Disjoint p.kind.writes q.kind.writes) :
    p.land isPoint (q.land isPoint d) = q.land isPoint (p.land isPoint d) := by
  have hdisjoint : Disjoint (p.kind.writes : Set TableName) q.kind.writes :=
    Finset.disjoint_coe.2 h
  apply Database.ext_table
  intro t
  refine commute_of_frames (f := (p.land isPoint ·)) (g := (q.land isPoint ·))
    (fun d t ht => land_frame isPoint p d ht) (fun d t ht => land_frame isPoint q d ht)
    hdisjoint ?_ ?_
  · refine land_stable isPoint p (hp.of_grows (grows_land isPoint q d)) hp fun u hu => ?_
    exact land_frame isPoint q d (Set.disjoint_left.1 hdisjoint hu)
  · refine land_stable isPoint q (hq.of_grows (grows_land isPoint p d)) hq fun u hu => ?_
    exact land_frame isPoint p d (Set.disjoint_right.1 hdisjoint hu)

omit isPoint in
/-- The rows a trip update adds are not among those that were found before. -/
theorem delete_applyTrip {db : Db} {tripUpdates : List ℕ}
    (h : ∀ id ∈ tripUpdates, id < db.tripUpdates.nextId) (vehiclePositions : List ℕ)
    (r : TripRows) :
    (db.applyTrip r).delete tripUpdates vehiclePositions =
      (db.delete tripUpdates vehiclePositions).applyTrip r := by
  unfold Db.applyTrip Db.putObservations Db.addTripUpdate Db.delete
  congr 1
  · exact db.tripUpdates.drop_insertAll h _
  · refine db.stopTimeUpdates.keep_insertAll fun v hv => ?_
    obtain ⟨values, -, rfl⟩ := List.mem_map.1 hv
    simpa using fun hid => absurd (h _ hid) (lt_irrefl _)

omit isPoint in
theorem delete_pollTripUpdates {db : Db} {tripUpdates : List ℕ}
    (h : ∀ id ∈ tripUpdates, id < db.tripUpdates.nextId) (vehiclePositions : List ℕ)
    (poll : Poll) :
    (pollTripUpdates db poll).delete tripUpdates vehiclePositions =
      pollTripUpdates (db.delete tripUpdates vehiclePositions) poll := by
  rw [pollTripUpdates_eq, pollTripUpdates_eq]
  induction poll.stored generalizing db with
  | nil => rfl
  | cons r rs ih =>
    rw [List.foldl_cons, List.foldl_cons, ← delete_applyTrip h]
    refine ih fun id hid => ?_
    have hadd : (db.applyTrip r).tripUpdates.nextId = db.tripUpdates.nextId + 1 := rfl
    have := h id hid
    omega

theorem delete_pollVehiclePositions {db : Db} {vehiclePositions : List ℕ}
    (h : ∀ id ∈ vehiclePositions, id < db.vehiclePositions.nextId) (tripUpdates : List ℕ)
    (poll : Poll) :
    (pollVehiclePositions isPoint db poll).delete tripUpdates vehiclePositions =
      pollVehiclePositions isPoint (db.delete tripUpdates vehiclePositions) poll := by
  rw [pollVehiclePositions_eq, pollVehiclePositions_eq]
  unfold Db.delete
  congr 1
  exact db.vehiclePositions.drop_insertAll h _

omit isPoint in
theorem delete_delete (db : Db) (trips vehicles trips' vehicles' : List ℕ) :
    (db.delete trips vehicles).delete trips' vehicles' =
      (db.delete trips' vehicles').delete trips vehicles := by
  unfold Db.delete
  congr 1
  · exact db.tripUpdates.drop_comm _ _
  · exact db.stopTimeUpdates.keep_comm (fun s => s.tripUpdateId ∉ trips)
      fun s => s.tripUpdateId ∉ trips'
  · exact db.vehiclePositions.drop_comm _ _

/-- It matters in which order two kinds of task commit. -/
def TaskKind.Overwrites (j k : TaskKind) : Prop := j = k ∧ j ≠ .pruneRealtime

omit isPoint in
/-- Apart from deletions, no two kinds write the same table. -/
theorem disjoint_writes {j k : TaskKind} (hjk : j ≠ k) (hj : j ≠ .pruneRealtime)
    (hk : k ≠ .pruneRealtime) : Disjoint j.writes k.writes := by
  cases j <;> cases k <;> first | decide | contradiction

/-- Deletions can come before or after any other commit. -/
theorem deletions_land {cutoff : Instant} {tripUpdates vehiclePositions : List ℕ} {q : Pending}
    {d : Database} (hp : (Pending.deletions cutoff tripUpdates vehiclePositions).Ready d)
    (hq : q.Ready d) :
    (Pending.deletions cutoff tripUpdates vehiclePositions).land isPoint (q.land isPoint d) =
      q.land isPoint
        ((Pending.deletions cutoff tripUpdates vehiclePositions).land isPoint d) := by
  have hother : Disjoint TaskKind.pruneRealtime.writes q.kind.writes →
      (Pending.deletions cutoff tripUpdates vehiclePositions).land isPoint (q.land isPoint d) =
        q.land isPoint
          ((Pending.deletions cutoff tripUpdates vehiclePositions).land isPoint d) :=
    land_comm_of_disjoint isPoint hp hq
  cases q with
  | whole task late =>
    cases task with
    | pollTripUpdates poll =>
      exact congrArg (fun live => { d with live })
        (delete_pollTripUpdates hp.1 vehiclePositions poll)
    | pollVehiclePositions poll =>
      exact congrArg (fun live => { d with live })
        (delete_pollVehiclePositions isPoint hp.2 tripUpdates poll)
    | pruneRealtime now retentionHours =>
      exact absurd late (by simp [BeatTask.kind, TaskKind.finds])
    | _ => exact hother (by simp [Pending.kind, BeatTask.kind, TaskKind.writes])
  | deletions cutoff' tripUpdates' vehiclePositions' =>
    exact congrArg (fun live => { d with live }) (delete_delete d.live _ _ _ _)
  | _ => exact hother (by simp [Pending.kind, TaskKind.writes])

omit isPoint in
/-- What is written by a kind other than pruning, or the deletions of one. -/
theorem Pending.eq_deletions {p : Pending} (h : p.kind = .pruneRealtime) :
    ∃ cutoff tripUpdates vehiclePositions,
      p = .deletions cutoff tripUpdates vehiclePositions := by
  cases p with
  | whole task late =>
    rw [Pending.kind] at h
    rw [h] at late
    exact absurd late (by simp [TaskKind.finds])
  | deletions cutoff tripUpdates vehiclePositions => exact ⟨_, _, _, rfl⟩
  | _ => cases h

/-- **Commits that do not overwrite each other can come in either order.** -/
theorem land_comm {p q : Pending} {d : Database} (hp : p.Ready d) (hq : q.Ready d)
    (h : ¬ p.kind.Overwrites q.kind) :
    p.land isPoint (q.land isPoint d) = q.land isPoint (p.land isPoint d) := by
  by_cases hpk : p.kind = .pruneRealtime
  · obtain ⟨_, _, _, rfl⟩ := Pending.eq_deletions hpk
    exact deletions_land isPoint hp hq
  by_cases hqk : q.kind = .pruneRealtime
  · obtain ⟨_, _, _, rfl⟩ := Pending.eq_deletions hqk
    exact (deletions_land isPoint hq hp).symm
  refine land_comm_of_disjoint isPoint hp hq (disjoint_writes (fun heq => ?_) hpk hqk)
  exact h ⟨heq, hpk⟩

/-- It matters whether a task starts before or after another commits. -/
def TaskKind.Overtakes (j k : TaskKind) : Prop := ¬ Disjoint j.seen k.writes

/-- It matters whether its second `DELETE` comes before or after that. -/
def TaskKind.Rereads (j k : TaskKind) : Prop := ¬ Disjoint j.seenLater k.writes

/-- **A start finds out the same before and after a commit that writes nothing it reads.** -/
theorem prepare_land (task : BeatTask) (q : Pending) (d : Database)
    (h : ¬ task.kind.Overtakes q.kind) : task.prepare (q.land isPoint d) = task.prepare d := by
  have hsame : ∀ t ∈ task.kind.seen, (q.land isPoint d).table t = d.table t := fun t ht =>
    land_frame isPoint q d (Finset.disjoint_left.1 (not_not.1 h) ht)
  cases task with
  | pruneRealtime now retentionHours =>
    have htrips : (q.land isPoint d).live.tripUpdates = d.live.tripUpdates :=
      hsame .tripUpdates (by simp [BeatTask.kind, TaskKind.seen])
    simp only [BeatTask.prepare, htrips]
  | refreshRouteStats windowDays clock now =>
    have hobs : (q.land isPoint d).live.delayObservations = d.live.delayObservations :=
      hsame .delayObservations (by simp [BeatTask.kind, TaskKind.seen])
    simp only [BeatTask.prepare, routeStatsSelect, hobs]
  | rebuildFeatures since now =>
    have hobs : (q.land isPoint d).live.delayObservations = d.live.delayObservations :=
      hsame .delayObservations (by simp [BeatTask.kind, TaskKind.seen])
    have hweather : (q.land isPoint d).live.weatherObservations = d.live.weatherObservations :=
      hsame .weatherObservations (by simp [BeatTask.kind, TaskKind.seen])
    have hholidays : (q.land isPoint d).live.publicHolidays = d.live.publicHolidays :=
      hsame .publicHolidays (by simp [BeatTask.kind, TaskKind.seen])
    have hstats : (q.land isPoint d).live.routeDelayStats = d.live.routeDelayStats :=
      hsame .routeDelayStats (by simp [BeatTask.kind, TaskKind.seen])
    simp only [BeatTask.prepare, proposedFeatures, featureSelect, weatherAround, hobs, hweather,
      hholidays, hstats]
  | _ => rfl

/-- **So does the second `DELETE`.** -/
theorem advance_land (p q : Pending) (d : Database) (h : ¬ p.kind.Rereads q.kind) :
    p.advance (q.land isPoint d) = p.advance d := by
  cases p with
  | deletions cutoff tripUpdates vehiclePositions =>
    have hvehicles : (q.land isPoint d).live.vehiclePositions = d.live.vehiclePositions :=
      land_frame isPoint q d (t := .vehiclePositions)
        (Finset.disjoint_left.1 (not_not.1 h) (by simp [Pending.kind, TaskKind.seenLater]))
    simp only [Pending.advance, hvehicles]
  | _ => rfl

end Land

end DelayPredictor
