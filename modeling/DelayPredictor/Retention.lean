import DelayPredictor.Lib.Retention
import DelayPredictor.Departures
import DelayPredictor.Redelivery

/-!
# What pruning hides

`prune_realtime` deletes old realtime rows in between the polls.  What the endpoints over these
rows return after a run, compared with the same run without any pruning.

* `liveJoin_tasks`, `positions_tasks` — the rows after any run: those that were polled and
  not deleted since.
* `livePruning_iff` — **when pruning is invisible in the live delays**: exactly when no row of
  the window, and not the newest trip update, was deleted.
* `vehiclePruning_iff` — **when it is invisible in the vehicle positions**: exactly when no
  vehicle's newest position was deleted.
* `departurePruning_iff` — **when it is invisible in the departures of a trip**: exactly when
  each newest update of the trip at the stop is still there.
-/

namespace DelayPredictor

open Keyed Newest PyTime Query Retention Runs Stats Traces

/-! ## Polls and prunings -/

/-- A task as an operation on the rows it stores. -/
def BeatTask.op {α : Type} (rows : BeatTask → List α) : BeatTask → Op α
  | .pruneRealtime now retentionHours => .expire (now - hours retentionHours)
  | task => .append (rows task)

/-- The joined rows a task stores. -/
def BeatTask.liveRows : BeatTask → List LiveRow
  | .pollTripUpdates poll => poll.liveRows
  | _ => []

/-- The trip updates a task stores. -/
def BeatTask.updates : BeatTask → List TripUpdate
  | .pollTripUpdates poll => poll.updates
  | _ => []

/-- The vehicle positions a task stores. -/
def BeatTask.positions (isPoint : XFloat → XFloat → Bool) : BeatTask → List VehiclePosition
  | .pollVehiclePositions poll => poll.positions isPoint
  | _ => []

/-- The run without its prunings. -/
def unpruned (tasks : List BeatTask) : List BeatTask :=
  tasks.filter fun task => task.kind ≠ .pruneRealtime

theorem appended_unpruned {α : Type} (rows : BeatTask → List α) (tasks : List BeatTask) :
    appended ((unpruned tasks).map (BeatTask.op rows)) =
      appended (tasks.map (BeatTask.op rows)) := by
  induction tasks with
  | nil => rfl
  | cons task tasks ih =>
    cases task with
    | pruneRealtime now retentionHours => exact ih
    | _ => exact congrArg (_ ++ ·) ih

/-- Nothing is deleted in a run without prunings. -/
theorem retained_unpruned {α : Type} {time : α → ℤ} (rows : BeatTask → List α)
    (tasks : List BeatTask) :
    retained time ((unpruned tasks).map (BeatTask.op rows)) =
      appended (tasks.map (BeatTask.op rows)) := by
  rw [← appended_unpruned]
  refine retained_eq_appended fun cutoff hmem => ?_
  obtain ⟨task, htask, hop⟩ := List.mem_map.1 hmem
  have hkind := (List.mem_filter.1 htask).2
  cases task with
  | pruneRealtime now retentionHours => simp [BeatTask.kind] at hkind
  | _ => cases hop

/-! ## The rows after a run -/

theorem liveJoin_pollTripUpdates (db : Db) (poll : Poll) :
    liveJoin (pollTripUpdates db poll) = liveJoin db ++ poll.liveRows := by
  have hfold : ∀ rs : List TripRows, ∀ db : Db,
      liveJoin (rs.foldl Db.applyTrip db) = liveJoin db ++ rs.flatMap TripRows.liveRows := by
    intro rs
    induction rs with
    | nil => intro db; simp
    | cons r rs ih =>
      intro db
      rw [List.foldl_cons, ih, liveJoin_applyTrip]
      simp
  rw [pollTripUpdates_eq, hfold, Poll.liveRows]

/-- A stop time update is deleted with its trip update. -/
theorem liveJoin_prune (db : Db) (now : Instant) (retentionHours : ℤ) :
    liveJoin (pruneOldRealtime db now retentionHours) =
      (liveJoin db).filter fun row => now - hours retentionHours ≤ row.1.recordedAt := by
  have hstops : ∀ tu ∈ db.tripUpdates.rows, now - hours retentionHours ≤ tu.data.recordedAt →
      ((pruneOldRealtime db now retentionHours).stopTimeUpdates.rows.filter
        fun stu => stu.data.tripUpdateId = tu.id) =
      db.stopTimeUpdates.rows.filter fun stu => stu.data.tripUpdateId = tu.id := by
    intro tu htu hyoung
    simp only [pruneOldRealtime, Log.keep_rows, List.filter_filter]
    refine List.filter_congr fun stu _ => ?_
    by_cases hid : stu.data.tripUpdateId = tu.id
    · have hkept : ∃ tu' ∈ db.tripUpdates.rows,
          now - hours retentionHours ≤ tu'.data.recordedAt ∧ tu'.id = tu.id :=
        ⟨tu, htu, hyoung, rfl⟩
      simpa [hid, and_assoc] using hkept
    · simp [hid]
  have hrows : (pruneOldRealtime db now retentionHours).tripUpdates.rows =
      db.tripUpdates.rows.filter fun tu => now - hours retentionHours ≤ tu.data.recordedAt := rfl
  rw [liveJoin, liveJoin, hrows, ← flatMap_ite_singleton, List.flatMap_assoc,
    List.filter_flatMap]
  refine List.flatMap_congr fun tu htu => ?_
  by_cases hyoung : now - hours retentionHours ≤ tu.data.recordedAt
  · rw [if_pos hyoung, List.flatMap_singleton, hstops tu htu hyoung]
    refine (List.filter_eq_self.2 ?_).symm
    intro row hrow
    obtain ⟨stu, -, rfl⟩ := List.mem_map.1 hrow
    exact decide_eq_true hyoung
  · rw [if_neg hyoung, List.flatMap_nil]
    refine (List.filter_eq_nil_iff.2 ?_).symm
    intro row hrow
    obtain ⟨stu, -, rfl⟩ := List.mem_map.1 hrow
    exact fun h => hyoung (of_decide_eq_true h)

theorem updates_prune (db : Db) (now : Instant) (retentionHours : ℤ) :
    (pruneOldRealtime db now retentionHours).updates =
      db.updates.filter fun u => now - hours retentionHours ≤ u.recordedAt := by
  simp only [Db.updates, pruneOldRealtime, Log.keep_rows, List.filter_map]
  rfl

section Runs

variable (isPoint : XFloat → XFloat → Bool)

/-- What is read of a database is what is retained, if every task acts on it so. -/
theorem read_tasks {α : Type} {time : α → ℤ} {rows : BeatTask → List α}
    (read : Database → List α) (hempty : read Database.empty = [])
    (hexec : ∀ (d : Database) (task : BeatTask),
      read (d.exec isPoint task) = (BeatTask.op rows task).apply time (read d))
    (tasks : List BeatTask) :
    read (replay (Database.exec isPoint) Database.empty tasks) =
      retained time (tasks.map (BeatTask.op rows)) := by
  have hreplay : ∀ d, read (replay (Database.exec isPoint) d tasks) =
      replay (Op.apply time) (read d) (tasks.map (BeatTask.op rows)) := by
    induction tasks with
    | nil => exact fun d => rfl
    | cons task tasks ih =>
      intro d
      rw [replay_cons, ih, hexec, List.map_cons, replay_cons]
  rw [hreplay, hempty, replay_apply, List.filter_nil, List.nil_append]

/-- Only polls and prunings write the realtime rows of the trips. -/
theorem exec_keeps_trips (d : Database) {task : BeatTask} (hpoll : task.kind ≠ .pollTripUpdates)
    (hprune : task.kind ≠ .pruneRealtime) :
    (d.exec isPoint task).live.tripUpdates = d.live.tripUpdates ∧
      (d.exec isPoint task).live.stopTimeUpdates = d.live.stopTimeUpdates := by
  have hwrites : ∀ k : TaskKind, k ≠ .pollTripUpdates → k ≠ .pruneRealtime →
      TableName.tripUpdates ∉ k.writes ∧ TableName.stopTimeUpdates ∉ k.writes := by
    intro k
    cases k <;> decide
  obtain ⟨htrips, hstops⟩ := hwrites _ hpoll hprune
  exact ⟨(footprint isPoint task).frame d .tripUpdates htrips,
    (footprint isPoint task).frame d .stopTimeUpdates hstops⟩

/-- The joined rows after any run. -/
theorem liveJoin_tasks (tasks : List BeatTask) :
    liveJoin (replay (Database.exec isPoint) Database.empty tasks).live =
      retained (fun row : LiveRow => row.1.recordedAt)
        (tasks.map (BeatTask.op BeatTask.liveRows)) := by
  refine read_tasks isPoint (fun d => liveJoin d.live) rfl ?_ tasks
  intro d task
  have hother : task.kind ≠ .pollTripUpdates → task.kind ≠ .pruneRealtime →
      liveJoin (d.exec isPoint task).live = liveJoin d.live ++ [] := by
    intro hpoll hprune
    obtain ⟨htrips, hstops⟩ := exec_keeps_trips isPoint d hpoll hprune
    rw [liveJoin, liveJoin, htrips, hstops, List.append_nil]
  cases task with
  | pollTripUpdates poll => exact liveJoin_pollTripUpdates d.live poll
  | pruneRealtime now retentionHours => exact liveJoin_prune d.live now retentionHours
  | _ => exact hother (by simp [BeatTask.kind]) (by simp [BeatTask.kind])

/-- The trip updates after any run. -/
theorem updates_tasks (tasks : List BeatTask) :
    (replay (Database.exec isPoint) Database.empty tasks).live.updates =
      retained (fun u : TripUpdate => u.recordedAt)
        (tasks.map (BeatTask.op BeatTask.updates)) := by
  refine read_tasks isPoint (fun d => d.live.updates) rfl ?_ tasks
  intro d task
  have hother : task.kind ≠ .pollTripUpdates → task.kind ≠ .pruneRealtime →
      (d.exec isPoint task).live.updates = d.live.updates ++ [] := by
    intro hpoll hprune
    rw [Db.updates, Db.updates, (exec_keeps_trips isPoint d hpoll hprune).1, List.append_nil]
  cases task with
  | pollTripUpdates poll => exact updates_pollTripUpdates d.live poll
  | pruneRealtime now retentionHours => exact updates_prune d.live now retentionHours
  | _ => exact hother (by simp [BeatTask.kind]) (by simp [BeatTask.kind])

/-- The vehicle positions after any run. -/
theorem positions_tasks (tasks : List BeatTask) :
    (replay (Database.exec isPoint) Database.empty tasks).live.positions =
      retained (fun r : VehiclePosition => r.recordedAt)
        (tasks.map (BeatTask.op (BeatTask.positions isPoint))) := by
  refine read_tasks isPoint (fun d => d.live.positions) rfl ?_ tasks
  intro d task
  have hother : task.kind ≠ .pollVehiclePositions → task.kind ≠ .pruneRealtime →
      (d.exec isPoint task).live.positions = d.live.positions ++ [] := by
    have hwrites : ∀ k : TaskKind, k ≠ .pollVehiclePositions → k ≠ .pruneRealtime →
        TableName.vehiclePositions ∉ k.writes := by
      intro k
      cases k <;> decide
    intro hpoll hprune
    have hframe := (footprint isPoint task).frame d .vehiclePositions (hwrites _ hpoll hprune)
    have hvehicles : (d.exec isPoint task).live.vehiclePositions = d.live.vehiclePositions := hframe
    rw [Db.positions, Db.positions, hvehicles, List.append_nil]
  cases task with
  | pollVehiclePositions poll => exact positions_poll isPoint d.live poll
  | pruneRealtime now retentionHours => exact positions_prune d.live now retentionHours
  | _ => exact hother (by simp [BeatTask.kind]) (by simp [BeatTask.kind])

end Runs

/-! ## Live delays -/

/-- What an answer tells of the rows it is made of. -/
theorem LiveAnswers.tells {db : Db} {q : LiveQuery} {out : LiveDelaysOut}
    (h : LiveAnswers db q out) : out.snapshotAt = latestRecorded db.updates ∧
      ∀ latest ∈ latestRecorded db.updates,
        out.count = min q.limit ((liveJoin db).filter (q.selects latest)).length := by
  unfold LiveAnswers at h
  cases hlatest : latestRecorded db.updates with
  | none =>
    rw [hlatest] at h
    simp [h]
  | some latest =>
    rw [hlatest] at h
    obtain ⟨rows, hperm, -, rfl⟩ := h
    simp [hperm.length_eq]

/-- Some answer is always possible. -/
theorem exists_liveAnswer (db : Db) (q : LiveQuery) : ∃ out, LiveAnswers db q out := by
  unfold LiveAnswers
  cases latestRecorded db.updates with
  | none => exact ⟨_, rfl⟩
  | some latest =>
    exact ⟨_, ((liveJoin db).filter (q.selects latest)).insertionSort NewestFirst,
      List.perm_insertionSort _ _, List.pairwise_insertionSort _ _, rfl⟩

/-- The newest time among some of the updates, if it is that of all. -/
theorem latestRecorded_of_subset {updates updates' : List TripUpdate} (hsub : updates ⊆ updates')
    {latest : Instant} (h : latestRecorded updates' = some latest)
    (hmem : ∃ u ∈ updates, u.recordedAt = latest) : latestRecorded updates = some latest := by
  unfold latestRecorded at h ⊢
  rw [List.max?_eq_some_iff] at h ⊢
  refine ⟨?_, fun t ht => h.2 t (List.map_subset _ hsub ht)⟩
  obtain ⟨u, hu, rfl⟩ := hmem
  exact List.mem_map_of_mem hu

/-- The condition of a query is one on the window, and more. -/
theorem filter_selects_eq {q : LiveQuery} {latest : Instant} {rows rows' : List LiveRow}
    (h : rows.filter (fun row => latest - seconds q.snapshotWindowSeconds ≤ row.1.recordedAt) =
      rows'.filter fun row => latest - seconds q.snapshotWindowSeconds ≤ row.1.recordedAt) :
    rows.filter (q.selects latest) = rows'.filter (q.selects latest) := by
  have hsplit : ∀ l : List LiveRow, l.filter (q.selects latest) =
      (l.filter fun row => latest - seconds q.snapshotWindowSeconds ≤ row.1.recordedAt).filter
        (q.selects latest) := by
    intro l
    rw [List.filter_filter]
    refine List.filter_congr fun row _ => ?_
    simp only [LiveQuery.selects]
    cases decide (latest - seconds q.snapshotWindowSeconds ≤ row.1.recordedAt) <;> simp
  rw [hsplit, h, ← hsplit]

/-! ## Vehicle positions -/

/-- The parameters select from the newest positions. -/
theorem selectPositions_perm (clip : String → Option (VehiclePosition → Bool))
    {rows rows' : List VehiclePosition} (h : (latestPositions rows).Perm (latestPositions rows'))
    (q : VehicleQuery) :
    Option.Rel List.Perm (selectPositions clip rows q) (selectPositions clip rows' q) := by
  have hclip : ∀ (bbox : String) {l l' : List VehiclePosition}, l.Perm l' → Option.Rel List.Perm
      (if bbox = "" then some l else (clip bbox).map fun inside => l.filter inside)
      (if bbox = "" then some l' else (clip bbox).map fun inside => l'.filter inside) := by
    intro bbox l l' hperm
    split
    · exact .some hperm
    · cases clip bbox with
      | none => exact .none
      | some inside => exact .some (hperm.filter inside)
  have honRoute : ∀ routeId : String, List.Perm
      (if routeId = "" then latestPositions rows
        else (latestPositions rows).filter fun r => r.routeId = some routeId)
      (if routeId = "" then latestPositions rows'
        else (latestPositions rows').filter fun r => r.routeId = some routeId) := by
    intro routeId
    split
    · exact h
    · exact h.filter _
  obtain ⟨routeId, bbox, limit⟩ := q
  cases routeId with
  | none =>
    cases bbox with
    | none => exact .some h
    | some bbox => exact hclip bbox h
  | some routeId =>
    cases bbox with
    | none => exact .some (honRoute routeId)
    | some bbox => exact hclip bbox (honRoute routeId)

/-- The endpoint can tell two tables apart exactly by the newest positions in them. -/
theorem answers_iff_perm (clip : String → Option (VehiclePosition → Bool))
    (rows rows' : List VehiclePosition) :
    (∀ q out, Answers clip rows q out ↔ Answers clip rows' q out) ↔
      (latestPositions rows).Perm (latestPositions rows') := by
  constructor
  · intro h
    let limit := max (latestPositions rows).length (latestPositions rows').length
    have hout : Answers clip rows ⟨none, none, limit⟩ (latestPositions rows) :=
      ⟨_, .refl _, (List.take_of_length_le (le_max_left ..)).symm⟩
    obtain ⟨l, hperm, heq⟩ := (h ⟨none, none, limit⟩ _).1 hout
    rw [List.take_of_length_le (hperm.length_eq.le.trans (le_max_right ..))] at heq
    rwa [heq]
  · intro hperm q out
    have hselected := selectPositions_perm clip hperm q
    unfold Answers
    generalize selectPositions clip rows q = selected at hselected ⊢
    generalize selectPositions clip rows' q = selected' at hselected ⊢
    cases hselected with
    | none => exact Iff.rfl
    | some hselected =>
      exact exists_congr fun l => and_congr_left fun _ =>
        ⟨fun hl => hl.trans hselected, fun hl => hl.trans hselected.symm⟩

section Invisible

variable (isPoint : XFloat → XFloat → Bool) (tasks : List BeatTask)

/-- **When pruning is invisible in the live delays** of some window: when neither the newest
trip update nor any row of the window was deleted. -/
theorem livePruning_iff (window : ℤ) :
    let after := fun tasks => (replay (Database.exec isPoint) Database.empty tasks).live
    (∀ q : LiveQuery, q.snapshotWindowSeconds = window → ∀ out,
        LiveAnswers (after tasks) q out ↔ LiveAnswers (after (unpruned tasks)) q out) ↔
      ∀ latest ∈ latestRecorded (after (unpruned tasks)).updates,
        (∃ u, Remains (fun u : TripUpdate => u.recordedAt)
            (tasks.map (BeatTask.op BeatTask.updates)) u ∧ u.recordedAt = latest) ∧
          Keeps (fun row : LiveRow => row.1.recordedAt)
            (tasks.map (BeatTask.op BeatTask.liveRows))
            fun row => latest - seconds window ≤ row.1.recordedAt := by
  intro after
  simp only [← mem_retained_iff, ← updates_tasks isPoint]
  have hsub : (after tasks).updates ⊆ (after (unpruned tasks)).updates := by
    simp only [after, updates_tasks, retained_unpruned]
    exact (retained_sublist _ _).subset
  have hkeeps : ∀ latest : Instant,
      Keeps (fun row : LiveRow => row.1.recordedAt) (tasks.map (BeatTask.op BeatTask.liveRows))
          (fun row => latest - seconds window ≤ row.1.recordedAt) ↔
        (liveJoin (after tasks)).filter
            (fun row => latest - seconds window ≤ row.1.recordedAt) =
          (liveJoin (after (unpruned tasks))).filter
            fun row => latest - seconds window ≤ row.1.recordedAt := by
    intro latest
    simp only [after, liveJoin_tasks, retained_unpruned]
    exact keeps_iff
  have hsublist : (liveJoin (after tasks)).Sublist (liveJoin (after (unpruned tasks))) := by
    simp only [after, liveJoin_tasks, retained_unpruned]
    exact retained_sublist _ _
  constructor
  · intro h latest hlatest
    -- An answer that is not cut off.
    let q : LiveQuery := ⟨none, none, window, (liveJoin (after (unpruned tasks))).length⟩
    obtain ⟨out, hout⟩ := exists_liveAnswer (after tasks) q
    obtain ⟨hsnapshot, hcount⟩ := hout.tells
    obtain ⟨hsnapshot', hcount'⟩ := ((h q rfl out).1 hout).tells
    have hlatest' : latestRecorded (after tasks).updates = some latest := by
      rw [← hsnapshot, hsnapshot']
      exact hlatest
    constructor
    · obtain ⟨u, hu, htime⟩ := List.mem_map.1 (List.max?_mem hlatest')
      exact ⟨u, hu, htime⟩
    · rw [hkeeps]
      have hselects : q.selects latest =
          fun row : LiveRow => decide (latest - seconds window ≤ row.1.recordedAt) := by
        funext row
        simp [LiveQuery.selects, q]
      have hlen := (hcount latest hlatest').symm.trans (hcount' latest hlatest)
      have hle := List.length_filter_le (q.selects latest) (liveJoin (after (unpruned tasks)))
      have hle' := (hsublist.filter (q.selects latest)).length_le
      rw [min_eq_right (hle'.trans hle), min_eq_right hle, hselects] at hlen
      exact (hsublist.filter _).eq_of_length hlen
  · rintro h q rfl out
    unfold LiveAnswers
    cases hlatest : latestRecorded (after (unpruned tasks)).updates with
    | none =>
      have hnil : (after (unpruned tasks)).updates = [] := by
        simpa [latestRecorded] using hlatest
      have hnil' : (after tasks).updates = [] := List.subset_nil.1 (hnil ▸ hsub)
      rw [hnil']
      exact Iff.rfl
    | some latest =>
      obtain ⟨hnewest, hwindow⟩ := h latest hlatest
      rw [latestRecorded_of_subset hsub hlatest hnewest]
      simp only [filter_selects_eq ((hkeeps latest).1 hwindow)]

/-- **When pruning is invisible in the vehicle positions**: when no vehicle's newest position
was deleted. -/
theorem vehiclePruning_iff (clip : String → Option (VehiclePosition → Bool)) :
    let after := fun tasks => (replay (Database.exec isPoint) Database.empty tasks).live
    (∀ q out, Answers clip (after tasks).positions q out ↔
        Answers clip (after (unpruned tasks)).positions q out) ↔
      Keeps (fun r : VehiclePosition => r.recordedAt)
        (tasks.map (BeatTask.op (BeatTask.positions isPoint)))
        fun r => r ∈ newestOf r.vehicleId (after (unpruned tasks)).positions := by
  intro after
  have hafter : (after tasks).positions = retained (fun r : VehiclePosition => r.recordedAt)
      (tasks.map (BeatTask.op (BeatTask.positions isPoint))) := positions_tasks isPoint tasks
  have hunpruned : (after (unpruned tasks)).positions =
      appended (tasks.map (BeatTask.op (BeatTask.positions isPoint))) := by
    rw [positions_tasks, retained_unpruned]
  have hnewest : (latestPositions (after tasks).positions).Perm
      (latestPositions (after (unpruned tasks)).positions) ↔
        Keeps (fun r : VehiclePosition => r.recordedAt)
          (tasks.map (BeatTask.op (BeatTask.positions isPoint)))
          fun r => r ∈ newestOf r.vehicleId (after (unpruned tasks)).positions := by
    rw [latestPositions_eq, latestPositions_eq, hafter, hunpruned]
    exact newestRows_perm_iff
  rw [← hnewest]
  exact answers_iff_perm clip _ _

/-- **When pruning is invisible in the departures of a trip** from a stop: when each update
that may be the newest one is still there. -/
theorem departurePruning_iff (tripId stopId : String) :
    let after := fun tasks => (replay (Database.exec isPoint) Database.empty tasks).live
    (∀ update, LatestUpdate (after tasks) tripId stopId update ↔
        LatestUpdate (after (unpruned tasks)) tripId stopId update) ↔
      ∀ u, LatestUpdate (after (unpruned tasks)) tripId stopId (some u) →
        Remains (fun row : LiveRow => row.1.recordedAt)
          (tasks.map (BeatTask.op BeatTask.liveRows)) u := by
  intro after
  simp only [← mem_retained_iff, ← liveJoin_tasks isPoint]
  have hsub : stopUpdates (after tasks) tripId stopId ⊆
      stopUpdates (after (unpruned tasks)) tripId stopId := by
    simp only [after, stopUpdates, liveJoin_tasks, retained_unpruned]
    exact ((retained_sublist _ _).filter _).subset
  constructor
  · intro h u hu
    exact List.mem_of_mem_filter (first_some_iff.1 ((h (some u)).2 hu)).1
  · intro h
    have hkept : ∀ u, LatestUpdate (after (unpruned tasks)) tripId stopId (some u) →
        u ∈ stopUpdates (after tasks) tripId stopId := by
      intro u hu
      have hmem := (first_some_iff.1 hu).1
      exact List.mem_filter.2 ⟨h u hu, (List.mem_filter.1 hmem).2⟩
    rintro (_ | u)
    · unfold LatestUpdate
      rw [first_none_iff, first_none_iff]
      refine ⟨fun hnil => ?_, fun hnil => List.subset_nil.1 (hnil ▸ hsub)⟩
      obtain ⟨newest, hnewest⟩ :=
        exists_first NewestFirst (stopUpdates (after (unpruned tasks)) tripId stopId)
      cases newest with
      | none => exact first_none_iff.1 hnewest
      | some u =>
        have hmem := hkept u hnewest
        rw [hnil] at hmem
        cases hmem
    · constructor
      · intro hu
        obtain ⟨hmem, hnewest⟩ := first_some_iff.1 hu
        -- It is as new as one that is newest in the whole run.
        obtain ⟨newest, hfirst⟩ :=
          exists_first NewestFirst (stopUpdates (after (unpruned tasks)) tripId stopId)
        cases newest with
        | none =>
          have hnil := hsub hmem
          rw [first_none_iff.1 hfirst] at hnil
          cases hnil
        | some v =>
          refine first_some_iff.2 ⟨hsub hmem, fun w hw => ?_⟩
          exact trans_of NewestFirst (hnewest v (hkept v hfirst)) ((first_some_iff.1 hfirst).2 w hw)
      · intro hu
        exact first_some_iff.2 ⟨hkept u hu, fun w hw => (first_some_iff.1 hu).2 w (hsub hw)⟩

end Invisible

end DelayPredictor
