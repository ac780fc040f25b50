import DelayPredictor.Features
import DelayPredictor.Observations

/-!
# Rebuilding the feature table, over histories

The feature table after any history of polls, pipeline runs and changes of the
pipeline's inputs, compared with one built from nothing.

* `PipelineOp`, `Db.exec` — the transactions that write the tables involved.
* `Tracked` — the invariant of a history: every feature row describes its
  observation, except that its time, hour, weekday and weekend flag are those of
  the moment a rebuild first picked the observation up (`firstPickedUp`).
* `rebuiltAsNew_iff` — **when a rebuild equals a rebuild from scratch**: exactly
  when no observation in the window has been retimed since it was first picked
  up.  The update clause refreshes the delay and leaves the time it belongs to.
-/

namespace DelayPredictor

open Keyed PyTime Runs

/-! ## Histories -/

/-- The transactions a history is made of.  The weather, holiday and route
statistics tables may change in any way their constraints allow. -/
inductive PipelineOp where
  | pollTripUpdates (poll : Poll)
  | pruneOldRealtime (now : Instant) (retentionHours : ℤ)
  | changeWeather (table : Table WeatherObservation.upsert)
  | changeHolidays (table : Table PublicHoliday.upsert)
  | changeRouteStats (table : Table RouteDelayStats.upsert)
  | refreshRouteDelayStats (windowDays : ℤ) (clock now : Instant)
  | rebuildTrainingFeatures (since now : Instant)

namespace Db

/-- What a transaction leaves behind. -/
def exec (db : Db) : PipelineOp → Db
  | .pollTripUpdates poll => DelayPredictor.pollTripUpdates db poll
  | .pruneOldRealtime now retentionHours => DelayPredictor.pruneOldRealtime db now retentionHours
  | .changeWeather table => { db with weatherObservations := table }
  | .changeHolidays table => { db with publicHolidays := table }
  | .changeRouteStats table => { db with routeDelayStats := table }
  | .refreshRouteDelayStats windowDays clock now =>
    DelayPredictor.refreshRouteDelayStats db windowDays clock now
  | .rebuildTrainingFeatures since now => DelayPredictor.rebuildTrainingFeatures db since now

/-- The same database with an empty feature table. -/
def withoutFeatures (db : Db) : Db :=
  { db with trainingFeatures := Table.empty, feature_fk := by simp }

end Db

/-- The time of the observation `id`, if `op` is a rebuild that picks it up. -/
def pickedUp (id : ℕ) (db : Db) : PipelineOp → Option Instant
  | .rebuildTrainingFeatures since _ =>
    ((db.delayObservations.find id).map (·.observedAt)).filter fun t => since ≤ t
  | _ => none

/-- The time the observation `id` had when a rebuild first picked it up. -/
def firstPickedUp (id : ℕ) : Db → List PipelineOp → Option Instant
  | _, [] => none
  | db, op :: ops => (pickedUp id db op).or (firstPickedUp id (db.exec op) ops)

theorem firstPickedUp_snoc (id : ℕ) (db : Db) (ops : List PipelineOp) (op : PipelineOp) :
    firstPickedUp id db (ops ++ [op]) =
      (firstPickedUp id db ops).or (pickedUp id (replay Db.exec db ops) op) := by
  induction ops generalizing db with
  | nil => simp [firstPickedUp]
  | cons x ops ih =>
    rw [List.cons_append, firstPickedUp, firstPickedUp, ih, replay_cons, Option.or_assoc]

/-! ## Properties of a rebuild -/

/-- After a rebuild with the cutoff `since`, every observation in the window has
the feature columns that the same rebuild puts into an empty table. -/
def RebuiltAsNew (db : Db) (since now : Instant) : Prop :=
  ∀ d ∈ db.delayObservations.rows, since ≤ d.data.observedAt → ∃ f g,
    (rebuildTrainingFeatures db since now).trainingFeatures.contents d.id = some f ∧
    (rebuildTrainingFeatures db.withoutFeatures since now).trainingFeatures.contents d.id = some g ∧
    f.toFeatureColumns = g.toFeatureColumns

/-- No observation in the window is at another time than when it was first
picked up by a rebuild. -/
def NotRetimed (history : List PipelineOp) (since : Instant) : Prop :=
  ∀ d ∈ (replay Db.exec Db.empty history).delayObservations.rows, since ≤ d.data.observedAt →
    ∀ t, firstPickedUp d.id Db.empty history = some t → t = d.data.observedAt

/-! ## What a feature row says about its observation -/

/-- A feature row describes the visit of an observation, and its calendar columns
are those of the time it carries. -/
structure TrainingFeature.Describes (f : TrainingFeature) (o : DelayObservation) : Prop where
  routeId : f.routeId = o.routeId
  tripId : f.tripId = o.tripId
  stopId : f.stopId = o.stopId
  serviceDate : f.serviceDate = o.serviceDate
  month : f.month = o.serviceDate.month
  hour : f.hourOfDay = PyTime.hourOfDay f.observedAt
  weekday : f.dayOfWeek = PyTime.weekdayOf f.observedAt
  weekend : f.isWeekend = (f.dayOfWeek = 5 || f.dayOfWeek = 6 : Bool)

theorem selectedRow_describes (db : Db) {d : Row DelayObservation} (hd : d.data.Coherent)
    (now : Instant) :
    TrainingFeature.Describes { selectedRow db d with materializedAt := now } d.data :=
  ⟨rfl, rfl, rfl, rfl, rfl, hd.hour, hd.weekday, rfl⟩

/-- An update of a feature row leaves what it says about the visit. -/
theorem TrainingFeature.Describes.merge {f : TrainingFeature} {o : DelayObservation}
    (h : f.Describes o) (g : TrainingFeature) : (TrainingFeature.upsert.merge f g).Describes o :=
  ⟨h.routeId, h.tripId, h.stopId, h.serviceDate, h.month, h.hour, h.weekday, h.weekend⟩

/-- An update of an observation leaves the visit it is about. -/
theorem TrainingFeature.Describes.of_merge {f : TrainingFeature} {o : DelayObservation}
    (h : f.Describes o) (o' : DelayObservation) :
    f.Describes (DelayObservation.upsert.merge o o') :=
  ⟨h.routeId, h.tripId, h.stopId, h.serviceDate, h.month, h.hour, h.weekday, h.weekend⟩

/-- **What an updated feature row lacks** is the time of its observation. -/
theorem merge_eq_selectedRow_iff (db : Db) {d : Row DelayObservation} {f : TrainingFeature}
    (hf : f.Describes d.data) (hid : f.observationId = d.id) (hd : d.data.Coherent)
    (now : Instant) :
    (TrainingFeature.upsert.merge f
        { selectedRow db d with materializedAt := now }).toFeatureColumns = selectedRow db d ↔
      f.observedAt = d.data.observedAt := by
  constructor
  · intro h
    exact congrArg FeatureColumns.observedAt h
  · intro h
    have hhour : f.hourOfDay = d.data.hourOfDay := by rw [hf.hour, hd.hour, h]
    have hday : f.dayOfWeek = d.data.dayOfWeek := by rw [hf.weekday, hd.weekday, h]
    have hweekend : f.isWeekend = (d.data.dayOfWeek = 5 || d.data.dayOfWeek = 6 : Bool) := by
      rw [hf.weekend, hday]
    simp only [TrainingFeature.upsert, selectedRow, featureRow, hid, hf.routeId, hf.tripId,
      hf.stopId, h, hf.serviceDate, hhour, hday, hweekend, hf.month]

/-! ## The invariant of a history -/

/-- The state of the tables after a history in which `picked` says when each
observation was first picked up. -/
structure Tracked (picked : ℕ → Option Instant) (db : Db) : Prop where
  /-- Every observation is in the bucket of its time. -/
  coherent : ∀ d ∈ db.delayObservations.rows, d.data.Coherent
  /-- Its feature row, if there is one, is about the same visit. -/
  describes : ∀ d ∈ db.delayObservations.rows, ∀ f,
    db.trainingFeatures.contents d.id = some f → f.Describes d.data
  /-- A feature row carries the time its observation was first picked up at. -/
  picked : ∀ id, (db.trainingFeatures.contents id).map (·.observedAt) = picked id

theorem tracked_empty : Tracked (fun _ => none) Db.empty where
  coherent := by simp [Db.empty]
  describes := by simp [Db.empty]
  picked := by simp [Db.empty]

/-- An operation that leaves observations and features alone. -/
theorem Tracked.congr {picked : ℕ → Option Instant} {db db' : Db} (h : Tracked picked db)
    (hobs : db'.delayObservations = db.delayObservations)
    (hfeat : db'.trainingFeatures = db.trainingFeatures) : Tracked picked db' where
  coherent := by rw [hobs]; exact h.coherent
  describes := by rw [hobs, hfeat]; exact h.describes
  picked := by rw [hfeat]; exact h.picked

/-- A number that no observation has yet has no feature row. -/
theorem contents_of_nextId_le (db : Db) {j : ℕ} (hj : db.delayObservations.nextId ≤ j) :
    db.trainingFeatures.contents j = none := by
  rw [Table.contents_eq_none_iff]
  intro r hr hk
  obtain ⟨d, hd, hid⟩ := List.mem_map.1 (db.feature_fk r hr)
  have hlt := db.delayObservations.ids_lt d hd
  have hkey : r.data.observationId = j := hk
  omega

/-- A poll adds observations, and updates them within their visit. -/
theorem Tracked.poll {picked : ℕ → Option Instant} {db : Db} (h : Tracked picked db)
    (poll : Poll) : Tracked picked (pollTripUpdates db poll) := by
  have hrow : ∀ d ∈ (pollTripUpdates db poll).delayObservations.rows, d.data.Coherent ∧
      ∀ f, db.trainingFeatures.contents d.id = some f → f.Describes d.data := by
    rw [pollTripUpdates_delayObservations]
    apply Table.forall_mem_putAll
    · exact fun d hd => ⟨h.coherent d hd, h.describes d hd⟩
    · intro j hj o ho
      refine ⟨emitted_coherent poll o ho, fun f hf => ?_⟩
      rw [contents_of_nextId_le db hj] at hf
      cases hf
    · rintro d ⟨-, hdesc⟩ o ho -
      have hco := emitted_coherent poll o ho
      exact ⟨⟨hco.hour, hco.weekday⟩, fun f hf => (hdesc f hf).of_merge o⟩
  refine ⟨fun d hd => (hrow d hd).1, fun d hd f hf => (hrow d hd).2 f ?_, ?_⟩
  · rwa [pollTripUpdates_trainingFeatures] at hf
  · rw [pollTripUpdates_trainingFeatures]
    exact h.picked

/-- The time of the feature row of `id` after a rebuild. -/
theorem observedAt_rebuild (db : Db) (since now : Instant) (id : ℕ) :
    ((rebuildTrainingFeatures db since now).trainingFeatures.contents id).map (·.observedAt) =
      ((db.trainingFeatures.contents id).map (·.observedAt)).or
        (pickedUp id db (.rebuildTrainingFeatures since now)) := by
  by_cases hwin : ∃ d ∈ db.delayObservations.rows, d.id = id ∧ since ≤ d.data.observedAt
  · obtain ⟨d, hd, rfl, hs⟩ := hwin
    have hpick :
        pickedUp d.id db (.rebuildTrainingFeatures since now) = some d.data.observedAt := by
      have hfind := db.delayObservations.find_eq_some_iff.2 hd
      simp [pickedUp, hfind, hs]
    rw [contents_rebuild_of_mem db since now hd hs, hpick]
    cases db.trainingFeatures.contents d.id with
    | none => rfl
    | some f => rfl
  · have hnot : ∀ d ∈ db.delayObservations.rows, d.id = id → ¬ since ≤ d.data.observedAt :=
      fun d hd hid hs => hwin ⟨d, hd, hid, hs⟩
    have hpick : pickedUp id db (.rebuildTrainingFeatures since now) = none := by
      cases hf : db.delayObservations.find id with
      | none => simp [pickedUp, hf]
      | some o =>
        have hlt := hnot _ (db.delayObservations.find_eq_some_iff.1 hf) rfl
        simpa [pickedUp, hf] using hlt
    rw [contents_rebuild_of_not_mem db since now hnot, hpick, Option.or_none]

/-- A rebuild picks up the observations in its window. -/
theorem Tracked.rebuild {picked : ℕ → Option Instant} {db : Db} (h : Tracked picked db)
    (since now : Instant) :
    Tracked (fun id => (picked id).or (pickedUp id db (.rebuildTrainingFeatures since now)))
      (rebuildTrainingFeatures db since now) := by
  refine ⟨?_, ?_, fun id => by rw [observedAt_rebuild, h.picked]⟩
  · rw [rebuild_delayObservations]
    exact h.coherent
  · rw [rebuild_delayObservations]
    intro d hd f hf
    by_cases hs : since ≤ d.data.observedAt
    · rw [contents_rebuild_of_mem db since now hd hs] at hf
      cases hc : db.trainingFeatures.contents d.id with
      | none =>
        rw [hc, Upsert.absorb_none] at hf
        cases hf
        exact selectedRow_describes db (h.coherent d hd) now
      | some f₀ =>
        rw [hc, Upsert.absorb_some] at hf
        cases hf
        exact (h.describes d hd f₀ hc).merge _
    · have hnot :
          ∀ d' ∈ db.delayObservations.rows, d'.id = d.id → ¬ since ≤ d'.data.observedAt := by
        intro d' hd' hid
        rwa [db.delayObservations.eq_of_id_eq hd' hd hid]
      rw [contents_rebuild_of_not_mem db since now hnot] at hf
      exact h.describes d hd f hf

/-- A transaction that is no rebuild picks nothing up. -/
theorem Tracked.or_none {picked : ℕ → Option Instant} {db db' : Db} {op : PipelineOp}
    (h : Tracked picked db') (hop : ∀ id, pickedUp id db op = none) :
    Tracked (fun id => (picked id).or (pickedUp id db op)) db' := by
  simpa only [hop, Option.or_none] using h

/-- What one transaction preserves. -/
theorem Tracked.exec {picked : ℕ → Option Instant} {db : Db} (h : Tracked picked db)
    (op : PipelineOp) : Tracked (fun id => (picked id).or (pickedUp id db op)) (db.exec op) := by
  cases op with
  | pollTripUpdates poll =>
    apply Tracked.or_none
    · exact h.poll poll
    · intro id; rfl
  | rebuildTrainingFeatures since now => exact h.rebuild since now
  | refreshRouteDelayStats windowDays clock now =>
    obtain ⟨hobs, hfeat⟩ := refresh_frame db windowDays clock now
    apply Tracked.or_none
    · exact h.congr hobs hfeat
    · intro id; rfl
  -- The other transactions write neither of the two tables.
  | _ =>
    apply Tracked.or_none
    · exact h.congr rfl rfl
    · intro id; rfl

/-- **What every history preserves.** -/
theorem tracked_replay (history : List PipelineOp) :
    Tracked (fun id => firstPickedUp id Db.empty history) (replay Db.exec Db.empty history) := by
  refine replay_history (P := fun l db => Tracked (fun id => firstPickedUp id Db.empty l) db)
    tracked_empty (fun l op ih => ?_) history
  simp only [firstPickedUp_snoc]
  exact ih.exec op

/-! ## Rebuilt as new -/

/-- A rebuild into an empty table inserts the selected row. -/
theorem contents_rebuild_withoutFeatures (db : Db) (since now : Instant) {d : Row DelayObservation}
    (hd : d ∈ db.delayObservations.rows) (hs : since ≤ d.data.observedAt) :
    (rebuildTrainingFeatures db.withoutFeatures since now).trainingFeatures.contents d.id =
      some { selectedRow db d with materializedAt := now } := by
  have h := contents_rebuild_of_mem db.withoutFeatures since now hd hs
  rw [h]
  rfl

/-- In a tracked state a rebuild equals one from scratch exactly when the feature
rows of the window carry the present times of their observations. -/
theorem Tracked.rebuilt_iff {picked : ℕ → Option Instant} {db : Db} (h : Tracked picked db)
    (since now : Instant) :
    RebuiltAsNew db since now ↔ ∀ d ∈ db.delayObservations.rows, since ≤ d.data.observedAt →
      ∀ t, picked d.id = some t → t = d.data.observedAt := by
  refine forall_congr' fun d => forall_congr' fun hd => forall_congr' fun hs => ?_
  rw [contents_rebuild_of_mem db since now hd hs,
    contents_rebuild_withoutFeatures db since now hd hs, ← h.picked d.id]
  cases hc : db.trainingFeatures.contents d.id with
  | none => simp
  | some f =>
    have hid : f.observationId = d.id := db.trainingFeatures.key_of_contents hc
    have hiff := merge_eq_selectedRow_iff db (h.describes d hd f hc) hid (h.coherent d hd) now
    simpa using hiff

/-- **When a rebuild equals a rebuild from scratch.** -/
theorem rebuiltAsNew_iff (history : List PipelineOp) (since now : Instant) :
    RebuiltAsNew (replay Db.exec Db.empty history) since now ↔ NotRetimed history since :=
  (tracked_replay history).rebuilt_iff since now

/-- A stop reported at 00:16, picked up by a rebuild, and reported again at 01:16. -/
def retimedHistory : List PipelineOp :=
  [.pollTripUpdates (tripFeed 1000 [("S1", 60)]), .rebuildTrainingFeatures 0 0,
    .pollTripUpdates (tripFeed 4600 [("S1", 90)])]

/-- The next rebuild takes the delay of the second report and leaves the row at
the time and in the hour of the first. -/
theorem retimedHistory_keepsHour :
    ¬ ∀ history since now, RebuiltAsNew (replay Db.exec Db.empty history) since now := by
  intro h
  have hrow : ∃ d ∈ (replay Db.exec Db.empty retimedHistory).delayObservations.rows,
      0 ≤ d.data.observedAt ∧ d.id = 0 := by decide
  obtain ⟨d, hd, hs, hid⟩ := hrow
  obtain ⟨f, g, hf, hg, heq⟩ := h retimedHistory 0 0 d hd hs
  rw [hid] at hf hg
  have hold : ((rebuildTrainingFeatures (replay Db.exec Db.empty retimedHistory) 0
      0).trainingFeatures.contents 0).map (·.hourOfDay) = some 0 := by decide
  have hnew : ((rebuildTrainingFeatures (replay Db.exec Db.empty retimedHistory).withoutFeatures 0
      0).trainingFeatures.contents 0).map (·.hourOfDay) = some 1 := by decide
  rw [hf] at hold
  rw [hg] at hnew
  have hhour : f.hourOfDay = g.hourOfDay := congrArg FeatureColumns.hourOfDay heq
  simp only [Option.map_some, Option.some.injEq] at hold hnew
  omega

end DelayPredictor
