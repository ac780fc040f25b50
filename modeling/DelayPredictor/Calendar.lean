import DelayPredictor.Rebuild

/-!
# Calendar columns and links

What every history of polls, prunes, refreshes and rebuilds keeps true of the
two tables that carry calendar columns.

* `exec_keeps_observation`, `replay_keeps_observation` — no transaction removes
  an observation or changes its id or natural key.
* `calendar_coherent` — **both tables stay coherent**: hour and weekday are those
  of the row's own time, and a feature row is about an observation that is there,
  the only one about it.
-/

namespace DelayPredictor

open Keyed PyTime Runs

/-! ## Observations stay -/

/-- The observation is there, under its id and its natural key. -/
def Db.HoldsObservation (db : Db) (id : ℕ) (k : String × String × Date) : Prop :=
  ∃ d ∈ db.delayObservations.rows, d.id = id ∧ d.data.naturalKey = k

/-- A poll updates an observation in place or leaves it. -/
theorem poll_keeps_observation {db : Db} {id : ℕ} {k : String × String × Date}
    (h : db.HoldsObservation id k) (poll : Poll) :
    (pollTripUpdates db poll).HoldsObservation id k := by
  obtain ⟨d, hd, rfl, rfl⟩ := h
  have hl : db.delayObservations.lookup d.data.naturalKey = some d :=
    (Table.lookup_eq_some_iff _).2 ⟨hd, rfl⟩
  have hid := db.delayObservations.lookup_id_putAll hl poll.emitted
  obtain ⟨d', hd', hid'⟩ := Option.map_eq_some_iff.1 hid
  obtain ⟨hrow, hkey⟩ := (Table.lookup_eq_some_iff _).1 hd'
  refine ⟨d', ?_, hid', hkey⟩
  rw [pollTripUpdates_delayObservations]
  exact hrow

/-- What one transaction preserves. -/
theorem exec_keeps_observation {db : Db} {id : ℕ} {k : String × String × Date}
    (h : db.HoldsObservation id k) (op : PipelineOp) : (db.exec op).HoldsObservation id k := by
  cases op with
  | pollTripUpdates poll => exact poll_keeps_observation h poll
  | rebuildTrainingFeatures since now =>
    show ∃ d ∈ (rebuildTrainingFeatures db since now).delayObservations.rows, _
    rw [rebuild_delayObservations]
    exact h
  | refreshRouteDelayStats windowDays clock now =>
    show ∃ d ∈ (refreshRouteDelayStats db windowDays clock now).delayObservations.rows, _
    rw [(refresh_frame db windowDays clock now).1]
    exact h
  -- The other transactions do not write the table.
  | _ => exact h

/-- What every continuation of a history preserves. -/
theorem replay_keeps_observation {db : Db} {id : ℕ} {k : String × String × Date}
    (h : db.HoldsObservation id k) (later : List PipelineOp) :
    (replay Db.exec db later).HoldsObservation id k :=
  replay_invariant (P := fun db : Db => db.HoldsObservation id k) h
    (fun _ op hdb => exec_keeps_observation hdb op) later

/-! ## Both tables stay coherent -/

/-- The calendar columns of a feature row are those of its own time and service
date. -/
structure TrainingFeature.Coherent (f : TrainingFeature) : Prop where
  hour : f.hourOfDay = PyTime.hourOfDay f.observedAt
  weekday : f.dayOfWeek = PyTime.weekdayOf f.observedAt
  weekend : f.isWeekend = true ↔ f.dayOfWeek = 5 ∨ f.dayOfWeek = 6
  month : f.month = f.serviceDate.month

/-- The feature row is about the observation. -/
structure TrainingFeature.IsAbout (f : TrainingFeature) (d : Row DelayObservation) : Prop where
  observationId : f.observationId = d.id
  routeId : f.routeId = d.data.routeId
  tripId : f.tripId = d.data.tripId
  stopId : f.stopId = d.data.stopId
  serviceDate : f.serviceDate = d.data.serviceDate

theorem TrainingFeature.Describes.coherent {f : TrainingFeature} {o : DelayObservation}
    (h : f.Describes o) : f.Coherent where
  hour := h.hour
  weekday := h.weekday
  weekend := by
    rw [h.weekend]
    simp
  month := by rw [h.month, h.serviceDate]

/-- The feature rows of a tracked state. -/
theorem Tracked.feature {picked : ℕ → Option Instant} {db : Db} (h : Tracked picked db)
    {f : Row TrainingFeature} (hf : f ∈ db.trainingFeatures.rows) :
    f.data.Coherent ∧ ∃ d ∈ db.delayObservations.rows, f.data.IsAbout d := by
  obtain ⟨d, hd, hid⟩ := List.mem_map.1 (db.feature_fk f hf)
  have hc : db.trainingFeatures.contents d.id = some f.data :=
    (Table.contents_eq_some_iff _).2 ⟨f, hf, hid.symm, rfl⟩
  have hdesc := h.describes d hd f.data hc
  exact ⟨hdesc.coherent, d, hd, hid.symm, hdesc.routeId, hdesc.tripId, hdesc.stopId,
    hdesc.serviceDate⟩

/-- **Both tables stay coherent**, over every history. -/
theorem calendar_coherent (history : List PipelineOp) :
    let db := replay Db.exec Db.empty history
    (∀ d ∈ db.delayObservations.rows, d.data.Coherent) ∧
      (∀ f ∈ db.trainingFeatures.rows,
        f.data.Coherent ∧ ∃ d ∈ db.delayObservations.rows, f.data.IsAbout d) ∧
      (∀ f ∈ db.trainingFeatures.rows, ∀ f' ∈ db.trainingFeatures.rows,
        f.data.observationId = f'.data.observationId → f = f') ∧
      ∀ d ∈ db.delayObservations.rows, ∀ later,
        (replay Db.exec Db.empty (history ++ later)).HoldsObservation d.id d.data.naturalKey := by
  intro db
  have htracked := tracked_replay history
  refine ⟨htracked.coherent, fun f hf => htracked.feature hf, ?_, ?_⟩
  · intro f hf f' hf' hid
    exact db.trainingFeatures.eq_of_key_eq hf hf' hid
  · intro d hd later
    have happ : replay Db.exec Db.empty (history ++ later) = replay Db.exec db later :=
      List.foldl_append
    rw [happ]
    exact replay_keeps_observation ⟨d, hd, rfl, rfl⟩ later

end DelayPredictor
