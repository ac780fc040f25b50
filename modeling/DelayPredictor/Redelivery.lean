import DelayPredictor.Interleavings
import DelayPredictor.Live
import DelayPredictor.Pipeline
import DelayPredictor.StaticContents

/-!
# Redelivered tasks

The worker acknowledges a task late and puts it back when a process is lost
(`task_acks_late`, `task_reject_on_worker_lost`), so a task that has committed may be run
once more.  The second run is given what the first one was: the same feed, responses and
readings of the clocks.

* `Database.SameRows` — every table holds the same rows, under the same numbers.
* `rerun_sameRows_iff` — **which tasks may be run twice on the same inputs**: all but the
  realtime polls that store something.  These append what they store once more.

A second run at a later time also writes that time (`refreshed_at`, `materialized_at`), and
its windows and the cutoff of a pruning have moved on.
-/

namespace DelayPredictor

open Keyed PyTime Runs Stats Traces Transaction

/-- Every table holds the same rows, under the same numbers. -/
structure Database.SameRows (d d' : Database) : Prop where
  tripUpdates : d.live.tripUpdates.rows = d'.live.tripUpdates.rows
  stopTimeUpdates : d.live.stopTimeUpdates.rows = d'.live.stopTimeUpdates.rows
  vehiclePositions : d.live.vehiclePositions.rows = d'.live.vehiclePositions.rows
  delayObservations : d.live.delayObservations.rows = d'.live.delayObservations.rows
  weatherObservations : d.live.weatherObservations.rows = d'.live.weatherObservations.rows
  publicHolidays : d.live.publicHolidays.rows = d'.live.publicHolidays.rows
  routeDelayStats : d.live.routeDelayStats.rows = d'.live.routeDelayStats.rows
  trainingFeatures : d.live.trainingFeatures.rows = d'.live.trainingFeatures.rows
  static : d.static.toStaticTables.SameRows d'.static.toStaticTables

theorem Database.SameRows.refl (d : Database) : d.SameRows d :=
  ⟨rfl, rfl, rfl, rfl, rfl, rfl, rfl, rfl, .refl _⟩

section Rerun

variable (isPoint : XFloat → XFloat → Bool)

/-- A task that appends rows: a poll that stores something. -/
def BeatTask.Appends : BeatTask → Prop
  | .pollTripUpdates poll => poll.stored ≠ []
  | .pollVehiclePositions poll => poll.positions isPoint ≠ []
  | _ => False

/-! ## Polls -/

/-- A poll that stores nothing does nothing. -/
theorem exec_of_not_appends {task : BeatTask} (d : Database)
    (hkind : task.kind = .pollTripUpdates ∨ task.kind = .pollVehiclePositions)
    (h : ¬ task.Appends isPoint) : (d.exec isPoint task).SameRows d := by
  cases task with
  | pollTripUpdates poll =>
    have hnil : poll.stored = [] := not_not.1 h
    show Database.SameRows { d with live := pollTripUpdates d.live poll } d
    rw [pollTripUpdates_eq, hnil]
    exact .refl d
  | pollVehiclePositions poll =>
    have hnil : poll.positions isPoint = [] := not_not.1 h
    show Database.SameRows { d with live := pollVehiclePositions isPoint d.live poll } d
    rw [pollVehiclePositions_eq, hnil]
    exact ⟨rfl, rfl, by simp, rfl, rfl, rfl, rfl, rfl, .refl _⟩
  | _ => simp [BeatTask.kind] at hkind

/-- A poll adds its trip updates. -/
theorem updates_pollTripUpdates (db : Db) (poll : Poll) :
    (pollTripUpdates db poll).updates = db.updates ++ poll.updates := by
  have hfold : ∀ rs : List TripRows, ∀ db : Db,
      (rs.foldl Db.applyTrip db).updates = db.updates ++ rs.map TripRows.tripUpdate := by
    intro rs
    induction rs with
    | nil => intro db; simp
    | cons r rs ih =>
      intro db
      rw [List.foldl_cons, ih, updates_applyTrip]
      simp
  rw [pollTripUpdates_eq, hfold, Poll.updates]

/-! ## Tasks that only put rows -/

theorem weatherObservation_columnwise : WeatherObservation.upsert.Columnwise :=
  ⟨fun _ _ _ => rfl, fun _ => rfl⟩

theorem publicHoliday_columnwise : PublicHoliday.upsert.Columnwise :=
  ⟨fun _ _ _ => rfl, fun _ => rfl⟩

theorem routeDelayStats_columnwise : RouteDelayStats.upsert.Columnwise :=
  ⟨fun _ _ _ => rfl, fun _ => rfl⟩

/-- The tables a rebuild leaves alone. -/
theorem rebuild_frame (db : Db) (since now : Instant) :
    (rebuildTrainingFeatures db since now).tripUpdates = db.tripUpdates ∧
      (rebuildTrainingFeatures db since now).stopTimeUpdates = db.stopTimeUpdates ∧
      (rebuildTrainingFeatures db since now).vehiclePositions = db.vehiclePositions ∧
      (rebuildTrainingFeatures db since now).delayObservations = db.delayObservations ∧
      (rebuildTrainingFeatures db since now).weatherObservations = db.weatherObservations ∧
      (rebuildTrainingFeatures db since now).publicHolidays = db.publicHolidays ∧
      (rebuildTrainingFeatures db since now).routeDelayStats = db.routeDelayStats := by
  obtain ⟨fk, h⟩ := rebuildTrainingFeatures_eq db since now
  rw [h]
  exact ⟨rfl, rfl, rfl, rfl, rfl, rfl, rfl⟩

/-- A refresh of the static feed that is run again. -/
theorem refresh_again (r : Refresh) (db : StaticDb) :
    (refresh isPoint (refresh isPoint db r) r).toStaticTables.SameRows
      (refresh isPoint db r).toStaticTables := by
  have hfirst := refresh_eq isPoint db r
  have hagain := refresh_eq isPoint (refresh isPoint db r) r
  cases hc : committedRows isPoint db r with
  | none =>
    rw [hc] at hfirst
    rw [hfirst, hfirst]
    exact .refl _
  | some rows =>
    rw [hc] at hfirst
    cases hc' : committedRows isPoint (refresh isPoint db r) r with
    | none =>
      rw [hc'] at hagain
      rw [hagain]
      exact .refl _
    | some rows' =>
      rw [hc'] at hagain
      exact hfirst.again hagain

/-- Pruning once more at the same time drops nothing. -/
theorem prune_again (d : Database) (now : Instant) (retentionHours : ℤ) :
    Database.SameRows
      { d with
        live := pruneOldRealtime (pruneOldRealtime d.live now retentionHours) now retentionHours }
      { d with live := pruneOldRealtime d.live now retentionHours } where
  tripUpdates := by simp [pruneOldRealtime, List.filter_filter]
  stopTimeUpdates := by simp [pruneOldRealtime, List.filter_filter]
  vehiclePositions := by simp [pruneOldRealtime, List.filter_filter]
  delayObservations := rfl
  weatherObservations := rfl
  publicHolidays := rfl
  routeDelayStats := rfl
  trainingFeatures := rfl
  static := .refl _

/-- **Which tasks may be run twice on the same inputs.** -/
theorem rerun_sameRows_iff (d : Database) (task : BeatTask) :
    ((d.exec isPoint task).exec isPoint task).SameRows (d.exec isPoint task) ↔
      ¬ task.Appends isPoint := by
  cases task with
  | pollTripUpdates poll =>
    refine ⟨fun h happends => happends ?_, exec_of_not_appends isPoint _ (.inl rfl)⟩
    have hsame : (pollTripUpdates (pollTripUpdates d.live poll) poll).updates =
        (pollTripUpdates d.live poll).updates := congrArg (List.map Row.data) h.tripUpdates
    rw [updates_pollTripUpdates (pollTripUpdates d.live poll), List.append_right_eq_self] at hsame
    exact List.map_eq_nil_iff.1 hsame
  | pollVehiclePositions poll =>
    refine ⟨fun h happends => happends ?_, exec_of_not_appends isPoint _ (.inr rfl)⟩
    have hsame : (pollVehiclePositions isPoint (pollVehiclePositions isPoint d.live poll)
          poll).positions = (pollVehiclePositions isPoint d.live poll).positions :=
      congrArg (List.map Row.data) h.vehiclePositions
    rwa [positions_poll isPoint (pollVehiclePositions isPoint d.live poll),
      List.append_right_eq_self] at hsame
  | pruneRealtime now retentionHours => exact iff_of_true (prune_again d now retentionHours) id
  | refreshStaticFeed faults payload =>
    refine iff_of_true ?_ id
    have hstatic := refresh_again isPoint (faults, payload) d.static
    exact ⟨rfl, rfl, rfl, rfl, rfl, rfl, rfl, rfl, hstatic⟩
  | pollWeather run =>
    refine iff_of_true ?_ id
    simp only [Database.exec, pollWeather_eq]
    exact ⟨rfl, rfl, rfl, rfl,
      Table.putAll_putAll_rows _ weatherObservation_columnwise _, rfl, rfl, rfl, .refl _⟩
  | syncHolidays run =>
    refine iff_of_true ?_ id
    simp only [Database.exec, syncHolidays_eq]
    exact ⟨rfl, rfl, rfl, rfl, rfl,
      Table.putAll_putAll_rows _ publicHoliday_columnwise _, rfl, rfl, .refl _⟩
  | refreshRouteStats windowDays clock now =>
    refine iff_of_true ?_ id
    simp only [Database.exec, refreshRouteDelayStats_eq]
    exact ⟨rfl, rfl, rfl, rfl, rfl, rfl,
      Table.putAll_putAll_rows _ routeDelayStats_columnwise _, rfl, .refl _⟩
  | rebuildFeatures since now =>
    refine iff_of_true ?_ id
    have hfeatures : (rebuildTrainingFeatures (rebuildTrainingFeatures d.live since now) since
        now).trainingFeatures.rows =
        (rebuildTrainingFeatures d.live since now).trainingFeatures.rows := by
      rw [rebuild_trainingFeatures, proposedFeatures_rebuild, rebuild_trainingFeatures]
      exact Table.putAll_putAll_rows _ trainingFeature_columnwise _
    obtain ⟨htrips, hstops, hvehicles, hobs, hweather, hholidays, hstats⟩ :=
      rebuild_frame (rebuildTrainingFeatures d.live since now) since now
    show Database.SameRows
      { d with
        live := rebuildTrainingFeatures (rebuildTrainingFeatures d.live since now) since now }
      { d with live := rebuildTrainingFeatures d.live since now }
    exact ⟨by rw [htrips], by rw [hstops], by rw [hvehicles], by rw [hobs], by rw [hweather],
      by rw [hholidays], by rw [hstats], hfeatures, .refl _⟩

end Rerun

end DelayPredictor
