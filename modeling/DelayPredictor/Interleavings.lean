import DelayPredictor.Lib.Traces
import DelayPredictor.Features
import DelayPredictor.Holidays
import DelayPredictor.Observations
import DelayPredictor.Predictor
import DelayPredictor.StaticIngest
import DelayPredictor.Vehicles

/-!
# Runs of the scheduled tasks

The tasks of `app/workers/tasks.py` that write to the database, one after another in
whatever order the workers get to them.

* `BeatTask`, `Database.exec` — the eight tasks, each with what it met outside: the
  feed, the responses, the clocks.
* `TaskKind.reads`, `TaskKind.writes` — the tables a task reads and writes;
  `footprint` — it keeps to them.
* `database_eq_of_sameOrder` — **only the order of conflicting tasks matters**.
* `table_determined` — **what a table is made of**: the tasks that write it, and those
  that write what these read, are all it depends on.

A run is serial here: a task ends before the next one starts.  Tasks that overlap in time
are another matter.
-/

namespace DelayPredictor

open Keyed PyTime Raising Runs Stats Traces Transaction

/-! ## The whole database -/

/-- The database.  No foreign key leads from the static tables to the others or back. -/
structure Database where
  live : Db
  static : StaticDb

/-- Its tables; the seven of the static feed, which are always written together, count
as one. -/
inductive TableName where
  | tripUpdates
  | stopTimeUpdates
  | vehiclePositions
  | delayObservations
  | weatherObservations
  | publicHolidays
  | routeDelayStats
  | trainingFeatures
  | staticFeed
  deriving DecidableEq, Repr

/-- What is in a table. -/
def TableName.Content : TableName → Type
  | .tripUpdates => Log TripUpdate
  | .stopTimeUpdates => Log StopTimeUpdate
  | .vehiclePositions => Log VehiclePosition
  | .delayObservations => Table DelayObservation.upsert
  | .weatherObservations => Table WeatherObservation.upsert
  | .publicHolidays => Table PublicHoliday.upsert
  | .routeDelayStats => Table RouteDelayStats.upsert
  | .trainingFeatures => Table TrainingFeature.upsert
  | .staticFeed => StaticDb

namespace Database

/-- Freshly migrated: every table is empty. -/
def empty : Database := ⟨Db.empty, StaticDb.empty⟩

/-- The content of a table. -/
def table (d : Database) : ∀ t : TableName, t.Content
  | .tripUpdates => d.live.tripUpdates
  | .stopTimeUpdates => d.live.stopTimeUpdates
  | .vehiclePositions => d.live.vehiclePositions
  | .delayObservations => d.live.delayObservations
  | .weatherObservations => d.live.weatherObservations
  | .publicHolidays => d.live.publicHolidays
  | .routeDelayStats => d.live.routeDelayStats
  | .trainingFeatures => d.live.trainingFeatures
  | .staticFeed => d.static

/-- A database is its tables. -/
theorem ext_table {d d' : Database} (h : ∀ t, d.table t = d'.table t) : d = d' := by
  obtain ⟨⟨trips, stops, vehicles, obs, weather, holidays, stats, features, _, _⟩, static⟩ := d
  obtain ⟨⟨_, _, _, _, _, _, _, _, _, _⟩, _⟩ := d'
  obtain rfl : trips = _ := h .tripUpdates
  obtain rfl : stops = _ := h .stopTimeUpdates
  obtain rfl : vehicles = _ := h .vehiclePositions
  obtain rfl : obs = _ := h .delayObservations
  obtain rfl : weather = _ := h .weatherObservations
  obtain rfl : holidays = _ := h .publicHolidays
  obtain rfl : stats = _ := h .routeDelayStats
  obtain rfl : features = _ := h .trainingFeatures
  obtain rfl : static = _ := h .staticFeed
  rfl

end Database

/-! ## The tasks -/

/-- A task that writes to the database, with what it meets. -/
inductive BeatTask where
  | pollTripUpdates (poll : Poll)
  | pollVehiclePositions (poll : Poll)
  | pruneRealtime (now : Instant) (retentionHours : ℤ)
  | refreshStaticFeed (faults : Faults StaticError) (payload : Except StaticError Archive)
  | pollWeather (run : WeatherRun)
  | syncHolidays (run : HolidaySync)
  | refreshRouteStats (windowDays : ℤ) (clock now : Instant)
  | rebuildFeatures (since now : Instant)

/-- The entries of the beat schedule. -/
inductive TaskKind where
  | pollTripUpdates
  | pollVehiclePositions
  | pruneRealtime
  | refreshStaticFeed
  | pollWeather
  | syncHolidays
  | refreshRouteStats
  | rebuildFeatures
  deriving DecidableEq, Repr

/-- The entry a task is of. -/
def BeatTask.kind : BeatTask → TaskKind
  | .pollTripUpdates _ => .pollTripUpdates
  | .pollVehiclePositions _ => .pollVehiclePositions
  | .pruneRealtime _ _ => .pruneRealtime
  | .refreshStaticFeed _ _ => .refreshStaticFeed
  | .pollWeather _ => .pollWeather
  | .syncHolidays _ => .syncHolidays
  | .refreshRouteStats _ _ _ => .refreshRouteStats
  | .rebuildFeatures _ _ => .rebuildFeatures

/-- A sync as the database sees it. -/
def syncHolidays (db : Db) (run : HolidaySync) : Db :=
  match syncQldHolidays db run with
  | .ok (db', _) => db'
  | .error _ => db

section Exec

variable (isPoint : XFloat → XFloat → Bool)

/-- What a task leaves behind. -/
def Database.exec (d : Database) : BeatTask → Database
  | .pollTripUpdates poll => { d with live := pollTripUpdates d.live poll }
  | .pollVehiclePositions poll => { d with live := pollVehiclePositions isPoint d.live poll }
  | .pruneRealtime now retentionHours =>
    { d with live := pruneOldRealtime d.live now retentionHours }
  | .refreshStaticFeed faults payload =>
    { d with static := (ingestStaticFeed isPoint faults payload d.static).2 }
  | .pollWeather run => { d with live := pollWeather d.live run }
  | .syncHolidays run => { d with live := syncHolidays d.live run }
  | .refreshRouteStats windowDays clock now =>
    { d with live := refreshRouteDelayStats d.live windowDays clock now }
  | .rebuildFeatures since now => { d with live := rebuildTrainingFeatures d.live since now }

end Exec

/-! ## What a task reads and writes -/

namespace TaskKind

/-- The tables a task writes. -/
def writes : TaskKind → Finset TableName
  | .pollTripUpdates => {.tripUpdates, .stopTimeUpdates, .delayObservations}
  | .pollVehiclePositions => {.vehiclePositions}
  | .pruneRealtime => {.tripUpdates, .stopTimeUpdates, .vehiclePositions}
  | .refreshStaticFeed => {.staticFeed}
  | .pollWeather => {.weatherObservations}
  | .syncHolidays => {.publicHolidays}
  | .refreshRouteStats => {.routeDelayStats}
  | .rebuildFeatures => {.trainingFeatures}

end TaskKind

/-- The tables that what any task writes into a table depends on.  A stop time update
refers to its trip update, and goes with it; the two stages of the feature pipeline
select from other tables. -/
def TableName.inputs : TableName → Finset TableName
  | .stopTimeUpdates => {.tripUpdates, .stopTimeUpdates}
  | .routeDelayStats => {.delayObservations, .routeDelayStats}
  | .trainingFeatures => {.delayObservations, .weatherObservations, .publicHolidays,
      .routeDelayStats, .trainingFeatures}
  | t => {t}

theorem mem_inputs (t : TableName) : t ∈ t.inputs := by cases t <;> decide

/-- The inputs of the inputs of a table are among its inputs. -/
theorem inputs_subset {t u : TableName} (h : u ∈ t.inputs) : u.inputs ⊆ t.inputs := by
  cases t <;> cases u <;> revert h <;> decide

/-- The tables a task reads, to write what it writes. -/
def TaskKind.reads (k : TaskKind) : Finset TableName := k.writes.biUnion TableName.inputs

/-- One of the two writes what the other reads. -/
def TaskKind.Conflicts (a b : TaskKind) : Prop :=
  ¬ (Disjoint a.reads b.writes ∧ Disjoint a.writes b.reads)

instance : DecidableRel TaskKind.Conflicts := fun a b =>
  inferInstanceAs (Decidable (¬ (Disjoint a.reads b.writes ∧ Disjoint a.writes b.reads)))

/-- A function writes the tables of a kind of task, from the inputs of each. -/
abbrev KeepsTo (f : Database → Database) (k : TaskKind) : Prop :=
  Footprint Database.table f (k.writes : Set TableName) fun t => (t.inputs : Set TableName)

/-! ### Trip updates -/

/-- The trip updates a poll leaves depend on those before it. -/
theorem foldl_applyTrip_tripUpdates {db db' : Db} (htrips : db.tripUpdates = db'.tripUpdates)
    (rs : List TripRows) :
    (rs.foldl Db.applyTrip db).tripUpdates = (rs.foldl Db.applyTrip db').tripUpdates := by
  induction rs generalizing db db' with
  | nil => exact htrips
  | cons r rs ih =>
    apply ih
    simp only [Db.applyTrip, Db.putObservations, Db.addTripUpdate, htrips]

/-- The stop time updates refer to them. -/
theorem foldl_applyTrip_stopTimeUpdates {db db' : Db} (htrips : db.tripUpdates = db'.tripUpdates)
    (hstops : db.stopTimeUpdates = db'.stopTimeUpdates) (rs : List TripRows) :
    (rs.foldl Db.applyTrip db).stopTimeUpdates = (rs.foldl Db.applyTrip db').stopTimeUpdates := by
  induction rs generalizing db db' with
  | nil => exact hstops
  | cons r rs ih =>
    apply ih
    · simp only [Db.applyTrip, Db.putObservations, Db.addTripUpdate, htrips]
    · simp only [Db.applyTrip, Db.putObservations, Db.addTripUpdate, htrips, hstops]

theorem keepsTo_pollTripUpdates (poll : Poll) :
    KeepsTo (fun d => { d with live := pollTripUpdates d.live poll }) .pollTripUpdates where
  frame := by
    intro d t ht
    obtain ⟨hfeatures, hweather, hholidays, hstats, hvehicles⟩ :=
      foldl_applyTrip_frame d.live poll.stored
    rw [← pollTripUpdates_eq] at hfeatures hweather hholidays hstats hvehicles
    cases t with
    | vehiclePositions => exact hvehicles
    | weatherObservations => exact hweather
    | publicHolidays => exact hholidays
    | routeDelayStats => exact hstats
    | trainingFeatures => exact hfeatures
    | staticFeed => rfl
    | _ => exact absurd (by decide) ht
  inputs := by
    intro d d' t ht hread
    cases t with
    | tripUpdates =>
      show (pollTripUpdates d.live poll).tripUpdates = (pollTripUpdates d'.live poll).tripUpdates
      rw [pollTripUpdates_eq, pollTripUpdates_eq]
      exact foldl_applyTrip_tripUpdates (hread .tripUpdates (by decide)) _
    | stopTimeUpdates =>
      show (pollTripUpdates d.live poll).stopTimeUpdates =
        (pollTripUpdates d'.live poll).stopTimeUpdates
      rw [pollTripUpdates_eq, pollTripUpdates_eq]
      exact foldl_applyTrip_stopTimeUpdates (hread .tripUpdates (by decide))
        (hread .stopTimeUpdates (by decide)) _
    | delayObservations =>
      have hobs : d.live.delayObservations = d'.live.delayObservations :=
        hread .delayObservations (by decide)
      show (pollTripUpdates d.live poll).delayObservations =
        (pollTripUpdates d'.live poll).delayObservations
      rw [pollTripUpdates_delayObservations, pollTripUpdates_delayObservations, hobs]
    | _ => exact absurd ht (by decide)

/-! ### Vehicles and pruning -/

/-- A vehicle poll inserts the positions it stores. -/
theorem pollVehiclePositions_eq (isPoint : XFloat → XFloat → Bool) (db : Db) (poll : Poll) :
    pollVehiclePositions isPoint db poll =
      { db with vehiclePositions := db.vehiclePositions.insertAll (poll.positions isPoint) } := by
  have hnil : db.vehiclePositions.insertAll [] = db.vehiclePositions := by
    simp [Log.insertAll]
  unfold pollVehiclePositions ingestVehiclePositions Poll.positions
  cases vehicleRows poll with
  | error e =>
    show db = { db with vehiclePositions := db.vehiclePositions.insertAll [] }
    rw [hnil]
  | ok rows =>
    by_cases hfit : rows.all (·.fits isPoint) = true
    · simp only [hfit, if_true, bind, Except.bind, pure, Except.pure]
    · simp only [hfit, bind, Except.bind]
      show db = { db with vehiclePositions := db.vehiclePositions.insertAll [] }
      rw [hnil]

/-- The footprint of a task that writes one table. -/
theorem keepsTo_of_one {f : Database → Database} {k : TaskKind} {t : TableName}
    (hk : k.writes = {t}) (hframe : ∀ d, ∀ u ≠ t, (f d).table u = d.table u)
    (hinputs : ∀ d d', AgreeOn Database.table (t.inputs : Set TableName) d d' →
      (f d).table t = (f d').table t) : KeepsTo f k := by
  rw [KeepsTo, hk, Finset.coe_singleton]
  exact footprint_single hframe hinputs

theorem keepsTo_pollVehiclePositions (isPoint : XFloat → XFloat → Bool) (poll : Poll) :
    KeepsTo (fun d => { d with live := pollVehiclePositions isPoint d.live poll })
      .pollVehiclePositions := by
  simp only [pollVehiclePositions_eq]
  refine keepsTo_of_one (t := .vehiclePositions) rfl ?_ ?_
  · intro d u hu
    cases u with
    | vehiclePositions => exact absurd rfl hu
    | _ => rfl
  · intro d d' h
    have hvehicles : d.live.vehiclePositions = d'.live.vehiclePositions :=
      h .vehiclePositions (by decide)
    show d.live.vehiclePositions.insertAll _ = d'.live.vehiclePositions.insertAll _
    rw [hvehicles]

theorem keepsTo_pruneRealtime (now : Instant) (retentionHours : ℤ) :
    KeepsTo (fun d => { d with live := pruneOldRealtime d.live now retentionHours })
      .pruneRealtime where
  frame := by
    intro d t ht
    cases t with
    | tripUpdates => exact absurd (by decide) ht
    | stopTimeUpdates => exact absurd (by decide) ht
    | vehiclePositions => exact absurd (by decide) ht
    | _ => rfl
  inputs := by
    intro d d' t ht hread
    cases t with
    | tripUpdates =>
      have htrips : d.live.tripUpdates = d'.live.tripUpdates := hread .tripUpdates (by decide)
      show (pruneOldRealtime d.live _ _).tripUpdates = (pruneOldRealtime d'.live _ _).tripUpdates
      simp only [pruneOldRealtime, htrips]
    | stopTimeUpdates =>
      have htrips : d.live.tripUpdates = d'.live.tripUpdates := hread .tripUpdates (by decide)
      have hstops : d.live.stopTimeUpdates = d'.live.stopTimeUpdates :=
        hread .stopTimeUpdates (by decide)
      show (pruneOldRealtime d.live _ _).stopTimeUpdates =
        (pruneOldRealtime d'.live _ _).stopTimeUpdates
      simp only [pruneOldRealtime, htrips, hstops]
    | vehiclePositions =>
      have hvehicles : d.live.vehiclePositions = d'.live.vehiclePositions :=
        hread .vehiclePositions (by decide)
      show (pruneOldRealtime d.live _ _).vehiclePositions =
        (pruneOldRealtime d'.live _ _).vehiclePositions
      simp only [pruneOldRealtime, hvehicles]
    | _ => exact absurd ht (by decide)

/-! ### The static feed -/

theorem keepsTo_refreshStaticFeed (isPoint : XFloat → XFloat → Bool) (faults : Faults StaticError)
    (payload : Except StaticError Archive) :
    KeepsTo (fun d => { d with static := (ingestStaticFeed isPoint faults payload d.static).2 })
      .refreshStaticFeed := by
  refine keepsTo_of_one (t := .staticFeed) rfl ?_ ?_
  · intro d u hu
    cases u with
    | staticFeed => exact absurd rfl hu
    | _ => rfl
  · intro d d' h
    have hstatic : d.static = d'.static := h .staticFeed (by decide)
    show (ingestStaticFeed _ _ _ d.static).2 = (ingestStaticFeed _ _ _ d'.static).2
    rw [hstatic]

/-! ### The inputs of the feature pipeline -/

theorem keepsTo_pollWeather (run : WeatherRun) :
    KeepsTo (fun d => { d with live := pollWeather d.live run }) .pollWeather := by
  simp only [pollWeather_eq]
  refine keepsTo_of_one (t := .weatherObservations) rfl ?_ ?_
  · intro d u hu
    cases u with
    | weatherObservations => exact absurd rfl hu
    | _ => rfl
  · intro d d' h
    have hweather : d.live.weatherObservations = d'.live.weatherObservations :=
      h .weatherObservations (by decide)
    show d.live.weatherObservations.putAll _ = d'.live.weatherObservations.putAll _
    rw [hweather]

/-- The rows a sync commits: none when it raises. -/
def HolidaySync.stored (run : HolidaySync) : List PublicHoliday :=
  match fetchHolidays run with
  | .error _ => []
  | .ok allRows =>
    match collect HolidayValues.row allRows with
    | .error _ => []
    | .ok rows =>
      if 4 * rows.length ≤ 32767 ∧ (rows.map PublicHoliday.date).Nodup then rows else []

/-- **A sync puts the rows it commits.** -/
theorem syncHolidays_eq (db : Db) (run : HolidaySync) :
    syncHolidays db run =
      { db with publicHolidays := db.publicHolidays.putAll run.stored } := by
  unfold syncHolidays HolidaySync.stored
  cases hs : syncQldHolidays db run with
  | ok result =>
    obtain ⟨db', n⟩ := result
    obtain ⟨vs, rows, hvs, hrows, hlen, hnd, -, rfl⟩ := (syncQldHolidays_eq_ok_iff ..).1 hs
    simp only [hvs, hrows, hlen, hnd, and_self, if_true]
  | error e =>
    cases hvs : fetchHolidays run with
    | error e => rfl
    | ok vs =>
      cases hrows : collect HolidayValues.row vs with
      | error e => simp only [hrows]; rfl
      | ok rows =>
        by_cases hfit : 4 * rows.length ≤ 32767 ∧ (rows.map PublicHoliday.date).Nodup
        · have hok := (syncQldHolidays_eq_ok_iff db _ run vs.length).2
            ⟨vs, rows, hvs, hrows, hfit.1, hfit.2, rfl, rfl⟩
          rw [hs] at hok
          cases hok
        · simp only [hrows, if_neg hfit]
          rfl

theorem keepsTo_syncHolidays (run : HolidaySync) :
    KeepsTo (fun d => { d with live := syncHolidays d.live run }) .syncHolidays := by
  simp only [syncHolidays_eq]
  refine keepsTo_of_one (t := .publicHolidays) rfl ?_ ?_
  · intro d u hu
    cases u with
    | publicHolidays => exact absurd rfl hu
    | _ => rfl
  · intro d d' h
    have hholidays : d.live.publicHolidays = d'.live.publicHolidays :=
      h .publicHolidays (by decide)
    show d.live.publicHolidays.putAll _ = d'.live.publicHolidays.putAll _
    rw [hholidays]

/-! ### The feature pipeline -/

/-- A refresh puts the aggregates it selects. -/
theorem refreshRouteDelayStats_eq (db : Db) (windowDays : ℤ) (clock now : Instant) :
    refreshRouteDelayStats db windowDays clock now =
      { db with
        routeDelayStats := db.routeDelayStats.putAll
          (routeStatsSelect db (clock - days windowDays) clock now) } := by
  unfold refreshRouteDelayStats
  rw [Table.upsert_eq_some _ (routeStatsSelect_nodup db _ clock now)]

theorem keepsTo_refreshRouteStats (windowDays : ℤ) (clock now : Instant) :
    KeepsTo (fun d => { d with live := refreshRouteDelayStats d.live windowDays clock now })
      .refreshRouteStats := by
  simp only [refreshRouteDelayStats_eq]
  refine keepsTo_of_one (t := .routeDelayStats) rfl ?_ ?_
  · intro d u hu
    cases u with
    | routeDelayStats => exact absurd rfl hu
    | _ => rfl
  · intro d d' h
    have hobs : d.live.delayObservations = d'.live.delayObservations :=
      h .delayObservations (by decide)
    have hstats : d.live.routeDelayStats = d'.live.routeDelayStats :=
      h .routeDelayStats (by decide)
    show d.live.routeDelayStats.putAll (routeStatsSelect d.live _ _ _) =
      d'.live.routeDelayStats.putAll (routeStatsSelect d'.live _ _ _)
    simp only [routeStatsSelect, hobs, hstats]

theorem keepsTo_rebuildFeatures (since now : Instant) :
    KeepsTo (fun d => { d with live := rebuildTrainingFeatures d.live since now })
      .rebuildFeatures := by
  refine keepsTo_of_one (t := .trainingFeatures) rfl ?_ ?_
  · intro d u hu
    obtain ⟨fk, h⟩ := rebuildTrainingFeatures_eq d.live since now
    simp only [h]
    cases u with
    | trainingFeatures => exact absurd rfl hu
    | _ => rfl
  · intro d d' h
    have hobs : d.live.delayObservations = d'.live.delayObservations :=
      h .delayObservations (by decide)
    have hweather : d.live.weatherObservations = d'.live.weatherObservations :=
      h .weatherObservations (by decide)
    have hholidays : d.live.publicHolidays = d'.live.publicHolidays :=
      h .publicHolidays (by decide)
    have hstats : d.live.routeDelayStats = d'.live.routeDelayStats :=
      h .routeDelayStats (by decide)
    have hfeatures : d.live.trainingFeatures = d'.live.trainingFeatures :=
      h .trainingFeatures (by decide)
    show (rebuildTrainingFeatures d.live since now).trainingFeatures =
      (rebuildTrainingFeatures d'.live since now).trainingFeatures
    rw [rebuild_trainingFeatures, rebuild_trainingFeatures]
    simp only [proposedFeatures, featureSelect, weatherAround, hobs, hweather, hholidays, hstats,
      hfeatures]

/-! ## The order of the tasks -/

section Order

variable (isPoint : XFloat → XFloat → Bool)

/-- **Every task keeps to its tables.** -/
theorem footprint (task : BeatTask) : KeepsTo (Database.exec isPoint · task) task.kind := by
  cases task with
  | pollTripUpdates poll => exact keepsTo_pollTripUpdates poll
  | pollVehiclePositions poll => exact keepsTo_pollVehiclePositions isPoint poll
  | pruneRealtime now retentionHours => exact keepsTo_pruneRealtime now retentionHours
  | refreshStaticFeed faults payload => exact keepsTo_refreshStaticFeed isPoint faults payload
  | pollWeather run => exact keepsTo_pollWeather run
  | syncHolidays run => exact keepsTo_syncHolidays run
  | refreshRouteStats windowDays clock now => exact keepsTo_refreshRouteStats windowDays clock now
  | rebuildFeatures since now => exact keepsTo_rebuildFeatures since now

/-- Tasks of kinds that do not conflict commute. -/
theorem exec_comm {x y : BeatTask} (h : ¬ x.kind.Conflicts y.kind) (d : Database) :
    Database.exec isPoint (Database.exec isPoint d x) y =
      Database.exec isPoint (Database.exec isPoint d y) x := by
  obtain ⟨hrw, hwr⟩ := not_not.1 h
  have hinputs : ∀ {k : TaskKind} {t : TableName}, t ∈ k.writes → t.inputs ⊆ k.reads :=
    fun {k t} ht => Finset.subset_biUnion_of_mem TableName.inputs ht
  apply Database.ext_table
  intro t
  refine (footprint isPoint y).commute (footprint isPoint x) ?_ ?_ ?_ d t
  · refine Finset.disjoint_coe.2 ?_
    rw [Finset.disjoint_left] at hwr ⊢
    exact fun u hu hu' => hwr hu' (hinputs hu (mem_inputs u))
  · intro u hu
    exact Finset.disjoint_coe.2 (hwr.symm.mono_left (hinputs hu))
  · intro u hu
    exact Finset.disjoint_coe.2 (hrw.mono_left (hinputs hu))

/-- **Only the order of conflicting tasks matters**: two serial runs in which the tasks of
any two conflicting kinds come in the same order leave the same database. -/
theorem database_eq_of_sameOrder (d : Database) {tasks tasks' : List BeatTask}
    (h : SameOrder BeatTask.kind TaskKind.Conflicts tasks tasks') :
    replay (Database.exec isPoint) d tasks = replay (Database.exec isPoint) d tasks' := by
  refine h.replay_eq ?_ ?_ (fun x y hxy => exec_comm isPoint hxy) d
  · intro k
    cases k <;> decide
  · intro a b hab hba
    exact hab ⟨hba.2.symm, hba.1.symm⟩

/-- The rebuild comes after the polls it reads, and the pruning after the polls it prunes. -/
theorem pruneAmidRebuild :
    replay (Database.exec fun _ _ => true) Database.empty
        [.pollTripUpdates (tripFeed 1000 [("S1", 60)]), .pollVehiclePositions vehicleFeed,
          .pruneRealtime (hours 7) 6, .pollWeather [], .rebuildFeatures 0 (hours 7)] =
      replay (Database.exec fun _ _ => true) Database.empty
        [.pollWeather [], .pollTripUpdates (tripFeed 1000 [("S1", 60)]),
          .rebuildFeatures 0 (hours 7), .pollVehiclePositions vehicleFeed,
          .pruneRealtime (hours 7) 6] := by
  refine database_eq_of_sameOrder _ _ ?_
  intro i j h
  cases i <;> cases j <;> first | rfl | exact absurd h (by decide)

/-- A task that writes something a table depends on. -/
def BeatTask.feeds (t : TableName) (task : BeatTask) : Bool :=
  ¬ Disjoint task.kind.writes t.inputs

/-- **What a table is made of**: it is what the tasks that feed it would have left
alone, whatever the others did and whenever they ran. -/
theorem table_determined (d : Database) (tasks : List BeatTask) (t : TableName) :
    (replay (Database.exec isPoint) d tasks).table t =
      (replay (Database.exec isPoint) d (tasks.filter (BeatTask.feeds t))).table t := by
  refine slice_agrees (V := (t.inputs : Set TableName)) (footprint isPoint) ?_ ?_ tasks d t
    (mem_inputs t)
  · intro task u _ hu
    exact Finset.coe_subset.2 (inputs_subset hu)
  · intro task htask
    refine Finset.disjoint_coe.2 ?_
    simpa [BeatTask.feeds] using htask

/-! ## What the predictors see of it -/

section Readers

variable {db db' : Db} (hobs : db.delayObservations = db'.delayObservations) (rt : Runtime)
  (settings : Settings) (now : Instant)
include hobs

theorem bucketDelays_of_observations : bucketDelays db = bucketDelays db' := by
  unfold bucketDelays
  rw [hobs]

theorem routeDelays_of_observations : routeDelays db = routeDelays db' := by
  unfold routeDelays
  rw [hobs]

/-- `predict_delay` reads nothing but the observations. -/
theorem predictDelayUncached_of_observations (req : PredictionRequest) :
    predictDelayUncached rt settings db now req = predictDelayUncached rt settings db' now req := by
  unfold predictDelayUncached predictDelayFor bucketStats routeFallback
  rw [bucketDelays_of_observations hobs, routeDelays_of_observations hobs]

/-- `predict_with_interval` reads the observations, and the rainfall of the features. -/
theorem predictWithInterval_of_features (hfeatures : db.trainingFeatures = db'.trainingFeatures)
    (routeId stopId : String) (target : DateTime) :
    predictWithInterval rt settings db now routeId stopId target =
      predictWithInterval rt settings db' now routeId stopId target := by
  unfold predictWithInterval predictWithIntervalFor bucketWithQuantiles latestRainfallForBucket
    routeFallback
  rw [bucketDelays_of_observations hobs, routeDelays_of_observations hobs, hfeatures]

end Readers

/-- A poll of the trip updates. -/
def BeatTask.isTripPoll (task : BeatTask) : Bool := task.kind = .pollTripUpdates

/-- A task of the feature pipeline, or one that fetches something for it. -/
def BeatTask.isForFeatures (task : BeatTask) : Bool :=
  task.kind ∈ [.pollTripUpdates, .pollWeather, .syncHolidays, .refreshRouteStats, .rebuildFeatures]

theorem feeds_delayObservations : BeatTask.feeds .delayObservations = BeatTask.isTripPoll := by
  funext task
  cases task <;> rfl

theorem feeds_trainingFeatures : BeatTask.feeds .trainingFeatures = BeatTask.isForFeatures := by
  funext task
  cases task <;> rfl

/-- **No prediction is lost to retention**: what `predict_delay` answers after a run is
what the trip update polls of the run alone lead to, and what `predict_with_interval`
answers is what the tasks around the feature pipeline lead to. -/
theorem predictions_determined (d : Database) (tasks : List BeatTask) (rt : Runtime)
    (settings : Settings) (now : Instant) (routeId stopId : String) (target : DateTime) :
    let after := fun tasks => (replay (Database.exec isPoint) d tasks).live
    predictDelayUncached rt settings (after tasks) now ⟨routeId, stopId, target⟩ =
        predictDelayUncached rt settings (after (tasks.filter BeatTask.isTripPoll)) now
          ⟨routeId, stopId, target⟩ ∧
      predictWithInterval rt settings (after tasks) now routeId stopId target =
        predictWithInterval rt settings (after (tasks.filter BeatTask.isForFeatures)) now
          routeId stopId target := by
  intro after
  have hobs : ∀ tasks, (after tasks).delayObservations =
      (after (tasks.filter BeatTask.isTripPoll)).delayObservations := fun tasks => by
    rw [← feeds_delayObservations]
    exact table_determined isPoint d tasks .delayObservations
  have hfeatures : (after tasks).trainingFeatures =
      (after (tasks.filter BeatTask.isForFeatures)).trainingFeatures := by
    rw [← feeds_trainingFeatures]
    exact table_determined isPoint d tasks .trainingFeatures
  -- The polls of both runs are the same.
  have hpolls : (tasks.filter BeatTask.isForFeatures).filter BeatTask.isTripPoll =
      tasks.filter BeatTask.isTripPoll := by
    rw [List.filter_filter]
    refine List.filter_congr fun task _ => ?_
    cases task <;> rfl
  refine ⟨predictDelayUncached_of_observations (hobs tasks) rt settings now _, ?_⟩
  refine predictWithInterval_of_features ?_ rt settings now hfeatures routeId stopId target
  rw [hobs tasks, hobs (tasks.filter BeatTask.isForFeatures), hpolls]

end Order

end DelayPredictor
