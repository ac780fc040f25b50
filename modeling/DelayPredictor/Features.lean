import DelayPredictor.Ingest

/-!
# The feature pipeline

`app/services/feature_pipeline.py`: the two `INSERT … SELECT … ON CONFLICT`
statements and what each does to its table.

* `refreshRouteDelayStats` — aggregates per route over a trailing window.
* `featureSelect` — the `SELECT` of `_FEATURES_SQL`, as the nested loops of its
  joins; `featureSelect_eq` — **it has one row for each observation in the
  window**, because both joins are on a primary key.
* `rebuildTrainingFeatures` — the whole statement.  `contents_rebuild_of_mem` and
  `contents_rebuild_of_not_mem` say what it does to each row of the table.
-/

namespace DelayPredictor

open Keyed PyTime Stats

/-! ## Route statistics -/

/-- The row of `route_delay_stats` computed from the delays of a route. -/
def routeStatsRow (routeId : String) (since clock now : Instant) (delays : List ℤ) :
    RouteDelayStats where
  routeId
  windowStart := dayOf since
  windowEnd := dayOf clock
  sampleCount := delays.length
  avgDelaySeconds := mean delays
  p50DelaySeconds := percentileCont (1 / 2) delays
  p90DelaySeconds := percentileCont (9 / 10) delays
  refreshedAt := now

/-- The `SELECT … GROUP BY route_id` of `_ROUTE_STATS_SQL`. -/
def routeStatsSelect (db : Db) (since clock now : Instant) : List RouteDelayStats :=
  let window := (db.delayObservations.rows.map Row.data).filter fun o => since ≤ o.observedAt
  (window.map (·.routeId)).dedup.map fun routeId =>
    routeStatsRow routeId since clock now
      ((window.filter fun o => o.routeId = routeId).map (·.delaySeconds))

/-- `refresh_route_delay_stats`: `clock` is the worker's time, `now` the
database's. -/
def refreshRouteDelayStats (db : Db) (windowDays : ℤ) (clock now : Instant) : Db :=
  match db.routeDelayStats.upsert (routeStatsSelect db (clock - days windowDays) clock now) with
  | some routeDelayStats => { db with routeDelayStats }
  | none => db

/-- The statement proposes every route once, so it is never refused. -/
theorem routeStatsSelect_nodup (db : Db) (since clock now : Instant) :
    ((routeStatsSelect db since clock now).map RouteDelayStats.upsert.key).Nodup := by
  unfold routeStatsSelect
  rw [List.map_map]
  exact (List.nodup_dedup _).map fun a b h => h

/-- **The refresh** puts the aggregates of every route that has an observation in
the window. -/
theorem refresh_routeDelayStats (db : Db) (windowDays : ℤ) (clock now : Instant) :
    (refreshRouteDelayStats db windowDays clock now).routeDelayStats =
      db.routeDelayStats.putAll (routeStatsSelect db (clock - days windowDays) clock now) := by
  unfold refreshRouteDelayStats
  rw [Table.upsert_eq_some _ (routeStatsSelect_nodup db _ clock now)]

/-- The tables a refresh reads and does not write. -/
theorem refresh_frame (db : Db) (windowDays : ℤ) (clock now : Instant) :
    (refreshRouteDelayStats db windowDays clock now).delayObservations = db.delayObservations ∧
      (refreshRouteDelayStats db windowDays clock now).trainingFeatures = db.trainingFeatures := by
  unfold refreshRouteDelayStats
  rw [Table.upsert_eq_some _ (routeStatsSelect_nodup db _ clock now)]
  exact ⟨rfl, rfl⟩

/-! ## The feature select -/

/-- The three aggregates of the lateral subquery. -/
structure WeatherColumns where
  airTempC : Option XFloat
  rainfallMm : Option XFloat
  humidityPct : Option XFloat
  deriving DecidableEq, Repr

/-- The lateral subquery: every station's readings from 90 minutes before the
observation to 30 minutes after it, averaged.  It has exactly one row. -/
def weatherAround (db : Db) (observedAt : Instant) : WeatherColumns :=
  let readings := (db.weatherObservations.rows.map Row.data).filter fun wo =>
    observedAt - minutes 90 ≤ wo.observedAt && wo.observedAt ≤ observedAt + minutes 30
  { airTempC := avg (readings.map (·.airTempC))
    rainfallMm := avg (readings.map (·.rainfallMm))
    humidityPct := avg (readings.map (·.humidityPct)) }

/-- The select list. -/
def featureRow (d : Row DelayObservation) (h : Option PublicHoliday) (w : WeatherColumns)
    (rs : Option RouteDelayStats) : FeatureColumns where
  observationId := d.id
  routeId := d.data.routeId
  tripId := d.data.tripId
  stopId := d.data.stopId
  observedAt := d.data.observedAt
  serviceDate := d.data.serviceDate
  hourOfDay := d.data.hourOfDay
  dayOfWeek := d.data.dayOfWeek
  isWeekend := d.data.dayOfWeek = 5 || d.data.dayOfWeek = 6
  isPublicHoliday := h.isSome
  month := d.data.serviceDate.month
  airTempC := w.airTempC
  rainfallMm := w.rainfallMm
  humidityPct := w.humidityPct
  routeAvgDelay30dS := rs.map (·.avgDelaySeconds)
  routeP50Delay30dS := rs.bind (·.p50DelaySeconds)
  routeP90Delay30dS := rs.bind (·.p90DelaySeconds)
  delaySeconds := d.data.delaySeconds

/-- The `SELECT` of `_FEATURES_SQL`. -/
def featureSelect (db : Db) (since : Instant) : List FeatureColumns :=
  (db.delayObservations.rows.filter fun d => since ≤ d.data.observedAt).flatMap fun d =>
    (PublicHoliday.upsert.leftMatches d.data.serviceDate db.publicHolidays.rows).flatMap fun h =>
      (RouteDelayStats.upsert.leftMatches d.data.routeId db.routeDelayStats.rows).map fun rs =>
        featureRow d h (weatherAround db d.data.observedAt) rs

/-- The select list of an observation, given what its joins find. -/
def selectedRow (db : Db) (d : Row DelayObservation) : FeatureColumns :=
  featureRow d (db.publicHolidays.contents d.data.serviceDate)
    (weatherAround db d.data.observedAt) (db.routeDelayStats.contents d.data.routeId)

/-- **The select has one row for each observation in the window.** -/
theorem featureSelect_eq (db : Db) (since : Instant) :
    featureSelect db since =
      (db.delayObservations.rows.filter fun d => since ≤ d.data.observedAt).map
        (selectedRow db) := by
  have hrow : ∀ d : Row DelayObservation,
      ((PublicHoliday.upsert.leftMatches d.data.serviceDate db.publicHolidays.rows).flatMap fun h =>
        (RouteDelayStats.upsert.leftMatches d.data.routeId db.routeDelayStats.rows).map fun rs =>
          featureRow d h (weatherAround db d.data.observedAt) rs) = [selectedRow db d] := by
    intro d
    rw [Table.leftMatches_eq, Table.leftMatches_eq, List.flatMap_singleton]
    rfl
  unfold featureSelect
  simp only [hrow]
  exact List.flatMap_pure_eq_map _ _

theorem featureSelect_observationId (db : Db) (since : Instant) :
    (featureSelect db since).map (·.observationId) =
      (db.delayObservations.rows.filter fun d => since ≤ d.data.observedAt).map Row.id := by
  rw [featureSelect_eq, List.map_map]
  rfl

/-- The rows the statement proposes at the time `now`. -/
def proposedFeatures (db : Db) (since now : Instant) : List TrainingFeature :=
  (featureSelect db since).map fun c => { c with materializedAt := now }

/-- **The statement is never refused**: it proposes every observation once. -/
theorem proposedFeatures_nodup (db : Db) (since now : Instant) :
    ((proposedFeatures db since now).map TrainingFeature.upsert.key).Nodup := by
  have hkey : (proposedFeatures db since now).map TrainingFeature.upsert.key =
      (featureSelect db since).map (·.observationId) := by
    rw [proposedFeatures, List.map_map]
    rfl
  rw [hkey, featureSelect_observationId]
  exact db.delayObservations.ids_nodup.sublist (List.filter_sublist.map _)

/-- What the statement leaves behind still references observations. -/
theorem feature_fk_proposed (db : Db) (since now : Instant) :
    ∀ f ∈ (db.trainingFeatures.putAll (proposedFeatures db since now)).rows,
      f.data.observationId ∈ db.delayObservations.rows.map Row.id := by
  apply Table.forall_mem_putAll _ db.feature_fk
  · intro j _ f hf
    have hid : f.observationId ∈ (proposedFeatures db since now).map (·.observationId) :=
      List.mem_map_of_mem hf
    have hids : (proposedFeatures db since now).map (·.observationId) =
        (featureSelect db since).map (·.observationId) := by
      rw [proposedFeatures, List.map_map]
      rfl
    rw [hids, featureSelect_observationId] at hid
    exact (List.filter_sublist.map Row.id).subset hid
  · intro r hr f _ _
    exact hr

/-- `rebuild_training_features` with the cutoff `since`; `now` is the database's
time. -/
def rebuildTrainingFeatures (db : Db) (since now : Instant) : Db :=
  match h : db.trainingFeatures.upsert (proposedFeatures db since now) with
  | some trainingFeatures =>
    { db with
      trainingFeatures
      feature_fk := by
        rw [Table.upsert_eq_some _ (proposedFeatures_nodup db since now)] at h
        cases h
        exact feature_fk_proposed db since now }
  | none => db

/-! ## What a rebuild does to the table -/

section Rebuild

variable (db : Db) (since now : Instant)

/-- **The whole effect of a rebuild**: it puts the rows it proposes. -/
theorem rebuildTrainingFeatures_eq : ∃ fk, rebuildTrainingFeatures db since now =
    { db with
      trainingFeatures := db.trainingFeatures.putAll (proposedFeatures db since now)
      feature_fk := fk } := by
  unfold rebuildTrainingFeatures
  split
  · rename_i T h
    rw [Table.upsert_eq_some _ (proposedFeatures_nodup db since now)] at h
    cases h
    exact ⟨feature_fk_proposed db since now, rfl⟩
  · rename_i h
    exact absurd (proposedFeatures_nodup db since now) ((Table.upsert_eq_none_iff _ _).1 h)

theorem rebuild_trainingFeatures :
    (rebuildTrainingFeatures db since now).trainingFeatures =
      db.trainingFeatures.putAll (proposedFeatures db since now) := by
  obtain ⟨fk, h⟩ := rebuildTrainingFeatures_eq db since now
  rw [h]

@[simp] theorem rebuild_delayObservations :
    (rebuildTrainingFeatures db since now).delayObservations = db.delayObservations := by
  obtain ⟨fk, h⟩ := rebuildTrainingFeatures_eq db since now
  rw [h]

/-- A rebuild reads nothing it writes. -/
theorem proposedFeatures_rebuild (since' now' : Instant) :
    proposedFeatures (rebuildTrainingFeatures db since now) since' now' =
      proposedFeatures db since' now' := by
  obtain ⟨fk, h⟩ := rebuildTrainingFeatures_eq db since now
  rw [h]
  rfl

/-- An observation in the window is proposed under its id, and only it is. -/
theorem proposedFeatures_filter_of_mem {d : Row DelayObservation}
    (hd : d ∈ db.delayObservations.rows) (hs : since ≤ d.data.observedAt) :
    ((proposedFeatures db since now).filter fun f => TrainingFeature.upsert.key f = d.id) =
      [{ selectedRow db d with materializedAt := now }] := by
  have hone : ((db.delayObservations.rows.filter fun d => since ≤ d.data.observedAt).filter
      fun r => r.id = d.id) = [d] := by
    calc (db.delayObservations.rows.filter fun d => since ≤ d.data.observedAt).filter
          (fun r => r.id = d.id)
        = (db.delayObservations.rows.filter fun r => r.id = d.id).filter
            (fun r => since ≤ r.data.observedAt) := by
          rw [List.filter_filter, List.filter_filter]
          exact List.filter_congr fun r _ => Bool.and_comm _ _
      _ = [d] := by
          rw [db.delayObservations.filter_id_eq hd]
          simp [hs]
  rw [proposedFeatures, featureSelect_eq, List.map_map, List.filter_map]
  have hkey : ((fun f => decide (TrainingFeature.upsert.key f = d.id)) ∘
      ((fun c : FeatureColumns => ({ c with materializedAt := now } : TrainingFeature)) ∘
        selectedRow db)) = fun r => decide (r.id = d.id) := rfl
  rw [hkey, hone]
  rfl

/-- What a rebuild leaves for an observation in the window. -/
theorem contents_rebuild_of_mem {d : Row DelayObservation} (hd : d ∈ db.delayObservations.rows)
    (hs : since ≤ d.data.observedAt) :
    (rebuildTrainingFeatures db since now).trainingFeatures.contents d.id =
      TrainingFeature.upsert.absorb (db.trainingFeatures.contents d.id)
        { selectedRow db d with materializedAt := now } := by
  rw [rebuild_trainingFeatures, Table.contents_putAll,
    proposedFeatures_filter_of_mem db since now hd hs]
  rfl

/-- An id that is not in the window is not proposed. -/
theorem proposedFeatures_filter_of_not_mem {id : ℕ}
    (h : ∀ d ∈ db.delayObservations.rows, d.id = id → ¬ since ≤ d.data.observedAt) :
    ((proposedFeatures db since now).filter fun f => TrainingFeature.upsert.key f = id) = [] := by
  rw [List.filter_eq_nil_iff]
  intro f hf
  obtain ⟨c, hc, rfl⟩ := List.mem_map.1 hf
  rw [featureSelect_eq] at hc
  obtain ⟨d, hd, rfl⟩ := List.mem_map.1 hc
  obtain ⟨hrow, hwin⟩ := List.mem_filter.1 hd
  have hid : d.id ≠ id := fun hid => h d hrow hid (by simpa using hwin)
  exact fun hkey => hid (of_decide_eq_true hkey)

/-- It keeps its feature row. -/
theorem contents_rebuild_of_not_mem {id : ℕ}
    (h : ∀ d ∈ db.delayObservations.rows, d.id = id → ¬ since ≤ d.data.observedAt) :
    (rebuildTrainingFeatures db since now).trainingFeatures.contents id =
      db.trainingFeatures.contents id := by
  rw [rebuild_trainingFeatures, Table.contents_putAll,
    proposedFeatures_filter_of_not_mem db since now h]
  rfl

end Rebuild

end DelayPredictor
