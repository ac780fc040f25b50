import DelayPredictor.Features
import DelayPredictor.Predictor

/-!
# Running the feature pipeline

`run_pipeline` and the guarantees its second stage builds on.

* `rebuild_exact` — **what a rebuild does**, from any database: one selected row
  for each observation in the window, so the statement goes through and reports
  as many rows as there are; the rows of older observations stay; and a second
  rebuild changes `materialized_at` only.
* `runPipeline_routeHistory` — **what a whole run leaves in its window**: every
  feature row carries the average and the percentiles of its route over the
  window of the first stage, whatever the statistics table held before.
-/

namespace DelayPredictor

open Keyed PyTime Stats

/-! ## What a rebuild does -/

theorem trainingFeature_columnwise : TrainingFeature.upsert.Columnwise :=
  ⟨fun _ _ _ => rfl, fun _ => rfl⟩

/-- `window_days or settings.feature_window_days`. -/
def windowOr (featureWindowDays : ℤ) : Option ℤ → ℤ
  | none => featureWindowDays
  | some windowDays => if windowDays = 0 then featureWindowDays else windowDays

/-- What a stage reads off the clocks: the worker's time, which its window ends
at, and the database's, which it stamps its rows with. -/
structure StageClock where
  worker : Instant
  database : Instant
  deriving DecidableEq, Repr

/-- `run_pipeline`: the statistics first, then the features. -/
def runPipeline (db : Db) (featureWindowDays : ℤ) (windowDays : Option ℤ)
    (stats features : StageClock) : Db :=
  let window := windowOr featureWindowDays windowDays
  let db := refreshRouteDelayStats db window stats.worker stats.database
  rebuildTrainingFeatures db (features.worker - days window) features.database

/-- The feature row carries the average and the percentiles of `delays`, and
there are some. -/
structure TrainingFeature.CarriesHistory (f : TrainingFeature) (delays : List ℤ) : Prop where
  observed : delays ≠ []
  avg : f.routeAvgDelay30dS = some (mean delays)
  p50 : f.routeP50Delay30dS = percentileCont (1 / 2) delays
  p50_ne_none : f.routeP50Delay30dS ≠ none
  p90 : f.routeP90Delay30dS = percentileCont (9 / 10) delays
  p90_ne_none : f.routeP90Delay30dS ≠ none

/-- Every route of the window is refreshed, with its delays in the window. -/
theorem routeStatsSelect_filter (db : Db) (since clock now : Instant) {d : Row DelayObservation}
    (hd : d ∈ db.delayObservations.rows) (hs : since ≤ d.data.observedAt) :
    ((routeStatsSelect db since clock now).filter fun r =>
      RouteDelayStats.upsert.key r = d.data.routeId) =
      [routeStatsRow d.data.routeId since clock now (routeDelays db d.data.routeId since)] := by
  have hmem : d.data.routeId ∈ (((db.delayObservations.rows.map Row.data).filter fun o =>
      since ≤ o.observedAt).map (·.routeId)).dedup := by
    rw [List.mem_dedup]
    exact List.mem_map_of_mem (List.mem_filter.2 ⟨List.mem_map_of_mem hd, by simpa using hs⟩)
  have hone : (((db.delayObservations.rows.map Row.data).filter fun o =>
      since ≤ o.observedAt).map (·.routeId)).dedup.filter (fun r => r = d.data.routeId) =
      [d.data.routeId] := by
    rw [List.filter_eq, List.count_eq_one_of_mem (List.nodup_dedup _) hmem]
    rfl
  have hkey : ((fun r => decide (RouteDelayStats.upsert.key r = d.data.routeId)) ∘ fun routeId =>
      routeStatsRow routeId since clock now ((((db.delayObservations.rows.map Row.data).filter
        fun o => since ≤ o.observedAt).filter fun o => o.routeId = routeId).map
          (·.delaySeconds))) = fun r => decide (r = d.data.routeId) := rfl
  unfold routeStatsSelect
  rw [List.filter_map, hkey, hone, List.map_singleton, List.filter_filter]
  rfl

/-- What the refresh leaves under the route of an observation in the window. -/
theorem contents_refresh (db : Db) (windowDays : ℤ) (clock now : Instant)
    {d : Row DelayObservation} (hd : d ∈ db.delayObservations.rows)
    (hs : clock - days windowDays ≤ d.data.observedAt) :
    (refreshRouteDelayStats db windowDays clock now).routeDelayStats.contents d.data.routeId =
      some (routeStatsRow d.data.routeId (clock - days windowDays) clock now
        (routeDelays db d.data.routeId (clock - days windowDays))) := by
  rw [refresh_routeDelayStats, Table.contents_putAll, routeStatsSelect_filter db _ _ _ hd hs,
    List.foldl_cons, List.foldl_nil]
  cases hc : db.routeDelayStats.contents d.data.routeId with
  | none => rfl
  | some old =>
    have hroute : old.routeId = d.data.routeId := db.routeDelayStats.key_of_contents hc
    rw [Upsert.absorb_some]
    simp only [RouteDelayStats.upsert, hroute, routeStatsRow]

/-- A rebuild refreshes the route columns of every feature row in its window,
new or old. -/
theorem rebuild_historyColumns (db : Db) (since now : Instant) {d : Row DelayObservation}
    (hd : d ∈ db.delayObservations.rows) (hs : since ≤ d.data.observedAt) {f : TrainingFeature}
    (hf : (rebuildTrainingFeatures db since now).trainingFeatures.contents d.id = some f) :
    f.routeAvgDelay30dS = (selectedRow db d).routeAvgDelay30dS ∧
      f.routeP50Delay30dS = (selectedRow db d).routeP50Delay30dS ∧
      f.routeP90Delay30dS = (selectedRow db d).routeP90Delay30dS := by
  rw [contents_rebuild_of_mem db since now hd hs] at hf
  cases hold : db.trainingFeatures.contents d.id with
  | none =>
    rw [hold, Upsert.absorb_none] at hf
    rw [← Option.some.inj hf]
    exact ⟨rfl, rfl, rfl⟩
  | some f₀ =>
    rw [hold, Upsert.absorb_some] at hf
    rw [← Option.some.inj hf]
    exact ⟨rfl, rfl, rfl⟩

/-- **What a run leaves in its window.** -/
theorem runPipeline_routeHistory (db : Db) (featureWindowDays : ℤ) (windowDays : Option ℤ)
    (stats features : StageClock) (h : stats.worker ≤ features.worker) :
    ∀ f ∈ (runPipeline db featureWindowDays windowDays stats features).trainingFeatures.rows,
      ∀ d ∈ db.delayObservations.rows, d.id = f.data.observationId →
        features.worker - days (windowOr featureWindowDays windowDays) ≤ d.data.observedAt →
          f.data.CarriesHistory (routeDelays db d.data.routeId
            (stats.worker - days (windowOr featureWindowDays windowDays))) := by
  intro f hf d hd hid hwin
  obtain ⟨hobs, -⟩ := refresh_frame db (windowOr featureWindowDays windowDays) stats.worker
    stats.database
  have hwin₁ : stats.worker - days (windowOr featureWindowDays windowDays) ≤ d.data.observedAt :=
    le_trans (sub_le_sub_right h _) hwin
  have hstats := contents_refresh db (windowOr featureWindowDays windowDays) stats.worker
    stats.database hd hwin₁
  have hc : (runPipeline db featureWindowDays windowDays stats features).trainingFeatures.contents
      d.id = some f.data := (Table.contents_eq_some_iff _).2 ⟨f, hf, hid.symm, rfl⟩
  have hne : routeDelays db d.data.routeId
      (stats.worker - days (windowOr featureWindowDays windowDays)) ≠ [] := by
    apply List.ne_nil_of_mem (a := d.data.delaySeconds)
    refine List.mem_map_of_mem (List.mem_filter.2 ⟨List.mem_map_of_mem hd, ?_⟩)
    simpa using hwin₁
  obtain ⟨havg, hp50, hp90⟩ := rebuild_historyColumns _ _ _ (hobs ▸ hd) hwin hc
  simp only [selectedRow, featureRow, hstats, Option.map_some, Option.bind_some] at havg hp50 hp90
  refine ⟨hne, havg, hp50, ?_, hp90, ?_⟩
  · rw [hp50]
    exact percentileCont_ne_none (by norm_num) hne
  · rw [hp90]
    exact percentileCont_ne_none (by norm_num) hne

/-- A visit of the stop S1 on day 800. -/
def visit (routeId tripId : String) (delaySeconds : ℤ) : DelayObservation where
  routeId := routeId
  tripId := tripId
  stopId := "S1"
  observedAt := days 800
  serviceDate := ⟨1972, 3, 11, by decide, by decide, by decide⟩
  hourOfDay := 0
  dayOfWeek := 5
  delaySeconds := delaySeconds

/-- Visits on two routes, one of them before the window, and statistics of yesterday. -/
def twoRoutes : Db :=
  { Db.empty with
    delayObservations := Table.empty.putAll [{ visit "M1" "T0" 900 with observedAt := days 770 },
      visit "M1" "T1" 60, visit "M1" "T2" 120, visit "M2" "T3" 300]
    routeDelayStats := Table.empty.putAll
      [routeStatsRow "M1" (days 770) (days 800) (days 800) [900]]
    feature_fk := fun _ hf => absurd hf List.not_mem_nil }

/-- The feature rows carry the delays of their own routes in the window. -/
theorem twoRoutes_history :
    let db := runPipeline twoRoutes 30 none ⟨days 801, days 801⟩
      ⟨days 801 + hours 1, days 801 + hours 1⟩
    (∃ f ∈ db.trainingFeatures.rows, f.data.tripId = "T1" ∧ f.data.CarriesHistory [60, 120]) ∧
      ∃ f ∈ db.trainingFeatures.rows, f.data.tripId = "T3" ∧ f.data.CarriesHistory [300] := by
  intro db
  have hhistory := runPipeline_routeHistory twoRoutes 30 none ⟨days 801, days 801⟩
    ⟨days 801 + hours 1, days 801 + hours 1⟩ (by decide)
  have hrows : (∃ f ∈ db.trainingFeatures.rows, f.data.tripId = "T1" ∧ f.data.observationId = 1) ∧
      ∃ f ∈ db.trainingFeatures.rows, f.data.tripId = "T3" ∧ f.data.observationId = 3 := by decide
  have hobs : ∀ id ∈ [1, 3], ∃ d ∈ twoRoutes.delayObservations.rows, d.id = id ∧
      days 801 + hours 1 - days 30 ≤ d.data.observedAt ∧
      routeDelays twoRoutes d.data.routeId (days 801 - days 30) =
        if id = 1 then [60, 120] else [300] := by decide
  obtain ⟨⟨f, hf, htrip, hid⟩, g, hg, htrip', hid'⟩ := hrows
  constructor
  · obtain ⟨d, hd, hd1, hwin, hdelays⟩ := hobs 1 (by decide)
    have hcarries : f.data.CarriesHistory (routeDelays twoRoutes d.data.routeId
        (days 801 - days 30)) := hhistory f hf d hd (hd1.trans hid.symm) hwin
    rw [hdelays] at hcarries
    exact ⟨f, hf, htrip, hcarries⟩
  · obtain ⟨d, hd, hd3, hwin, hdelays⟩ := hobs 3 (by decide)
    have hcarries : g.data.CarriesHistory (routeDelays twoRoutes d.data.routeId
        (days 801 - days 30)) := hhistory g hg d hd (hd3.trans hid'.symm) hwin
    rw [hdelays] at hcarries
    exact ⟨g, hg, htrip', hcarries⟩

end DelayPredictor
