import DelayPredictor.Pipeline

/-!
# Route statistics

What a refresh leaves in `route_delay_stats` as a whole: the table is upserted
and never cleared.

* `RouteDelayStats.Summarizes` — a row has the aggregates of the delays of its
  route.
* `statsExact_iff` — **when the table is that of the window**: exactly when no route
  that has a row has left the window.  A route that has keeps the aggregates of an
  earlier one.
-/

namespace DelayPredictor

open Keyed PyTime Stats

/-- The row aggregates `delays`, and there are some. -/
structure RouteDelayStats.Summarizes (r : RouteDelayStats) (delays : List ℤ) : Prop where
  observed : delays ≠ []
  count : r.sampleCount = delays.length
  avg : r.avgDelaySeconds = mean delays
  p50 : r.p50DelaySeconds = percentileCont (1 / 2) delays
  p90 : r.p90DelaySeconds = percentileCont (9 / 10) delays

/-- A route has a row exactly when it has an observation since `since`, and the row
aggregates these. -/
def StatsExact (db : Db) (since : Instant) : Prop :=
  ∀ routeId, (db.routeDelayStats.contents routeId ≠ none ↔ routeDelays db routeId since ≠ []) ∧
    ∀ r, db.routeDelayStats.contents routeId = some r → r.Summarizes (routeDelays db routeId since)

/-! ## What a refresh leaves under a route -/

section Refresh

variable (db : Db) (windowDays : ℤ) (clock now : Instant) {routeId : String}

theorem exists_observation {since : Instant} (h : routeDelays db routeId since ≠ []) :
    ∃ d ∈ db.delayObservations.rows, d.data.routeId = routeId ∧ since ≤ d.data.observedAt := by
  obtain ⟨delay, hdelay⟩ := List.exists_mem_of_ne_nil _ h
  obtain ⟨o, ho, -⟩ := List.mem_map.1 hdelay
  obtain ⟨hrow, hsel⟩ := List.mem_filter.1 ho
  obtain ⟨d, hd, rfl⟩ := List.mem_map.1 hrow
  exact ⟨d, hd, by simpa using hsel⟩

/-- A route that is not in the window is not proposed. -/
theorem routeStatsSelect_filter_of_nil {since : Instant} (h : routeDelays db routeId since = []) :
    ((routeStatsSelect db since clock now).filter fun r =>
      RouteDelayStats.upsert.key r = routeId) = [] := by
  rw [List.filter_eq_nil_iff]
  intro r hr hkey
  obtain ⟨route, hroute, rfl⟩ := List.mem_map.1 hr
  obtain ⟨o, ho, rfl⟩ := List.mem_map.1 (List.mem_dedup.1 hroute)
  obtain ⟨hrow, hsince⟩ := List.mem_filter.1 ho
  have hmem : o.delaySeconds ∈ routeDelays db routeId since := by
    refine List.mem_map_of_mem (List.mem_filter.2 ⟨hrow, ?_⟩)
    have hsame : o.routeId = routeId := of_decide_eq_true hkey
    simpa [hsame] using hsince
  rw [h] at hmem
  cases hmem

/-- It keeps its row. -/
theorem contents_refresh_of_nil (h : routeDelays db routeId (clock - days windowDays) = []) :
    (refreshRouteDelayStats db windowDays clock now).routeDelayStats.contents routeId =
      db.routeDelayStats.contents routeId := by
  rw [refresh_routeDelayStats, Table.contents_putAll,
    routeStatsSelect_filter_of_nil db clock now h, List.foldl_nil]

/-- A route that is has the aggregates of the window. -/
theorem contents_refresh_of_ne_nil (h : routeDelays db routeId (clock - days windowDays) ≠ []) :
    ∃ r, (refreshRouteDelayStats db windowDays clock now).routeDelayStats.contents routeId =
      some r ∧ r.Summarizes (routeDelays db routeId (clock - days windowDays)) := by
  obtain ⟨d, hd, rfl, hs⟩ := exists_observation db h
  exact ⟨_, contents_refresh db windowDays clock now hd hs, h, rfl, rfl, rfl, rfl⟩

/-- A refresh writes no observation. -/
theorem routeDelays_refresh (since : Instant) :
    routeDelays (refreshRouteDelayStats db windowDays clock now) routeId since =
      routeDelays db routeId since := by
  unfold routeDelays
  rw [(refresh_frame db windowDays clock now).1]

/-- **When a refresh leaves exactly the aggregates of its window.** -/
theorem statsExact_iff :
    StatsExact (refreshRouteDelayStats db windowDays clock now) (clock - days windowDays) ↔
      ∀ r ∈ db.routeDelayStats.rows,
        routeDelays db r.data.routeId (clock - days windowDays) ≠ [] := by
  constructor
  · intro h r hr hnil
    have hkept := contents_refresh_of_nil db windowDays clock now hnil
    have hrow : db.routeDelayStats.contents r.data.routeId = some r.data :=
      (Table.contents_eq_some_iff _).2 ⟨r, hr, rfl, rfl⟩
    rw [← hkept] at hrow
    have hobserved := ((h r.data.routeId).2 r.data hrow).observed
    rw [routeDelays_refresh] at hobserved
    exact hobserved hnil
  · intro h routeId
    rw [routeDelays_refresh]
    by_cases hnil : routeDelays db routeId (clock - days windowDays) = []
    · have hnone : db.routeDelayStats.contents routeId = none := by
        rw [Table.contents_eq_none_iff]
        rintro r hr rfl
        exact h r hr hnil
      rw [contents_refresh_of_nil db windowDays clock now hnil, hnone]
      simp [hnil]
    · obtain ⟨r, hr, hsum⟩ := contents_refresh_of_ne_nil db windowDays clock now hnil
      rw [hr]
      refine ⟨by simp [hnil], ?_⟩
      intro r' hr'
      obtain rfl := Option.some.inj hr'
      exact hsum

end Refresh

/-- One observation, of an hour ago, as the only content of the database. -/
def oneObservation : Db :=
  { Db.empty with
    delayObservations := Table.empty.putAll [{
      routeId := "M1", tripId := "T1", stopId := "S1", observedAt := 0
      serviceDate := ⟨1970, 1, 1, by decide, by decide, by decide⟩
      hourOfDay := 0, dayOfWeek := 3, delaySeconds := 60 }]
    feature_fk := fun _ hf => absurd hf List.not_mem_nil }

/-- A route that was observed once keeps its row when the window has moved on. -/
theorem quietRoute_keepsStats :
    ¬ ∀ (db : Db) (windowDays : ℤ) (clock now : Instant),
      StatsExact (refreshRouteDelayStats db windowDays clock now) (clock - days windowDays) := by
  intro h
  have hfirst : ∃ r, (refreshRouteDelayStats oneObservation 30 (hours 1)
      (hours 1)).routeDelayStats.contents "M1" = some r := by
    have hne : routeDelays oneObservation "M1" (hours 1 - days 30) ≠ [] := by decide
    obtain ⟨r, hr, -⟩ := contents_refresh_of_ne_nil oneObservation 30 (hours 1) (hours 1) hne
    exact ⟨r, hr⟩
  obtain ⟨r, hr⟩ := hfirst
  have hnil : routeDelays (refreshRouteDelayStats oneObservation 30 (hours 1) (hours 1)) "M1"
      (days 60 - days 30) = [] := by
    rw [routeDelays_refresh]
    decide
  have hlast := h (refreshRouteDelayStats oneObservation 30 (hours 1) (hours 1)) 30 (days 60)
    (days 60) "M1"
  rw [routeDelays_refresh, contents_refresh_of_nil _ _ _ _ hnil] at hlast
  exact (hlast.2 r hr).observed hnil

end DelayPredictor
