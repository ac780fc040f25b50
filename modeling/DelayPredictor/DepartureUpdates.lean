import DelayPredictor.DepartureDates

/-!
# Realtime departures

Which update the delay of a realtime departure is from.  `_latest_realtime_delay` asks for
the newest update of the trip at the stop, of any service date and any call at that stop.

* `visitUpdates` — the updates of a visit: a stop time of a trip, on a service date.
* `visitsOwnDelay_iff` — **when every realtime departure uses the newest delay of its own
  visit**: exactly when the newest updates the trips of the window have at the stop, where
  they have a delay, are of today's visits.
-/

namespace DelayPredictor

open Keyed PyTime Query ReadThrough Runs

/-! ## The updates of a visit -/

/-- An update is for the call that a stop time is on a service date. -/
def LiveRow.forVisit (u : LiveRow) (stopTime : StopTime) (day : ℤ) : Bool :=
  u.1.tripId = stopTime.tripId && u.1.startDate.map Date.dayNumber = some day &&
    u.2.stopId = some stopTime.stopId && u.2.stopSequence.all (· = stopTime.stopSequence)

/-- The joined realtime rows of a visit. -/
def visitUpdates (db : Db) (stopTime : StopTime) (day : ℤ) : List LiveRow :=
  (liveJoin db).filter fun u => u.forVisit stopTime day

/-- A realtime departure applies the delay of the newest update of its visit. -/
def OwnDelay (db : Db) (p : DepartureRead) (d : Departure) : Prop :=
  d.source = .realtime → ∀ day, d.scheduledDeparture = p.1.stopTime.instantOn day →
    ∃ u, p.2 = some u ∧ First NewestFirst (visitUpdates db p.1.stopTime day) (some u) ∧
      u.appliedDelay = some d.predictedDelaySeconds

/-- Every realtime departure of every answer does. -/
def VisitsOwnDelay (rt : Runtime) (settings : Settings) (T : StaticDb) (db : Db)
    (now : Instant) (stopId : String) (windowMinutes : ℕ) : Prop :=
  ∀ limit cache reads departures,
    DeparturesAnswer rt settings T db now ⟨stopId, windowMinutes, limit⟩ cache reads departures →
    List.Forall₂ (OwnDelay db) reads departures

/-- The newest updates of the trips of the window, where they have a delay, are for the
visits of today. -/
def NewestForToday (T : StaticDb) (db : Db) (now : Instant) (stopId : String)
    (windowMinutes : ℕ) : Prop :=
  ∀ stopTime ∈ T.stopTimes.data, stopTime.OfToday now stopId windowMinutes →
    ∀ u ∈ stopUpdates db stopTime.tripId stopId,
      (∀ v ∈ stopUpdates db stopTime.tripId stopId, NewestFirst u v) → u.appliedDelay ≠ none →
      u.forVisit stopTime (dayOf now) = true

section

variable {rt : Runtime} {settings : Settings} {T : StaticDb} {db : Db} {now : Instant}
  {stopId : String} {windowMinutes : ℕ} {u : LiveRow} {stopTime : StopTime}

theorem mem_visitUpdates_iff {day : ℤ} :
    u ∈ visitUpdates db stopTime day ↔ u ∈ liveJoin db ∧ u.forVisit stopTime day = true := by
  simp [visitUpdates]

/-- The updates of a visit are updates of the trip at the stop. -/
theorem mem_stopUpdates_of_visit {day : ℤ} (h : u ∈ visitUpdates db stopTime day) :
    u ∈ stopUpdates db stopTime.tripId stopTime.stopId := by
  obtain ⟨hjoin, hvisit⟩ := mem_visitUpdates_iff.1 h
  simp only [LiveRow.forVisit, Bool.and_eq_true, decide_eq_true_eq] at hvisit
  obtain ⟨⟨⟨htrip, -⟩, hstop⟩, -⟩ := hvisit
  simp [stopUpdates, hjoin, htrip, hstop]

/-- The newest update of the trip is that of the visit, if it is for the visit. -/
theorem first_visitUpdates {day : ℤ}
    (h : First NewestFirst (stopUpdates db stopTime.tripId stopTime.stopId) (some u))
    (hvisit : u.forVisit stopTime day = true) :
    First NewestFirst (visitUpdates db stopTime day) (some u) := by
  obtain ⟨hmem, hnewest⟩ := first_some_iff.1 h
  rw [first_some_iff]
  constructor
  · exact mem_visitUpdates_iff.2 ⟨(List.mem_filter.1 hmem).1, hvisit⟩
  · intro v hv
    exact hnewest v (mem_stopUpdates_of_visit hv)

/-- A departure that was made of a row and a latest update has the delay of its visit
exactly when that update, where it has a delay, is for today's visit. -/
theorem ownDelay_iff {row : DepartureRow} {update : Option LiveRow} {d : Departure}
    (hlatest : First NewestFirst (stopUpdates db row.stopTime.tripId row.stopTime.stopId) update)
    (hd : Describes now (row, update) d) :
    OwnDelay db (row, update) d ↔
      ∀ u, update = some u → u.appliedDelay ≠ none →
        u.forVisit row.stopTime (dayOf now) = true := by
  constructor
  · rintro h u rfl hdelay
    have hrealtime : d.source = .realtime := hd.realtime.2 (Option.ne_none_iff_exists'.1 hdelay)
    obtain ⟨v, hv, hfirst, -⟩ := h hrealtime (dayOf now) hd.scheduled
    obtain rfl : u = v := Option.some.inj hv
    exact (mem_visitUpdates_iff.1 (first_some_iff.1 hfirst).1).2
  · intro h hrealtime day hday
    -- the service date is today's
    rw [hd.scheduled] at hday
    obtain rfl : dayOf now = day := days_inj (add_right_cancel hday)
    obtain ⟨delay, hdelay⟩ := hd.realtime.1 hrealtime
    obtain ⟨u, rfl, happlied⟩ := Option.bind_eq_some_iff.1 hdelay
    have hvisit := h u rfl (by simp [happlied])
    refine ⟨u, rfl, first_visitUpdates hlatest hvisit, ?_⟩
    rw [happlied, (hd.applied delay hdelay).1]

/-- The same of the selected rows, and of what may be read for them. -/
theorem visitsOwnDelay_iff_rows :
    VisitsOwnDelay rt settings T db now stopId windowMinutes ↔
      ∀ row ∈ (⟨stopId, windowMinutes, 0⟩ : DepartureQuery).selected T now, ∀ update,
        LatestUpdate db row.trip.tripId stopId update → ∀ u, update = some u →
          u.appliedDelay ≠ none → u.forVisit row.stopTime (dayOf now) = true := by
  apply forall_departures_iff
  intro row hrow update hupdate d hd
  obtain ⟨hjoin, hstop, -⟩ := mem_selected_iff.1 hrow
  rw [(mem_departureJoin_iff.1 hjoin).2.2.1] at hupdate
  obtain rfl : row.stopTime.stopId = stopId := hstop
  exact ownDelay_iff hupdate hd

/-- **When every realtime departure uses the newest delay of its own visit.** -/
theorem visitsOwnDelay_iff (rt : Runtime) (settings : Settings) (T : StaticDb) (db : Db)
    (now : Instant) (stopId : String) (windowMinutes : ℕ) :
    VisitsOwnDelay rt settings T db now stopId windowMinutes ↔
      NewestForToday T db now stopId windowMinutes := by
  rw [visitsOwnDelay_iff_rows]
  constructor
  · intro h stopTime hst htoday u hu hnewest hdelay
    obtain ⟨row, hjoin, rfl⟩ := exists_row hst
    refine h row (mem_selected_iff.2 ⟨hjoin, htoday⟩) (some u) ?_ u rfl hdelay
    rw [(mem_departureJoin_iff.1 hjoin).2.2.1]
    exact first_some_iff.2 ⟨hu, hnewest⟩
  · rintro h row hrow _ hupdate u rfl hdelay
    obtain ⟨hjoin, htoday⟩ := mem_selected_iff.1 hrow
    obtain ⟨hst, -, hid, -, -⟩ := mem_departureJoin_iff.1 hjoin
    rw [hid] at hupdate
    obtain ⟨hu, hnewest⟩ := first_some_iff.1 hupdate
    exact h row.stopTime hst htoday u hu hnewest hdelay

end

/-- The update of 2026-05-13 is applied to the departure of the day after. -/
theorem yesterdaysDelay_applied :
    weekdayIngest.1 = .ok () ∧
      ¬ VisitsOwnDelay Runtime.bare Settings.default weekdayIngest.2
        (afterPolls [tripFeed 1778659500 [("S1", 300)]]) (days 20587 + minutes 450) "S1" 60 := by
  refine ⟨weekdayIngest_ok, ?_⟩
  intro h
  have hst : morningStopTime ∈ weekdayIngest.2.stopTimes.data := by decide +kernel
  have hnewest : ∃ u ∈ stopUpdates (afterPolls [tripFeed 1778659500 [("S1", 300)]]) "T1" "S1",
      (∀ v ∈ stopUpdates (afterPolls [tripFeed 1778659500 [("S1", 300)]]) "T1" "S1",
        NewestFirst u v) ∧ u.appliedDelay ≠ none ∧
      u.forVisit morningStopTime (dayOf (days 20587 + minutes 450)) = false := by
    unfold stopUpdates
    rw [liveJoin_afterPolls]
    decide
  obtain ⟨u, hu, hfirst, hdelay, hother⟩ := hnewest
  obtain ⟨row, hjoin, hrow⟩ := exists_row hst
  have hid : row.trip.tripId = "T1" := by
    rw [(mem_departureJoin_iff.1 hjoin).2.2.1, hrow]
    rfl
  have hlatest : LatestUpdate (afterPolls [tripFeed 1778659500 [("S1", 300)]]) row.trip.tripId
      "S1" (some u) := by
    rw [hid]
    exact first_some_iff.2 ⟨hu, hfirst⟩
  have hvisit := visitsOwnDelay_iff_rows.1 h row
    (mem_selected_iff.2 ⟨hjoin, by rw [hrow]; decide⟩) (some u) hlatest u rfl hdelay
  rw [hrow, hother] at hvisit
  cases hvisit

end DelayPredictor
