import DelayPredictor.Ingest
import DelayPredictor.Predictor

/-!
# Buckets on the two sides

Ingest files an observation under the hour and weekday of its instant in UTC; the
predictor looks a target time up under the hour and weekday its own clock shows.

* `storedUnderLookup_iff` — the two buckets of an instant agree exactly when the
  offset it is written in does not carry it out of its UTC clock hour.
* `bucketsAgree_iff` — **when the two sides agree**, estimates included.  No
  offset of an hour or more ever qualifies; the agency's ten hours do not.
-/

namespace DelayPredictor

open Keyed PyTime Stats

/-- An observation recorded at `t` is stored under the bucket that a request
naming `t` in the offset `off` looks up. -/
def StoredUnderLookup (t : Instant) (off : Offset) : Prop :=
  ∀ trip d stu o, observationRow trip t d stu = some o →
    o.hourOfDay = (DateTime.inOffset t off).hour ∧ o.dayOfWeek = (DateTime.inOffset t off).weekday

/-- A request naming `t` in the offset `off` gets the estimates that a request
naming `t` in UTC gets, from both predictors and whatever they have to go by. -/
def SameEstimates (t : Instant) (off : Offset) : Prop :=
  ∀ rt settings db now routeId stopId,
    predictDelayUncached rt settings db now ⟨routeId, stopId, DateTime.inOffset t off⟩ =
      { predictDelayUncached rt settings db now ⟨routeId, stopId, DateTime.utc t⟩ with
        targetTime := DateTime.inOffset t off } ∧
    predictWithInterval rt settings db now routeId stopId (DateTime.inOffset t off) =
      { predictWithInterval rt settings db now routeId stopId (DateTime.utc t) with
        datetime := DateTime.inOffset t off }

/-- The write side and the read side agree about `t` written in the offset `off`. -/
def BucketsAgree (t : Instant) (off : Offset) : Prop :=
  StoredUnderLookup t off ∧ SameEstimates t off

/-- A trip for which every stop with a delay is observed. -/
def observedTrip : TripDescriptor where
  tripId := "T1"
  routeId := "M1"
  startDate := "20260513"
  scheduleRelationship := none

/-- An arrival on time. -/
def onTime : StopTimeUpdateMsg where
  stopSequence := none
  stopId := "S1"
  arrival := some { delay := some 0, time := none }
  departure := none
  scheduleRelationship := none

/-- At every instant there is something to observe. -/
theorem exists_observationRow (t : Instant) :
    ∃ o, observationRow observedTrip t
      (some ⟨2026, 5, 13, by decide, by decide, by decide⟩) onTime = some o :=
  ⟨_, rfl⟩

/-- **The buckets of an instant agree** exactly when the offset leaves it in its
UTC clock hour. -/
theorem storedUnderLookup_iff (t : Instant) (off : Offset) :
    StoredUnderLookup t off ↔
      0 ≤ t % 3600000000 + off.micros ∧ t % 3600000000 + off.micros < 3600000000 := by
  rw [← DateTime.inOffset_sameHourOfWeek_iff]
  refine ⟨?_, ?_⟩
  · intro h
    obtain ⟨o, ho⟩ := exists_observationRow t
    obtain ⟨hhour, hday⟩ := h _ _ _ o ho
    have hco : o.Coherent := (observationRow_eq_some ho).2.2.2.2.2
    have ht : o.observedAt = t := (observationRow_eq_some ho).2.2.2.2.1
    rw [hco.hour, ht] at hhour
    rw [hco.weekday, ht] at hday
    exact ⟨by rw [← hhour, DateTime.utc_hour], by rw [← hday, DateTime.utc_weekday]⟩
  · rintro ⟨hhour, hday⟩ trip d stu o ho
    obtain ⟨-, -, -, -, ht, hco⟩ := observationRow_eq_some ho
    rw [hhour, hday, DateTime.utc_hour, DateTime.utc_weekday, ← ht]
    exact ⟨hco.hour, hco.weekday⟩

/-- Where the buckets agree, so do the estimates. -/
theorem StoredUnderLookup.sameEstimates {t : Instant} {off : Offset}
    (h : StoredUnderLookup t off) : SameEstimates t off := by
  rw [storedUnderLookup_iff, ← DateTime.inOffset_sameHourOfWeek_iff] at h
  obtain ⟨hhour, hday⟩ := h
  intro rt settings db now routeId stopId
  exact ⟨predictDelayUncached_congr rt settings db now routeId stopId hhour hday,
    predictWithInterval_congr rt settings db now routeId stopId hhour hday⟩

/-- **When the two sides agree about an instant and an offset.** -/
theorem bucketsAgree_iff (t : Instant) (off : Offset) :
    BucketsAgree t off ↔
      0 ≤ t % 3600000000 + off.micros ∧ t % 3600000000 + off.micros < 3600000000 := by
  rw [← storedUnderLookup_iff]
  exact ⟨fun h => h.1, fun h => ⟨h, h.sameEstimates⟩⟩

/-- The agency's local time. -/
def brisbane : Offset := ⟨36000000000, by decide, by decide⟩

/-- Observed at 22:15 UTC on a Tuesday, asked for as 08:15 on Wednesday. -/
theorem brisbane_looksUpAnotherBucket : ¬ ∀ t off, BucketsAgree t off := by
  intro h
  obtain ⟨o, ho⟩ := exists_observationRow (seconds 1778624100)
  have hhour := ((h (seconds 1778624100) brisbane).1 _ _ _ o ho).1
  obtain ⟨-, -, -, -, ht, hco⟩ := observationRow_eq_some ho
  rw [hco.hour, ht] at hhour
  exact absurd hhour (by decide)

end DelayPredictor
