import DelayPredictor.Estimates
import DelayPredictor.Realtime

/-!
# Coverage of the interval

How many delays of a bucket lie in the interval that `predict_with_interval` gives it.  Its
ends are the 10th and the 90th percentile, interpolated and rounded.

* `tenth`, `ninth` — the places next to the two percentiles.  Beyond each are as many
  delays as `tenth` says, and where an end is past its place that one is outside as well.
* `CoversLevel` — whether the ends are past them by half a second, and the ties beside.
* `interval_covers` — **when an interval has its level of the delays**: exactly then.  Of
  a number of delays that ends in 0 or 1 it always has, and of no five or more less than
  three fifths.
-/

namespace DelayPredictor

open PyTime Stats

/-! ## The level of an interval -/

/-- The number of delays in the closed range. -/
def PredictionInterval.covered (i : PredictionInterval) (delays : List ℤ) : ℕ :=
  delays.countP fun d => i.lowerSeconds ≤ d && d ≤ i.upperSeconds

/-- The interval has its level of the delays. -/
def PredictionInterval.Attains (i : PredictionInterval) (delays : List ℤ) : Prop :=
  i.level * delays.length ≤ i.covered delays

section Places

variable (delays : List ℤ)

/-- The place below the 10th percentile. -/
def tenth : ℕ := (delays.length - 1) / 10

/-- By how many tenths of a step the percentile is above it. -/
def tenthRest : ℕ := (delays.length - 1) % 10

/-- The place above the 90th percentile. -/
def ninth : ℕ := delays.length - 1 - tenth delays

/-- A number of tenths is rounded up, or down, from `value`. -/
def RoundsAway (tenths value : ℤ) : Prop := 5 < tenths ∨ tenths = 5 ∧ value % 2 = 1

instance (tenths value : ℤ) : Decidable (RoundsAway tenths value) :=
  inferInstanceAs (Decidable (_ ∨ _))

/-- The lower end is past the delay at its place. -/
def LowerCuts : Prop :=
  RoundsAway (tenthRest delays * (orderStat delays (tenth delays + 1) -
    orderStat delays (tenth delays))) (orderStat delays (tenth delays))

/-- The upper end is past the delay at its place. -/
def UpperCuts : Prop :=
  RoundsAway (tenthRest delays * (orderStat delays (ninth delays) -
    orderStat delays (ninth delays - 1))) (orderStat delays (ninth delays))

/-- The delay beyond the lower place is no smaller. -/
def LowerTie : Prop :=
  0 < tenth delays ∧ orderStat delays (tenth delays - 1) = orderStat delays (tenth delays)

/-- The delay beyond the upper place is no larger. -/
def UpperTie : Prop :=
  0 < tenth delays ∧ orderStat delays (ninth delays + 1) = orderStat delays (ninth delays)

instance : Decidable (LowerCuts delays) := inferInstanceAs (Decidable (RoundsAway _ _))

instance : Decidable (UpperCuts delays) := inferInstanceAs (Decidable (RoundsAway _ _))

instance : Decidable (LowerTie delays) := inferInstanceAs (Decidable (_ ∧ _))

instance : Decidable (UpperTie delays) := inferInstanceAs (Decidable (_ ∧ _))

/-- The delays are as many, or so placed, that four fifths of them are covered. -/
def CoversLevel : Prop :=
  tenthRest delays = 0 ∨ tenthRest delays = 9 ∨ (¬ LowerCuts delays ∧ ¬ UpperCuts delays) ∨
    (¬ LowerCuts delays ∧ (4 ≤ tenthRest delays ∨ LowerTie delays)) ∨
    (¬ UpperCuts delays ∧ (4 ≤ tenthRest delays ∨ UpperTie delays))

instance : Decidable (CoversLevel delays) := inferInstanceAs (Decidable (_ ∨ _))

/-- What is known of an interval and the delays it was computed from. -/
structure PredictionInterval.Covers (i : PredictionInterval) : Prop where
  level : i.level = 4 / 5
  attains_iff : i.Attains delays ↔ CoversLevel delays
  missed_le : delays.length ≤ i.covered delays + 2 * (tenth delays + 1)
  three_fifths : 5 ≤ delays.length → 3 * delays.length ≤ 5 * i.covered delays

end Places

/-! ## The two ends -/

section Ends

variable {delays : List ℤ}

/-- The number of delays in terms of the place. -/
theorem length_eq_tenth (h : delays ≠ []) :
    delays.length = 10 * tenth delays + tenthRest delays + 1 ∧ tenthRest delays ≤ 9 := by
  have hlen := List.length_pos_of_ne_nil h
  unfold tenth tenthRest
  omega

theorem percentile_tenth (h : delays ≠ []) :
    percentileCont (1 / 10) delays = some ((orderStat delays (tenth delays) : ℚ) +
      tenthRest delays / 10 *
        (orderStat delays (tenth delays + 1) - orderStat delays (tenth delays))) := by
  obtain ⟨hlen, hrest⟩ := length_eq_tenth h
  have hrest' : (tenthRest delays : ℚ) ≤ 9 := by exact_mod_cast hrest
  have hposition : (1 / 10 : ℚ) * ((delays.length : ℚ) - 1) =
      ((tenth delays : ℤ) : ℚ) + tenthRest delays / 10 := by
    rw [hlen]
    push_cast
    ring
  rw [percentileCont_eq_lerp (by norm_num) (by norm_num) h, hposition,
    lerp_add _ (by positivity) (by linarith)]
  simp

theorem percentile_ninth (h : delays ≠ []) :
    percentileCont (9 / 10) delays = some ((orderStat delays (ninth delays) : ℚ) -
      tenthRest delays / 10 *
        (orderStat delays (ninth delays) - orderStat delays (ninth delays - 1))) := by
  obtain ⟨hlen, hrest⟩ := length_eq_tenth h
  have hrest' : (tenthRest delays : ℚ) ≤ 9 := by exact_mod_cast hrest
  have hninth : ninth delays = 9 * tenth delays + tenthRest delays := by
    unfold ninth
    omega
  have hposition : (9 / 10 : ℚ) * ((delays.length : ℚ) - 1) =
      ((ninth delays : ℤ) : ℚ) - tenthRest delays / 10 := by
    rw [hlen, hninth]
    push_cast
    ring
  have hbelow : ((ninth delays : ℤ) - 1).toNat = ninth delays - 1 := by omega
  rw [percentileCont_eq_lerp (by norm_num) (by norm_num) h, hposition,
    lerp_sub _ (by positivity) (by linarith), hbelow]
  simp

/-- A number of tenths of a step is compared with a half. -/
theorem half_lt_tenths {step : ℤ} {r : ℕ} :
    (1 / 2 : ℚ) < r / 10 * step ↔ 5 < (r : ℤ) * step := by
  rw [← @Int.cast_lt ℚ]
  push_cast
  refine ⟨?_, ?_⟩ <;> intro h <;> linarith

theorem tenths_eq_half {step : ℤ} {r : ℕ} :
    (r / 10 * step : ℚ) = 1 / 2 ↔ (r : ℤ) * step = 5 := by
  rw [← @Int.cast_inj ℚ]
  push_cast
  refine ⟨?_, ?_⟩ <;> intro h <;> linarith

/-- Tenths of a step above a value are rounded above it. -/
theorem lt_roundHalfEven_tenths {value step : ℤ} {r : ℕ} :
    value < roundHalfEven ((value : ℚ) + r / 10 * step) ↔ RoundsAway (r * step) value := by
  rw [lt_roundHalfEven_iff, add_lt_add_iff_left, add_right_inj, half_lt_tenths, tenths_eq_half,
    RoundsAway]

/-- Tenths of a step below a value are rounded below it. -/
theorem roundHalfEven_tenths_lt {value step : ℤ} {r : ℕ} :
    roundHalfEven ((value : ℚ) - r / 10 * step) < value ↔ RoundsAway (r * step) value := by
  rw [roundHalfEven_lt_iff, sub_lt_sub_iff_left, sub_right_inj, half_lt_tenths, tenths_eq_half,
    RoundsAway]

/-! ## What is beyond an end -/

/-- A delay is below a bound, and so are the smaller ones. -/
theorem below_iff (t : ℤ) {i : ℕ} (hi : i < delays.length) :
    orderStat delays i < t ↔ i < delays.countP fun d => d < t := by
  have hsat := orderStat_sat_iff delays (P := fun d => d < t)
    (fun a b hab hb => by simpa using hab.trans_lt (by simpa using hb)) hi
  simpa using hsat

/-- A delay is not above a bound, and neither are the smaller ones. -/
theorem notAbove_iff (t : ℤ) {i : ℕ} (hi : i < delays.length) :
    orderStat delays i ≤ t ↔ i < delays.countP fun d => d ≤ t := by
  have hsat := orderStat_sat_iff delays (P := fun d => d ≤ t)
    (fun a b hab hb => by simpa using hab.trans (by simpa using hb)) hi
  simpa using hsat

/-- The delays below the lower end. -/
structure BelowEnd (delays : List ℤ) (below : ℕ) : Prop where
  le : below ≤ tenth delays + 1
  cuts : tenth delays < below ↔ LowerCuts delays
  tie : ¬ LowerCuts delays → (below < tenth delays ↔ LowerTie delays)

/-- The delays above the upper end. -/
structure AboveEnd (delays : List ℤ) (above : ℕ) : Prop where
  le : above ≤ tenth delays + 1
  cuts : tenth delays < above ↔ UpperCuts delays
  tie : ¬ UpperCuts delays → (above < tenth delays ↔ UpperTie delays)

/-- Some tenths of a step up do not lead past it. -/
theorem tenths_step {a b : ℤ} (h : a ≤ b) {r : ℕ} (hr : r ≤ 9) :
    (0 : ℚ) ≤ (r : ℚ) / 10 * (b - a) ∧ (r : ℚ) / 10 * (b - a) ≤ b - a := by
  have hr' : (r : ℚ) ≤ 9 := by exact_mod_cast hr
  have hstep : (0 : ℚ) ≤ b - a := sub_nonneg.2 (Int.cast_le.2 h)
  refine ⟨?_, ?_⟩
  · positivity
  · exact mul_le_of_le_one_left hstep (by linarith)

/-- Where the lower end is: at its place or past it, and no further than the next delay. -/
theorem lowerEnd_bounds (h : delays ≠ []) {p10 : ℚ}
    (hp : percentileCont (1 / 10) delays = some p10) :
    orderStat delays (tenth delays) ≤ roundHalfEven p10 ∧
      (orderStat delays (tenth delays) < roundHalfEven p10 ↔ LowerCuts delays) ∧
      (tenth delays + 1 < delays.length →
        roundHalfEven p10 ≤ orderStat delays (tenth delays + 1)) := by
  obtain ⟨hlen, hrest⟩ := length_eq_tenth h
  rw [percentile_tenth h] at hp
  have hp := Option.some.inj hp
  refine ⟨?_, ?_, ?_⟩
  · apply le_roundHalfEven
    by_cases hnext : tenth delays + 1 < delays.length
    · have hstep := orderStat_mono delays (Nat.le_add_right (tenth delays) 1) hnext
      linarith [(tenths_step hstep hrest).1]
    · have hzero : tenthRest delays = 0 := by omega
      simp [← hp, hzero]
  · rw [← hp]
    exact_mod_cast lt_roundHalfEven_tenths
  · intro hnext
    have hstep := orderStat_mono delays (Nat.le_add_right (tenth delays) 1) hnext
    apply roundHalfEven_le
    linarith [(tenths_step hstep hrest).2]

/-- Where the upper end is. -/
theorem upperEnd_bounds (h : delays ≠ []) {p90 : ℚ}
    (hp : percentileCont (9 / 10) delays = some p90) :
    roundHalfEven p90 ≤ orderStat delays (ninth delays) ∧
      (roundHalfEven p90 < orderStat delays (ninth delays) ↔ UpperCuts delays) ∧
      orderStat delays (ninth delays - 1) ≤ roundHalfEven p90 := by
  obtain ⟨hlen, hrest⟩ := length_eq_tenth h
  have hplace : ninth delays < delays.length := by
    unfold ninth
    omega
  rw [percentile_ninth h] at hp
  have hp := Option.some.inj hp
  have hstep := orderStat_mono delays (Nat.sub_le (ninth delays) 1) hplace
  refine ⟨?_, ?_, ?_⟩
  · apply roundHalfEven_le
    linarith [(tenths_step hstep hrest).1]
  · rw [← hp]
    exact_mod_cast roundHalfEven_tenths_lt
  · apply le_roundHalfEven
    linarith [(tenths_step hstep hrest).2]

theorem belowEnd (h : delays ≠ []) {p10 : ℚ} (hp : percentileCont (1 / 10) delays = some p10) :
    BelowEnd delays (delays.countP fun d => d < roundHalfEven p10) := by
  obtain ⟨hlen, hrest⟩ := length_eq_tenth h
  obtain ⟨hge, hend, hnextLe⟩ := lowerEnd_bounds h hp
  have hplace : tenth delays < delays.length := by omega
  refine ⟨?_, by rw [← below_iff _ hplace, hend], ?_⟩
  · by_cases hnext : tenth delays + 1 < delays.length
    · have hnot := (below_iff (roundHalfEven p10) hnext).not
      have hle := hnextLe hnext
      omega
    · have hcount := @List.countP_le_length _ (fun d => decide (d < roundHalfEven p10)) delays
      omega
  · intro hcuts
    have heq : roundHalfEven p10 = orderStat delays (tenth delays) := by
      rw [← hend] at hcuts
      omega
    rw [heq, LowerTie]
    rcases Nat.eq_zero_or_pos (tenth delays) with hzero | hpos
    · simp [hzero]
    · have hbelow : tenth delays - 1 < delays.length := by omega
      have hle := orderStat_mono delays (Nat.sub_le (tenth delays) 1) hplace
      have hiff := below_iff (orderStat delays (tenth delays)) hbelow
      omega

/-- The delays above a bound are all but those that are not. -/
theorem countP_above_add (delays : List ℤ) (t : ℤ) :
    (delays.countP fun d => t < d) + (delays.countP fun d => d ≤ t) = delays.length := by
  have hsplit := @List.length_eq_countP_add_countP _ (fun d => decide (t < d)) delays
  simpa [eq_comm] using hsplit

theorem aboveEnd (h : delays ≠ []) {p90 : ℚ} (hp : percentileCont (9 / 10) delays = some p90) :
    AboveEnd delays (delays.countP fun d => roundHalfEven p90 < d) := by
  obtain ⟨hlen, hrest⟩ := length_eq_tenth h
  obtain ⟨hle, hend, hbeforeLe⟩ := upperEnd_bounds h hp
  have hninth : ninth delays + tenth delays + 1 = delays.length := by
    unfold ninth
    omega
  have hplace : ninth delays < delays.length := by omega
  have hall := countP_above_add delays (roundHalfEven p90)
  have hmiddle := notAbove_iff (roundHalfEven p90) hplace
  refine ⟨?_, ?_, ?_⟩
  · by_cases hfirst : ninth delays = 0
    · omega
    · have hbefore : ninth delays - 1 < delays.length := by omega
      have hnot := notAbove_iff (roundHalfEven p90) hbefore
      omega
  · rw [← hend]
    omega
  · intro hcuts
    have heq : roundHalfEven p90 = orderStat delays (ninth delays) := by
      rw [← hend] at hcuts
      omega
    rw [UpperTie]
    rcases Nat.eq_zero_or_pos (tenth delays) with hzero | hpos
    · simp [hzero]
    · have hnext : ninth delays + 1 < delays.length := by omega
      have hge := orderStat_mono delays (Nat.le_add_right (ninth delays) 1) hnext
      have hiff := notAbove_iff (roundHalfEven p90) hnext
      rw [heq] at hiff hall ⊢
      omega

/-- Every delay is in a range, below it or above it. -/
theorem covered_add_missed {i : PredictionInterval} (h : i.lowerSeconds ≤ i.upperSeconds) :
    i.covered delays + (delays.countP fun d => d < i.lowerSeconds) +
      (delays.countP fun d => i.upperSeconds < d) = delays.length := by
  unfold PredictionInterval.covered
  induction delays with
  | nil => rfl
  | cons d delays ih =>
    simp only [List.countP_cons, List.length_cons, Bool.and_eq_true, decide_eq_true_eq]
    split_ifs <;> omega

theorem attains_iff_missed {i : PredictionInterval} (hlevel : i.level = 4 / 5)
    {missed : ℕ} (h : i.covered delays + missed = delays.length) :
    i.Attains delays ↔ 5 * missed ≤ delays.length := by
  have hcast : (i.covered delays : ℚ) + missed = delays.length := by exact_mod_cast h
  unfold PredictionInterval.Attains
  rw [hlevel, ← @Nat.cast_le ℚ]
  push_cast
  constructor <;> intro hle <;> linarith

/-- **An interval covers its level** as far as its ends let it. -/
theorem coversLevel_iff {below above : ℕ} (h : delays ≠ []) (hbelow : BelowEnd delays below)
    (habove : AboveEnd delays above) :
    5 * (below + above) ≤ delays.length ↔ CoversLevel delays := by
  obtain ⟨hlen, hrest⟩ := length_eq_tenth h
  have hlow : LowerCuts delays → tenthRest delays ≠ 0 := by
    intro hcuts hzero
    simp [LowerCuts, RoundsAway, hzero] at hcuts
  have hhigh : UpperCuts delays → tenthRest delays ≠ 0 := by
    intro hcuts hzero
    simp [UpperCuts, RoundsAway, hzero] at hcuts
  obtain ⟨hble, hbcuts, hbtie⟩ := hbelow
  obtain ⟨hale, hacuts, hatie⟩ := habove
  unfold CoversLevel
  by_cases hL : LowerCuts delays <;> by_cases hU : UpperCuts delays
  · -- one more delay is outside on either side
    simp only [hL, hU, not_true_eq_false, false_and, or_false, forall_const, iff_true] at *
    omega
  · simp only [hL, hU, not_true_eq_false, not_false_eq_true, false_and, true_and, false_or,
      forall_const, iff_true, iff_false] at *
    by_cases htie : UpperTie delays <;>
      simp only [htie, or_true, or_false, iff_true, iff_false] at hatie ⊢ <;> omega
  · simp only [hL, hU, not_true_eq_false, not_false_eq_true, false_and, true_and, or_false,
      and_false, false_or, forall_const, iff_true, iff_false] at *
    by_cases htie : LowerTie delays <;>
      simp only [htie, or_true, or_false, iff_true, iff_false] at hbtie ⊢ <;> omega
  · refine iff_of_true ?_ (.inr (.inr (.inl ⟨hL, hU⟩)))
    simp only [hL, hU, iff_false] at hbcuts hacuts
    omega

/-- **What an interval covers** of the delays whose percentiles it rounds. -/
theorem covers_of_percentiles (h : delays ≠ []) {p10 p90 : ℚ}
    (h10 : percentileCont (1 / 10) delays = some p10)
    (h90 : percentileCont (9 / 10) delays = some p90) :
    (⟨roundHalfEven p10, roundHalfEven p90, 4 / 5⟩ : PredictionInterval).Covers delays := by
  obtain ⟨hlen, hrest⟩ := length_eq_tenth h
  have hbelow := belowEnd h h10
  have habove := aboveEnd h h90
  have hle := percentileCont_mono (by norm_num) (by norm_num) (by norm_num) h h10 h90
  have hall := @covered_add_missed delays ⟨roundHalfEven p10, roundHalfEven p90, 4 / 5⟩
    (roundHalfEven_mono hle)
  dsimp only at hall
  rw [add_assoc] at hall
  have hble := hbelow.le
  have hale := habove.le
  constructor
  · rfl
  · rw [attains_iff_missed rfl hall, coversLevel_iff h hbelow habove]
  · omega
  · intro hfive
    omega

end Ends

/-! ## The interval of a response -/

theorem interval_eq_percentiles {settings : Settings} {bucket : IntervalBucket}
    {i : PredictionInterval} (h : interval settings bucket = some i) :
    ∃ p10 p90, bucket.p10 = some p10 ∧ bucket.p90 = some p90 ∧
      i = ⟨roundHalfEven p10, roundHalfEven p90, 4 / 5⟩ := by
  unfold interval at h
  split at h
  · obtain ⟨p10, h10, h⟩ := Option.bind_eq_some_iff.1 h
    obtain ⟨p90, h90, h⟩ := Option.bind_eq_some_iff.1 h
    cases h
    exact ⟨p10, p90, h10, h90, rfl⟩
  · cases h

theorem percentileCont_nil (f : ℚ) : percentileCont f [] = none := by
  simp [percentileCont]

/-- The interval of a response is that of its bucket. -/
theorem confidenceInterval_eq {rt : Runtime} {settings : Settings} {db : Db} {now : Instant}
    {routeId stopId : String} {target : DateTime} {i : PredictionInterval}
    (h : (predictWithInterval rt settings db now routeId stopId target).confidenceInterval =
      some i) :
    interval settings (bucketWithQuantiles db routeId stopId target.hour target.weekday
      (now - days settings.predictorHistoryDays)) = some i := by
  unfold predictWithInterval predictWithIntervalFor at h
  dsimp only at h
  split at h
  · cases hmodel : rt.model <;> simpa only [hmodel] using h
  · cases h

/-- **When an interval has its level of the delays**, and what it covers at least. -/
theorem interval_covers (rt : Runtime) (settings : Settings) (db : Db) (now : Instant)
    (routeId stopId : String) (target : DateTime) (i : PredictionInterval)
    (h : (predictWithInterval rt settings db now routeId stopId target).confidenceInterval =
      some i) :
    i.Covers (bucketHistory settings db now routeId stopId target) := by
  obtain ⟨p10, p90, h10, h90, rfl⟩ := interval_eq_percentiles (confidenceInterval_eq h)
  refine covers_of_percentiles ?_ h10 h90
  intro hnil
  change percentileCont (1 / 10) (bucketHistory settings db now routeId stopId target) = _ at h10
  rw [hnil, percentileCont_nil] at h10
  cases h10

/-- A database with delays of several trips of the route `M1` at the stop `S1`, all in the
first hour of 1971-02-04. -/
def stopDelays (delays : List (String × ℤ)) : Db :=
  Db.empty.putObservations (delays.map fun (tripId, delay) => {
    routeId := "M1"
    tripId
    stopId := "S1"
    observedAt := days 399
    serviceDate := ⟨1971, 2, 4, by decide, by decide, by decide⟩
    hourOfDay := 0
    dayOfWeek := 3
    delaySeconds := delay })

/-- As many delays as an interval asks for by default. -/
def fiveDelays : Db := stopDelays [("T1", 0), ("T2", 10), ("T3", 20), ("T4", 30), ("T5", 40)]

theorem fiveDelays_interval :
    (predictWithInterval Runtime.bare Settings.default fiveDelays (days 399) "M1" "S1"
      (DateTime.utc (days 399))).confidenceInterval = some ⟨4, 36, 4 / 5⟩ := by
  decide +kernel

/-- Three of the five lie in their interval of level 0.8. -/
theorem fiveDelays_missLevel :
    ¬ ∀ rt settings db now routeId stopId target i,
      (predictWithInterval rt settings db now routeId stopId target).confidenceInterval = some i →
        i.Attains (bucketHistory settings db now routeId stopId target) := by
  intro h
  have hattains := h _ _ _ _ _ _ _ _ fiveDelays_interval
  have hhistory : bucketHistory Settings.default fiveDelays (days 399) "M1" "S1"
      (DateTime.utc (days 399)) = [0, 10, 20, 30, 40] := by decide +kernel
  have hcovered : (⟨4, 36, 4 / 5⟩ : PredictionInterval).covered [0, 10, 20, 30, 40] = 3 := by
    decide
  rw [hhistory, PredictionInterval.Attains, hcovered] at hattains
  norm_num at hattains

/-- Eleven delays; nine of them lie in their interval. -/
def elevenDelays : Db :=
  stopDelays [("T1", 0), ("T2", 10), ("T3", 20), ("T4", 30), ("T5", 40), ("T6", 50), ("T7", 60),
    ("T8", 70), ("T9", 80), ("T10", 90), ("T11", 100)]

theorem elevenDelays_covers :
    (⟨10, 90, 4 / 5⟩ : PredictionInterval).Covers
      (bucketHistory Settings.default elevenDelays (days 399) "M1" "S1"
        (DateTime.utc (days 399))) := by
  apply interval_covers Runtime.bare
  decide +kernel

end DelayPredictor
