import DelayPredictor.Features
import DelayPredictor.Stations

/-!
# Weather readings and the features made of them

When what a station reports becomes what the features average.

* `denoted` — the finite number a raw cell denotes, if any.
* `readingsUnspoilt_iff` — **when every reading is stored as what it denotes**,
  and every average is the mean of the finite readings around it: exactly when,
  run by run, the cells of each reading seen for the first time are clean and
  nothing in its run makes the conversion raise.

The averages are exact: the rounding of `AVG` is left out, and with it the error that it
raises where a sum of finite readings is beyond the doubles.
-/

namespace DelayPredictor

open Keyed PyJson PyNumber PyTime Raising Runs Stats

/-! ## What a cell denotes -/

/-- The double nearest to a number, if it is within the doubles. -/
def finiteDouble (q : ℚ) : Option XFloat :=
  if |q| < doubleLimit then some (.fin (roundToDouble q)) else none

/-- The finite number a literal writes. -/
def finiteLiteral : Literal → Option XFloat
  | .decimal q => finiteDouble q
  | _ => none

/-- The finite number a raw cell denotes: a number, or a text that writes one. -/
def denoted : Value → Option XFloat
  | .int n => finiteDouble n
  | .float x => x.toRat?.map .fin
  | .str s => (floatLiteral s).bind finiteLiteral
  | _ => none

/-- The row a reading should be stored as. -/
def RawReading.denoted (raw : RawReading) : WeatherObservation where
  stationId := raw.stationId
  observedAt := raw.observedAt
  airTempC := DelayPredictor.denoted raw.airTemp
  rainfallMm := DelayPredictor.denoted raw.rainTrace
  humidityPct := DelayPredictor.denoted raw.relHum
  windSpeedKmh := DelayPredictor.denoted raw.windSpdKmh
  source := some "bom_IDQ60901"

theorem literal_value_eq_iff (l : Literal) : some l.value = finiteLiteral l ↔ l.IsFinite := by
  cases l with
  | decimal q =>
    show some (toDouble q) = finiteDouble q ↔ |q| < doubleLimit
    by_cases h : |q| < doubleLimit
    · simp [finiteDouble, toDouble_eq_fin h, h]
    · simp [finiteDouble, h]
  | infinity negative => simp [finiteLiteral, Literal.IsFinite]
  | nan => simp [finiteLiteral, Literal.IsFinite]

/-- A cell that is no Boolean, and no number, nor the name of one, beyond the
finite doubles. -/
def CellClean : Value → Prop
  | .bool _ => False
  | .int n => |(n : ℚ)| < doubleLimit
  | .float x => x.toRat? ≠ none
  | .str s => ∀ l, floatLiteral s = some l → l.IsFinite
  | _ => True

/-- **A clean cell is stored as what it denotes**, and no other is. -/
theorem parseFloat_eq_denoted_iff (value : Value) :
    parseFloat value = .ok (denoted value) ↔ CellClean value := by
  cases value with
  | null => exact ⟨fun _ => trivial, fun _ => rfl⟩
  | bool b => exact ⟨fun h => (by cases h), fun h => (by cases h)⟩
  | int n =>
    show (if |(n : ℚ)| < doubleLimit then _ else _) = _ ↔ |(n : ℚ)| < doubleLimit
    by_cases h : |(n : ℚ)| < doubleLimit
    · simp [h, denoted, finiteDouble]
    · simp [h]
  | float x => cases x <;> simp [parseFloat, denoted, CellClean, XFloat.toRat?]
  | str s =>
    have hread : parseFloat (.str s) = .ok (pyFloat s) := by
      show Except.ok (if s = "-" ∨ s = "" then none else pyFloat s) = _
      by_cases hdash : s = "-" ∨ s = ""
      · rcases hdash with rfl | rfl <;> decide
      · rw [if_neg hdash]
    rw [hread, Except.ok.injEq]
    show (floatLiteral s).map Literal.value = (floatLiteral s).bind finiteLiteral ↔
      ∀ l, floatLiteral s = some l → l.IsFinite
    cases floatLiteral s with
    | none => simp
    | some l =>
      rw [Option.map_some, Option.bind_some, literal_value_eq_iff]
      simp
  | arr items => exact ⟨fun _ => trivial, fun _ => rfl⟩
  | obj members => exact ⟨fun _ => trivial, fun _ => rfl⟩

theorem finiteDouble_finite {q : ℚ} {x : XFloat} (h : finiteDouble q = some x) :
    x.toRat? ≠ none := by
  unfold finiteDouble at h
  split at h
  · cases h
    simp [XFloat.toRat?]
  · cases h

/-- What a cell denotes is finite. -/
theorem denoted_finite {value : Value} {x : XFloat} (h : denoted value = some x) :
    x.toRat? ≠ none := by
  cases value with
  | int n => exact finiteDouble_finite h
  | float y =>
    obtain ⟨q, -, rfl⟩ := Option.map_eq_some_iff.1 h
    simp [XFloat.toRat?]
  | str s =>
    obtain ⟨l, -, hl⟩ := Option.bind_eq_some_iff.1 h
    cases l with
    | decimal q => exact finiteDouble_finite hl
    | _ => cases hl
  | _ => cases h

/-! ## Readings -/

/-- The key a reading is stored under. -/
def RawReading.key (raw : RawReading) : String × Instant := (raw.stationId, raw.observedAt)

/-- The raw readings of a run, in order; none when a document cannot be read. -/
def rawReadings (run : WeatherRun) : List RawReading :=
  match loopStations rawReading run with
  | .ok raws => raws
  | .error _ => []

/-- The rows are those of the raw readings, one by one. -/
def Converts (raws : List RawReading) (rows : List WeatherObservation) : Prop :=
  List.Forall₂ (fun raw row => raw.convert = .ok row) raws rows

theorem converts_append_iff {raws raws' : List RawReading} {rows : List WeatherObservation} :
    Converts (raws ++ raws') rows ↔
      ∃ front back, Converts raws front ∧ Converts raws' back ∧ front ++ back = rows := by
  refine ⟨?_, ?_⟩
  · intro h
    induction raws generalizing rows with
    | nil => exact ⟨[], rows, .nil, h, rfl⟩
    | cons raw raws ih =>
      obtain ⟨row, rest, hrow, hrest, rfl⟩ := List.forall₂_cons_left_iff.1 h
      obtain ⟨front, back, hfront, hback, rfl⟩ := ih hrest
      exact ⟨row :: front, back, .cons hrow hfront, hback, rfl⟩
  · rintro ⟨front, back, hfront, hback, rfl⟩
    exact List.rel_append hfront hback

/-- The row of an entry is that of its raw reading. -/
theorem parseEntry_eq_ok_iff {stationId : String} {entry : Value}
    {r : Option WeatherObservation} :
    parseEntry stationId entry = .ok r ↔
      ∃ raw, rawReading stationId entry = .ok raw ∧ Converts raw.toList r.toList := by
  unfold parseEntry Converts
  rw [bind_eq_ok_iff]
  apply exists_congr
  intro raw
  apply and_congr_right
  intro _
  cases raw with
  | none => cases r <;> simp [pure_eq_ok_iff]
  | some raw =>
    show (raw.convert >>= fun o => pure (some o)) = _ ↔ _
    rw [bind_eq_ok_iff]
    cases r <;> simp [pure_eq_ok_iff]

/-- A row that is only there as an option is there as a list. -/
theorem exists_toList_of_converts {raw : Option RawReading} {front : List WeatherObservation}
    (h : Converts raw.toList front) : ∃ r : Option WeatherObservation, r.toList = front := by
  cases raw with
  | none =>
    cases h
    exact ⟨none, rfl⟩
  | some raw =>
    obtain ⟨row, rest, -, hrest, rfl⟩ := List.forall₂_cons_left_iff.1 h
    cases hrest
    exact ⟨some row, rfl⟩

/-- **The rows of the entries are those of their raw readings.** -/
theorem collect_parseEntry_eq_ok_iff {stationId : String} {entries : List Value}
    {rows : List WeatherObservation} :
    collect (parseEntry stationId) entries = .ok rows ↔
      ∃ raws, collect (rawReading stationId) entries = .ok raws ∧ Converts raws rows := by
  induction entries generalizing rows with
  | nil =>
    simp only [collect, Except.ok.injEq]
    refine ⟨?_, ?_⟩
    · rintro rfl
      exact ⟨[], rfl, .nil⟩
    · rintro ⟨_, rfl, h⟩
      cases h
      rfl
  | cons entry entries ih =>
    simp only [collect, bind_eq_ok_iff, pure_eq_ok_iff, parseEntry_eq_ok_iff, ih]
    refine ⟨?_, ?_⟩
    · rintro ⟨r, ⟨raw, hraw, hr⟩, rest, ⟨raws, hraws, hrest⟩, rfl⟩
      exact ⟨_, ⟨raw, hraw, raws, hraws, rfl⟩, converts_append_iff.2 ⟨_, _, hr, hrest, rfl⟩⟩
    · rintro ⟨_, ⟨raw, hraw, raws, hraws, rfl⟩, h⟩
      obtain ⟨front, back, hfront, hback, rfl⟩ := converts_append_iff.1 h
      obtain ⟨r, rfl⟩ := exists_toList_of_converts hfront
      exact ⟨r, ⟨raw, hraw, hfront⟩, back, ⟨raws, hraws, hback⟩, rfl⟩

theorem loopPayload_eq_ok_iff {payload : Value} {stationId : String}
    {rows : List WeatherObservation} :
    loopPayload parseEntry payload stationId = .ok rows ↔
      ∃ raws, loopPayload rawReading payload stationId = .ok raws ∧ Converts raws rows := by
  simp only [loopPayload, bind_eq_ok_iff, collect_parseEntry_eq_ok_iff]
  refine ⟨?_, ?_⟩
  · rintro ⟨entries, he, raws, hraws, h⟩
    exact ⟨raws, ⟨entries, he, hraws⟩, h⟩
  · rintro ⟨raws, ⟨entries, he, hraws⟩, h⟩
    exact ⟨entries, he, raws, hraws, h⟩

/-- **The rows of a run are those of its raw readings.** -/
theorem fetchedRows_eq_ok_iff {run : WeatherRun} {rows : List WeatherObservation} :
    fetchedRows run = .ok rows ↔
      ∃ raws, loopStations rawReading run = .ok raws ∧ Converts raws rows := by
  unfold fetchedRows
  induction run generalizing rows with
  | nil =>
    simp only [loopStations, Except.ok.injEq]
    refine ⟨?_, ?_⟩
    · rintro rfl
      exact ⟨[], rfl, .nil⟩
    · rintro ⟨_, rfl, h⟩
      cases h
      rfl
  | cons x run ih =>
    obtain ⟨stationId, outcome⟩ := x
    cases outcome with
    | httpError => exact ih
    | notJson =>
      refine ⟨fun h => (by cases h), ?_⟩
      rintro ⟨raws, h, -⟩
      cases h
    | json payload =>
      simp only [loopStations, bind_eq_ok_iff, pure_eq_ok_iff, loopPayload_eq_ok_iff, ih]
      refine ⟨?_, ?_⟩
      · rintro ⟨front, ⟨raws, hraws, hfront⟩, back, ⟨raws', hraws', hback⟩, rfl⟩
        exact ⟨_, ⟨raws, hraws, raws', hraws', rfl⟩,
          converts_append_iff.2 ⟨_, _, hfront, hback, rfl⟩⟩
      · rintro ⟨_, ⟨raws, hraws, raws', hraws', rfl⟩, h⟩
        obtain ⟨front, back, hfront, hback, rfl⟩ := converts_append_iff.1 h
        exact ⟨front, ⟨raws, hraws, hfront⟩, back, ⟨raws', hraws', hback⟩, rfl⟩

/-- The first row of a key is that of its first raw reading. -/
theorem find?_of_converts {raws : List RawReading} {rows : List WeatherObservation}
    (h : Converts raws rows) (k : String × Instant) :
    (raws.find? (fun raw => raw.key = k) = none ∧
        rows.find? (fun o => WeatherObservation.upsert.key o = k) = none) ∨
      ∃ raw row, raws.find? (fun raw => raw.key = k) = some raw ∧ raw.convert = .ok row ∧
        rows.find? (fun o => WeatherObservation.upsert.key o = k) = some row := by
  induction h with
  | nil => exact .inl ⟨rfl, rfl⟩
  | @cons raw row raws rows hrow hrows ih =>
    have hkey : WeatherObservation.upsert.key row = raw.key := by
      simp only [RawReading.convert, bind_eq_ok_iff, pure_eq_ok_iff] at hrow
      obtain ⟨_, -, _, -, _, -, _, -, rfl⟩ := hrow
      rfl
    by_cases hk : raw.key = k
    · exact .inr ⟨raw, row, by simp [hk], hrow, by simp [hkey, hk]⟩
    · simpa [List.find?_cons, hkey, hk] using ih

/-! ## Unspoilt readings -/

/-- The database after a sequence of runs into an empty weather table. -/
def afterWeather (db : Db) (runs : List WeatherRun) : Db :=
  replay pollWeather { db with weatherObservations := Table.empty } runs

/-- Every number of the row is finite. -/
def WeatherObservation.Finite (o : WeatherObservation) : Prop :=
  ∀ x ∈ [o.airTempC, o.rainfallMm, o.humidityPct, o.windSpeedKmh].reduceOption, x.toRat? ≠ none

/-- The readings in the weather window of a time. -/
def readingsAround (db : Db) (t : Instant) : List WeatherObservation :=
  (db.weatherObservations.rows.map Row.data).filter fun wo =>
    t - minutes 90 ≤ wo.observedAt && wo.observedAt ≤ t + minutes 30

/-- The means of the finite readings in the window. -/
def finiteWeather (db : Db) (t : Instant) : WeatherColumns where
  airTempC := finiteMean ((readingsAround db t).map (·.airTempC))
  rainfallMm := finiteMean ((readingsAround db t).map (·.rainfallMm))
  humidityPct := finiteMean ((readingsAround db t).map (·.humidityPct))

/-- The weather columns of a feature row. -/
def TrainingFeature.weather (f : TrainingFeature) : WeatherColumns :=
  ⟨f.airTempC, f.rainfallMm, f.humidityPct⟩

/-- Under every key the table holds what the first reading of the key denotes. -/
def StoredAsDenoted (db : Db) (runs : List WeatherRun) : Prop :=
  ∀ k, (afterWeather db runs).weatherObservations.contents k =
    ((runs.flatMap rawReadings).find? fun raw => raw.key = k).map RawReading.denoted

/-- Every reading is stored as the numbers it denotes, all of them finite, and a
rebuild gives every observation the means of the finite readings around it. -/
def ReadingsUnspoilt (db : Db) (runs : List WeatherRun) : Prop :=
  StoredAsDenoted db runs ∧
    (∀ r ∈ (afterWeather db runs).weatherObservations.rows, r.data.Finite) ∧
    ∀ since now, ∀ d ∈ db.delayObservations.rows, since ≤ d.data.observedAt → ∃ f,
      (rebuildTrainingFeatures (afterWeather db runs) since now).trainingFeatures.contents d.id =
        some f ∧ f.weather = finiteWeather (afterWeather db runs) d.data.observedAt

/-- Every cell of the reading is clean. -/
def RawReading.Clean (raw : RawReading) : Prop := ∀ cell ∈ raw.cells, CellClean cell

/-- The reading is the first one of its key, in this run and over all. -/
def FirstSeen (done : List WeatherRun) (run : WeatherRun) (raw : RawReading) : Prop :=
  (rawReadings run).find? (fun x => x.key = raw.key) = some raw ∧
    ∀ x ∈ done.flatMap rawReadings, x.key ≠ raw.key

/-- The readings a run adds are clean, and the run converts. -/
def CleanRun (done : List WeatherRun) (run : WeatherRun) : Prop :=
  ∀ raw, FirstSeen done run raw →
    raw.Clean ∧ ∀ other ∈ rawReadings run, ∀ cell ∈ other.cells, CellDigestible cell

theorem RawReading.convert_eq_denoted_iff (raw : RawReading) :
    raw.convert = .ok raw.denoted ↔ raw.Clean := by
  unfold RawReading.Clean RawReading.cells
  rw [List.forall_mem_cons, List.forall_mem_cons, List.forall_mem_cons, List.forall_mem_cons,
    ← parseFloat_eq_denoted_iff, ← parseFloat_eq_denoted_iff, ← parseFloat_eq_denoted_iff,
    ← parseFloat_eq_denoted_iff]
  simp only [RawReading.convert, RawReading.denoted, bind_eq_ok_iff, pure_eq_ok_iff,
    WeatherObservation.mk.injEq]
  refine ⟨?_, ?_⟩
  · rintro ⟨a, ha, b, hb, c, hc, d, hd, -, -, rfl, rfl, rfl, rfl, -⟩
    exact ⟨ha, hb, hc, hd, by simp⟩
  · rintro ⟨ha, hb, hc, hd, -⟩
    exact ⟨_, ha, _, hb, _, hc, _, hd, trivial, trivial, rfl, rfl, rfl, rfl, trivial⟩

theorem RawReading.denoted_finite (raw : RawReading) : raw.denoted.Finite := by
  intro x hx
  simp only [RawReading.denoted, List.reduceOption_mem_iff, List.mem_cons, List.not_mem_nil,
    or_false] at hx
  rcases hx with h | h | h | h
  · exact DelayPredictor.denoted_finite h.symm
  · exact DelayPredictor.denoted_finite h.symm
  · exact DelayPredictor.denoted_finite h.symm
  · exact DelayPredictor.denoted_finite h.symm

/-- What one more run makes of a key. -/
theorem contents_afterWeather_snoc (db : Db) (done : List WeatherRun) (run : WeatherRun)
    (k : String × Instant) :
    (afterWeather db (done ++ [run])).weatherObservations.contents k =
      ((afterWeather db done).weatherObservations.contents k).or
        ((processedReadings run).find? fun o => WeatherObservation.upsert.key o = k) := by
  unfold afterWeather
  rw [replay_snoc, pollWeather_eq]
  exact Table.contents_putAll_of_keepsOld _ weatherObservation_keepsOld _ k

/-- A key without raw reading gets no row, whether the run converts or not. -/
theorem find?_processed_of_none {run : WeatherRun} {k : String × Instant}
    (hnone : (rawReadings run).find? (fun raw => raw.key = k) = none) :
    (processedReadings run).find? (fun o => WeatherObservation.upsert.key o = k) = none := by
  unfold processedReadings
  cases hrows : fetchedRows run with
  | error e => rfl
  | ok rows =>
    obtain ⟨raws, hraws, hconv⟩ := fetchedRows_eq_ok_iff.1 hrows
    have hrun : rawReadings run = raws := by rw [rawReadings, hraws]
    rw [hrun] at hnone
    rcases find?_of_converts hconv k with ⟨-, hrow⟩ | ⟨raw, _, hraw, -, -⟩
    · exact hrow
    · rw [hnone] at hraw
      cases hraw

/-- A key that gets the row its first raw reading denotes. -/
theorem clean_of_find?_processed {run : WeatherRun} {raw : RawReading}
    (hfirst : (rawReadings run).find? (fun r => r.key = raw.key) = some raw)
    (hrow : (processedReadings run).find? (fun o => WeatherObservation.upsert.key o = raw.key) =
      some raw.denoted) :
    raw.Clean ∧ ∀ other ∈ rawReadings run, ∀ cell ∈ other.cells, CellDigestible cell := by
  unfold processedReadings at hrow
  cases hrows : fetchedRows run with
  | error e => simp [hrows] at hrow
  | ok rows =>
    simp only [hrows] at hrow
    obtain ⟨raws, hraws, hconv⟩ := fetchedRows_eq_ok_iff.1 hrows
    have hrun : rawReadings run = raws := by rw [rawReadings, hraws]
    rw [hrun] at hfirst ⊢
    refine ⟨?_, ?_⟩
    · rcases find?_of_converts hconv raw.key with ⟨hnone, -⟩ | ⟨raw', row, hraw', hrow', hfind⟩
      · rw [hfirst] at hnone
        cases hnone
      · rw [hfirst] at hraw'
        rw [hrow] at hfind
        obtain rfl := Option.some.inj hraw'
        obtain rfl := Option.some.inj hfind
        exact raw.convert_eq_denoted_iff.1 hrow'
    · intro other hother
      rw [← other.convert_isOk_iff]
      obtain ⟨i, hi, rfl⟩ := List.getElem_of_mem hother
      exact ⟨_, hconv.get hi (hconv.length_eq ▸ hi)⟩

/-- A key whose first raw reading is clean, in a run that converts. -/
theorem find?_processed_of_clean {run : WeatherRun} {raw : RawReading}
    (hfirst : (rawReadings run).find? (fun r => r.key = raw.key) = some raw) (hclean : raw.Clean)
    (hdigest : ∀ other ∈ rawReadings run, ∀ cell ∈ other.cells, CellDigestible cell) :
    (processedReadings run).find? (fun o => WeatherObservation.upsert.key o = raw.key) =
      some raw.denoted := by
  have hmem := List.mem_of_find?_eq_some hfirst
  cases hraws : loopStations rawReading run with
  | error e => simp [rawReadings, hraws] at hmem
  | ok raws =>
    have hrun : rawReadings run = raws := by rw [rawReadings, hraws]
    rw [hrun] at hfirst hdigest
    obtain ⟨rows, hconv, -⟩ := (@exists_forall₂_iff _ _ _ (fun _ => True) raws).2
      fun other hother => by
        obtain ⟨o, ho⟩ := other.convert_isOk_iff.2 (hdigest other hother)
        exact ⟨o, ho, trivial⟩
    have hrows := fetchedRows_eq_ok_iff.2 ⟨raws, hraws, hconv⟩
    rcases find?_of_converts hconv raw.key with ⟨hnone, -⟩ | ⟨raw', row, hraw', hrow, hfind⟩
    · rw [hfirst] at hnone
      cases hnone
    · rw [hfirst] at hraw'
      obtain rfl := Option.some.inj hraw'
      rw [raw.convert_eq_denoted_iff.2 hclean] at hrow
      simp only [processedReadings, hrows]
      rw [hfind, Except.ok.inj hrow]

/-- The rows a run processes under new keys are the denoted ones exactly when the
run is clean. -/
theorem find?_processed_iff (done : List WeatherRun) (run : WeatherRun) :
    (∀ k, (done.flatMap rawReadings).find? (fun raw => raw.key = k) = none →
      (processedReadings run).find? (fun o => WeatherObservation.upsert.key o = k) =
        ((rawReadings run).find? fun raw => raw.key = k).map RawReading.denoted) ↔
      CleanRun done run := by
  have hnew : ∀ k, (done.flatMap rawReadings).find? (fun raw => raw.key = k) = none ↔
      ∀ x ∈ done.flatMap rawReadings, x.key ≠ k := by
    intro k
    simp only [List.find?_eq_none, decide_eq_true_eq, ne_eq]
  refine ⟨?_, ?_⟩
  · rintro h raw ⟨hfirst, hunseen⟩
    have hrow := h raw.key ((hnew raw.key).2 hunseen)
    rw [hfirst, Option.map_some] at hrow
    exact clean_of_find?_processed hfirst hrow
  · intro h k hk
    cases hfirst : (rawReadings run).find? fun raw => raw.key = k with
    | none => exact find?_processed_of_none hfirst
    | some raw =>
      have hkey : raw.key = k := by simpa using List.find?_some hfirst
      subst hkey
      obtain ⟨hclean, hdigest⟩ := h raw ⟨hfirst, (hnew raw.key).1 hk⟩
      exact find?_processed_of_clean hfirst hclean hdigest

theorem storedAsDenoted_snoc_iff {db : Db} {done : List WeatherRun} (h : StoredAsDenoted db done)
    (run : WeatherRun) : StoredAsDenoted db (done ++ [run]) ↔ CleanRun done run := by
  rw [← find?_processed_iff]
  apply forall_congr'
  intro k
  rw [contents_afterWeather_snoc, h k, List.flatMap_append, List.find?_append]
  cases (done.flatMap rawReadings).find? fun raw => raw.key = k with
  | none => simp
  | some raw => simp

/-- A rebuild gives every observation in its window the averages around it. -/
theorem rebuild_weather (db : Db) (since now : Instant) {d : Row DelayObservation}
    (hd : d ∈ db.delayObservations.rows) (hs : since ≤ d.data.observedAt) :
    ∃ f, (rebuildTrainingFeatures db since now).trainingFeatures.contents d.id = some f ∧
      f.weather = weatherAround db d.data.observedAt := by
  rw [contents_rebuild_of_mem db since now hd hs]
  cases db.trainingFeatures.contents d.id with
  | none => exact ⟨_, rfl, rfl⟩
  | some f => exact ⟨_, rfl, rfl⟩

/-- Over a table of finite readings the averages are the means. -/
theorem weatherAround_eq {db : Db} (h : ∀ r ∈ db.weatherObservations.rows, r.data.Finite)
    (t : Instant) : weatherAround db t = finiteWeather db t := by
  have hcolumn : ∀ column : WeatherObservation → Option XFloat,
      (∀ o, column o ∈ [o.airTempC, o.rainfallMm, o.humidityPct, o.windSpeedKmh]) →
        avg ((readingsAround db t).map column) = finiteMean ((readingsAround db t).map column) := by
    intro column hcell
    apply avg_eq_finiteMean
    intro x hx
    obtain ⟨o, ho, hox⟩ := List.mem_map.1 (List.reduceOption_mem_iff.1 hx)
    obtain ⟨r, hr, rfl⟩ := List.mem_map.1 (List.mem_filter.1 ho).1
    exact h r hr x (List.reduceOption_mem_iff.2 (hox ▸ hcell r.data))
  show WeatherColumns.mk _ _ _ = WeatherColumns.mk _ _ _
  congr 1
  · exact hcolumn (·.airTempC) fun o => by simp
  · exact hcolumn (·.rainfallMm) fun o => by simp
  · exact hcolumn (·.humidityPct) fun o => by simp

/-- What is stored as denoted is finite, and averages to means. -/
theorem readingsUnspoilt_iff_stored (db : Db) (runs : List WeatherRun) :
    ReadingsUnspoilt db runs ↔ StoredAsDenoted db runs := by
  refine ⟨fun h => h.1, ?_⟩
  intro h
  have hfinite : ∀ r ∈ (afterWeather db runs).weatherObservations.rows, r.data.Finite := by
    intro r hr
    have hc := (Table.contents_eq_some_iff _).2 ⟨r, hr, rfl, rfl⟩
    rw [h] at hc
    obtain ⟨raw, -, hraw⟩ := Option.map_eq_some_iff.1 hc
    rw [← hraw]
    exact raw.denoted_finite
  refine ⟨h, hfinite, ?_⟩
  intro since now d hd hs
  have hobs : (afterWeather db runs).delayObservations = db.delayObservations := by
    unfold afterWeather
    rw [replay_pollWeather]
  obtain ⟨f, hf, hweather⟩ := rebuild_weather (afterWeather db runs) since now (hobs ▸ hd) hs
  exact ⟨f, hf, hweather.trans (weatherAround_eq hfinite _)⟩

/-- Taking the runs one by one. -/
theorem replay_snoc_eq (runs : List WeatherRun) :
    replay (fun done run => done ++ [run]) [] runs = runs := by
  refine replay_history (P := fun l r => r = l) rfl ?_ runs
  intro l run ih
  rw [ih]

/-- **When no bad reading spoils the features**, all along a sequence of runs. -/
theorem readingsUnspoilt_iff (db : Db) (runs : List WeatherRun) :
    (∀ done, done <+: runs → ReadingsUnspoilt db done) ↔
      ∀ done run, done ++ [run] <+: runs → CleanRun done run := by
  have hempty : StoredAsDenoted db [] := fun k => rfl
  have h := @invariant_along_iff _ _ (fun (done : List WeatherRun) run => done ++ [run]) []
    (StoredAsDenoted db) CleanRun hempty
    (fun done run hdone => storedAsDenoted_snoc_iff hdone run) runs
  simpa only [replay_snoc_eq, readingsUnspoilt_iff_stored] using h

/-- One station, one entry, and a gauge that reads `nan`. -/
def nanRun : WeatherRun :=
  [("94576", .json (.obj [("observations", .obj [("data", .arr [
    .obj [("aifstime_utc", .str "20260513013000"), ("rain_trace", .str "nan")]])])]))]

/-- The reading is stored as not-a-number. -/
theorem nanReading_stored : ¬ ∀ db runs, ReadingsUnspoilt db runs := by
  intro h
  have hstored : ∃ r ∈ (afterWeather Db.empty [nanRun]).weatherObservations.rows,
      r.data.rainfallMm = some .nan := by decide
  obtain ⟨r, hr, hnan⟩ := hstored
  have hfinite := (h Db.empty [nanRun]).2.1 r hr .nan
  rw [List.reduceOption_mem_iff, ← hnan] at hfinite
  exact hfinite (by simp) rfl

end DelayPredictor
