import DelayPredictor.Lib.PyNumber
import DelayPredictor.Predictor

/-!
# Weather conditions

Rainfall is put into the same few categories twice: a column at a time when the
model is trained (`app/services/ml_predictor.py`), and a value at a time when it
is asked (`app/services/predictor.py`).

* `deriveWeatherCondition` — the column, overwritten mask by mask.
* `deriveWeatherCondition_eq` — it is a function of each value on its own.
* `conditionsAgree_iff` — **when the two agree on a value**: exactly when it is
  not NaN, which the column takes for a missing reading and the single value for
  no rain.
-/

namespace DelayPredictor

open PyNumber Stats

/-! ## Columns -/

/-- `Series.isna`, of one element. -/
def isna : Option XFloat → Bool
  | none => true
  | some x => x = .nan

/-- `Series.fillna(0)`, of one element. -/
def fillna (x : Option XFloat) : XFloat :=
  match x with
  | none => .fin 0
  | some x => if x = .nan then .fin 0 else x

/-- `series[mask] = value`. -/
def setWhere {α : Type} (mask : List Bool) (value : α) (series : List α) : List α :=
  List.zipWith (fun selected x => if selected then value else x) mask series

/-- `derive_weather_condition`. -/
def deriveWeatherCondition (rainfallMm : List (Option XFloat)) : List WeatherCondition :=
  let conditions := rainfallMm.map fun _ => WeatherCondition.clear
  let conditions := setWhere (rainfallMm.map isna) .unknown conditions
  let conditions := setWhere (rainfallMm.map fun x => (fillna x).gt pointTwo) .lightRain conditions
  setWhere (rainfallMm.map fun x => (fillna x).gt 2) .heavyRain conditions

/-- Overwriting a column that is computed value by value. -/
theorem setWhere_map {α β : Type} (l : List α) (p : α → Bool) (value : β) (f : α → β) :
    setWhere (l.map p) value (l.map f) = l.map fun a => if p a then value else f a := by
  unfold setWhere
  rw [List.zipWith_map, List.zipWith_self]

/-- What a value of a column is put into. -/
def derivedCondition (x : Option XFloat) : WeatherCondition :=
  if (fillna x).gt 2 then .heavyRain
  else if (fillna x).gt pointTwo then .lightRain
  else if isna x then .unknown
  else .clear

/-- **The masks overwrite each value on its own.** -/
theorem deriveWeatherCondition_eq (rainfallMm : List (Option XFloat)) :
    deriveWeatherCondition rainfallMm = rainfallMm.map derivedCondition := by
  unfold deriveWeatherCondition
  dsimp only
  rw [setWhere_map, setWhere_map, setWhere_map]
  rfl

/-! ## When the two agree -/

/-- What is filled in for a missing reading is no rain. -/
theorem zero_not_gt : (XFloat.fin 0).gt 2 = false ∧ (XFloat.fin 0).gt pointTwo = false := by
  norm_num [XFloat.gt, pointTwo]

theorem derivedCondition_eq_iff (x : Option XFloat) :
    derivedCondition x = weatherConditionFor x ↔ x ≠ some .nan := by
  obtain ⟨h₂, h₁⟩ := zero_not_gt
  cases x with
  | none => simp [derivedCondition, weatherConditionFor, fillna, isna, h₁, h₂]
  | some x =>
    cases x with
    | nan => simp [derivedCondition, weatherConditionFor, fillna, isna, h₁, h₂]
    | fin q => simp [derivedCondition, weatherConditionFor, fillna, isna]
    | posInf => simp [derivedCondition, weatherConditionFor, fillna, isna]
    | negInf => simp [derivedCondition, weatherConditionFor, fillna, isna]

/-- **When training and serving agree**, at every position of every column. -/
theorem conditionsAgree_iff (rainfallMm : List (Option XFloat)) (i : ℕ) :
    (deriveWeatherCondition rainfallMm)[i]? = rainfallMm[i]?.map weatherConditionFor ↔
      rainfallMm[i]? ≠ some (some .nan) := by
  rw [deriveWeatherCondition_eq, List.getElem?_map]
  cases rainfallMm[i]? with
  | none => simp
  | some x =>
    rw [Option.map_some, Option.map_some, Option.some.injEq, derivedCondition_eq_iff]
    simp

/-- A stored NaN is an unknown when the model is trained, and clear when it is
asked. -/
theorem nanRainfall_disagrees :
    ¬ ∀ (rainfallMm : List (Option XFloat)) (i : ℕ),
      (deriveWeatherCondition rainfallMm)[i]? = rainfallMm[i]?.map weatherConditionFor := by
  intro h
  have hnan := h [some .nan] 0
  rw [deriveWeatherCondition_eq] at hnan
  exact (derivedCondition_eq_iff (some .nan)).1 (Option.some.inj hnan) rfl

/-- A reading of `0.2` is stored as the double it is compared with. -/
example : roundToDouble (1 / 5) = pointTwo := by
  have hlog : Int.log 2 |(1 / 5 : ℚ)| = -3 := by
    rw [abs_of_pos (by norm_num)]
    apply le_antisymm
    · rw [← Int.lt_add_one_iff, ← Int.lt_zpow_iff_log_lt (by norm_num) (by norm_num)]
      norm_num
    · rw [← Int.zpow_le_iff_le_log (by norm_num) (by norm_num)]
      norm_num
  unfold roundToDouble pointTwo
  rw [hlog]
  norm_num [roundHalfEven]

end DelayPredictor
