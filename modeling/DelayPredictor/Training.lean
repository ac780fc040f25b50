import DelayPredictor.Lib.OrdinalCodes
import DelayPredictor.Conditions

/-!
# Training the delay model

`train_delay_model` and `predict_single` (`app/services/ml_predictor.py`): the frame that is
loaded, the columns the pipeline is fitted on, and what it makes of a request.

* `loadTrainingDataframe`, `trainAndEvaluate`, `trainDelayModel` — training, up to the save.
* `Pipeline`, `predictSingle` — the fitted pipeline: ordinal codes, then the trees.
* `toldApart_iff` — **which requests no fitted trees can tell apart**: those that differ
  only in values that did not occur in training.
* `servedAsTrained_iff` — **when a row is served as it was trained on**.

The codes are those of `sklearn`'s `OrdinalEncoder`, with its settings in the source; what
else `sklearn` and `xgboost` do is a parameter, `Learner`.
-/

namespace DelayPredictor

open Keyed OrdinalCodes PyTime Stats

/-! ## The frame -/

/-- A row of `load_training_dataframe`, as it is selected. -/
structure LoadedRow where
  routeId : String
  stopId : String
  hourOfDay : ℤ
  dayOfWeek : ℤ
  rainfallMm : Option XFloat
  delaySeconds : ℤ
  deriving DecidableEq, Repr

/-- The columns of a feature row that are selected. -/
def TrainingFeature.loaded (f : TrainingFeature) : LoadedRow where
  routeId := f.routeId
  stopId := f.stopId
  hourOfDay := f.hourOfDay
  dayOfWeek := f.dayOfWeek
  rainfallMm := f.rainfallMm
  delaySeconds := f.delaySeconds

/-- The frame.  An empty one has no column for the weather. -/
structure TrainingFrame where
  rows : List LoadedRow
  weatherCondition : Option (List WeatherCondition)
  deriving DecidableEq, Repr

/-- The order the database returns rows in. -/
structure RowOrder where
  arrange : List LoadedRow → List LoadedRow
  perm : ∀ rows, (arrange rows).Perm rows

/-- The settings of the training. -/
structure TrainingSettings where
  modelTrainingWindowDays : ℤ
  modelMinTrainingSamples : ℤ

/-- The settings' defaults. -/
def TrainingSettings.default : TrainingSettings where
  modelTrainingWindowDays := 30
  modelMinTrainingSamples := 200

/-- The feature rows of the trailing window. -/
def trainingWindow (features : Table TrainingFeature.upsert) (now : Instant) (windowDays : ℤ) :
    List TrainingFeature :=
  (features.rows.map Row.data).filter fun f => now - days windowDays ≤ f.observedAt

/-- `load_training_dataframe`. -/
def loadTrainingDataframe (order : RowOrder) (features : Table TrainingFeature.upsert)
    (now : Instant) (windowDays : ℤ) : TrainingFrame :=
  let rows := order.arrange ((trainingWindow features now windowDays).map TrainingFeature.loaded)
  { rows
    weatherCondition :=
      if rows = [] then none else some (deriveWeatherCondition (rows.map (·.rainfallMm))) }

/-! ## The columns -/

/-- `WeatherCondition` as the text of its category. -/
def WeatherCondition.text : WeatherCondition → String
  | .unknown => "unknown"
  | .heavyRain => "heavy_rain"
  | .lightRain => "light_rain"
  | .clear => "clear"

/-- A row of `X`: the `FEATURE_COLUMNS`. -/
structure FeatureValues where
  routeId : String
  stopId : String
  weatherCondition : WeatherCondition
  hourOfDay : ℤ
  dayOfWeek : ℤ
  deriving DecidableEq, Repr

/-- A row of `X` with its target. -/
structure Example extends FeatureValues where
  delaySeconds : ℚ
  deriving DecidableEq, Repr

/-- A row of the frame under its weather condition. -/
def LoadedRow.toExample (row : LoadedRow) (weatherCondition : WeatherCondition) : Example where
  routeId := row.routeId
  stopId := row.stopId
  weatherCondition
  hourOfDay := row.hourOfDay
  dayOfWeek := row.dayOfWeek
  delaySeconds := row.delaySeconds

/-- What may stop a training. -/
inductive TrainingError where
  /-- A column that the frame does not have. -/
  | keyError
  /-- An error of `sklearn` or `xgboost`. -/
  | library
  deriving DecidableEq, Repr

/-- `df[FEATURE_COLUMNS]` and `df[TARGET]`. -/
def TrainingFrame.examples (df : TrainingFrame) : Except TrainingError (List Example) :=
  match df.weatherCondition with
  | none => .error .keyError
  | some conditions => .ok (List.zipWith LoadedRow.toExample df.rows conditions)

/-! ## The pipeline -/

/-- The fitted `OrdinalEncoder`: the categories of its three columns. -/
structure OrdinalEncoder where
  routeIds : List String
  stopIds : List String
  weatherConditions : List String
  deriving DecidableEq, Repr

/-- `OrdinalEncoder.fit`. -/
def OrdinalEncoder.fit (X : List FeatureValues) : OrdinalEncoder where
  routeIds := categories (X.map (·.routeId))
  stopIds := categories (X.map (·.stopId))
  weatherConditions := categories (X.map (·.weatherCondition.text))

/-- What the regressor is given: the codes, and the columns that are passed through. -/
structure EncodedValues where
  routeCode : ℤ
  stopCode : ℤ
  weatherCode : ℤ
  hourOfDay : ℤ
  dayOfWeek : ℤ
  deriving DecidableEq, Repr

/-- The `ColumnTransformer`. -/
def OrdinalEncoder.transform (encoder : OrdinalEncoder) (x : FeatureValues) : EncodedValues where
  routeCode := encode encoder.routeIds x.routeId
  stopCode := encode encoder.stopIds x.stopId
  weatherCode := encode encoder.weatherConditions x.weatherCondition.text
  hourOfDay := x.hourOfDay
  dayOfWeek := x.dayOfWeek

/-- A fitted pipeline. -/
structure Pipeline where
  preprocessor : OrdinalEncoder
  regressor : EncodedValues → ℚ

/-- `pipeline.predict`, of one row. -/
def Pipeline.predict (pipeline : Pipeline) (x : FeatureValues) : ℚ :=
  pipeline.regressor (pipeline.preprocessor.transform x)

/-- `predict_single`. -/
def predictSingle (pipeline : Pipeline) (routeId stopId : String) (hour dayOfWeek : ℤ)
    (weatherCondition : WeatherCondition) : ℚ :=
  pipeline.predict
    { routeId
      stopId
      weatherCondition
      hourOfDay := hour
      dayOfWeek }

/-! ## Training -/

/-- What is used from outside: `train_test_split`, `XGBRegressor.fit` and the root mean
squared error. -/
structure Learner where
  split : List Example → Except TrainingError (List Example × List Example)
  fit : List (EncodedValues × ℚ) → EncodedValues → ℚ
  rmse : List (ℚ × ℚ) → ℚ
  /-- A split takes every row once. -/
  split_perm : ∀ rows train test, split rows = .ok (train, test) → (train ++ test).Perm rows

/-- `build_pipeline().fit(X_train, y_train)`. -/
def fitPipeline (fit : List (EncodedValues × ℚ) → EncodedValues → ℚ) (train : List Example) :
    Pipeline :=
  let preprocessor := OrdinalEncoder.fit (train.map Example.toFeatureValues)
  { preprocessor
    regressor :=
      fit (train.map fun e => (preprocessor.transform e.toFeatureValues, e.delaySeconds)) }

/-- `TrainingMetrics`. -/
structure TrainingMetrics where
  sampleCount : ℕ
  trainCount : ℕ
  testCount : ℕ
  rmseTrain : ℚ
  rmseTest : ℚ
  trainedAt : Instant
  deriving DecidableEq, Repr

/-- `train_and_evaluate`. -/
def trainAndEvaluate (learner : Learner) (df : TrainingFrame) (trainedAt : Instant) :
    Except TrainingError (Pipeline × TrainingMetrics) := do
  let examples ← df.examples
  let (train, test) ← learner.split examples
  let pipeline := fitPipeline learner.fit train
  let rmse := fun part : List Example =>
    learner.rmse (part.map fun e => (e.delaySeconds, pipeline.predict e.toFeatureValues))
  return (pipeline,
    { sampleCount := df.rows.length
      trainCount := train.length
      testCount := test.length
      rmseTrain := rmse train
      rmseTest := rmse test
      trainedAt })

/-- What a training comes to. -/
inductive TrainingResult where
  | skipped (sampleCount : ℕ)
  | trained (pipeline : Pipeline) (metrics : TrainingMetrics)

/-- `train_delay_model`, up to `save_model`. -/
def trainDelayModel (learner : Learner) (settings : TrainingSettings) (order : RowOrder)
    (features : Table TrainingFeature.upsert) (loadedAt trainedAt : Instant) :
    Except TrainingError TrainingResult :=
  let df := loadTrainingDataframe order features loadedAt settings.modelTrainingWindowDays
  if (df.rows.length : ℤ) < settings.modelMinTrainingSamples then
    .ok (.skipped df.rows.length)
  else
    (trainAndEvaluate learner df trainedAt).map fun result => .trained result.1 result.2

/-- An example is made of a row of the frame. -/
theorem row_of_example {df : TrainingFrame} {examples : List Example}
    (h : df.examples = .ok examples) {e : Example} (he : e ∈ examples) :
    ∃ row ∈ df.rows, e.routeId = row.routeId ∧ e.stopId = row.stopId := by
  unfold TrainingFrame.examples at h
  cases hconditions : df.weatherCondition with
  | none => simp [hconditions] at h
  | some conditions =>
    simp only [hconditions, Except.ok.injEq] at h
    subst h
    rw [← List.map_uncurry_zip_eq_zipWith] at he
    obtain ⟨⟨row, condition⟩, hmem, rfl⟩ := List.mem_map.1 he
    exact ⟨row, (List.of_mem_zip hmem).1, rfl, rfl⟩

/-- What a training that ends in a pipeline fitted it on: a part of the window. -/
theorem train_of_trained {learner : Learner} {settings : TrainingSettings} {order : RowOrder}
    {features : Table TrainingFeature.upsert} {loadedAt trainedAt : Instant}
    {pipeline : Pipeline} {metrics : TrainingMetrics}
    (h : trainDelayModel learner settings order features loadedAt trainedAt =
      .ok (.trained pipeline metrics)) :
    ∃ train, pipeline = fitPipeline learner.fit train ∧ ∀ e ∈ train,
      ∃ f ∈ features.rows.map Row.data, e.routeId = f.routeId ∧ e.stopId = f.stopId := by
  unfold trainDelayModel at h
  set df := loadTrainingDataframe order features loadedAt settings.modelTrainingWindowDays with hdf
  by_cases hskip : (df.rows.length : ℤ) < settings.modelMinTrainingSamples
  · simp [hskip] at h
  · simp only [hskip, if_false] at h
    cases hexamples : df.examples with
    | error e => simp [trainAndEvaluate, hexamples, bind, Except.bind, Except.map] at h
    | ok examples =>
      cases hsplit : learner.split examples with
      | error e => simp [trainAndEvaluate, hexamples, hsplit, bind, Except.bind, Except.map] at h
      | ok parts =>
        obtain ⟨train, test⟩ := parts
        simp only [trainAndEvaluate, hexamples, hsplit, bind, Except.bind, Except.map, pure,
          Except.pure, Except.ok.injEq, TrainingResult.trained.injEq] at h
        obtain ⟨rfl, -⟩ := h
        refine ⟨train, rfl, fun e he => ?_⟩
        have hmem : e ∈ examples :=
          (learner.split_perm _ _ _ hsplit).subset (List.mem_append_left _ he)
        obtain ⟨row, hrow, hroute, hstop⟩ := row_of_example hexamples hmem
        have hloaded := (order.perm _).subset hrow
        obtain ⟨f, hf, rfl⟩ := List.mem_map.1 hloaded
        exact ⟨f, List.mem_of_mem_filter hf, hroute, hstop⟩

/-! ## Requests that are not told apart -/

/-- The texts of the categories differ. -/
theorem WeatherCondition.text_inj {a b : WeatherCondition} : a.text = b.text ↔ a = b := by
  cases a <;> cases b <;> decide

/-- A value that is the same for both, or did not occur for either. -/
def SameOrUnseen {α : Type} (seen : List α) (a b : α) : Prop := a = b ∨ a ∉ seen ∧ b ∉ seen

theorem SameOrUnseen.of_subset {α : Type} {seen seen' : List α} {a b : α}
    (h : SameOrUnseen seen a b) (hseen : seen' ⊆ seen) : SameOrUnseen seen' a b :=
  h.imp_right fun hunseen => ⟨fun ha => hunseen.1 (hseen ha), fun hb => hunseen.2 (hseen hb)⟩

theorem encode_categories_eq_iff {seen : List String} {a b : String} :
    encode (categories seen) a = encode (categories seen) b ↔ SameOrUnseen seen a b := by
  simp [encode_eq_iff, SameOrUnseen]

theorem sameOrUnseen_text {seen : List FeatureValues} {a b : WeatherCondition} :
    SameOrUnseen (seen.map (·.weatherCondition.text)) a.text b.text ↔
      SameOrUnseen (seen.map (·.weatherCondition)) a b := by
  simp [SameOrUnseen, WeatherCondition.text_inj]

/-- When two rows are encoded alike. -/
theorem transform_fit_eq_iff (X : List FeatureValues) (a b : FeatureValues) :
    (OrdinalEncoder.fit X).transform a = (OrdinalEncoder.fit X).transform b ↔
      SameOrUnseen (X.map (·.routeId)) a.routeId b.routeId ∧
        SameOrUnseen (X.map (·.stopId)) a.stopId b.stopId ∧
        SameOrUnseen (X.map (·.weatherCondition)) a.weatherCondition b.weatherCondition ∧
        a.hourOfDay = b.hourOfDay ∧ a.dayOfWeek = b.dayOfWeek := by
  simp only [OrdinalEncoder.transform, OrdinalEncoder.fit, EncodedValues.mk.injEq,
    encode_categories_eq_iff, sameOrUnseen_text]

/-- Rows are encoded alike exactly when no trees tell them apart. -/
theorem forall_predict_eq_iff (train : List Example) (a b : FeatureValues) :
    (∀ fit, (fitPipeline fit train).predict a = (fitPipeline fit train).predict b) ↔
      (OrdinalEncoder.fit (train.map Example.toFeatureValues)).transform a =
        (OrdinalEncoder.fit (train.map Example.toFeatureValues)).transform b := by
  constructor
  · intro h
    -- Trees that single out the first row.
    have hsingle := h fun _ x =>
      if x = (OrdinalEncoder.fit (train.map Example.toFeatureValues)).transform a then 1 else 0
    by_contra hne
    simp [Pipeline.predict, fitPipeline, Ne.symm hne] at hsingle
  · intro h fit
    exact congrArg (fitPipeline fit train).regressor h

/-- **Which requests no fitted trees can tell apart.** -/
theorem toldApart_iff (train : List Example) (routeId routeId' stopId stopId' : String)
    (hour hour' dayOfWeek dayOfWeek' : ℤ) (weather weather' : WeatherCondition) :
    (∀ fit, predictSingle (fitPipeline fit train) routeId stopId hour dayOfWeek weather =
        predictSingle (fitPipeline fit train) routeId' stopId' hour' dayOfWeek' weather') ↔
      SameOrUnseen (train.map (·.routeId)) routeId routeId' ∧
        SameOrUnseen (train.map (·.stopId)) stopId stopId' ∧
        SameOrUnseen (train.map (·.weatherCondition)) weather weather' ∧
        hour = hour' ∧ dayOfWeek = dayOfWeek' := by
  unfold predictSingle
  rw [forall_predict_eq_iff, transform_fit_eq_iff]
  simp only [List.map_map, Function.comp_def]

/-! ## Serving what was trained on -/

/-- The rows of the frame, under the conditions derived from them. -/
theorem zipWith_toExample (rows : List LoadedRow) :
    List.zipWith LoadedRow.toExample rows (deriveWeatherCondition (rows.map (·.rainfallMm))) =
      rows.map fun row => row.toExample (derivedCondition row.rainfallMm) := by
  rw [deriveWeatherCondition_eq, List.map_map, List.zipWith_map_right, List.zipWith_self]
  rfl

/-- Only a rainfall that is not a number is served under another condition. -/
theorem sameOrUnseen_conditions (seen : List WeatherCondition) (rainfallMm : Option XFloat) :
    SameOrUnseen seen (derivedCondition rainfallMm) (weatherConditionFor rainfallMm) ↔
      rainfallMm ≠ some .nan ∨ .unknown ∉ seen ∧ .clear ∉ seen := by
  by_cases hnan : rainfallMm = some .nan
  · subst hnan
    have hderived : derivedCondition (some .nan) = .unknown := by
      obtain ⟨h₂, h₁⟩ := zero_not_gt
      simp [derivedCondition, fillna, isna, h₁, h₂]
    have hserved : weatherConditionFor (some .nan) = .clear := by
      simp [weatherConditionFor, XFloat.gt]
    simp only [SameOrUnseen, hderived, hserved, reduceCtorEq, ne_eq, not_true_eq_false, false_or]
  · have heq := (derivedCondition_eq_iff rainfallMm).2 hnan
    simp [SameOrUnseen, heq, hnan]

/-- **When the rows of a frame are served as they were trained on**: when no rainfall among
them is not a number, or the two conditions such a one is taken for were both unseen. -/
theorem servedAsTrained_iff (rows : List LoadedRow) (train : List Example) :
    (∀ fit, (List.zipWith LoadedRow.toExample rows
          (deriveWeatherCondition (rows.map (·.rainfallMm)))).map
            (fun e => (fitPipeline fit train).predict e.toFeatureValues) =
        rows.map fun row => predictSingle (fitPipeline fit train) row.routeId row.stopId
          row.hourOfDay row.dayOfWeek (weatherConditionFor row.rainfallMm)) ↔
      (∀ row ∈ rows, row.rainfallMm ≠ some .nan) ∨
        ∀ e ∈ train, e.weatherCondition ≠ .unknown ∧ e.weatherCondition ≠ .clear := by
  have hrow : ∀ row : LoadedRow,
      (∀ fit, (fitPipeline fit train).predict
          (row.toExample (derivedCondition row.rainfallMm)).toFeatureValues =
        predictSingle (fitPipeline fit train) row.routeId row.stopId row.hourOfDay row.dayOfWeek
          (weatherConditionFor row.rainfallMm)) ↔
      row.rainfallMm ≠ some .nan ∨
        ∀ e ∈ train, e.weatherCondition ≠ .unknown ∧ e.weatherCondition ≠ .clear := by
    intro row
    have htold := toldApart_iff train row.routeId row.routeId row.stopId row.stopId row.hourOfDay
      row.hourOfDay row.dayOfWeek row.dayOfWeek (derivedCondition row.rainfallMm)
      (weatherConditionFor row.rainfallMm)
    rw [sameOrUnseen_conditions] at htold
    simp only [SameOrUnseen, true_or, true_and, and_true] at htold
    refine htold.trans (or_congr_right ?_)
    simp only [List.mem_map, not_exists, not_and, ne_eq, forall_and]
  rw [zipWith_toExample]
  simp only [List.map_map, List.map_inj_left]
  calc (∀ fit, ∀ row ∈ rows, _)
      ↔ ∀ row ∈ rows, row.rainfallMm ≠ some .nan ∨
          ∀ e ∈ train, e.weatherCondition ≠ .unknown ∧ e.weatherCondition ≠ .clear := by
        simp only [← hrow]
        exact ⟨fun h row hmem fit => h fit row hmem, fun h fit row hmem => h row hmem fit⟩
    _ ↔ _ := by
        by_cases htrain : ∀ e ∈ train, e.weatherCondition ≠ .unknown ∧ e.weatherCondition ≠ .clear
        · exact iff_of_true (fun _ _ => .inr htrain) (.inr htrain)
        · simp only [htrain, or_false]

end DelayPredictor
