import DelayPredictor.Calendar
import DelayPredictor.FeedHistory
import DelayPredictor.Training

/-!
# Retraining among the other tasks

The nine entries of the beat schedule together: the tasks that write to the database, and
`retrain_delay_model`, which reads it and replaces the model.

* `System.exec` — what a task leaves of the database and of the stored model.
* `features_of_feeds` — **what there is to train on**: after a rebuild, one feature row for
  each observation on record in its window, with the delay that was reported last.
* `served_determined` — **what the whole system answers is made of**: the tasks around the
  feature pipeline and the retrainings are all that the model and `predict_with_interval`
  depend on.
* `coldStart` — **until the next retraining, stops that were first observed since the last
  one are all alike to the model.**
-/

namespace DelayPredictor

open Keyed OrdinalCodes PyTime Runs Stats Traces

/-! ## The system -/

/-- The database, and the artifact at `model_artifact_path`. -/
structure System where
  database : Database
  artifact : Option (Pipeline × TrainingMetrics)

/-- Nothing stored yet. -/
def System.empty : System := ⟨Database.empty, none⟩

/-- A run of `retrain_delay_model`, with what it meets. -/
structure Retrain where
  loadedAt : Instant
  trainedAt : Instant
  order : RowOrder
  learner : Learner
  /-- Whether it gets to replace the artifact. -/
  saves : Bool

/-- The entries of the beat schedule. -/
inductive WorkerTask where
  | beat (task : BeatTask)
  | retrainDelayModel (run : Retrain)

/-- The artifact that a run of `retrain_delay_model` leaves. -/
def Retrain.artifact (run : Retrain) (settings : TrainingSettings)
    (features : Table TrainingFeature.upsert) (artifact : Option (Pipeline × TrainingMetrics)) :
    Option (Pipeline × TrainingMetrics) :=
  match trainDelayModel run.learner settings run.order features run.loadedAt run.trainedAt with
  | .ok (.trained pipeline metrics) => if run.saves then some (pipeline, metrics) else artifact
  | _ => artifact

/-- What a prediction uses, when the stored artifact is the one that is loaded. -/
def System.runtime (s : System) (exp : ℚ → ℚ) : Runtime where
  exp
  model := s.artifact.map fun artifact => predictSingle artifact.1

section Exec

variable (isPoint : XFloat → XFloat → Bool) (training : TrainingSettings)

/-- What a task leaves behind. -/
def System.exec (s : System) : WorkerTask → System
  | .beat task => { s with database := s.database.exec isPoint task }
  | .retrainDelayModel run =>
    { s with
      artifact := run.artifact training s.database.live.trainingFeatures s.artifact }

end Exec

/-- The tasks of a run that write to the database. -/
def beats (tasks : List WorkerTask) : List BeatTask :=
  tasks.filterMap fun
    | .beat task => some task
    | .retrainDelayModel _ => none

/-! ## What there is to train on -/

/-- The feature row is of the visit of the observation. -/
structure TrainingFeature.IsOf (f : TrainingFeature) (o : DelayObservation) : Prop where
  routeId : f.routeId = o.routeId
  tripId : f.tripId = o.tripId
  stopId : f.stopId = o.stopId
  serviceDate : f.serviceDate = o.serviceDate

section Features

variable (isPoint : XFloat → XFloat → Bool)

omit isPoint in
/-- Only the rebuilds write features. -/
theorem features_not_mem_writes {k : TaskKind} (h : k ≠ .rebuildFeatures) :
    TableName.trainingFeatures ∉ k.writes := by
  cases k <;> first | exact absurd rfl h | decide

/-- What a task preserves. -/
theorem tracked_exec {d : Database} (h : ∃ picked, Tracked picked d.live) (task : BeatTask) :
    ∃ picked, Tracked picked (d.exec isPoint task).live := by
  obtain ⟨picked, h⟩ := h
  have hframe := (footprint isPoint task).frame d
  cases task with
  | pollTripUpdates poll => exact ⟨picked, h.poll poll⟩
  | rebuildFeatures since now => exact ⟨_, h.rebuild since now⟩
  -- The other tasks write neither of the two tables.
  | _ =>
    refine ⟨picked, h.congr ?_ ?_⟩
    · exact hframe .delayObservations (not_mem_writes (by simp [BeatTask.kind]))
    · exact hframe .trainingFeatures (features_not_mem_writes (by simp [BeatTask.kind]))

/-- What every run preserves. -/
theorem tracked_run (tasks : List BeatTask) :
    ∃ picked, Tracked picked (replay (Database.exec isPoint) Database.empty tasks).live :=
  replay_invariant (P := fun d : Database => ∃ picked, Tracked picked d.live)
    ⟨_, tracked_empty⟩ (fun _ task h => tracked_exec isPoint h task) tasks

/-- A feature row is of the visit of an observation on record. -/
theorem exists_isOf (tasks : List BeatTask) {f : TrainingFeature}
    (hf : f ∈ (replay (Database.exec isPoint) Database.empty tasks).live.trainingFeatures.data) :
    f.Coherent ∧ ∃ o ∈ record (observed tasks), f.IsOf o := by
  obtain ⟨picked, htracked⟩ := tracked_run isPoint tasks
  obtain ⟨r, hr, rfl⟩ := List.mem_map.1 hf
  obtain ⟨hcoherent, d, hd, habout⟩ := htracked.feature hr
  refine ⟨hcoherent, d.data, ?_, habout.routeId, habout.tripId, habout.stopId,
    habout.serviceDate⟩
  rw [← data_toFinset isPoint, List.mem_toFinset]
  exact List.mem_map_of_mem hd

end Features

/-! ## What the system depends on -/

/-- A table, or the artifact. -/
def PartContent : Option TableName → Type
  | none => Option (Pipeline × TrainingMetrics)
  | some t => t.Content

/-- The content of a part of the system. -/
def System.part (s : System) : ∀ part, PartContent part
  | none => s.artifact
  | some t => s.database.table t

/-- The parts a task writes. -/
def WorkerTask.writes : WorkerTask → Set (Option TableName)
  | .beat task => some '' (task.kind.writes : Set TableName)
  | .retrainDelayModel _ => {none}

/-- What is written into a part depends on these. -/
def partInputs : Option TableName → Set (Option TableName)
  | none => {none, some .trainingFeatures}
  | some t => some '' (t.inputs : Set TableName)

/-- A task around the feature pipeline, or a retraining. -/
def WorkerTask.isForModel : WorkerTask → Bool
  | .beat task => task.isForFeatures
  | .retrainDelayModel _ => true

section Serving

variable (isPoint : XFloat → XFloat → Bool) (training : TrainingSettings)

/-- **Every task keeps to its parts.** -/
theorem system_footprint (task : WorkerTask) :
    Footprint System.part (System.exec isPoint training · task) task.writes partInputs := by
  cases task with
  | beat task =>
    have htask := footprint isPoint task
    constructor
    · intro s part hpart
      cases part with
      | none => rfl
      | some t => exact htask.frame s.database t fun ht => hpart ⟨t, ht, rfl⟩
    · rintro s s' _ ⟨t, ht, rfl⟩ hagree
      exact htask.inputs s.database s'.database t ht fun u hu => hagree (some u) ⟨u, hu, rfl⟩
  | retrainDelayModel run =>
    refine footprint_single ?_ ?_
    · intro s part hpart
      cases part with
      | none => exact absurd rfl hpart
      | some t => rfl
    · intro s s' hagree
      have hartifact : s.artifact = s'.artifact := hagree none (.inl rfl)
      have hfeatures : s.database.live.trainingFeatures = s'.database.live.trainingFeatures :=
        hagree (some .trainingFeatures) (.inr rfl)
      show run.artifact _ _ _ = run.artifact _ _ _
      rw [hartifact, hfeatures]

/-- The model, and what its answers are read from. -/
def servedParts : Set (Option TableName) :=
  insert none (some '' (TableName.trainingFeatures.inputs : Set TableName))

/-- **What the whole system answers is made of**: the stored model, and what
`predict_with_interval` answers with it, are what the tasks around the feature pipeline and
the retrainings would have left alone. -/
theorem served_determined (s : System) (tasks : List WorkerTask) (exp : ℚ → ℚ)
    (settings : Settings) (now : Instant) (routeId stopId : String) (target : DateTime) :
    let after := replay (System.exec isPoint training) s
    let feeding := tasks.filter WorkerTask.isForModel
    (after tasks).artifact = (after feeding).artifact ∧
      predictWithInterval ((after tasks).runtime exp) settings (after tasks).database.live now
          routeId stopId target =
        predictWithInterval ((after feeding).runtime exp) settings
          (after feeding).database.live now routeId stopId target := by
  intro after feeding
  have hagree : AgreeOn System.part servedParts (after tasks) (after feeding) := by
    refine slice_agrees (system_footprint isPoint training) ?_ ?_ tasks s
    · rintro task part - (rfl | ⟨t, ht, rfl⟩)
      · rintro _ (rfl | rfl)
        · exact .inl rfl
        · exact .inr ⟨_, mem_inputs _, rfl⟩
      · rintro _ ⟨u, hu, rfl⟩
        exact .inr ⟨u, inputs_subset ht hu, rfl⟩
    · intro task htask
      cases task with
      | retrainDelayModel run => cases htask
      | beat task =>
        have hfeeds : BeatTask.feeds .trainingFeatures task = false := by
          rw [feeds_trainingFeatures]
          exact htask
        have hdisjoint : Disjoint task.kind.writes TableName.trainingFeatures.inputs := by
          simpa [BeatTask.feeds] using hfeeds
        rw [Set.disjoint_left]
        rintro _ ⟨t, ht, rfl⟩ (h | ⟨u, hu, huv⟩)
        · cases h
        · obtain rfl := Option.some.inj huv
          exact Finset.disjoint_left.1 hdisjoint ht hu
  have hartifact : (after tasks).artifact = (after feeding).artifact := hagree none (.inl rfl)
  have hobs : (after tasks).database.live.delayObservations =
      (after feeding).database.live.delayObservations :=
    hagree (some .delayObservations) (.inr ⟨_, by decide, rfl⟩)
  have hfeatures : (after tasks).database.live.trainingFeatures =
      (after feeding).database.live.trainingFeatures :=
    hagree (some .trainingFeatures) (.inr ⟨_, by decide, rfl⟩)
  refine ⟨hartifact, ?_⟩
  rw [System.runtime, System.runtime, hartifact]
  exact predictWithInterval_of_features hobs _ settings now hfeatures routeId stopId target

end Serving

/-! ## What the model knows -/

/-- Every id the pipeline has a code for was observed. -/
structure Pipeline.KnownFrom (pipeline : Pipeline) (seen : List DelayObservation) : Prop where
  routeIds : pipeline.preprocessor.routeIds ⊆ seen.map (·.routeId)
  stopIds : pipeline.preprocessor.stopIds ⊆ seen.map (·.stopId)

theorem Pipeline.KnownFrom.append {pipeline : Pipeline} {seen : List DelayObservation}
    (h : pipeline.KnownFrom seen) (seen' : List DelayObservation) :
    pipeline.KnownFrom (seen ++ seen') where
  routeIds := by
    rw [List.map_append]
    exact List.subset_append_of_subset_left _ h.routeIds
  stopIds := by
    rw [List.map_append]
    exact List.subset_append_of_subset_left _ h.stopIds

/-- What is on record was observed, under its route and at its stop. -/
theorem mem_of_mem_record {seen : List DelayObservation} {o : DelayObservation}
    (h : o ∈ record seen) :
    o.routeId ∈ seen.map (·.routeId) ∧ o.stopId ∈ seen.map (·.stopId) := by
  rw [mem_record] at h
  have hne : forKey o.naturalKey seen ≠ [] := fun hnil => by
    rw [onRecord_of_nil hnil] at h
    cases h
  rw [onRecord_of_ne_nil hne, Option.some.injEq] at h
  have hfirst := mem_forKey.1 (List.head_mem hne)
  have hlast := mem_forKey.1 (List.getLast_mem hne)
  rw [← h]
  exact ⟨List.mem_map.2 ⟨_, hfirst.1, rfl⟩, List.mem_map.2 ⟨_, hlast.1, rfl⟩⟩

/-- A pipeline fitted on features of observations knows no other ids. -/
theorem knownFrom_fitPipeline {seen : List DelayObservation}
    {fit : List (EncodedValues × ℚ) → EncodedValues → ℚ} {train : List Example}
    (h : ∀ e ∈ train, e.routeId ∈ seen.map (·.routeId) ∧ e.stopId ∈ seen.map (·.stopId)) :
    (fitPipeline fit train).KnownFrom seen where
  routeIds := by
    intro id hid
    simp only [fitPipeline, OrdinalEncoder.fit, mem_categories, List.map_map] at hid
    obtain ⟨e, he, rfl⟩ := List.mem_map.1 hid
    exact (h e he).1
  stopIds := by
    intro id hid
    simp only [fitPipeline, OrdinalEncoder.fit, mem_categories, List.map_map] at hid
    obtain ⟨e, he, rfl⟩ := List.mem_map.1 hid
    exact (h e he).2

section ColdStart

variable (isPoint : XFloat → XFloat → Bool) (training : TrainingSettings)

/-- The database goes by the tasks that write to it. -/
theorem database_replay (s : System) (tasks : List WorkerTask) :
    (replay (System.exec isPoint training) s tasks).database =
      replay (Database.exec isPoint) s.database (beats tasks) := by
  induction tasks generalizing s with
  | nil => rfl
  | cons task tasks ih =>
    rw [replay_cons, ih]
    cases task with
    | beat task => rfl
    | retrainDelayModel run => rfl

/-- What a retraining fits is fitted on features of observations. -/
theorem knownFrom_retrain (tasks : List BeatTask) (run : Retrain)
    {artifact : Option (Pipeline × TrainingMetrics)}
    (h : ∀ a ∈ artifact, a.1.KnownFrom (observed tasks)) :
    ∀ a ∈ run.artifact training
        (replay (Database.exec isPoint) Database.empty tasks).live.trainingFeatures artifact,
      a.1.KnownFrom (observed tasks) := by
  unfold Retrain.artifact
  split
  · rename_i pipeline metrics htrained
    split
    · rintro a ha
      obtain rfl := Option.some.inj ha
      obtain ⟨train, rfl, htrain⟩ := train_of_trained htrained
      refine knownFrom_fitPipeline fun e he => ?_
      obtain ⟨f, hf, hroute, hstop⟩ := htrain e he
      obtain ⟨-, o, ho, hisOf⟩ := exists_isOf isPoint tasks hf
      rw [hroute, hstop, hisOf.routeId, hisOf.stopId]
      exact mem_of_mem_record ho
    · exact h
  · exact h

/-- **The model knows nothing but what was observed**, after any run. -/
theorem knownFrom_run (tasks : List WorkerTask) :
    ∀ a ∈ (replay (System.exec isPoint training) System.empty tasks).artifact,
      a.1.KnownFrom (observed (beats tasks)) := by
  refine replay_history (P := fun l (s : System) =>
    ∀ a ∈ s.artifact, a.1.KnownFrom (observed (beats l))) (by simp [System.empty]) ?_ tasks
  intro l task ih
  cases task with
  | beat task =>
    have hbeats : observed (beats (l ++ [.beat task])) = observed (beats l) ++ task.observed := by
      simp [beats, observed]
    intro a ha
    rw [hbeats]
    exact (ih a ha).append _
  | retrainDelayModel run =>
    have hbeats : beats (l ++ [.retrainDelayModel run]) = beats l := by simp [beats]
    rw [hbeats]
    intro a ha
    refine knownFrom_retrain isPoint training (beats l) run ih a ?_
    have hdb := database_replay isPoint training System.empty l
    rw [← show System.empty.database = Database.empty from rfl, ← hdb]
    exact ha

/-- The later tasks leave the model alone. -/
theorem artifact_beats (s : System) (later : List BeatTask) :
    (replay (System.exec isPoint training) s (later.map .beat)).artifact = s.artifact := by
  induction later generalizing s with
  | nil => rfl
  | cons task later ih =>
    rw [List.map_cons, replay_cons, ih]
    rfl

/-- **Until the next retraining**, the model answers alike for routes and stops that no poll
had observed before the last one. -/
theorem coldStart (before : List WorkerTask) (later : List BeatTask) (exp : ℚ → ℚ)
    {routeId routeId' stopId stopId' : String}
    (hroute : SameOrUnseen ((observed (beats before)).map (·.routeId)) routeId routeId')
    (hstop : SameOrUnseen ((observed (beats before)).map (·.stopId)) stopId stopId') :
    let s := replay (System.exec isPoint training) System.empty (before ++ later.map .beat)
    ∀ predictSingle ∈ (s.runtime exp).model, ∀ hour dayOfWeek weatherCondition,
      predictSingle routeId stopId hour dayOfWeek weatherCondition =
        predictSingle routeId' stopId' hour dayOfWeek weatherCondition := by
  intro s model hmodel hour dayOfWeek weatherCondition
  obtain ⟨a, ha, rfl⟩ := Option.map_eq_some_iff.1 hmodel
  have hknown : a.1.KnownFrom (observed (beats before)) := by
    refine knownFrom_run isPoint training before a ?_
    rw [Option.mem_def, ← ha]
    simp only [s, replay_append, artifact_beats]
  have hrouteCode := encode_eq_iff.2 (hroute.of_subset hknown.routeIds)
  have hstopCode := encode_eq_iff.2 (hstop.of_subset hknown.stopIds)
  simp only [predictSingle, Pipeline.predict, OrdinalEncoder.transform, hrouteCode, hstopCode]

/-- A split that tests on the first fifth of the rows, rounded up, and refuses to leave none
to train on.  Three rows are split like this by `train_test_split` with the `random_state` of
the source. -/
def firstFifth (rows : List Example) : Except TrainingError (List Example × List Example) :=
  let testCount := (rows.length + 4) / 5
  if testCount < rows.length then .ok (rows.drop testCount, rows.take testCount)
  else .error .library

/-- The mean delay of the training rows at the stop, or of all of them if there is none. -/
def meanAtStop (train : List (EncodedValues × ℚ)) (x : EncodedValues) : ℚ :=
  let mean := fun rows : List (EncodedValues × ℚ) => (rows.map (·.2)).sum / rows.length
  let atStop := train.filter fun row => row.1.stopCode = x.stopCode
  if atStop.isEmpty then mean train else mean atStop

/-- The root of the mean square, which is exact when that is a square. -/
def rootMeanSquare (pairs : List (ℚ × ℚ)) : ℚ :=
  let meanSquare : ℚ := (pairs.map fun (y, p) => (y - p) * (y - p)).sum / pairs.length
  Nat.sqrt meanSquare.num.toNat / Nat.sqrt meanSquare.den

/-- A retraining at second 1000. -/
def meansRetrain : Retrain where
  loadedAt := 1000
  trainedAt := 1000
  order := ⟨id, fun _ => .refl _⟩
  learner :=
    { split := firstFifth
      fit := meanAtStop
      rmse := rootMeanSquare
      split_perm := by
        intro rows train test h
        simp only [firstFifth] at h
        split at h
        · cases h
          exact List.perm_append_comm.trans (.of_eq (List.take_append_drop _ rows))
        · cases h }
  saves := true

/-- Of three stops observed the model was fitted on two.  It tells these apart, and takes the
stops of the later poll for one. -/
theorem coldStart_newStops :
    let training : TrainingSettings := ⟨30, 3⟩
    let poll := BeatTask.pollTripUpdates (tripFeed 1000 [("S1", 60), ("S2", 90), ("S3", 150)])
    let later := BeatTask.pollTripUpdates (tripFeed 2000 [("S4", 60), ("S5", 90)])
    let s := replay (System.exec (fun _ _ => true) training) System.empty
      [.beat poll, .beat (.rebuildFeatures 0 0), .retrainDelayModel meansRetrain, .beat later]
    ∃ predictSingle ∈ (s.runtime id).model,
      predictSingle "M1" "S2" 0 0 .clear ≠ predictSingle "M1" "S3" 0 0 .clear ∧
        predictSingle "M1" "S2" 0 0 .clear ≠ predictSingle "M1" "S4" 0 0 .clear ∧
        predictSingle "M1" "S4" 0 0 .clear = predictSingle "M1" "S5" 0 0 .clear := by
  intro training poll later s
  have hdelays : (s.runtime id).model.map (fun predictSingle =>
      (predictSingle "M1" "S2" 0 0 .clear, predictSingle "M1" "S3" 0 0 .clear,
        predictSingle "M1" "S4" 0 0 .clear)) = some (90, 150, 120) := by
    decide +kernel
  obtain ⟨model, hmodel, heq⟩ := Option.map_eq_some_iff.1 hdelays
  simp only [Prod.mk.injEq] at heq
  obtain ⟨hsecond, hthird, hfourth⟩ := heq
  refine ⟨model, hmodel, by rw [hsecond, hthird]; decide, by rw [hsecond, hfourth]; decide, ?_⟩
  exact coldStart (fun _ _ => true) training
    [.beat poll, .beat (.rebuildFeatures 0 0), .retrainDelayModel meansRetrain] [later] id
    (.inl rfl) (.inr (by decide)) model hmodel 0 0 .clear

end ColdStart

end DelayPredictor
