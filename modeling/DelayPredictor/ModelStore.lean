import DelayPredictor.ModelCache

/-!
# The model store

`save_model` with its upload (`app/services/ml_predictor.py`), and `get_model`
with the S3 backend (`app/services/ml_inference.py`), on hosts that mount one
volume for the artifact: the trainer and the API processes read and write the
same file.

* `S3Call.advance` — the next step of one call: head, unlocked check of `_cache`,
  lock, check again, download over the artifact, load, store, return; each step
  that talks to S3 or loads can fail.
* `ModelStore.exec` — one step of the whole: of a call, or of `save_model`.
* `retrainKept_iff` — **when the uploaded object is the new model**: exactly when
  no download falls between the local write and the upload.  One that does puts
  the old object in the place of the new model, and the old object is uploaded.

The lock is one process's: it keeps no call out of the trainer's way.
-/

namespace DelayPredictor

open Runs

variable {β ε : Type*}

/-! ## One call -/

/-- What a call of `get_model` comes to. -/
inductive GetResult (β : Type*)
  /-- A pipeline and its metrics. -/
  | model (bundle : β)
  /-- `None`. -/
  | noModel
  /-- An exception. -/
  | raised
  deriving DecidableEq, Repr

/-- Where a call of `_get_from_s3` is, with its local variables. -/
inductive S3Call (β ε : Type*)
  /-- Before `head_object`. -/
  | start
  /-- The object has this ETag. -/
  | headed (etag : ε)
  /-- The unlocked check did not find the ETag. -/
  | missed (etag : ε)
  /-- The call holds the lock. -/
  | locked (etag : ε)
  /-- The check under the lock did not find the ETag either. -/
  | rechecked (etag : ε)
  /-- The object has been downloaded to the artifact's path. -/
  | downloaded (etag : ε)
  /-- The artifact has been loaded. -/
  | loaded (etag : ε) (bundle : β)
  /-- The call is about to end, from inside the `with _LOCK` or not. -/
  | leaving (result : GetResult β) (holdsLock : Bool)
  /-- The call has ended. -/
  | left (result : GetResult β)
  deriving DecidableEq, Repr

/-- The steps of a call, with the ways they can fail. -/
inductive S3Action
  | head
  /-- `head_object` answers with a `ClientError`. -/
  | headFails
  /-- `head_object` raises anything else. -/
  | headRaises
  | check
  | acquire
  | recheck
  | download
  | downloadFails
  | load
  | loadFails
  | store
  | leave
  deriving DecidableEq, Repr

/-- What the processes share: the artifact on the mounted volume, and the object
in the bucket. -/
structure Shared (β : Type*) where
  path : Option β
  object : Option β
  deriving DecidableEq, Repr

namespace S3Call

variable [DecidableEq ε]

/-- A step of call `i`: where it is then, what the processes share, and the globals
of its own process.  A download is of the object as it is now, whatever the ETag;
one that fails leaves the file alone. -/
def advance (etagOf : β → ε) (w : Shared β) (g : Globals β ε) (i : ℕ) :
    S3Action → S3Call β ε → Option (S3Call β ε × Shared β × Globals β ε)
  | .head, .start =>
    match w.object with
    | none => some (.leaving .noModel false, w, g)
    | some object => some (.headed (etagOf object), w, g)
  | .headFails, .start => some (.leaving .noModel false, w, g)
  | .headRaises, .start => some (.leaving .raised false, w, g)
  | .check, .headed etag =>
    match cachedAs g.cache etag with
    | some bundle => some (.leaving (.model bundle) false, w, g)
    | none => some (.missed etag, w, g)
  | .acquire, .missed etag =>
    if g.lock = none then some (.locked etag, w, { g with lock := some i }) else none
  | .recheck, .locked etag =>
    match cachedAs g.cache etag with
    | some bundle => some (.leaving (.model bundle) true, w, g)
    | none => some (.rechecked etag, w, g)
  | .download, .rechecked etag =>
    w.object.map fun object => (.downloaded etag, { w with path := some object }, g)
  | .downloadFails, .rechecked _ => some (.leaving .raised true, w, g)
  | .load, .downloaded etag => w.path.map fun bundle => (.loaded etag bundle, w, g)
  | .loadFails, .downloaded _ => some (.leaving .noModel true, w, g)
  | .store, .loaded etag bundle =>
    some (.leaving (.model bundle) true, w, { g with cache := some ⟨bundle, etag⟩ })
  | .leave, .leaving result holdsLock =>
    some (.left result, w, { g with lock := if holdsLock then none else g.lock })
  | _, _ => none

/-- **What a call does to the others**: its download puts the object in the
artifact's place, and nothing else it does can be seen. -/
theorem advance_shared {etagOf : β → ε} {w w' : Shared β} {g g' : Globals β ε} {i : ℕ}
    {action : S3Action} {c c' : S3Call β ε}
    (h : c.advance etagOf w g i action = some (c', w', g')) :
    w' = if action = .download then { w with path := w.object } else w := by
  cases action with
  | download =>
    cases c with
    | rechecked etag =>
      obtain ⟨object, hobject, hw⟩ := Option.map_eq_some_iff.1 h
      obtain ⟨-, rfl, -⟩ := by simpa only [Prod.mk.injEq] using hw
      rw [if_pos rfl, hobject]
    | _ => cases h
  | load =>
    cases c with
    | downloaded etag =>
      obtain ⟨bundle, -, hw⟩ := Option.map_eq_some_iff.1 h
      obtain ⟨-, rfl, -⟩ := by simpa only [Prod.mk.injEq] using hw
      rfl
    | _ => cases h
  | _ =>
    unfold advance at h
    split at h <;> grind

end S3Call

/-! ## All calls, and the trainer -/

/-- Where a call of `save_model` is. -/
inductive Trainer
  /-- Before the local write. -/
  | fitted
  /-- Between the local write and the upload. -/
  | written
  /-- The upload has been made: `save_model` has returned. -/
  | returned
  /-- The upload has failed: `save_model` has raised. -/
  | raised
  deriving DecidableEq, Repr

/-- What is shared, where the trainer is, the globals of every process, and where
every call is. -/
structure ModelStore (β ε : Type*) where
  shared : Shared β
  trainer : Trainer
  globals : ℕ → Globals β ε
  call : ℕ → S3Call β ε

/-- A step of `save_model`, or of a call of `get_model`. -/
inductive StoreStep
  /-- `joblib.dump`. -/
  | write
  /-- `upload_file`. -/
  | upload
  | uploadFails
  | get (i : ℕ) (action : S3Action)
  deriving DecidableEq, Repr

namespace ModelStore

/-- The trainer is about to save, and no call has been made. -/
def deployed (shared : Shared β) : ModelStore β ε :=
  ⟨shared, .fitted, fun _ => .fresh, fun _ => .start⟩

variable [DecidableEq ε]

/-- Take a step, if it can be taken.  The trainer saves `new`; `etagOf` is the ETag
of an object, and `processOf` the process a call is made in. -/
def exec (etagOf : β → ε) (processOf : ℕ → ℕ) (new : β) (s : ModelStore β ε) :
    StoreStep → Option (ModelStore β ε)
  | .write =>
    if s.trainer = .fitted then
      some { s with shared := { s.shared with path := some new }, trainer := .written }
    else none
  | .upload =>
    if s.trainer = .written then
      s.shared.path.map fun artifact =>
        { s with shared := { s.shared with object := some artifact }, trainer := .returned }
    else none
  | .uploadFails => if s.trainer = .written then some { s with trainer := .raised } else none
  | .get i action =>
    ((s.call i).advance etagOf s.shared (s.globals (processOf i)) i action).map fun (c, w, g) =>
      { s with
        shared := w
        globals := Function.update s.globals (processOf i) g
        call := Function.update s.call i c }

/-- The steps of the store. -/
def Steps (etagOf : β → ε) (processOf : ℕ → ℕ) (new : β) (s : ModelStore β ε) (a : StoreStep)
    (t : ModelStore β ε) : Prop :=
  s.exec etagOf processOf new a = some t

/-- No download falls between the local write and the upload. -/
def NoneBetween (l : List StoreStep) : Prop :=
  ∀ before i, before ++ [.get i .download] <+: l → .write ∈ before → .upload ∈ before

/-! ## What a step can do -/

section Steps

variable {etagOf : β → ε} {processOf : ℕ → ℕ} {new : β} {s t : ModelStore β ε}

theorem Steps.write_inv (h : Steps etagOf processOf new s .write t) :
    s.trainer = .fitted ∧
      t = { s with shared := { s.shared with path := some new }, trainer := .written } := by
  obtain ⟨hfitted, ht⟩ := Option.ite_none_right_eq_some.1 h
  exact ⟨hfitted, (Option.some.inj ht).symm⟩

theorem Steps.upload_inv (h : Steps etagOf processOf new s .upload t) :
    s.trainer = .written ∧
      t = { s with shared := { s.shared with object := s.shared.path }, trainer := .returned } := by
  obtain ⟨hwritten, ht⟩ := Option.ite_none_right_eq_some.1 h
  obtain ⟨artifact, hpath, rfl⟩ := Option.map_eq_some_iff.1 ht
  exact ⟨hwritten, by rw [hpath]⟩

theorem Steps.uploadFails_inv (h : Steps etagOf processOf new s .uploadFails t) :
    s.trainer = .written ∧ t = { s with trainer := .raised } := by
  obtain ⟨hwritten, ht⟩ := Option.ite_none_right_eq_some.1 h
  exact ⟨hwritten, (Option.some.inj ht).symm⟩

/-- A step of a call leaves the trainer where it is. -/
theorem Steps.get_inv {i : ℕ} {action : S3Action}
    (h : Steps etagOf processOf new s (.get i action) t) :
    t.trainer = s.trainer ∧ t.shared =
      if action = .download then { s.shared with path := s.shared.object } else s.shared := by
  obtain ⟨⟨c, w, g⟩, hadv, rfl⟩ := Option.map_eq_some_iff.1 h
  exact ⟨rfl, S3Call.advance_shared hadv⟩

end Steps

/-! ## What a run leaves in the bucket -/

theorem noneBetween_of_not_written {l : List StoreStep} (h : .write ∉ l) : NoneBetween l :=
  fun _ _ hl hw => absurd (hl.subset (List.mem_append_left _ hw)) h

theorem noneBetween_snoc {l : List StoreStep} {a : StoreStep} :
    NoneBetween (l ++ [a]) ↔
      NoneBetween l ∧ ∀ i, a = .get i .download → .write ∈ l → .upload ∈ l := by
  refine ⟨?_, ?_⟩
  · intro h
    refine ⟨fun before i hl => h before i (hl.trans (List.prefix_append l [a])), ?_⟩
    rintro i rfl
    exact h l i (List.prefix_refl _)
  · rintro ⟨h, hlast⟩ before i hl
    rcases List.prefix_concat_iff.1 hl with heq | hl
    · obtain ⟨rfl, ha⟩ := List.append_inj' heq rfl
      exact hlast i (List.singleton_inj.1 ha).symm
    · exact h before i hl

/-- A step that is no download does not fall between. -/
theorem noneBetween_snoc_of_ne {l : List StoreStep} {a : StoreStep}
    (ha : ∀ i, a ≠ .get i .download) : NoneBetween (l ++ [a]) ↔ NoneBetween l := by
  rw [noneBetween_snoc]
  exact and_iff_left fun i h => absurd h (ha i)

/-- **The invariant.**  What the steps `l` have made of the shared state, by where
the trainer is: the artifact it is about to upload, and then the object, are the
new model, or the old object if a download fell between. -/
def Saved (new : β) (old : Option β) (l : List StoreStep) (w : Shared β) : Trainer → Prop
  | .fitted => .write ∉ l ∧ .upload ∉ l ∧ w.object = old
  | .written => .write ∈ l ∧ .upload ∉ l ∧ w.object = old ∧
      (NoneBetween l ∧ w.path = some new ∨ ¬ NoneBetween l ∧ w.path = old)
  | .returned => .upload ∈ l ∧
      (NoneBetween l ∧ w.object = some new ∨ ¬ NoneBetween l ∧ w.object = old)
  | .raised => True

section Run

variable {etagOf : β → ε} {processOf : ℕ → ℕ} {new : β} {s t : ModelStore β ε}
  {l : List StoreStep}

theorem saved_step {old : Option β} {a : StoreStep} (hs : Saved new old l s.shared s.trainer)
    (h : Steps etagOf processOf new s a t) : Saved new old (l ++ [a]) t.shared t.trainer := by
  cases a with
  | write =>
    obtain ⟨htrainer, rfl⟩ := h.write_inv
    rw [htrainer] at hs
    obtain ⟨hw, hu, hobj⟩ := hs
    refine ⟨by simp, by simpa using hu, hobj, .inl ⟨?_, rfl⟩⟩
    exact (noneBetween_snoc_of_ne (by simp)).2 (noneBetween_of_not_written hw)
  | upload =>
    obtain ⟨htrainer, rfl⟩ := h.upload_inv
    rw [htrainer] at hs
    obtain ⟨-, -, -, hpath⟩ := hs
    refine ⟨by simp, ?_⟩
    rwa [noneBetween_snoc_of_ne (by simp)]
  | uploadFails =>
    obtain ⟨-, rfl⟩ := h.uploadFails_inv
    trivial
  | get i action =>
    obtain ⟨htrainer, hshared⟩ := h.get_inv
    rw [htrainer, hshared]
    have hmem : ∀ b : StoreStep, (∀ i action, b ≠ .get i action) →
        (b ∈ l ++ [.get i action] ↔ b ∈ l) := by
      intro b hb
      simp [hb i action]
    have hwrite := hmem .write (by simp)
    have hupload := hmem .upload (by simp)
    by_cases haction : action = .download
    · subst haction
      rw [if_pos rfl]
      cases htr : s.trainer with
      | fitted =>
        rw [htr] at hs
        obtain ⟨hw, hu, hobj⟩ := hs
        exact ⟨by rwa [hwrite], by rwa [hupload], hobj⟩
      | written =>
        -- the download replaces the new model by the old object
        rw [htr] at hs
        obtain ⟨hw, hu, hobj, -⟩ := hs
        refine ⟨hwrite.2 hw, by rwa [hupload], hobj, .inr ⟨?_, hobj⟩⟩
        rw [noneBetween_snoc]
        exact fun hnone => hu (hnone.2 i rfl hw)
      | returned =>
        rw [htr] at hs
        obtain ⟨hu, hobj⟩ := hs
        refine ⟨hupload.2 hu, ?_⟩
        rwa [noneBetween_snoc, and_iff_left fun _ _ _ => hu]
      | raised => trivial
    · have hnone : NoneBetween (l ++ [.get i action]) ↔ NoneBetween l :=
        noneBetween_snoc_of_ne (by simp [haction])
      rw [if_neg haction]
      cases htr : s.trainer with
      | fitted => rw [htr] at hs; simpa only [Saved, hwrite, hupload, hnone] using hs
      | written => rw [htr] at hs; simpa only [Saved, hwrite, hupload, hnone] using hs
      | returned => rw [htr] at hs; simpa only [Saved, hwrite, hupload, hnone] using hs
      | raised => trivial

theorem saved_of_run {s₀ : ModelStore β ε} (h₀ : s₀.trainer = .fitted)
    (hrun : Run (Steps etagOf processOf new) s₀ l s) :
    Saved new s₀.shared.object l s.shared s.trainer := by
  refine hrun.history (P := fun l s => Saved new s₀.shared.object l s.shared s.trainer) ?_ ?_
  · rw [h₀]
    exact ⟨by simp, by simp, rfl⟩
  · intro l t a u _ ht hstep
    exact saved_step ht hstep

/-- **When the uploaded object is the new model**: whatever the calls of `get_model`
do before, during and after, exactly when none of them downloads between the local
write and the upload, unless the object was that model before. -/
theorem retrainKept_iff {s₀ : ModelStore β ε} (h₀ : s₀.trainer = .fitted)
    (hrun : Run (Steps etagOf processOf new) s₀ l s) (hs : s.trainer = .returned) :
    s.shared.object = some new ↔ NoneBetween l ∨ s₀.shared.object = some new := by
  have hsaved := saved_of_run h₀ hrun
  rw [hs] at hsaved
  obtain ⟨-, ⟨hnone, hobj⟩ | ⟨hnone, hobj⟩⟩ := hsaved
  · exact iff_of_true hobj (.inl hnone)
  · rw [hobj, or_iff_right hnone]

end Run

/-- The first call of a process, up to where it is about to download. -/
def coldStart : List StoreStep :=
  [.get 0 .head, .get 0 .check, .get 0 .acquire, .get 0 .recheck]

/-- The download is made before the model is saved. -/
def downloadBefore : List StoreStep := coldStart ++ [.get 0 .download, .write, .upload]

/-- The download is made between the local write and the upload. -/
def downloadBetween : List StoreStep := coldStart ++ [.write, .get 0 .download, .upload]

/-- A process that downloads before the model is saved does no harm. -/
theorem coldStart_keepsRetrain : ∃ s : ModelStore ℕ ℕ,
    Run (Steps id id 2) (deployed ⟨some 1, some 1⟩) downloadBefore s ∧
      s.shared.object = some 2 ∧ NoneBetween downloadBefore := by
  obtain ⟨s, hs, htrainer, hobj⟩ : ∃ s : ModelStore ℕ ℕ,
      downloadBefore.foldlM (exec id id 2) (deployed ⟨some 1, some 1⟩) = some s ∧
        s.trainer = .returned ∧ s.shared.object = some 2 := ⟨_, rfl, rfl, rfl⟩
  have hrun := Run.of_foldlM hs
  have hiff := retrainKept_iff rfl hrun htrainer
  exact ⟨s, hrun, hobj, (hiff.1 hobj).resolve_right (by decide)⟩

/-- A process that downloads while the model is being saved: the old object is
uploaded in its place, and the new model is gone. -/
theorem coldStart_losesRetrain :
    ¬ ∀ (etagOf : ℕ → ℕ) (processOf : ℕ → ℕ) (new : ℕ) (s₀ s : ModelStore ℕ ℕ)
        (l : List StoreStep), s₀.trainer = .fitted → Run (Steps etagOf processOf new) s₀ l s →
        s.trainer = .returned → s.shared.object = some new := by
  intro h
  obtain ⟨s, hs, htrainer, hobj⟩ : ∃ s : ModelStore ℕ ℕ,
      downloadBetween.foldlM (exec id id 2) (deployed ⟨some 1, some 1⟩) = some s ∧
        s.trainer = .returned ∧ s.shared.object = some 1 := ⟨_, rfl, rfl, rfl⟩
  have hnew := h id id 2 _ s _ rfl (Run.of_foldlM hs) htrainer
  rw [hobj] at hnew
  exact absurd hnew (by decide)

end ModelStore

end DelayPredictor
