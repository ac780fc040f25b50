import DelayPredictor.StaticRequirements

/-!
# Batches of an upsert

`_upsert` sends its rows in batches.

* `MappedClass` — a class that the ingest upserts, with its foreign keys;
  `ingestFrames_classes` — the ingest loads six of them.
* `upsertEach` — the rows one at a time, which is what the batches stand for.
* `batchedAsEach_iff` — **when batches do what single rows do**: exactly when the rows
  can be stored, none has the key of another one in its batch, and no batch has more
  arguments than a statement takes.  The same two rows go through in different batches,
  and the last one counts.
-/

namespace DelayPredictor

open Batches Keyed Raising Transaction

/-- A class that is upserted by its primary key. -/
structure MappedClass (κ ν : Type) [DecidableEq κ] extends TableModel κ ν where
  /-- The foreign keys of a row are held. -/
  refs : StaticTables → ν → Prop
  lawful : toTableModel.Lawful refs

/-- `Agency`. -/
def agencyClass : MappedClass String Agency := ⟨agencyModel, _, agencyModel_lawful⟩

/-- `Route`. -/
def routeClass : MappedClass String Route := ⟨routeModel, _, routeModel_lawful⟩

/-- `Stop`. -/
def stopClass (isPoint : Stats.XFloat → Stats.XFloat → Bool) : MappedClass String Stop :=
  ⟨stopModel isPoint, _, stopModel_lawful isPoint⟩

/-- `Trip`. -/
def tripClass : MappedClass String Trip := ⟨tripModel, _, tripModel_lawful⟩

/-- `Calendar`. -/
def calendarClass : MappedClass String Calendar := ⟨calendarModel, _, calendarModel_lawful⟩

/-- `CalendarDate`. -/
def calendarDateClass : MappedClass (String × PyTime.Date) CalendarDate :=
  ⟨calendarDateModel, _, calendarDateModel_lawful⟩

/-- The ingest upserts these six classes, and fills `stop_times` after them. -/
theorem ingestFrames_classes (isPoint : Stats.XFloat → Stats.XFloat → Bool)
    (faults : Faults StaticError) (frames : Frames) :
    ingestFrames isPoint faults frames = (do
      load faults agencyClass.toTableModel (each agencyRow) frames.agency
      load faults routeClass.toTableModel (each routeRow) frames.routes
      load faults (stopClass isPoint).toTableModel stopRow frames.stops
      load faults tripClass.toTableModel (each tripRow) frames.trips
      load faults calendarClass.toTableModel (each calendarRow) frames.calendar
      match frames.calendarDates with
      | some records => load faults calendarDateClass.toTableModel (each calendarDateRow) records
      | none => pure ()
      replaceStopTimes faults frames.stopTimes
      send faults .ok) := rfl

section

variable {κ ν : Type} [DecidableEq κ] (C : MappedClass κ ν) (rows : List ν)

/-- The rows one at a time, in order. -/
def upsertEach : Tx StaticError StaticDb Unit :=
  forM rows fun row => send noFaults (C.insert [row])

/-- The table of the class, as a session sees it. -/
def MappedClass.tableIn (s : Session StaticDb) : Table C.upsert :=
  C.table s.working.toStaticTables

/-- Batches of `n` rows succeed as the single rows do and leave the same database, in
which the last row of each key counts. -/
def BatchedAsEach (n : ℕ) (s : Session StaticDb) : Prop :=
  ∃ s' sₙ, upsertEach C rows s = .ok () s' ∧
    upsert noFaults C.toTableModel rows n s = .ok () sₙ ∧ sₙ.working = s'.working ∧
    ∀ k, (C.tableIn sₙ).contents k =
      (rows.filter fun v => C.upsert.key v = k).getLast?.or ((C.tableIn s).contents k)

/-- Every row fits its columns and refers to stored rows. -/
def RowsStorable (s : Session StaticDb) : Prop :=
  ∀ v ∈ rows, C.fits v = true ∧ C.refs s.working.toStaticTables v

/-- No two rows of a batch share a key. -/
def DistinctInBatches (n : ℕ) : Prop :=
  ∀ batch ∈ chunks n rows, (batch.map C.upsert.key).Nodup

/-- The longest batch has no more arguments than a statement takes. -/
def BatchesSendable (n : ℕ) : Prop := C.columns * min n rows.length ≤ maxArguments

variable {C rows}

/-- What a list of statements requires, and what it leaves. -/
theorem sends_eq_ok_iff {cs : List (List ν)} {s : Session StaticDb} :
    (∃ s', (forM cs fun chunk => send noFaults (C.insert chunk)) s = .ok () s') ↔
      ∀ c ∈ cs, C.Accepts c ∧ ∀ v ∈ c, C.refs s.working.toStaticTables v := by
  have hsettles := (C.lawful.settles_inserts cs s).isOk_iff
  constructor
  · rintro ⟨s', hs'⟩
    have hreq := hsettles.1 ⟨((), s'), outcome_eq_ok_iff.2 hs'⟩
    intro c hc
    exact ⟨hreq .loadable c hc, hreq .linked c hc⟩
  · intro h
    obtain ⟨p, hp⟩ := hsettles.2 fun k => by
      cases k with
      | loadable => exact fun c hc => (h c hc).1
      | linked => exact fun c hc => (h c hc).2
    exact ⟨p.2, outcome_eq_ok_iff.1 hp⟩

theorem working_of_sends {cs : List (List ν)} {s s' : Session StaticDb}
    (h : (forM cs fun chunk => send noFaults (C.insert chunk)) s = .ok () s') :
    s'.working.toStaticTables =
      C.replace s.working.toStaticTables ((C.tableIn s).putAll cs.flatten) := by
  have hsettles := C.lawful.settles_inserts cs s
  rw [outcome_eq_ok_iff.2 h] at hsettles
  exact hsettles.2

theorem StaticDb.eq_of_toStaticTables {db db' : StaticDb}
    (h : db.toStaticTables = db'.toStaticTables) : db = db' := by
  cases db
  cases db'
  cases h
  rfl

/-- Single rows are batches of their own. -/
theorem upsertEach_eq :
    upsertEach C rows =
      forM (rows.map fun v => [v]) fun chunk => send noFaults (C.insert chunk) := by
  unfold upsertEach
  rw [List.forM_map]

/-- **When the single rows go through.** -/
theorem upsertEach_isOk_iff {s : Session StaticDb} :
    (∃ s', upsertEach C rows s = .ok () s') ↔ RowsStorable C rows s := by
  rw [upsertEach_eq, sends_eq_ok_iff, List.forall_mem_map]
  have hsendable : C.columns * 1 ≤ maxArguments :=
    (Nat.mul_le_mul_left _ (by omega)).trans C.lawful.sendable
  constructor
  · intro h v hv
    exact ⟨(h v hv).1.fits v (by simp), (h v hv).2 v (by simp)⟩
  · intro h v hv
    refine ⟨⟨hsendable, ?_, List.nodup_singleton _⟩, ?_⟩
    · exact List.forall_mem_singleton.2 (h v hv).1
    · exact List.forall_mem_singleton.2 (h v hv).2

/-- **When batches do.** -/
theorem upsert_isOk_iff {n : ℕ} (hn : 1 ≤ n) {s : Session StaticDb} :
    (∃ s', upsert noFaults C.toTableModel rows n s = .ok () s') ↔
      RowsStorable C rows s ∧ DistinctInBatches C rows n ∧ BatchesSendable C rows n := by
  unfold upsert
  rw [sends_eq_ok_iff]
  unfold RowsStorable DistinctInBatches BatchesSendable
  rw [← forall_mem_chunks hn (l := rows), ← forall_chunks_mul_le_iff hn]
  constructor
  · intro h
    refine ⟨?_, fun batch hbatch => (h batch hbatch).1.nodup,
      fun batch hbatch => (h batch hbatch).1.sendable⟩
    intro batch hbatch v hv
    exact ⟨(h batch hbatch).1.fits v hv, (h batch hbatch).2 v hv⟩
  · rintro ⟨hstore, hdistinct, hsendable⟩ batch hbatch
    refine ⟨⟨hsendable batch hbatch, ?_, hdistinct batch hbatch⟩, ?_⟩
    · intro v hv
      exact (hstore batch hbatch v hv).1
    · intro v hv
      exact (hstore batch hbatch v hv).2

/-- Both leave the same tables. -/
theorem working_upsert_eq {n : ℕ} (hn : 1 ≤ n) {s s' sₙ : Session StaticDb}
    (h : upsertEach C rows s = .ok () s')
    (hbatches : upsert noFaults C.toTableModel rows n s = .ok () sₙ) :
    sₙ.working = s'.working := by
  have hbatch := working_of_sends hbatches
  rw [upsertEach_eq] at h
  have heach := working_of_sends h
  rw [flatten_chunks hn] at hbatch
  rw [← List.flatMap_def, List.flatMap_singleton'] at heach
  exact StaticDb.eq_of_toStaticTables (hbatch.trans heach.symm)

/-- The last row of each key counts. -/
theorem contents_upsert {n : ℕ} (hn : 1 ≤ n) {s sₙ : Session StaticDb}
    (h : upsert noFaults C.toTableModel rows n s = .ok () sₙ) (k : κ) :
    (C.tableIn sₙ).contents k =
      (rows.filter fun v => C.upsert.key v = k).getLast?.or ((C.tableIn s).contents k) := by
  have htable : C.tableIn sₙ = (C.tableIn s).putAll rows := by
    have hworking := working_of_sends h
    rw [flatten_chunks hn] at hworking
    unfold MappedClass.tableIn
    rw [hworking, C.lawful.table_replace]
    rfl
  rw [htable]
  exact Table.contents_putAll_last _ C.lawful.replaces rows k

/-- **When batches do what single rows do.** -/
theorem batchedAsEach_iff {n : ℕ} (hn : 1 ≤ n) (s : Session StaticDb) :
    BatchedAsEach C rows n s ↔
      RowsStorable C rows s ∧ DistinctInBatches C rows n ∧ BatchesSendable C rows n := by
  constructor
  · rintro ⟨s', sₙ, -, hbatches, -⟩
    exact (upsert_isOk_iff hn).1 ⟨sₙ, hbatches⟩
  · rintro ⟨hstore, hbatches⟩
    obtain ⟨s', hs'⟩ := upsertEach_isOk_iff.2 hstore
    obtain ⟨sₙ, hsₙ⟩ := (upsert_isOk_iff hn).2 ⟨hstore, hbatches⟩
    exact ⟨s', sₙ, hs', hsₙ, working_upsert_eq hn hs' hsₙ, contents_upsert hn hsₙ⟩

end

/-! ## Two rows with one key -/

/-- Two agencies of a feed that gives neither an id. -/
def twoAgencies : List Agency :=
  [{ agencyId := "default", name := "City Bus", url := none, timezone := "Australia/Brisbane" },
    { agencyId := "default", name := "City Ferry", url := none, timezone := "Australia/Brisbane" }]

theorem twoAgencies_storable (s : Session StaticDb) : RowsStorable agencyClass twoAgencies s := by
  intro v hv
  refine ⟨?_, trivial⟩
  revert v
  decide

/-- One batch of both is refused. -/
theorem twoAgencies_refused :
    ¬ BatchedAsEach agencyClass twoAgencies 2 (Session.start StaticDb.empty) := by
  rintro ⟨-, sₙ, -, hbatch, -⟩
  have hdistinct := ((upsert_isOk_iff (C := agencyClass) (by decide)).1 ⟨sₙ, hbatch⟩).2.1
  revert hdistinct
  unfold DistinctInBatches
  decide

/-- The same two rows, in a batch each. -/
theorem twoAgencies_apart :
    BatchedAsEach agencyClass twoAgencies 1 (Session.start StaticDb.empty) := by
  refine (batchedAsEach_iff (by decide) _).2 ⟨twoAgencies_storable _, ?_, ?_⟩
  · unfold DistinctInBatches
    decide
  · unfold BatchesSendable
    decide

end DelayPredictor
