import DelayPredictor.Lib.Batches
import DelayPredictor.Lib.Raising
import DelayPredictor.Lib.Transaction
import DelayPredictor.StaticFeed

/-!
# Ingesting the static feed

`app/services/gtfs_static.py`: one transaction that upserts six tables batch by
batch, wipes `stop_times` and fills it again chunk by chunk.

* `TableModel` — a mapped class; `upsert` — `_upsert` for any of them.
* `ingestFrames`, `ingestStaticFeed` — `_ingest_frames` and `ingest_static_feed`.
* `ingestStaticFeed_replaces` — **the ingest replaces `stop_times` exactly, or
  changes nothing**, wherever it raises.
-/

namespace DelayPredictor

open Batches Keyed Raising Transaction Stats

/-! ## Statements -/

/-- A mapped class: the number of columns a row states, its conflict key and updates,
its table, and what its columns take. -/
structure TableModel (κ ν : Type) [DecidableEq κ] where
  columns : ℕ
  upsert : Upsert κ ν
  table : StaticTables → Table upsert
  replace : StaticTables → Table upsert → StaticTables
  fits : ν → Bool

/-- `Agency`. -/
def agencyModel : TableModel String Agency where
  columns := 4
  upsert := Agency.upsert
  table := StaticTables.agencies
  replace T t := { T with agencies := t }
  fits := Agency.fits

/-- `Route`. -/
def routeModel : TableModel String Route where
  columns := 7
  upsert := Route.upsert
  table := StaticTables.routes
  replace T t := { T with routes := t }
  fits := Route.fits

/-- `Stop`. -/
def stopModel (isPoint : XFloat → XFloat → Bool) : TableModel String Stop where
  columns := 10
  upsert := Stop.upsert
  table := StaticTables.stops
  replace T t := { T with stops := t }
  fits := Stop.fits isPoint

/-- `Trip`. -/
def tripModel : TableModel String Trip where
  columns := 8
  upsert := Trip.upsert
  table := StaticTables.trips
  replace T t := { T with trips := t }
  fits := Trip.fits

/-- `Calendar`. -/
def calendarModel : TableModel String Calendar where
  columns := 10
  upsert := Calendar.upsert
  table := StaticTables.calendar
  replace T t := { T with calendar := t }
  fits := Calendar.fits

/-- `CalendarDate`. -/
def calendarDateModel : TableModel (String × PyTime.Date) CalendarDate where
  columns := 3
  upsert := CalendarDate.upsert
  table := StaticTables.calendarDates
  replace T t := { T with calendarDates := t }
  fits := CalendarDate.fits

/-- `pg_insert(model).values(chunk).on_conflict_do_update(…)`: one statement, with an
argument for every column of every row. -/
def TableModel.insert {κ ν : Type} [DecidableEq κ] (M : TableModel κ ν) (chunk : List ν)
    (db : StaticDb) : Except DbError StaticDb :=
  if M.columns * chunk.length ≤ maxArguments then
    if chunk.all M.fits then
      match (M.table db.toStaticTables).upsert chunk with
      | some table => StaticDb.check (M.replace db.toStaticTables table)
      | none => .error .cardinalityViolation
    else .error .dataError
  else .error .interfaceError

/-- `delete(StopTime)`. -/
def deleteStopTimes (db : StaticDb) : Except DbError StaticDb :=
  .ok { db with
    stopTimes := Table.empty
    linked := { db.linked with
      stopTime_trip := refers_empty _ _
      stopTime_stop := refers_empty _ _ } }

/-- One row of `StopTime.__table__.insert()`. -/
def insertStopTime (db : StaticDb) (r : StopTime) : Except DbError StaticDb :=
  if r.fits then
    if StopTime.upsert.key r ∈ db.stopTimes.keys then .error .uniqueViolation
    else StaticDb.check { db.toStaticTables with stopTimes := db.stopTimes.put r }
  else .error .dataError

/-- `StopTime.__table__.insert()` with a list of rows, which inserts them one by
one. -/
def insertStopTimes (chunk : List StopTime) (db : StaticDb) : Except DbError StaticDb :=
  chunk.foldlM insertStopTime db

/-! ## The transaction -/

section

variable (isPoint : XFloat → XFloat → Bool) (faults : Faults StaticError)

/-- `session.execute`. -/
def send (statement : StaticDb → Except DbError StaticDb) : Tx StaticError StaticDb Unit :=
  execute faults fun db => (statement db).mapError .statement

/-- `_upsert`; no rows are no batches. -/
def upsert {κ ν : Type} [DecidableEq κ] (M : TableModel κ ν) (rows : List ν) (batchSize : ℕ) :
    Tx StaticError StaticDb Unit :=
  forM (chunks batchSize rows) fun chunk => send faults (M.insert chunk)

/-- The rows a loop over the records of a file appends. -/
def rowsOf {ν : Type} (body : Record → Except PyError (Option ν)) (records : List Record) :
    Tx StaticError StaticDb (List ν) :=
  raising ((collect body records).mapError .conversion)

/-- A body that skips no record. -/
def each {ν : Type} (body : Record → Except PyError ν) (row : Record) :
    Except PyError (Option ν) := (body row).map some

/-- Convert the records of a file, then upsert the rows. -/
def load {κ ν : Type} [DecidableEq κ] (M : TableModel κ ν)
    (body : Record → Except PyError (Option ν)) (records : List Record) :
    Tx StaticError StaticDb Unit := do
  let rows ← rowsOf body records
  upsert faults M rows 1000

/-- The part on `stop_times.txt`: the wipe comes before the conversion. -/
def replaceStopTimes (records : List Record) : Tx StaticError StaticDb Unit := do
  send faults deleteStopTimes
  let stopTimes ← rowsOf stopTimeRow records
  forM (chunks 5000 stopTimes) fun chunk => send faults (insertStopTimes chunk)

/-- `_ingest_frames`. -/
def ingestFrames (frames : Frames) : Tx StaticError StaticDb Unit := do
  load faults agencyModel (each agencyRow) frames.agency
  load faults routeModel (each routeRow) frames.routes
  load faults (stopModel isPoint) stopRow frames.stops
  load faults tripModel (each tripRow) frames.trips
  load faults calendarModel (each calendarRow) frames.calendar
  match frames.calendarDates with
  | some records => load faults calendarDateModel (each calendarDateRow) records
  | none => pure ()
  replaceStopTimes faults frames.stopTimes
  -- `ANALYZE` touches no row.
  send faults .ok

/-- `ingest_static_feed`, from the archive it downloads. -/
def ingestStaticFeed (payload : Except StaticError Archive) (db : StaticDb) :
    Except StaticError Unit × StaticDb :=
  match payload >>= parseZip with
  | .ok frames => run faults (ingestFrames isPoint faults frames) db
  | .error e => (.error e, db)

end

/-! ## What is left to `session_scope` -/

theorem leavesCommitted_send (faults : Faults StaticError)
    (statement : StaticDb → Except DbError StaticDb) : LeavesCommitted (send faults statement) :=
  leavesCommitted_execute _ _

theorem leavesCommitted_load {κ ν : Type} [DecidableEq κ] (faults : Faults StaticError)
    (M : TableModel κ ν) (body : Record → Except PyError (Option ν)) (records : List Record) :
    LeavesCommitted (load faults M body records) :=
  (leavesCommitted_raising _).bind fun _ =>
    leavesCommitted_forM (fun _ => leavesCommitted_send _ _) _

theorem leavesCommitted_replaceStopTimes (faults : Faults StaticError) (records : List Record) :
    LeavesCommitted (replaceStopTimes faults records) :=
  (leavesCommitted_send _ _).bind fun _ => (leavesCommitted_raising _).bind fun _ =>
    leavesCommitted_forM (fun _ => leavesCommitted_send _ _) _

/-- Nothing in the ingest commits. -/
theorem leavesCommitted_ingestFrames (isPoint : XFloat → XFloat → Bool)
    (faults : Faults StaticError) (frames : Frames) :
    LeavesCommitted (ingestFrames isPoint faults frames) := by
  refine (leavesCommitted_load _ _ _ _).bind fun _ => (leavesCommitted_load _ _ _ _).bind fun _ =>
    (leavesCommitted_load _ _ _ _).bind fun _ => (leavesCommitted_load _ _ _ _).bind fun _ =>
    (leavesCommitted_load _ _ _ _).bind fun _ => ?_
  have htail : LeavesCommitted (do
      replaceStopTimes faults frames.stopTimes
      send faults .ok) :=
    (leavesCommitted_replaceStopTimes _ _).bind fun _ => leavesCommitted_send _ _
  cases frames.calendarDates with
  | none => exact htail
  | some records => exact (leavesCommitted_load _ _ _ _).bind fun _ => htail

/-! ## What `stop_times` holds afterwards -/

theorem StaticDb.toStaticTables_of_check {T : StaticTables} {db : StaticDb}
    (h : StaticDb.check T = .ok db) : db.toStaticTables = T := by
  unfold check at h
  split at h
  · cases h
    rfl
  · cases h

theorem insertStopTime_eq_ok {db db' : StaticDb} {r : StopTime}
    (h : insertStopTime db r = .ok db') : db'.stopTimes.data = db.stopTimes.data ++ [r] := by
  unfold insertStopTime at h
  split at h
  · split at h
    · cases h
    · rename_i hkey
      rw [StaticDb.toStaticTables_of_check h]
      exact Table.data_put hkey
  · cases h

/-- Inserted rows come after the stored ones, in order. -/
theorem insertStopTimes_eq_ok {chunk : List StopTime} {db db' : StaticDb}
    (h : insertStopTimes chunk db = .ok db') :
    db'.stopTimes.data = db.stopTimes.data ++ chunk := by
  induction chunk generalizing db with
  | nil =>
    cases h
    simp
  | cons r rs ih =>
    obtain ⟨db₁, h₁, h₂⟩ := bind_eq_ok_iff.1 h
    rw [ih h₂, insertStopTime_eq_ok h₁]
    simp

/-- Nothing is said of how the code ends. -/
theorem post_any {α : Type} (m : Tx StaticError StaticDb α) (s : Session StaticDb) :
    Post m (fun _ _ => True) (fun _ _ => True) s := by
  unfold Post
  split <;> trivial

theorem post_send {faults : Faults StaticError} {statement : StaticDb → Except DbError StaticDb}
    {Q : Unit → Session StaticDb → Prop} {s : Session StaticDb}
    (h : ∀ w, statement s.working = .ok w → Q () (s.wrote w)) :
    Post (send faults statement) Q (fun _ _ => True) s :=
  post_execute (fun w hw => h w (mapError_eq_ok_iff.1 hw)) fun _ => trivial

/-- The rows a session's working copy holds in `stop_times`. -/
abbrev stopTimesIn (s : Session StaticDb) : List StopTime := s.working.stopTimes.data

/-- **The wipe and the chunks together** leave the rows of the records, in
order, and none of the earlier ones. -/
theorem post_replaceStopTimes (faults : Faults StaticError) (records : List Record)
    (s : Session StaticDb) :
    Post (replaceStopTimes faults records)
      (fun _ s' => collect stopTimeRow records = .ok (stopTimesIn s')) (fun _ _ => True) s := by
  apply post_bind
  apply post_send
  intro w hw
  have hempty : w.stopTimes.data = [] := by
    cases hw
    rfl
  refine post_bind (post_raising (fun rows hrows => ?_) fun _ _ => trivial)
  have hcollect : collect stopTimeRow records = .ok rows := mapError_eq_ok_iff.1 hrows
  refine post_forM (I := fun cs s' => stopTimesIn s' ++ cs.flatten = rows) ?_ ?_ ?_
  · intro chunk cs s' h
    apply post_send
    intro w' hw'
    show w'.stopTimes.data ++ cs.flatten = rows
    rw [insertStopTimes_eq_ok hw', ← h]
    simp
  · intro s' h
    rw [hcollect, ← h]
    simp
  · show w.stopTimes.data ++ (chunks 5000 rows).flatten = rows
    rw [hempty, flatten_chunks (by omega)]
    rfl

/-- What the ingest leaves in `stop_times` when it ends normally. -/
theorem post_ingestFrames (isPoint : XFloat → XFloat → Bool) (faults : Faults StaticError)
    (frames : Frames) (s : Session StaticDb) :
    Post (ingestFrames isPoint faults frames)
      (fun _ s' => collect stopTimeRow frames.stopTimes = .ok (stopTimesIn s'))
      (fun _ _ => True) s := by
  have htail : ∀ s, Post (do
      replaceStopTimes faults frames.stopTimes
      send faults .ok) (fun _ s' => collect stopTimeRow frames.stopTimes = .ok (stopTimesIn s'))
      (fun _ _ => True) s := by
    intro s
    refine post_bind ((post_replaceStopTimes faults frames.stopTimes s).imp ?_ fun _ _ h => h)
    intro _ s' h
    apply post_send
    intro w hw
    cases hw
    exact h
  have hskip : ∀ {m : Tx StaticError StaticDb Unit} {f : Unit → Tx StaticError StaticDb Unit}
      {Q : Unit → Session StaticDb → Prop},
      (∀ s, Post (f ()) Q (fun _ _ => True) s) → ∀ s, Post (m >>= f) Q (fun _ _ => True) s :=
    fun hf s => post_bind ((post_any _ s).imp (fun _ s' _ => hf s') fun _ _ h => h)
  refine hskip (hskip (hskip (hskip (hskip ?_)))) s
  intro s
  cases frames.calendarDates with
  | none => exact htail s
  | some records => exact hskip htail s

theorem stopTimeRow_isSome {row : Record} {r : Option StopTime} (h : stopTimeRow row = .ok r) :
    r.isSome = row.timed := by
  unfold stopTimeRow at h
  by_cases ht : row.timed = true
  · rw [if_pos ht] at h
    obtain ⟨v, -, rfl⟩ := map_eq_ok_iff.1 h
    exact ht.symm
  · rw [if_neg ht] at h
    cases h
    simp [ht]

theorem stopTimeRow_eq_some {row : Record} {r : StopTime} (h : stopTimeRow row = .ok (some r)) :
    stopTimeOf row = .ok r := by
  unfold stopTimeRow at h
  split at h
  · obtain ⟨v, hv, hr⟩ := map_eq_ok_iff.1 h
    rw [hv, Option.some.inj hr]
  · cases h

/-- **The ingest replaces `stop_times` exactly, or changes nothing.**  If it
commits, `stop_times` holds one row for each record with two times, in order,
and no other; if it raises, wherever it does, every table is as it was. -/
theorem ingestStaticFeed_replaces (isPoint : XFloat → XFloat → Bool) (faults : Faults StaticError)
    (payload : Except StaticError Archive) (db : StaticDb) :
    match ingestStaticFeed isPoint faults payload db with
    | (.ok _, db') => ∃ frames, payload >>= parseZip = .ok frames ∧
        List.Forall₂ (fun row r => stopTimeOf row = .ok r) (frames.stopTimes.filter Record.timed)
          db'.stopTimes.data
    | (.error _, db') => db' = db := by
  unfold ingestStaticFeed
  cases hframes : payload >>= parseZip with
  | error e => rfl
  | ok frames =>
    show match run faults (ingestFrames isPoint faults frames) db with
      | (.ok _, db') => _
      | (.error _, db') => _
    rcases hrun : run faults (ingestFrames isPoint faults frames) db with ⟨result, db'⟩
    cases result with
    | error e => exact run_error (leavesCommitted_ingestFrames _ _ _) hrun
    | ok _ =>
      obtain ⟨s, hs, rfl⟩ := run_ok hrun
      have hrows := (post_ingestFrames isPoint faults frames _).of_ok hs
      exact ⟨frames, rfl, (forall₂_collect (fun _ _ => stopTimeRow_isSome) hrows).imp
        fun _ _ => stopTimeRow_eq_some⟩

end DelayPredictor
