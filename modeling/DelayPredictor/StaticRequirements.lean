import DelayPredictor.StaticIngest

/-!
# What the static ingest requires

Part by part, what the database requires of the records an ingest reads.

* `Requirement` — records must be loadable and rows linked; `requirement` tells
  which of the two an exception says is not so.
* `TableModel.Lawful` — what an upsert of a mapped class does to the foreign
  keys: it keeps those of other tables, and its own exactly when the proposed
  rows refer to stored ones.
* `settles_load` — **what loading a file requires**, whatever its batches;
  `settles_replaceStopTimes` — the same for `stop_times.txt` and its chunks.
-/

namespace DelayPredictor

open Batches Keyed Raising Transaction Stats

/-! ## Requirements -/

/-- What the database requires of a feed. -/
inductive Requirement where
  /-- Records convert, values fit and keys do not clash. -/
  | loadable
  /-- No reference dangles. -/
  | linked
  deriving DecidableEq, Repr

/-- The requirement an exception says is not met. -/
def StaticError.requirement : StaticError → Requirement
  | .statement .foreignKeyViolation => .linked
  | _ => .loadable

/-- The two requirements, as propositions. -/
def requires (loadable linked : Prop) : Requirement → Prop
  | .loadable => loadable
  | .linked => linked

theorem requires_congr {A A' L L' : Prop} (hA : A ↔ A') (hL : L ↔ L') (k : Requirement) :
    requires A L k ↔ requires A' L' k := by
  cases k with
  | loadable => exact hA
  | linked => exact hL

section Sequence

variable {ε α β : Type} {kind : ε → Requirement} {A B L M : Prop} {x : Except ε α}
  {f : α → Except ε β} {Q : α → Prop} {Q' : β → Prop}

/-- A sequence requires what its parts require. -/
theorem settles_bind (h : Settles kind (requires A L) x Q)
    (hf : ∀ a, A → L → Q a → Settles kind (requires B M) (f a) Q') :
    Settles kind (requires (A ∧ B) (L ∧ M)) (x >>= f) Q' := by
  refine (h.bind fun a hreq hQ => hf a (hreq .loadable) (hreq .linked) hQ).congr fun k => ?_
  cases k <;> rfl

/-- A first part may require less than the whole. -/
theorem settles_step (h : Settles kind (requires A L) x Q) (hA : B → A) (hL : M → L)
    (hf : ∀ a, A → L → Q a → Settles kind (requires B M) (f a) Q') :
    Settles kind (requires B M) (x >>= f) Q' :=
  (settles_bind h hf).congr (requires_congr (and_iff_right_of_imp hA) (and_iff_right_of_imp hL))

end Sequence

/-- The requirement a statement's exception says is not met. -/
abbrev DbError.requirement (e : DbError) : Requirement := (StaticError.statement e).requirement

theorem StaticDb.settles_check (T : StaticTables) :
    Settles DbError.requirement (requires True T.Linked) (StaticDb.check T)
      (fun db => db.toStaticTables = T) := by
  unfold check
  split
  · rename_i h
    exact ⟨fun k => by cases k <;> trivial, rfl⟩
  · rename_i h
    exact h

/-! ## Upserts -/

/-- The laws of a mapped class whose rows have the foreign keys `refs`. -/
structure TableModel.Lawful {κ ν : Type} [DecidableEq κ] (M : TableModel κ ν)
    (refs : StaticTables → ν → Prop) : Prop where
  /-- A batch of the default size can be sent. -/
  sendable : M.columns * 1000 ≤ maxArguments
  replaces : M.upsert.Replaces
  table_replace : ∀ T t, M.table (M.replace T t) = t
  replace_table : ∀ T, M.replace T (M.table T) = T
  replace_replace : ∀ T t t', M.replace (M.replace T t) t' = M.replace T t'
  refs_replace : ∀ T t, refs (M.replace T t) = refs T
  /-- No other table's references are lost. -/
  linked_iff : ∀ {T : StaticTables}, T.Linked → ∀ {vs}, (vs.map M.upsert.key).Nodup →
    ((M.replace T ((M.table T).putAll vs)).Linked ↔ ∀ v ∈ vs, refs T v)

/-- The foreign key of a route. -/
def Route.refs (T : StaticTables) (v : Route) : Prop := ∀ k ∈ v.agencyId, k ∈ T.agencies.keys

/-- The foreign key of a trip. -/
def Trip.refs (T : StaticTables) (v : Trip) : Prop := v.routeId ∈ T.routes.keys

/-- The foreign keys of a stop time. -/
def StopTime.refs (T : StaticTables) (v : StopTime) : Prop :=
  v.tripId ∈ T.trips.keys ∧ v.stopId ∈ T.stops.keys

theorem Agency.upsert_replaces : Agency.upsert.Replaces := fun d v h => by
  show { v with agencyId := d.agencyId } = v
  rw [show d.agencyId = v.agencyId from h]

theorem Route.upsert_replaces : Route.upsert.Replaces := fun d v h => by
  show { v with routeId := d.routeId } = v
  rw [show d.routeId = v.routeId from h]

theorem Stop.upsert_replaces : Stop.upsert.Replaces := fun d v h => by
  show { v with stopId := d.stopId } = v
  rw [show d.stopId = v.stopId from h]

theorem Trip.upsert_replaces : Trip.upsert.Replaces := fun d v h => by
  show { v with tripId := d.tripId } = v
  rw [show d.tripId = v.tripId from h]

theorem Calendar.upsert_replaces : Calendar.upsert.Replaces := fun d v h => by
  show { v with serviceId := d.serviceId } = v
  rw [show d.serviceId = v.serviceId from h]

theorem CalendarDate.upsert_replaces : CalendarDate.upsert.Replaces := fun d v h => by
  obtain ⟨hservice, hdate⟩ := Prod.mk.inj h
  show { v with serviceId := d.serviceId, date := d.date } = v
  rw [hservice, hdate]

theorem agencyModel_lawful : agencyModel.Lawful fun _ _ => True where
  sendable := by decide
  replaces := Agency.upsert_replaces
  table_replace _ _ := rfl
  replace_table _ := rfl
  replace_replace _ _ _ := rfl
  refs_replace _ _ := rfl
  linked_iff h vs _ :=
    iff_of_true { h with route_agency := h.route_agency.putAll_parent vs } fun _ _ => trivial

theorem routeModel_lawful : routeModel.Lawful Route.refs where
  sendable := by decide
  replaces := Route.upsert_replaces
  table_replace _ _ := rfl
  replace_table _ := rfl
  replace_replace _ _ _ := rfl
  refs_replace _ _ := rfl
  linked_iff h vs hnd := by
    have hiff := refers_putAll_iff h.route_agency Route.upsert_replaces hnd
    constructor
    · intro h'
      exact hiff.1 h'.route_agency
    · intro hrefs
      exact { h with
        route_agency := hiff.2 hrefs
        trip_route := h.trip_route.putAll_parent vs }

theorem stopModel_lawful (isPoint : XFloat → XFloat → Bool) :
    (stopModel isPoint).Lawful fun _ _ => True where
  sendable := (by decide : 10 * 1000 ≤ maxArguments)
  replaces := Stop.upsert_replaces
  table_replace _ _ := rfl
  replace_table _ := rfl
  replace_replace _ _ _ := rfl
  refs_replace _ _ := rfl
  linked_iff h vs _ :=
    iff_of_true { h with stopTime_stop := h.stopTime_stop.putAll_parent vs } fun _ _ => trivial

theorem tripModel_lawful : tripModel.Lawful Trip.refs where
  sendable := by decide
  replaces := Trip.upsert_replaces
  table_replace _ _ := rfl
  replace_table _ := rfl
  replace_replace _ _ _ := rfl
  refs_replace _ _ := rfl
  linked_iff {T} h vs hnd := by
    have hiff := refers_putAll_iff h.trip_route Trip.upsert_replaces hnd
    constructor
    · intro h' v hv
      exact hiff.1 h'.trip_route v hv _ rfl
    · intro hrefs
      have htrip : ∀ v ∈ vs, ∀ k ∈ some v.routeId, k ∈ T.routes.keys := by
        intro v hv k hk
        obtain rfl := Option.some.inj hk
        exact hrefs v hv
      exact { h with
        trip_route := hiff.2 htrip
        stopTime_trip := h.stopTime_trip.putAll_parent vs }

theorem calendarModel_lawful : calendarModel.Lawful fun _ _ => True where
  sendable := by decide
  replaces := Calendar.upsert_replaces
  table_replace _ _ := rfl
  replace_table _ := rfl
  replace_replace _ _ _ := rfl
  refs_replace _ _ := rfl
  linked_iff h _ _ := iff_of_true { h with } fun _ _ => trivial

theorem calendarDateModel_lawful : calendarDateModel.Lawful fun _ _ => True where
  sendable := by decide
  replaces := CalendarDate.upsert_replaces
  table_replace _ _ := rfl
  replace_table _ := rfl
  replace_replace _ _ _ := rfl
  refs_replace _ _ := rfl
  linked_iff h _ _ := iff_of_true { h with } fun _ _ => trivial

section Upsert

variable {κ ν : Type} [DecidableEq κ] {M : TableModel κ ν} {refs : StaticTables → ν → Prop}

/-- The rows of one statement are not too many, fit and have distinct keys. -/
structure TableModel.Accepts (M : TableModel κ ν) (chunk : List ν) : Prop where
  sendable : M.columns * chunk.length ≤ maxArguments
  fits : ∀ v ∈ chunk, M.fits v = true
  nodup : (chunk.map M.upsert.key).Nodup

/-- **What one statement requires**, and what it leaves. -/
theorem TableModel.Lawful.settles_insert (hM : M.Lawful refs) (chunk : List ν) (db : StaticDb) :
    Settles DbError.requirement
      (requires (M.Accepts chunk) (∀ v ∈ chunk, refs db.toStaticTables v)) (M.insert chunk db)
      (fun db' => db'.toStaticTables =
        M.replace db.toStaticTables ((M.table db.toStaticTables).putAll chunk)) := by
  unfold insert
  by_cases hsend : M.columns * chunk.length ≤ maxArguments
  · rw [if_pos hsend]
    by_cases hfits : chunk.all M.fits = true
    · rw [if_pos hfits]
      rw [List.all_eq_true] at hfits
      unfold Table.upsert
      by_cases hnd : (chunk.map M.upsert.key).Nodup
      · rw [if_pos hnd]
        refine (StaticDb.settles_check _).congr (requires_congr ?_ (hM.linked_iff db.linked hnd))
        exact iff_of_true trivial ⟨hsend, hfits, hnd⟩
      · rw [if_neg hnd]
        exact fun h => hnd h.nodup
    · rw [if_neg hfits]
      intro h
      exact hfits (List.all_eq_true.2 h.fits)
  · rw [if_neg hsend]
    exact fun h => hsend h.sendable

/-- A statement sent in a session nothing interferes with. -/
theorem settles_send {statement : StaticDb → Except DbError StaticDb} {s : Session StaticDb}
    {req : Requirement → Prop} {Q : StaticTables → Prop}
    (h : Settles DbError.requirement req (statement s.working) fun db => Q db.toStaticTables) :
    Settles StaticError.requirement req (outcome (send noFaults statement) s)
      fun p => Q p.2.working.toStaticTables := by
  have hmapped : Settles StaticError.requirement req
      ((statement s.working).mapError .statement) (fun db => Q db.toStaticTables) :=
    Settles.mapError (f := StaticError.statement) h
  unfold send
  rw [outcome_execute]
  exact hmapped.map fun _ hQ => hQ

/-- What a list of statements requires. -/
theorem TableModel.Lawful.settles_inserts (hM : M.Lawful refs) (cs : List (List ν))
    (s : Session StaticDb) :
    Settles StaticError.requirement
      (requires (∀ c ∈ cs, M.Accepts c) (∀ c ∈ cs, ∀ v ∈ c, refs s.working.toStaticTables v))
      (outcome (forM cs fun chunk => send noFaults (M.insert chunk)) s)
      (fun p => p.2.working.toStaticTables = M.replace s.working.toStaticTables
        ((M.table s.working.toStaticTables).putAll cs.flatten)) := by
  induction cs generalizing s with
  | nil =>
    constructor
    · intro k
      cases k <;> simp [requires]
    · exact (hM.replace_table _).symm
  | cons c cs ih =>
    rw [List.forM_cons, outcome_bind]
    have hc := settles_send (Q := fun T => T = M.replace s.working.toStaticTables
      ((M.table s.working.toStaticTables).putAll c)) (hM.settles_insert c s.working)
    have hseq := settles_bind hc (f := fun p => outcome (forM cs fun chunk =>
      send noFaults (M.insert chunk)) p.2) fun p _ _ hp => by
        have hcs := ih p.2
        rw [hp, hM.table_replace, hM.replace_replace, hM.refs_replace, ← Table.putAll_append] at hcs
        exact hcs
    refine hseq.congr (requires_congr List.forall_mem_cons.symm ?_)
    rw [List.forall_mem_cons]

/-! ## What a file requires -/

/-- The records of a file can be loaded: they convert to rows that fit, and the
keys of the kept ones do not repeat within a batch. -/
def Loads (fits : ν → Bool) (body : Record → Except PyError (Option ν)) (kept : Record → Bool)
    (key : Record → Option κ) (records : List Record) : Prop :=
  (∀ row ∈ records, ∃ r, body row = .ok r ∧ ∀ v, r = some v → fits v = true) ∧
    ∀ batch ∈ chunks 1000 (records.filter kept), (batch.map key).Nodup

/-- A loop over records, in terms of the records: which ones it keeps, and the
keys of their rows. -/
structure Reads (body : Record → Except PyError (Option ν)) (kept : Record → Bool)
    (rowKey : ν → κ) (key : Record → Option κ) : Prop where
  kept_iff : ∀ {row r}, body row = .ok r → r.isSome = kept row
  key_eq : ∀ {row v}, body row = .ok (some v) → key row = some (rowKey v)

omit [DecidableEq κ] in
theorem nodup_map_some_iff {rowKey : ν → κ} {vs : List ν} :
    (vs.map fun v => some (rowKey v)).Nodup ↔ (vs.map rowKey).Nodup := by
  have hmap : (vs.map fun v => some (rowKey v)) = (vs.map rowKey).map some := by simp
  rw [hmap, List.nodup_map_iff (Option.some_injective κ)]

section Reads

variable {body : Record → Except PyError (Option ν)} {kept : Record → Bool} {rowKey : ν → κ}
  {key : Record → Option κ} {records : List Record} {rows : List ν}

omit [DecidableEq κ] in
/-- The rows are those of the kept records, in order. -/
theorem Reads.forall₂ (hbody : Reads body kept rowKey key) (h : collect body records = .ok rows) :
    List.Forall₂ (fun row v => body row = .ok (some v)) (records.filter kept) rows :=
  forall₂_collect (fun _ _ => hbody.kept_iff) h

omit [DecidableEq κ] in
/-- The keys of the rows are those of the kept records. -/
theorem Reads.keys_eq (hbody : Reads body kept rowKey key) (h : collect body records = .ok rows) :
    (records.filter kept).map key = rows.map fun v => some (rowKey v) :=
  map_eq_of_forall₂ (hbody.forall₂ h) fun _ _ => hbody.key_eq

end Reads

/-- Rows are accepted in batches of the default size exactly when they fit and no key
repeats within a batch. -/
theorem TableModel.Lawful.accepts_chunks_iff (hM : M.Lawful refs) {rows : List ν} :
    (∀ c ∈ chunks 1000 rows, M.Accepts c) ↔
      (∀ v ∈ rows, M.fits v = true) ∧ ∀ c ∈ chunks 1000 rows, (c.map M.upsert.key).Nodup := by
  rw [← forall_mem_chunks (by omega : 0 < 1000) (l := rows)]
  constructor
  · intro h
    exact ⟨fun c hc => (h c hc).fits, fun c hc => (h c hc).nodup⟩
  · rintro ⟨hfits, hnodup⟩ c hc
    refine ⟨?_, hfits c hc, hnodup c hc⟩
    have hlength : c.length ≤ 1000 := (length_le_of_mem_chunks hc).trans (min_le_left _ _)
    exact (Nat.mul_le_mul_left _ hlength).trans hM.sendable

/-- The rows of a file are accepted exactly when its records load. -/
theorem Reads.accepts_iff (hM : M.Lawful refs) {body : Record → Except PyError (Option ν)}
    {kept : Record → Bool} {key : Record → Option κ} (hbody : Reads body kept M.upsert.key key)
    {records : List Record} {rows : List ν} (h : collect body records = .ok rows) :
    (∀ c ∈ chunks 1000 rows, M.Accepts c) ↔ Loads M.fits body kept key records := by
  have hkeys := hbody.keys_eq h
  have hfits := forall_mem_collect_iff (P := fun v => M.fits v = true) h
  have hnd : (∀ c ∈ chunks 1000 rows, (c.map M.upsert.key).Nodup) ↔
      ∀ batch ∈ chunks 1000 (records.filter kept), (batch.map key).Nodup := by
    rw [← @forall_chunks_map _ _ key 1000 _ List.Nodup, hkeys, forall_chunks_map]
    simp only [nodup_map_some_iff]
  rw [hM.accepts_chunks_iff, Loads, hfits, hnd]

omit [DecidableEq κ] in
/-- The loop over the records requires that they convert. -/
theorem settles_rowsOf (body : Record → Except PyError (Option ν)) (records : List Record)
    (s : Session StaticDb) :
    Settles StaticError.requirement (requires (∀ row ∈ records, ∃ r, body row = .ok r) True)
      (outcome (rowsOf body records) s)
      (fun p => collect body records = .ok p.1 ∧ p.2 = s) := by
  unfold rowsOf
  rw [outcome_raising]
  cases hc : collect body records with
  | ok rows =>
    refine ⟨?_, rfl, rfl⟩
    intro k
    cases k with
    | loadable => exact collect_isOk_iff.1 ⟨rows, hc⟩
    | linked => trivial
  | error e =>
    intro hconvert
    obtain ⟨rows, hrows⟩ := collect_isOk_iff.2 hconvert
    rw [hc] at hrows
    cases hrows

/-- **What loading a file requires**, and what it leaves. -/
theorem settles_load (hM : M.Lawful refs) {body : Record → Except PyError (Option ν)}
    {kept : Record → Bool} {key : Record → Option κ} (hbody : Reads body kept M.upsert.key key)
    {L : Prop} {records : List Record} {s : Session StaticDb}
    (hL : ∀ rows, List.Forall₂ (fun row v => body row = .ok (some v)) (records.filter kept) rows →
      ((∀ v ∈ rows, refs s.working.toStaticTables v) ↔ L)) :
    Settles StaticError.requirement (requires (Loads M.fits body kept key records) L)
      (outcome (load noFaults M body records) s)
      (fun p => ∃ table, p.2.working.toStaticTables = M.replace s.working.toStaticTables table ∧
        ∀ k, k ∈ table.keys ↔ k ∈ (M.table s.working.toStaticTables).keys ∨
          some k ∈ (records.filter kept).map key) := by
  unfold load
  rw [outcome_bind]
  refine settles_step (settles_rowsOf body records s)
    (fun h row hrow => (h.1 row hrow).imp fun _ hr => hr.1) (fun _ => trivial) ?_
  intro p _ _ hp
  obtain ⟨hc, rfl⟩ := hp
  have hrows := hbody.forall₂ hc
  have hkeys := hbody.keys_eq hc
  have hup := hM.settles_inserts (chunks 1000 p.1) p.2
  rw [flatten_chunks (by omega), forall_mem_chunks (by omega)] at hup
  refine (hup.congr (requires_congr (hbody.accepts_iff hM hc) (hL p.1 hrows))).imp ?_
  intro q hq
  refine ⟨_, hq, ?_⟩
  intro k
  rw [Table.mem_keys_putAll, hkeys]
  simp

end Upsert

/-! ## What `stop_times.txt` requires -/

/-- Rows that fit can be inserted after others without repeating a key. -/
def Insertable (data rows : List StopTime) : Prop :=
  (∀ r ∈ rows, r.fits = true) ∧ ((data ++ rows).map StopTime.upsert.key).Nodup

theorem insertable_append (data rows rows' : List StopTime) :
    Insertable data rows ∧ Insertable (data ++ rows) rows' ↔ Insertable data (rows ++ rows') := by
  unfold Insertable
  rw [List.forall_mem_append, List.append_assoc]
  refine ⟨?_, ?_⟩
  · rintro ⟨⟨hfits, -⟩, hfits', hnd⟩
    exact ⟨⟨hfits, hfits'⟩, hnd⟩
  · rintro ⟨⟨hfits, hfits'⟩, hnd⟩
    refine ⟨⟨hfits, ?_⟩, hfits', hnd⟩
    rw [← List.append_assoc, List.map_append] at hnd
    exact (List.nodup_append.1 hnd).1

/-- The tables after rows were inserted: what `stop_times` refers to is as it
was. -/
structure Inserted (T T' : StaticTables) (rows : List StopTime) : Prop where
  trips : T'.trips = T.trips
  stops : T'.stops = T.stops
  data : T'.stopTimes.data = T.stopTimes.data ++ rows

theorem Inserted.refs_eq {T T' : StaticTables} {rows : List StopTime} (h : Inserted T T' rows) :
    StopTime.refs T' = StopTime.refs T := by
  unfold StopTime.refs
  rw [h.trips, h.stops]

theorem Inserted.trans {T T' T'' : StaticTables} {rows rows' : List StopTime}
    (h : Inserted T T' rows) (h' : Inserted T' T'' rows') : Inserted T T'' (rows ++ rows') where
  trips := h'.trips.trans h.trips
  stops := h'.stops.trans h.stops
  data := by rw [h'.data, h.data, List.append_assoc]

/-- What inserting a row requires. -/
theorem settles_insertStopTime (r : StopTime) (db : StaticDb) :
    Settles DbError.requirement
      (requires (Insertable db.stopTimes.data [r]) (∀ v ∈ [r], v.refs db.toStaticTables))
      (insertStopTime db r)
      (fun db' => Inserted db.toStaticTables db'.toStaticTables [r]) := by
  unfold insertStopTime
  by_cases hfits : r.fits = true
  · rw [if_pos hfits]
    by_cases hkey : StopTime.upsert.key r ∈ db.stopTimes.keys
    · rw [if_pos hkey]
      rintro ⟨-, hnd⟩
      rw [List.map_append, List.nodup_append, ← Table.keys_eq_map] at hnd
      exact hnd.2.2 _ hkey _ (by simp) rfl
    · rw [if_neg hkey]
      refine ((StaticDb.settles_check _).congr (requires_congr ?_ ?_)).imp ?_
      · refine iff_of_true trivial ⟨by simpa using hfits, ?_⟩
        rw [List.map_append, List.nodup_append]
        refine ⟨db.stopTimes.data_keys_nodup, by simp, ?_⟩
        rintro k hk k' hk' rfl
        rw [← Table.keys_eq_map] at hk
        rw [List.map_singleton, List.mem_singleton] at hk'
        exact hkey (hk' ▸ hk)
      · have htrip := refers_put_iff db.linked.stopTime_trip hkey
        have hstop := refers_put_iff db.linked.stopTime_stop hkey
        rw [List.forall_mem_singleton]
        constructor
        · intro h
          exact ⟨htrip.1 h.stopTime_trip _ rfl, hstop.1 h.stopTime_stop _ rfl⟩
        · rintro ⟨h₁, h₂⟩
          exact { db.linked with
            stopTime_trip := htrip.2 fun k hk => Option.some.inj hk ▸ h₁
            stopTime_stop := hstop.2 fun k hk => Option.some.inj hk ▸ h₂ }
      · intro db' hdb'
        rw [hdb']
        exact ⟨rfl, rfl, Table.data_put hkey⟩
  · rw [if_neg hfits]
    intro h
    exact hfits (h.1 r (by simp))

/-- What inserting rows one by one requires. -/
theorem settles_insertStopTimes (rows : List StopTime) (db : StaticDb) :
    Settles DbError.requirement
      (requires (Insertable db.stopTimes.data rows) (∀ v ∈ rows, v.refs db.toStaticTables))
      (insertStopTimes rows db)
      (fun db' => Inserted db.toStaticTables db'.toStaticTables rows) := by
  induction rows generalizing db with
  | nil =>
    refine ⟨?_, rfl, rfl, by simp⟩
    intro k
    cases k with
    | loadable => exact ⟨by simp, by simpa using db.stopTimes.data_keys_nodup⟩
    | linked => exact fun v hv => absurd hv (by simp)
  | cons r rows ih =>
    have hseq := settles_bind (settles_insertStopTime r db) (f := fun db' =>
      insertStopTimes rows db') fun db' _ _ h => by
        have hrows := ih db'
        rw [h.data, h.refs_eq] at hrows
        exact hrows.imp fun _ h' => h.trans h'
    exact hseq.congr (requires_congr (insertable_append _ _ _) List.forall_mem_append.symm)

/-- What inserting the chunks requires. -/
theorem settles_insertChunks (cs : List (List StopTime)) (s : Session StaticDb) :
    Settles StaticError.requirement
      (requires (Insertable s.working.stopTimes.data cs.flatten)
        (∀ v ∈ cs.flatten, v.refs s.working.toStaticTables))
      (outcome (forM cs fun chunk => send noFaults (insertStopTimes chunk)) s)
      (fun _ => True) := by
  induction cs generalizing s with
  | nil =>
    refine ⟨?_, trivial⟩
    intro k
    cases k with
    | loadable => exact ⟨by simp, by simpa using s.working.stopTimes.data_keys_nodup⟩
    | linked => exact fun v hv => absurd hv (by simp)
  | cons c cs ih =>
    rw [List.forM_cons, outcome_bind]
    have hc := settles_send (Q := fun T => Inserted s.working.toStaticTables T c)
      (settles_insertStopTimes c s.working)
    have hseq := settles_bind hc (f := fun p => outcome (forM cs fun chunk =>
      send noFaults (insertStopTimes chunk)) p.2) fun p _ _ h => by
        have hcs := ih p.2
        rw [h.data, h.refs_eq] at hcs
        exact hcs
    exact hseq.congr (requires_congr (insertable_append _ _ _) List.forall_mem_append.symm)

/-- The records of `stop_times.txt` can be loaded: they convert to rows that
fit, and no key is there twice. -/
def LoadsStopTimes (key : Record → Option (String × ℤ)) (records : List Record) : Prop :=
  (∀ row ∈ records, ∃ r, stopTimeRow row = .ok r ∧ ∀ v, r = some v → v.fits = true) ∧
    ((records.filter Record.timed).map key).Nodup

/-- The wipe requires nothing. -/
theorem settles_deleteStopTimes (s : Session StaticDb) :
    Settles StaticError.requirement (requires True True)
      (outcome (send noFaults deleteStopTimes) s)
      (fun p => p.2.working.toStaticTables =
        { s.working.toStaticTables with stopTimes := Table.empty }) :=
  settles_send (Q := fun T => T = { s.working.toStaticTables with stopTimes := Table.empty })
    ⟨fun k => by cases k <;> trivial, rfl⟩

/-- **What the part on `stop_times.txt` requires.** -/
theorem settles_replaceStopTimes {key : Record → Option (String × ℤ)}
    (hbody : Reads stopTimeRow Record.timed StopTime.upsert.key key) {L : Prop}
    {records : List Record} {s : Session StaticDb}
    (hL : ∀ rows, List.Forall₂ (fun row v => stopTimeRow row = .ok (some v))
      (records.filter Record.timed) rows →
      ((∀ v ∈ rows, v.refs s.working.toStaticTables) ↔ L)) :
    Settles StaticError.requirement (requires (LoadsStopTimes key records) L)
      (outcome (replaceStopTimes noFaults records) s) (fun _ => True) := by
  unfold replaceStopTimes
  rw [outcome_bind]
  refine settles_step (settles_deleteStopTimes s) (fun _ => trivial) (fun _ => trivial) ?_
  intro p _ _ hp
  rw [outcome_bind]
  refine settles_step (settles_rowsOf stopTimeRow records p.2)
    (fun h row hrow => (h.1 row hrow).imp fun _ hr => hr.1) (fun _ => trivial) ?_
  intro q _ _ hq
  obtain ⟨hc, hs⟩ := hq
  have hrows := hbody.forall₂ hc
  have hins := settles_insertChunks (chunks 5000 q.1) q.2
  rw [flatten_chunks (by omega), hs] at hins
  rw [hs]
  refine hins.congr (requires_congr ?_ ?_)
  · have hdata : p.2.working.stopTimes.data = [] := by rw [hp]; rfl
    unfold Insertable LoadsStopTimes
    rw [hdata, forall_mem_collect_iff hc, hbody.keys_eq hc, nodup_map_some_iff]
    rfl
  · rw [← hL q.1 hrows]
    unfold StopTime.refs
    rw [hp]

end DelayPredictor
