import DelayPredictor.Lib.Newest
import DelayPredictor.Lib.Runs
import DelayPredictor.Ingest

/-!
# The latest position of every vehicle

`list_latest_vehicle_positions` (`app/api/routes/vehicles.py`) over the table
that `ingest_vehicle_positions` appends to.

* `latestPerVehicle`, `latestPositions` — the subquery and the join on it;
  `latestPositions_eq` — **the join selects the rows that are newest for their
  vehicle**, all of them.
* `Answers` — what the endpoint may return: the selected rows in any order, cut
  off at the limit.
* `onePerVehicle_iff` — **when every vehicle is listed once, along a run**: exactly
  when no poll repeats the time a vehicle is known at, and none brings a newer
  time twice.  The table has no key that would make it so: polling an unchanged
  feed is enough to list every vehicle of it twice.
-/

namespace DelayPredictor

open Keyed Newest PyTime Runs Stats

/-! ## The query -/

/-- The subquery: the newest time of every vehicle. -/
def latestPerVehicle (rows : List VehiclePosition) : List (String × Instant) :=
  (rows.map (·.vehicleId)).dedup.filterMap fun vehicleId =>
    ((rows.filter fun r => r.vehicleId = vehicleId).map (·.recordedAt)).max?.map (vehicleId, ·)

/-- The join of the table with the subquery. -/
def latestPositions (rows : List VehiclePosition) : List VehiclePosition :=
  rows.flatMap fun r =>
    ((latestPerVehicle rows).filter fun latest =>
      r.vehicleId = latest.1 && r.recordedAt = latest.2).map fun _ => r

/-- The parameters of the endpoint.  The function is read at any limit, those out of its
`Query(ge=1, le=1000)` included. -/
structure VehicleQuery where
  routeId : Option String
  bbox : Option String
  limit : ℕ

section Query

-- What a bounding box clips to; `none` for one that is not four numbers.
variable (clip : String → Option (VehiclePosition → Bool))

/-- The rows the statement selects, before the limit; `none` when the bounding
box is refused.  An empty parameter filters nothing. -/
def selectPositions (rows : List VehiclePosition) (q : VehicleQuery) :
    Option (List VehiclePosition) := do
  let onRoute := match q.routeId with
    | none => latestPositions rows
    | some routeId =>
      if routeId = "" then latestPositions rows
      else (latestPositions rows).filter fun r => r.routeId = some routeId
  match q.bbox with
  | none => some onRoute
  | some bbox =>
    if bbox = "" then some onRoute else (clip bbox).map fun inside => onRoute.filter inside

/-- What `list_latest_vehicle_positions` may return.  The statement has no order,
so any order of the selected rows may be cut off. -/
def Answers (rows : List VehiclePosition) (q : VehicleQuery) (out : List VehiclePosition) : Prop :=
  match selectPositions clip rows q with
  | none => out = []
  | some selected => ∃ l : List VehiclePosition, l.Perm selected ∧ out = l.take q.limit

end Query

/-! ## What the join selects -/

/-- The newest row or rows of a vehicle. -/
abbrev newestOf (vehicleId : String) (rows : List VehiclePosition) : List VehiclePosition :=
  atNewest VehiclePosition.vehicleId VehiclePosition.recordedAt vehicleId rows

theorem mem_latestPerVehicle {rows : List VehiclePosition} {r : VehiclePosition} (h : r ∈ rows) :
    (r.vehicleId, r.recordedAt) ∈ latestPerVehicle rows ↔ r ∈ newestOf r.vehicleId rows := by
  rw [mem_atNewest_iff_le]
  simp only [latestPerVehicle, List.mem_filterMap, List.mem_dedup, Option.map_eq_some_iff,
    Prod.mk.injEq]
  refine ⟨?_, ?_⟩
  · rintro ⟨v, -, t, ht, rfl, rfl⟩
    refine ⟨h, fun b hb hk => ?_⟩
    exact (List.max?_eq_some_iff.1 ht).2 _ (List.mem_map_of_mem (by simpa using ⟨hb, hk⟩))
  · rintro ⟨-, hmax⟩
    refine ⟨r.vehicleId, List.mem_map_of_mem h, r.recordedAt, ?_, rfl, rfl⟩
    rw [List.max?_eq_some_iff]
    refine ⟨List.mem_map_of_mem (by simpa using h), fun t ht => ?_⟩
    obtain ⟨b, hb, rfl⟩ := List.mem_map.1 ht
    obtain ⟨hb, hk⟩ := List.mem_filter.1 hb
    exact hmax b hb (by simpa using hk)

theorem latestPerVehicle_nodup (rows : List VehiclePosition) : (latestPerVehicle rows).Nodup := by
  refine (List.nodup_dedup _).filterMap ?_
  intro v w p hv hw
  obtain ⟨t, -, rfl⟩ := Option.map_eq_some_iff.1 hv
  obtain ⟨t', -, hp⟩ := Option.map_eq_some_iff.1 hw
  exact (Prod.mk.inj hp).1.symm

/-- The join matches a row once if it is newest for its vehicle, and never if not. -/
theorem join_latestPerVehicle {rows : List VehiclePosition} {r : VehiclePosition} (hr : r ∈ rows) :
    (((latestPerVehicle rows).filter fun latest =>
      r.vehicleId = latest.1 && r.recordedAt = latest.2).map fun _ => r) =
        if r ∈ newestOf r.vehicleId rows then [r] else [] := by
  have heq : ((latestPerVehicle rows).filter fun latest =>
      r.vehicleId = latest.1 && r.recordedAt = latest.2) =
      (latestPerVehicle rows).filter fun latest => latest = (r.vehicleId, r.recordedAt) := by
    refine List.filter_congr fun latest _ => ?_
    rw [Bool.eq_iff_iff, Bool.and_eq_true, decide_eq_true_iff, decide_eq_true_iff,
      decide_eq_true_iff, Prod.ext_iff, eq_comm, @eq_comm _ latest.2]
  rw [heq, List.filter_eq]
  split
  · rename_i hnew
    rw [List.count_eq_one_of_mem (latestPerVehicle_nodup rows) ((mem_latestPerVehicle hr).2 hnew)]
    rfl
  · rename_i hold
    rw [List.count_eq_zero_of_not_mem fun h => hold ((mem_latestPerVehicle hr).1 h)]
    rfl

/-- **The join selects the rows that are newest for their vehicle**, each once. -/
theorem latestPositions_eq (rows : List VehiclePosition) :
    latestPositions rows = rows.filter fun r => r ∈ newestOf r.vehicleId rows := by
  rw [← flatMap_ite_singleton]
  exact List.flatMap_congr fun r hr => join_latestPerVehicle hr

/-- What the join selects for a vehicle. -/
theorem filter_latestPositions (rows : List VehiclePosition) (v : String) :
    ((latestPositions rows).filter fun r => r.vehicleId = v) = newestOf v rows := by
  rw [latestPositions_eq, List.filter_filter, newestOf, atNewest]
  refine List.filter_congr fun r hr => ?_
  rw [Bool.eq_iff_iff, Bool.and_eq_true, decide_eq_true_iff, decide_eq_true_iff,
    decide_eq_true_iff, mem_atNewest]
  refine ⟨?_, ?_⟩
  · rintro ⟨rfl, -, -, hn⟩
    exact ⟨rfl, hn⟩
  · rintro ⟨rfl, hn⟩
    exact ⟨rfl, hr, rfl, hn⟩

/-! ## One row for every vehicle -/

/-- Without a filter, and with a limit at least the number of vehicles, the
endpoint lists every vehicle of the table once, at its greatest time. -/
def OnePerVehicle (clip : String → Option (VehiclePosition → Bool)) (rows : List VehiclePosition) :
    Prop :=
  ∀ limit out, (rows.map (·.vehicleId)).dedup.length ≤ limit →
    Answers clip rows ⟨none, none, limit⟩ out → (∀ o ∈ out, o ∈ rows) ∧
      ∀ r ∈ rows, ∃ o, (out.filter fun o => o.vehicleId = r.vehicleId) = [o] ∧
        ∀ s ∈ rows, s.vehicleId = r.vehicleId → s.recordedAt ≤ o.recordedAt

/-- Every vehicle has a single newest row. -/
abbrev NoTies (rows : List VehiclePosition) : Prop :=
  Unrivalled VehiclePosition.vehicleId VehiclePosition.recordedAt rows

/-- Without ties the join selects no more rows than there are vehicles. -/
theorem length_latestPositions_le {rows : List VehiclePosition} (h : NoTies rows) :
    (latestPositions rows).length ≤ (rows.map (·.vehicleId)).dedup.length := by
  have hsub : ∀ r ∈ latestPositions rows, r ∈ rows := by
    intro r hr
    rw [latestPositions_eq] at hr
    exact List.mem_of_mem_filter hr
  have hnodup : ((latestPositions rows).map (·.vehicleId)).Nodup := by
    rw [List.nodup_iff_count_le_one]
    intro v
    rw [List.count_eq_countP, List.countP_map, List.countP_eq_length_filter]
    have hfilter : (latestPositions rows).filter ((· == v) ∘ (·.vehicleId)) = newestOf v rows :=
      filter_latestPositions rows v
    rw [hfilter]
    by_cases hv : ∃ r ∈ rows, r.vehicleId = v
    · obtain ⟨r, hr, rfl⟩ := hv
      exact (h r hr).le
    · have hnil : newestOf v rows = [] := by
        rw [List.eq_nil_iff_forall_not_mem]
        intro r hr
        obtain ⟨hr, hk, -⟩ := mem_atNewest.1 hr
        exact hv ⟨r, hr, hk⟩
      simp [hnil]
  rw [← List.length_map (·.vehicleId)]
  refine (hnodup.subperm fun v hv => ?_).length_le
  obtain ⟨r, hr, rfl⟩ := List.mem_map.1 hv
  exact List.mem_dedup.2 (List.mem_map_of_mem (hsub r hr))

/-- **Every vehicle is listed once** exactly when there are no ties. -/
theorem onePerVehicle_iff_noTies (clip : String → Option (VehiclePosition → Bool))
    (rows : List VehiclePosition) : OnePerVehicle clip rows ↔ NoTies rows := by
  refine ⟨?_, ?_⟩
  · intro h r hr
    obtain ⟨-, hone⟩ := h (max (latestPositions rows).length (rows.map (·.vehicleId)).dedup.length)
      (latestPositions rows) (le_max_right _ _)
      ⟨latestPositions rows, List.Perm.refl _, (List.take_of_length_le (le_max_left _ _)).symm⟩
    obtain ⟨o, ho, -⟩ := hone r hr
    show (newestOf r.vehicleId rows).length = 1
    rw [← filter_latestPositions, ho, List.length_singleton]
  · rintro h limit out hlimit ⟨l, hperm, rfl⟩
    have hperm : l.Perm (latestPositions rows) := hperm
    have hlen : l.length ≤ limit := by
      have hle := length_latestPositions_le h
      have heq := hperm.length_eq
      omega
    rw [List.take_of_length_le hlen]
    refine ⟨fun o ho => ?_, fun r hr => ?_⟩
    · have ho' := hperm.subset ho
      rw [latestPositions_eq] at ho'
      exact List.mem_of_mem_filter ho'
    · obtain ⟨o, ho⟩ := List.length_eq_one_iff.1 (h r hr)
      have hfilter := hperm.filter fun o => decide (o.vehicleId = r.vehicleId)
      rw [filter_latestPositions, newestOf, ho] at hfilter
      refine ⟨o, List.perm_singleton.1 hfilter, fun s hs hk => ?_⟩
      have hmem : o ∈ newestOf r.vehicleId rows := by rw [newestOf, ho]; simp
      have hok := (mem_atNewest.1 hmem).2.1
      rw [← hok] at hmem
      exact (mem_atNewest_iff_le.1 hmem).2 s hs (hk.trans hok.symm)

/-! ## Runs -/

/-- The transactions on `vehicle_positions`. -/
inductive VehicleOp where
  | pollVehiclePositions (poll : Poll)
  | pruneOldRealtime (now : Instant) (retentionHours : ℤ)

section Runs

variable (isPoint : XFloat → XFloat → Bool)

/-- What a transaction leaves behind. -/
def execVehicles (db : Db) : VehicleOp → Db
  | .pollVehiclePositions poll => pollVehiclePositions isPoint db poll
  | .pruneOldRealtime now retentionHours => pruneOldRealtime db now retentionHours

/-- The positions a database holds. -/
def Db.positions (db : Db) : List VehiclePosition := db.vehiclePositions.rows.map Row.data

/-- The positions a poll stores. -/
def Poll.positions (poll : Poll) : List VehiclePosition :=
  match vehicleRows poll with
  | .ok rows => if rows.all (·.fits isPoint) then rows else []
  | .error _ => []

theorem positions_poll (db : Db) (poll : Poll) :
    (pollVehiclePositions isPoint db poll).positions = db.positions ++ poll.positions isPoint := by
  unfold pollVehiclePositions ingestVehiclePositions Poll.positions
  cases vehicleRows poll with
  | error e => simp [Except.bind, bind]
  | ok rows =>
    by_cases hfit : rows.all (·.fits isPoint) = true
    · simp only [hfit, if_true, bind, Except.bind, pure, Except.pure]
      simp [Db.positions]
    · simp only [hfit, bind, Except.bind]
      simp [throw, throwThe, MonadExceptOf.throw]

theorem positions_prune (db : Db) (now : Instant) (retentionHours : ℤ) :
    (pruneOldRealtime db now retentionHours).positions =
      db.positions.filter fun r => now - hours retentionHours ≤ r.recordedAt := by
  simp only [Db.positions, pruneOldRealtime, Log.keep_rows, List.filter_map]
  rfl

/-- A transaction that makes no ties, given the positions before it: for no
vehicle of a poll is its newest time there the one the vehicle is known at, and if
it is newer than that, one row of the poll has it. -/
def MakesNoTies (known : List VehiclePosition) : VehicleOp → Prop
  | .pollVehiclePositions poll => ∀ r ∈ poll.positions isPoint,
    newest VehiclePosition.vehicleId VehiclePosition.recordedAt r.vehicleId known ≠
      newest VehiclePosition.vehicleId VehiclePosition.recordedAt r.vehicleId
        (poll.positions isPoint) ∧
    (newest VehiclePosition.vehicleId VehiclePosition.recordedAt r.vehicleId known <
        newest VehiclePosition.vehicleId VehiclePosition.recordedAt r.vehicleId
          (poll.positions isPoint) →
      (newestOf r.vehicleId (poll.positions isPoint)).length = 1)
  | .pruneOldRealtime _ _ => True

/-- What one transaction does to a table without ties. -/
theorem noTies_execVehicles_iff {db : Db} (h : NoTies db.positions) (op : VehicleOp) :
    NoTies (execVehicles isPoint db op).positions ↔ MakesNoTies isPoint db.positions op := by
  cases op with
  | pollVehiclePositions poll =>
    rw [execVehicles, positions_poll]
    exact unrivalled_append_iff h _
  | pruneOldRealtime now retentionHours =>
    rw [execVehicles, positions_prune]
    exact iff_of_true (h.filter _) trivial

/-- The database after a run of a freshly migrated system. -/
def afterVehicleOps (ops : List VehicleOp) : Db := replay (execVehicles isPoint) Db.empty ops

/-- **When every vehicle is listed once, all along a run.** -/
theorem onePerVehicle_iff (clip : String → Option (VehiclePosition → Bool)) (ops : List VehicleOp) :
    (∀ done, done <+: ops → OnePerVehicle clip (afterVehicleOps isPoint done).positions) ↔
      ∀ done op, done ++ [op] <+: ops →
        MakesNoTies isPoint (afterVehicleOps isPoint done).positions op := by
  simp only [onePerVehicle_iff_noTies]
  exact invariant_along_iff (P := fun db : Db => NoTies db.positions)
    (C := fun db op => MakesNoTies isPoint db.positions op)
    (fun r hr => by simp [Db.positions, Db.empty, Log.empty] at hr)
    (fun db op h => noTies_execVehicles_iff isPoint h op) ops

end Runs

/-- A feed with one vehicle, at second 1000. -/
def vehicleFeed : Poll :=
  [({ id := "1"
      tripUpdate := none
      vehicle := some {
        tripId := "T1"
        routeId := "M1"
        vehicleId := "V1"
        position := some {
          latitude := .fin (-27), longitude := .fin 153, bearing := none, speed := none }
        currentStopSequence := none
        stopId := "S1"
        currentStatus := none
        congestionLevel := none
        timestamp := 1000 } }, 0)]

/-- Polled again before it has changed, the feed lists its vehicle twice. -/
theorem unchangedFeed_listsTwice :
    ¬ ∀ isPoint clip ops, OnePerVehicle clip (afterVehicleOps isPoint ops).positions := by
  intro h
  let rows := (afterVehicleOps (fun _ _ => true)
    [.pollVehiclePositions vehicleFeed, .pollVehiclePositions vehicleFeed]).positions
  have hanswer : Answers (fun _ => none) rows ⟨none, none, 2⟩ (latestPositions rows) :=
    ⟨latestPositions rows, List.Perm.refl _, rfl⟩
  obtain ⟨-, hone⟩ := h _ _ _ 2 _ (by decide) hanswer
  have hrow : ∃ r ∈ rows, r.vehicleId = "V1" := by decide
  obtain ⟨r, hr, hv⟩ := hrow
  obtain ⟨o, ho, -⟩ := hone r hr
  have htwo : ((latestPositions rows).filter fun o => o.vehicleId = "V1").length = 2 := by decide
  rw [← hv, ho, List.length_singleton] at htwo
  omega

end DelayPredictor
