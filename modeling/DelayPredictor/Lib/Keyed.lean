import Mathlib

/-!
# Serial logs and keyed tables

A relational table as this development needs it: a list of rows, each with the
serial number it was inserted under.

* `Log ν` — an append-only table: serial numbers are distinct and below the
  next one to be handed out.
* `Upsert κ ν` — the shape of an insert-or-update statement: the conflict key of
  a row, and what an update keeps of the old data and takes from the new.
* `Table U` — a log in which, moreover, no two rows share a key.  Both
  constraints are fields, so a table violating them cannot be built.
* `Upsert.put`, `Upsert.putAll` — one proposed row, and several one after
  another; `Table.upsert` — one *statement* proposing several rows, which is
  refused when two of them carry the same key.
* `Upsert.leftMatches` — the right-hand side of a left join on the key.
* `Upsert.Columnwise` — updates that overwrite one another;
  `Table.putAll_putAll_rows`: **they may be repeated**.  `Upsert.KeepsOld` —
  updates that do nothing.

The laws are stated through `contents`, which forgets serial numbers: what a
table holds under a key after a list of proposed rows is what the rows *of that
key*, absorbed one by one, make of what it held before (`contents_putAll`).
-/

namespace Keyed

variable {κ ν : Type*}

/-- A stored row: the serial number it was inserted under, and its data. -/
structure Row (ν : Type*) where
  /-- The serial number. -/
  id : ℕ
  /-- Every other column. -/
  data : ν
  deriving DecidableEq, Repr

/-! ## Append-only logs -/

/-- An append-only table: rows in insertion order, numbered from a sequence. -/
structure Log (ν : Type*) where
  /-- The rows. -/
  rows : List (Row ν)
  /-- The next serial number. -/
  nextId : ℕ
  /-- Serial numbers are not reused. -/
  ids_nodup : (rows.map Row.id).Nodup
  /-- Serial numbers come from the sequence. -/
  ids_lt : ∀ r ∈ rows, r.id < nextId

namespace Log

/-- The empty log. -/
def empty : Log ν where
  rows := []
  nextId := 0
  ids_nodup := by simp
  ids_lt := by simp

/-- The rows a log would give the values `vs`. -/
def number (n : ℕ) (vs : List ν) : List (Row ν) := vs.zipIdx n |>.map fun p => ⟨p.2, p.1⟩

@[simp] theorem number_nil (n : ℕ) : number n ([] : List ν) = [] := rfl

@[simp] theorem number_cons (n : ℕ) (v : ν) (vs : List ν) :
    number n (v :: vs) = ⟨n, v⟩ :: number (n + 1) vs := by
  simp [number, List.zipIdx_cons]

@[simp] theorem number_data (n : ℕ) (vs : List ν) : (number n vs).map Row.data = vs := by
  induction vs generalizing n with
  | nil => rfl
  | cons v vs ih => simp [ih]

theorem number_id (n : ℕ) (vs : List ν) : (number n vs).map Row.id = List.range' n vs.length := by
  induction vs generalizing n with
  | nil => rfl
  | cons v vs ih => simp [ih, List.range'_succ]

theorem mem_number_id {n : ℕ} {vs : List ν} {r : Row ν} (h : r ∈ number n vs) :
    n ≤ r.id ∧ r.id < n + vs.length := by
  have : r.id ∈ (number n vs).map Row.id := List.mem_map_of_mem h
  rw [number_id, List.mem_range'_1] at this
  exact this

/-- Append rows, numbering them from the sequence. -/
def insertAll (L : Log ν) (vs : List ν) : Log ν where
  rows := L.rows ++ number L.nextId vs
  nextId := L.nextId + vs.length
  ids_nodup := by
    rw [List.map_append, List.nodup_append]
    refine ⟨L.ids_nodup, by rw [number_id]; exact List.nodup_range', ?_⟩
    intro a ha b hb hab
    obtain ⟨r, hr, rfl⟩ := List.mem_map.1 ha
    obtain ⟨r', hr', rfl⟩ := List.mem_map.1 hb
    have h₁ := L.ids_lt r hr
    have h₂ := (mem_number_id hr').1
    omega
  ids_lt := by
    intro r hr
    rcases List.mem_append.1 hr with h | h
    · have := L.ids_lt r h; omega
    · exact (mem_number_id h).2

@[simp] theorem insertAll_rows (L : Log ν) (vs : List ν) :
    (L.insertAll vs).rows = L.rows ++ number L.nextId vs := rfl

/-- Drop the rows that do not satisfy `p`; the sequence does not go back. -/
def keep (L : Log ν) (p : ν → Bool) : Log ν where
  rows := L.rows.filter fun r => p r.data
  nextId := L.nextId
  ids_nodup := L.ids_nodup.sublist (List.filter_sublist.map _)
  ids_lt := fun r hr => L.ids_lt r (List.mem_of_mem_filter hr)

@[simp] theorem keep_rows (L : Log ν) (p : ν → Bool) :
    (L.keep p).rows = L.rows.filter fun r => p r.data := rfl

/-- Drop the rows with these serial numbers. -/
def drop (L : Log ν) (ids : List ℕ) : Log ν where
  rows := L.rows.filter fun r => r.id ∉ ids
  nextId := L.nextId
  ids_nodup := L.ids_nodup.sublist (List.filter_sublist.map _)
  ids_lt := fun r hr => L.ids_lt r (List.mem_of_mem_filter hr)

@[ext] theorem ext {L L' : Log ν} (hrows : L.rows = L'.rows) (hnext : L.nextId = L'.nextId) :
    L = L' := by
  cases L
  cases L'
  cases hrows
  cases hnext
  rfl

/-- Rows with the same serial number are the same row. -/
theorem eq_of_id_eq (L : Log ν) {r r' : Row ν} (h : r ∈ L.rows) (h' : r' ∈ L.rows)
    (hid : r.id = r'.id) : r = r' :=
  List.inj_on_of_nodup_map L.ids_nodup h h' hid

/-- A stored row is the only one with its serial number. -/
theorem filter_id_eq (L : Log ν) {r : Row ν} (h : r ∈ L.rows) :
    (L.rows.filter fun r' => r'.id = r.id) = [r] := by
  have hnd : (L.rows.filter fun r' => r'.id = r.id).Nodup :=
    (List.Nodup.of_map _ L.ids_nodup).filter _
  refine List.perm_singleton.1 ((List.perm_ext_iff_of_nodup hnd (by simp)).2 fun r' => ?_)
  simp only [List.mem_filter, decide_eq_true_eq, List.mem_singleton]
  refine ⟨?_, ?_⟩
  · rintro ⟨hr', hid⟩
    exact L.eq_of_id_eq hr' h hid
  · rintro rfl
    exact ⟨h, rfl⟩

/-- Dropping the rows that are found not to satisfy `p` keeps those that do. -/
theorem drop_filter (L : Log ν) (p : ν → Bool) :
    L.drop ((L.rows.filter fun r => !p r.data).map Row.id) = L.keep p := by
  ext1
  · refine List.filter_congr fun r hr => ?_
    have hfound : r.id ∈ (L.rows.filter fun r => !p r.data).map Row.id ↔ p r.data = false := by
      rw [List.mem_map]
      constructor
      · rintro ⟨r', hr', hid⟩
        obtain ⟨hmem, hp⟩ := List.mem_filter.1 hr'
        rw [← L.eq_of_id_eq hmem hr hid]
        simpa using hp
      · intro hp
        exact ⟨r, List.mem_filter.2 ⟨hr, by simp [hp]⟩, rfl⟩
    simp only [hfound, Bool.not_eq_false, Bool.decide_eq_true]
  · rfl

/-- Rows that are inserted are not among those dropped. -/
theorem drop_insertAll (L : Log ν) {ids : List ℕ} (h : ∀ id ∈ ids, id < L.nextId) (vs : List ν) :
    (L.insertAll vs).drop ids = (L.drop ids).insertAll vs := by
  ext1
  · show (L.rows ++ number L.nextId vs).filter _ = L.rows.filter _ ++ number L.nextId vs
    rw [List.filter_append]
    congr 1
    rw [List.filter_eq_self]
    intro r hr
    have hge := (mem_number_id hr).1
    simpa using fun hid => absurd (h _ hid) (by omega)
  · rfl

theorem keep_insertAll (L : Log ν) {p : ν → Bool} {vs : List ν} (h : ∀ v ∈ vs, p v = true) :
    (L.insertAll vs).keep p = (L.keep p).insertAll vs := by
  ext1
  · show (L.rows ++ number L.nextId vs).filter _ = L.rows.filter _ ++ number L.nextId vs
    rw [List.filter_append]
    congr 1
    rw [List.filter_eq_self]
    intro r hr
    have hdata : r.data ∈ (number L.nextId vs).map Row.data := List.mem_map_of_mem hr
    rw [number_data] at hdata
    exact h _ hdata
  · rfl

theorem drop_comm (L : Log ν) (ids ids' : List ℕ) :
    (L.drop ids).drop ids' = (L.drop ids').drop ids := by
  ext1
  · show (L.rows.filter _).filter _ = (L.rows.filter _).filter _
    rw [List.filter_filter, List.filter_filter]
    exact List.filter_congr fun r _ => Bool.and_comm _ _
  · rfl

theorem keep_comm (L : Log ν) (p q : ν → Bool) : (L.keep p).keep q = (L.keep q).keep p := by
  ext1
  · show (L.rows.filter _).filter _ = (L.rows.filter _).filter _
    rw [List.filter_filter, List.filter_filter]
    exact List.filter_congr fun r _ => Bool.and_comm _ _
  · rfl

/-- The data stored under a serial number. -/
def find (L : Log ν) (id : ℕ) : Option ν := (L.rows.find? fun r => r.id = id).map Row.data

theorem find_eq_some_iff (L : Log ν) {id : ℕ} {d : ν} : L.find id = some d ↔ ⟨id, d⟩ ∈ L.rows := by
  rw [find, Option.map_eq_some_iff]
  refine ⟨?_, ?_⟩
  · rintro ⟨r, h, rfl⟩
    have hid : r.id = id := by simpa using List.find?_some h
    subst hid
    exact List.mem_of_find?_eq_some h
  · intro h
    cases hf : L.rows.find? fun r => r.id = id with
    | none => simpa using List.find?_eq_none.1 hf _ h
    | some r =>
      have hid : r.id = id := by simpa using List.find?_some hf
      have hr := L.eq_of_id_eq (List.mem_of_find?_eq_some hf) h hid
      exact ⟨r, rfl, by rw [hr]⟩

end Log

/-! ## Insert-or-update -/

/-- The shape of an insert-or-update statement. -/
structure Upsert (κ ν : Type*) where
  /-- The conflict key. -/
  key : ν → κ
  /-- The data of an updated row, from the old data and the proposed one. -/
  merge : ν → ν → ν
  /-- An update does not move a row to another key. -/
  key_merge : ∀ old new, key (merge old new) = key old

namespace Upsert

variable (U : Upsert κ ν)

/-- What a key's data becomes when one more row is proposed for it. -/
def absorb : Option ν → ν → Option ν
  | none, v => some v
  | some d, v => some (U.merge d v)

@[simp] theorem absorb_none (v : ν) : U.absorb none v = some v := rfl

@[simp] theorem absorb_some (d v : ν) : U.absorb (some d) v = some (U.merge d v) := rfl

/-- Once a key is stored, absorbing rows keeps it stored. -/
theorem foldl_absorb_some (d : ν) (vs : List ν) :
    vs.foldl U.absorb (some d) = some (vs.foldl U.merge d) := by
  induction vs generalizing d with
  | nil => rfl
  | cons v vs ih => simp [ih]

theorem foldl_absorb_none_cons (v : ν) (vs : List ν) :
    (v :: vs).foldl U.absorb none = some (vs.foldl U.merge v) := by
  rw [List.foldl_cons, absorb_none, foldl_absorb_some]

theorem key_foldl_merge (d : ν) (vs : List ν) : U.key (vs.foldl U.merge d) = U.key d := by
  induction vs generalizing d with
  | nil => rfl
  | cons v vs ih => rw [List.foldl_cons, ih, U.key_merge]

/-- The row a proposed row leaves behind, given the row its key had. -/
def settle (i : ℕ) (v : ν) : Option (Row ν) → Row ν
  | none => ⟨i, v⟩
  | some r => ⟨r.id, U.merge r.data v⟩

variable [DecidableEq κ]

/-- One proposed row: it updates the row that holds its key, and is appended
under the serial number `i` when there is none. -/
def put (i : ℕ) (v : ν) : List (Row ν) → List (Row ν)
  | [] => [⟨i, v⟩]
  | r :: rs =>
    if U.key r.data = U.key v then ⟨r.id, U.merge r.data v⟩ :: rs else r :: put i v rs

/-- Proposed rows, one after another.  Each draws a serial number, whether or
not it ends up using it. -/
def putAll : ℕ → List ν → List (Row ν) → List (Row ν)
  | _, [], rows => rows
  | i, v :: vs, rows => putAll (i + 1) vs (U.put i v rows)

/-- The row stored under a key. -/
def lookup (k : κ) (rows : List (Row ν)) : Option (Row ν) :=
  rows.find? fun r => U.key r.data = k

/-- The data stored under a key. -/
def contents (k : κ) (rows : List (Row ν)) : Option ν := (U.lookup k rows).map Row.data

@[simp] theorem putAll_nil (i : ℕ) (rows : List (Row ν)) : U.putAll i [] rows = rows := rfl

theorem putAll_cons (i : ℕ) (v : ν) (vs : List ν) (rows : List (Row ν)) :
    U.putAll i (v :: vs) rows = U.putAll (i + 1) vs (U.put i v rows) := rfl

theorem putAll_append (i : ℕ) (vs ws : List ν) (rows : List (Row ν)) :
    U.putAll i (vs ++ ws) rows = U.putAll (i + vs.length) ws (U.putAll i vs rows) := by
  induction vs generalizing i rows with
  | nil => simp
  | cons v vs ih =>
    rw [List.cons_append, putAll_cons, ih, putAll_cons, List.length_cons]
    congr 1
    omega

theorem put_cons_same {r : Row ν} {v : ν} (h : U.key r.data = U.key v) (i : ℕ)
    (rs : List (Row ν)) : U.put i v (r :: rs) = ⟨r.id, U.merge r.data v⟩ :: rs := if_pos h

theorem put_cons_other {r : Row ν} {v : ν} (h : U.key r.data ≠ U.key v) (i : ℕ)
    (rs : List (Row ν)) : U.put i v (r :: rs) = r :: U.put i v rs := if_neg h

/-! ### What is stored under a key -/

theorem lookup_cons (k : κ) (r : Row ν) (rs : List (Row ν)) :
    U.lookup k (r :: rs) = if U.key r.data = k then some r else U.lookup k rs := by
  by_cases h : U.key r.data = k <;> simp [lookup, h]

/-- A proposed row changes what is stored under its own key and nothing else. -/
theorem lookup_put (k : κ) (i : ℕ) (v : ν) (rows : List (Row ν)) :
    U.lookup k (U.put i v rows) =
      if U.key v = k then some (U.settle i v (U.lookup k rows)) else U.lookup k rows := by
  induction rows with
  | nil => rw [put, lookup_cons]; rfl
  | cons r rs ih =>
    by_cases hr : U.key r.data = U.key v
    · rw [put_cons_same U hr, lookup_cons, lookup_cons]
      simp only [U.key_merge, hr]
      split <;> rfl
    · rw [put_cons_other U hr, lookup_cons, lookup_cons, ih]
      by_cases hk : U.key r.data = k
      · have hv : U.key v ≠ k := fun hv => hr (hk.trans hv.symm)
        simp only [hk, hv, if_true, if_false]
      · simp only [hk, if_false]

theorem contents_put (k : κ) (i : ℕ) (v : ν) (rows : List (Row ν)) :
    U.contents k (U.put i v rows) =
      if U.key v = k then U.absorb (U.contents k rows) v else U.contents k rows := by
  rw [contents, lookup_put, contents]
  split
  · cases U.lookup k rows <;> rfl
  · rfl

/-- **What a key holds after a list of proposed rows**: the rows of that key,
absorbed one by one into what it held before. -/
theorem contents_putAll (k : κ) (i : ℕ) (vs : List ν) (rows : List (Row ν)) :
    U.contents k (U.putAll i vs rows) =
      (vs.filter fun v => U.key v = k).foldl U.absorb (U.contents k rows) := by
  induction vs generalizing i rows with
  | nil => rfl
  | cons v vs ih =>
    rw [putAll_cons, ih, contents_put]
    by_cases h : U.key v = k <;> simp [h]

/-! ### Keys and serial numbers -/

theorem keys_put (i : ℕ) (v : ν) (rows : List (Row ν)) :
    (U.put i v rows).map (fun r => U.key r.data) =
      if U.key v ∈ rows.map (fun r => U.key r.data) then rows.map (fun r => U.key r.data)
      else rows.map (fun r => U.key r.data) ++ [U.key v] := by
  induction rows with
  | nil => simp [put]
  | cons r rs ih =>
    by_cases hr : U.key r.data = U.key v
    · simp [put, hr, U.key_merge]
    · have hr' : ¬ U.key v = U.key r.data := fun h => hr h.symm
      simp only [put, hr, if_false, List.map_cons, ih, List.mem_cons, hr', false_or]
      split <;> simp

theorem ids_put (i : ℕ) (v : ν) (rows : List (Row ν)) :
    (U.put i v rows).map Row.id =
      if U.key v ∈ rows.map (fun r => U.key r.data) then rows.map Row.id
      else rows.map Row.id ++ [i] := by
  induction rows with
  | nil => simp [put]
  | cons r rs ih =>
    by_cases hr : U.key r.data = U.key v
    · simp [put, hr]
    · have hr' : ¬ U.key v = U.key r.data := fun h => hr h.symm
      simp only [put, hr, if_false, List.map_cons, ih, List.mem_cons, hr', false_or]
      split <;> simp

theorem keys_nodup_put {rows : List (Row ν)} (h : (rows.map fun r => U.key r.data).Nodup)
    (i : ℕ) (v : ν) : ((U.put i v rows).map fun r => U.key r.data).Nodup := by
  rw [keys_put]
  split
  · exact h
  · rename_i hv
    refine List.nodup_append.2 ⟨h, by simp, ?_⟩
    rintro a ha b hb rfl
    exact hv (by rwa [List.mem_singleton.1 hb] at ha)

theorem mem_put_id {i : ℕ} {v : ν} {rows : List (Row ν)} {r : Row ν} (h : r ∈ U.put i v rows) :
    r.id = i ∨ r.id ∈ rows.map Row.id := by
  have hid : r.id ∈ (U.put i v rows).map Row.id := List.mem_map_of_mem h
  rw [ids_put] at hid
  split at hid
  · exact .inr hid
  · simpa [or_comm] using hid

theorem ids_nodup_put {i : ℕ} {rows : List (Row ν)} (h : (rows.map Row.id).Nodup)
    (hlt : ∀ r ∈ rows, r.id < i) (v : ν) : ((U.put i v rows).map Row.id).Nodup := by
  rw [ids_put]
  split
  · exact h
  · refine List.nodup_append.2 ⟨h, by simp, ?_⟩
    rintro a ha b hb rfl
    obtain ⟨r, hr, rfl⟩ := List.mem_map.1 ha
    have := hlt r hr
    simp at hb
    omega

theorem ids_lt_put {i : ℕ} {rows : List (Row ν)} (hlt : ∀ r ∈ rows, r.id < i) (v : ν) :
    ∀ r ∈ U.put i v rows, r.id < i + 1 := by
  intro r hr
  rcases U.mem_put_id hr with h | h
  · omega
  · obtain ⟨r', hr', h⟩ := List.mem_map.1 h
    have := hlt r' hr'
    omega

/-- **What proposed rows preserve**, row by row: it suffices that a new row has
the property and that an update keeps it. -/
theorem forall_mem_put {P : Row ν → Prop} {i : ℕ} {v : ν} {rows : List (Row ν)}
    (h : ∀ r ∈ rows, P r) (hnew : P ⟨i, v⟩)
    (hmerge : ∀ r, P r → U.key r.data = U.key v → P ⟨r.id, U.merge r.data v⟩) :
    ∀ r ∈ U.put i v rows, P r := by
  induction rows with
  | nil => simpa [put] using hnew
  | cons r rs ih =>
    obtain ⟨hr, hrs⟩ := List.forall_mem_cons.1 h
    by_cases hk : U.key r.data = U.key v
    · rw [put_cons_same U hk, List.forall_mem_cons]
      exact ⟨hmerge r hr hk, hrs⟩
    · rw [put_cons_other U hk, List.forall_mem_cons]
      exact ⟨hr, ih hrs⟩

theorem forall_mem_putAll {P : Row ν → Prop} {i : ℕ} {vs : List ν} {rows : List (Row ν)}
    (h : ∀ r ∈ rows, P r) (hnew : ∀ j, i ≤ j → ∀ v ∈ vs, P ⟨j, v⟩)
    (hmerge : ∀ r, P r → ∀ v ∈ vs, U.key r.data = U.key v → P ⟨r.id, U.merge r.data v⟩) :
    ∀ r ∈ U.putAll i vs rows, P r := by
  induction vs generalizing i rows with
  | nil => exact h
  | cons v vs ih =>
    have hput := U.forall_mem_put h (hnew i le_rfl v (by simp)) fun r hr =>
      hmerge r hr v (by simp)
    exact ih hput (fun j hj w hw => hnew j (by omega) w (by simp [hw]))
      fun r hr w hw => hmerge r hr w (by simp [hw])

/-- A key that is stored keeps the serial number it is stored under. -/
theorem lookup_id_putAll {k : κ} {rows : List (Row ν)} {r : Row ν} (h : U.lookup k rows = some r)
    (i : ℕ) (vs : List ν) : (U.lookup k (U.putAll i vs rows)).map Row.id = some r.id := by
  induction vs generalizing i rows r with
  | nil => simp [h]
  | cons v vs ih =>
    rw [putAll_cons]
    by_cases hv : U.key v = k
    · have hput : U.lookup k (U.put i v rows) = some ⟨r.id, U.merge r.data v⟩ := by
        rw [lookup_put, if_pos hv, h]; rfl
      exact ih hput (i + 1)
    · exact ih (by rw [lookup_put, if_neg hv, h]) (i + 1)

/-- A proposed row whose key is stored updates the row that holds it in place. -/
theorem put_eq_map {v : ν} {rows : List (Row ν)} (hnd : (rows.map fun r => U.key r.data).Nodup)
    (hv : U.key v ∈ rows.map fun r => U.key r.data) (i : ℕ) :
    U.put i v rows =
      rows.map fun r => ⟨r.id, if U.key v = U.key r.data then U.merge r.data v else r.data⟩ := by
  induction rows with
  | nil => simp at hv
  | cons r rs ih =>
    rw [List.map_cons, List.nodup_cons] at hnd
    by_cases hr : U.key r.data = U.key v
    · have hrs : ∀ r' ∈ rs, U.key v ≠ U.key r'.data := by
        intro r' hr' hk
        exact hnd.1 (List.mem_map.2 ⟨r', hr', hk.symm.trans hr.symm⟩)
      have hid : rs.map (fun r' => (⟨r'.id,
          if U.key v = U.key r'.data then U.merge r'.data v else r'.data⟩ : Row ν)) = rs := by
        conv_rhs => rw [← List.map_id rs]
        refine List.map_congr_left fun r' hr' => ?_
        rw [if_neg (hrs r' hr')]
        rfl
      rw [put_cons_same U hr, List.map_cons, if_pos hr.symm, hid]
    · have hv' : U.key v ∈ rs.map fun r => U.key r.data := by
        rcases List.mem_cons.1 hv with h | h
        · exact absurd h.symm hr
        · exact h
      rw [put_cons_other U hr, List.map_cons, if_neg (fun h => hr h.symm), ih hnd.2 hv']

/-- **Rows whose keys are all stored** update the stored rows in place: each
absorbs the proposed rows of its key. -/
theorem putAll_eq_map {vs : List ν} {rows : List (Row ν)}
    (hnd : (rows.map fun r => U.key r.data).Nodup)
    (hvs : ∀ v ∈ vs, U.key v ∈ rows.map fun r => U.key r.data) (i : ℕ) :
    U.putAll i vs rows = rows.map fun r =>
      ⟨r.id, (vs.filter fun v => U.key v = U.key r.data).foldl U.merge r.data⟩ := by
  induction vs generalizing i rows with
  | nil => simp
  | cons v vs ih =>
    have hv := hvs v (by simp)
    have hkeys : (U.put i v rows).map (fun r => U.key r.data) =
        rows.map fun r => U.key r.data := by rw [keys_put, if_pos hv]
    rw [putAll_cons, ih (hkeys ▸ hnd) (fun w hw => hkeys ▸ hvs w (by simp [hw])),
      U.put_eq_map hnd hv, List.map_map]
    refine List.map_congr_left fun r _ => ?_
    show Row.mk _ _ = Row.mk _ _
    by_cases hk : U.key v = U.key r.data
    · simp [hk, U.key_merge]
    · simp [hk]

/-- An update writes each column from one of the two rows, always the same one:
a later update overwrites an earlier one, and a row updates itself to itself. -/
structure Columnwise : Prop where
  overwrite : ∀ d v w, U.merge (U.merge d v) w = U.merge d w
  self : ∀ v, U.merge v v = v

omit [DecidableEq κ] in
/-- Of several updates the last one is what counts. -/
theorem Columnwise.foldl_merge {U : Upsert κ ν} (hU : U.Columnwise) (d : ν) {vs : List ν}
    (h : vs ≠ []) : vs.foldl U.merge d = U.merge d (vs.getLast h) := by
  induction vs generalizing d with
  | nil => exact absurd rfl h
  | cons v vs ih =>
    by_cases hvs : vs = []
    · subst hvs; rfl
    · rw [List.foldl_cons, ih _ hvs, hU.overwrite, List.getLast_cons hvs]

omit [DecidableEq κ] in
/-- Absorbing the same rows once more changes nothing. -/
theorem Columnwise.foldl_merge_of_absorb {U : Upsert κ ν} (hU : U.Columnwise) {vs : List ν}
    {c : Option ν} {d : ν} (h : vs.foldl U.absorb c = some d) : vs.foldl U.merge d = d := by
  cases vs with
  | nil => rfl
  | cons v vs =>
    have hne : v :: vs ≠ [] := by simp
    rw [hU.foldl_merge d hne]
    cases c with
    | some d₀ =>
      rw [foldl_absorb_some] at h
      obtain rfl := Option.some.inj h
      rw [hU.foldl_merge d₀ hne, hU.overwrite]
    | none =>
      rw [foldl_absorb_none_cons] at h
      obtain rfl := Option.some.inj h
      by_cases hvs : vs = []
      · subst hvs
        exact hU.self v
      · rw [hU.foldl_merge v hvs, List.getLast_cons hvs, hU.overwrite]

/-- An update that keeps the old row: `ON CONFLICT DO NOTHING`. -/
def KeepsOld : Prop := ∀ d v, U.merge d v = d

omit [DecidableEq κ] in
/-- Of several rows the first one is what counts. -/
theorem KeepsOld.foldl_absorb {U : Upsert κ ν} (hU : U.KeepsOld) (c : Option ν) (vs : List ν) :
    vs.foldl U.absorb c = c.or vs.head? := by
  induction vs generalizing c with
  | nil => simp
  | cons v vs ih =>
    rw [List.foldl_cons, ih]
    cases c with
    | none => rfl
    | some d => simp [hU d v]

theorem KeepsOld.prefix_put {U : Upsert κ ν} (hU : U.KeepsOld) (i : ℕ) (v : ν)
    (rows : List (Row ν)) : rows <+: U.put i v rows := by
  induction rows with
  | nil => exact List.nil_prefix
  | cons r rs ih =>
    by_cases hr : U.key r.data = U.key v
    · rw [put_cons_same U hr, hU]
    · rw [put_cons_other U hr]
      exact (List.prefix_cons_inj r).2 ih

/-- Stored rows stay as and where they are. -/
theorem KeepsOld.prefix_putAll {U : Upsert κ ν} (hU : U.KeepsOld) (i : ℕ) (vs : List ν)
    (rows : List (Row ν)) : rows <+: U.putAll i vs rows := by
  induction vs generalizing i rows with
  | nil => exact List.prefix_refl rows
  | cons v vs ih => exact (hU.prefix_put i v rows).trans (ih (i + 1) (U.put i v rows))

/-! ### Joins -/

/-- What a left join on the key `k` puts next to a row: the rows with that key,
or a single null row when there is none. -/
def leftMatches (k : κ) (rows : List (Row ν)) : List (Option ν) :=
  match rows.filter fun r => U.key r.data = k with
  | [] => [none]
  | ms => ms.map fun r => some r.data

end Upsert

/-- A join that matches a row at most once is a selection. -/
theorem flatMap_ite_singleton {α : Type*} (p : α → Prop) [DecidablePred p] (l : List α) :
    (l.flatMap fun a => if p a then [a] else []) = l.filter p := by
  induction l with
  | nil => rfl
  | cons a l ih =>
    rw [List.flatMap_cons, ih]
    by_cases h : p a <;> simp [h]

/-! ## Tables -/

/-- A log no two rows of which share a key. -/
structure Table [DecidableEq κ] (U : Upsert κ ν) extends Log ν where
  /-- The unique constraint on the conflict key. -/
  keys_nodup : (rows.map fun r => U.key r.data).Nodup

namespace Table

variable [DecidableEq κ] {U : Upsert κ ν}

/-- The empty table. -/
def empty : Table U where
  toLog := Log.empty
  keys_nodup := by simp [Log.empty]

/-- One proposed row. -/
def put (T : Table U) (v : ν) : Table U where
  rows := U.put T.nextId v T.rows
  nextId := T.nextId + 1
  ids_nodup := U.ids_nodup_put T.ids_nodup T.ids_lt v
  ids_lt := U.ids_lt_put T.ids_lt v
  keys_nodup := U.keys_nodup_put T.keys_nodup _ v

/-- Proposed rows, one after another. -/
def putAll (T : Table U) (vs : List ν) : Table U := vs.foldl put T

/-- One statement proposing the rows `vs`.  It is refused when two of them carry
the same key: an insert-or-update statement may not affect a row twice. -/
def upsert (T : Table U) (vs : List ν) : Option (Table U) :=
  if (vs.map U.key).Nodup then some (T.putAll vs) else none

/-- The row stored under a key. -/
def lookup (T : Table U) (k : κ) : Option (Row ν) := U.lookup k T.rows

/-- The data stored under a key. -/
def contents (T : Table U) (k : κ) : Option ν := U.contents k T.rows

@[simp] theorem empty_rows : (empty : Table U).rows = [] := rfl

@[simp] theorem contents_empty (k : κ) : (empty : Table U).contents k = none := rfl

@[simp] theorem putAll_nil (T : Table U) : T.putAll [] = T := rfl

theorem putAll_append (T : Table U) (vs ws : List ν) :
    T.putAll (vs ++ ws) = (T.putAll vs).putAll ws := by
  simp [putAll]

@[simp] theorem putAll_rows (T : Table U) (vs : List ν) :
    (T.putAll vs).rows = U.putAll T.nextId vs T.rows := by
  induction vs generalizing T with
  | nil => rfl
  | cons v vs ih => exact ih (T.put v)

/-- What a key holds after a list of proposed rows. -/
theorem contents_putAll (T : Table U) (vs : List ν) (k : κ) :
    (T.putAll vs).contents k =
      (vs.filter fun v => U.key v = k).foldl U.absorb (T.contents k) := by
  rw [contents, putAll_rows, U.contents_putAll, contents]

/-- Two rows with the same key are the same row. -/
theorem eq_of_key_eq (T : Table U) {r r' : Row ν} (h : r ∈ T.rows) (h' : r' ∈ T.rows)
    (hk : U.key r.data = U.key r'.data) : r = r' :=
  List.inj_on_of_nodup_map T.keys_nodup h h' hk

theorem lookup_eq_some_iff (T : Table U) {k : κ} {r : Row ν} :
    T.lookup k = some r ↔ r ∈ T.rows ∧ U.key r.data = k := by
  refine ⟨?_, ?_⟩
  · intro h
    exact ⟨List.mem_of_find?_eq_some h, by simpa using List.find?_some h⟩
  · rintro ⟨hr, rfl⟩
    cases hl : T.lookup (U.key r.data) with
    | none =>
      have := List.find?_eq_none.1 hl r hr
      simp at this
    | some r' =>
      have hr' := List.mem_of_find?_eq_some hl
      have hk : U.key r'.data = U.key r.data := by simpa using List.find?_some hl
      rw [T.eq_of_key_eq hr' hr hk]

theorem contents_eq_some_iff (T : Table U) {k : κ} {d : ν} :
    T.contents k = some d ↔ ∃ r ∈ T.rows, U.key r.data = k ∧ r.data = d := by
  rw [contents, Upsert.contents, Option.map_eq_some_iff]
  refine ⟨?_, ?_⟩
  · rintro ⟨r, h, rfl⟩
    obtain ⟨hr, hk⟩ := T.lookup_eq_some_iff.1 h
    exact ⟨r, hr, hk, rfl⟩
  · rintro ⟨r, hr, hk, rfl⟩
    exact ⟨r, T.lookup_eq_some_iff.2 ⟨hr, hk⟩, rfl⟩

theorem contents_eq_none_iff (T : Table U) {k : κ} :
    T.contents k = none ↔ ∀ r ∈ T.rows, U.key r.data ≠ k := by
  simp [contents, Upsert.contents, Upsert.lookup]

/-- A stored key is stored once. -/
theorem length_filter_key (T : Table U) {k : κ} {d : ν} (h : T.contents k = some d) :
    (T.rows.filter fun r => U.key r.data = k).length = 1 := by
  obtain ⟨r, hr, hk, -⟩ := T.contents_eq_some_iff.1 h
  have hmem : r ∈ T.rows.filter fun r => U.key r.data = k := List.mem_filter.2 ⟨hr, by simpa⟩
  have hrep : (T.rows.filter fun r => U.key r.data = k).map (fun r => U.key r.data) =
      List.replicate (T.rows.filter fun r => U.key r.data = k).length k := by
    rw [List.eq_replicate_iff]
    refine ⟨by simp, fun x hx => ?_⟩
    obtain ⟨r', hr', rfl⟩ := List.mem_map.1 hx
    simpa using (List.mem_filter.1 hr').2
  have hnd := T.keys_nodup.sublist
    ((List.filter_sublist (p := fun r : Row ν => U.key r.data = k)).map fun r => U.key r.data)
  rw [hrep, List.nodup_replicate] at hnd
  have := List.length_pos_of_mem hmem
  omega

theorem key_of_contents (T : Table U) {k : κ} {d : ν} (h : T.contents k = some d) :
    U.key d = k := by
  obtain ⟨r, -, hk, rfl⟩ := T.contents_eq_some_iff.1 h
  exact hk

/-- No proposed row ever removes a stored key or changes its serial number. -/
theorem lookup_id_putAll (T : Table U) {k : κ} {r : Row ν} (h : T.lookup k = some r)
    (vs : List ν) : ((T.putAll vs).lookup k).map Row.id = some r.id := by
  rw [lookup, putAll_rows]
  exact U.lookup_id_putAll h _ _

/-- Serial numbers stay in use. -/
theorem ids_subset_putAll (T : Table U) (vs : List ν) :
    T.rows.map Row.id ⊆ (T.putAll vs).rows.map Row.id := by
  intro id hid
  obtain ⟨r, hr, rfl⟩ := List.mem_map.1 hid
  obtain ⟨r', hr', hid'⟩ := Option.map_eq_some_iff.1
    (T.lookup_id_putAll (T.lookup_eq_some_iff.2 ⟨hr, rfl⟩) vs)
  rw [← hid']
  exact List.mem_map_of_mem (Table.lookup_eq_some_iff _ |>.1 hr').1

/-- **A left join on the key of a table** matches exactly one row, null or not. -/
theorem leftMatches_eq (T : Table U) (k : κ) : U.leftMatches k T.rows = [T.contents k] := by
  cases hc : T.contents k with
  | none =>
    have hnil : (T.rows.filter fun r => U.key r.data = k) = [] := by
      rw [List.filter_eq_nil_iff]
      intro r hr
      simpa using T.contents_eq_none_iff.1 hc r hr
    rw [Upsert.leftMatches, hnil]
  | some d =>
    obtain ⟨r, hr⟩ := List.length_eq_one_iff.1 (T.length_filter_key hc)
    have hmem : r ∈ T.rows.filter fun r => U.key r.data = k := by simp [hr]
    obtain ⟨hrow, hk⟩ := List.mem_filter.1 hmem
    have hd : T.contents k = some r.data :=
      T.contents_eq_some_iff.2 ⟨r, hrow, by simpa using hk, rfl⟩
    rw [Upsert.leftMatches, hr, ← hc, hd]
    rfl

/-- What proposed rows preserve, row by row. -/
theorem forall_mem_putAll (T : Table U) {P : Row ν → Prop} {vs : List ν} (h : ∀ r ∈ T.rows, P r)
    (hnew : ∀ j, T.nextId ≤ j → ∀ v ∈ vs, P ⟨j, v⟩)
    (hmerge : ∀ r, P r → ∀ v ∈ vs, U.key r.data = U.key v → P ⟨r.id, U.merge r.data v⟩) :
    ∀ r ∈ (T.putAll vs).rows, P r := by
  rw [putAll_rows]
  exact U.forall_mem_putAll h hnew hmerge

/-- Proposed rows whose keys are all stored update their rows in place. -/
theorem putAll_rows_eq_map (T : Table U) {vs : List ν}
    (h : ∀ v ∈ vs, T.contents (U.key v) ≠ none) :
    (T.putAll vs).rows = T.rows.map fun r =>
      ⟨r.id, (vs.filter fun v => U.key v = U.key r.data).foldl U.merge r.data⟩ := by
  rw [putAll_rows]
  refine U.putAll_eq_map T.keys_nodup (fun v hv => ?_) _
  obtain ⟨d, hd⟩ := Option.ne_none_iff_exists'.1 (h v hv)
  obtain ⟨r, hr, hk, -⟩ := T.contents_eq_some_iff.1 hd
  exact List.mem_map.2 ⟨r, hr, hk⟩

/-- The key of a proposed row is stored. -/
theorem contents_putAll_ne_none (T : Table U) {vs : List ν} {v : ν} (hv : v ∈ vs) :
    (T.putAll vs).contents (U.key v) ≠ none := by
  rw [contents_putAll]
  have hmem : v ∈ vs.filter fun w => U.key w = U.key v := List.mem_filter.2 ⟨hv, by simp⟩
  cases hf : vs.filter fun w => U.key w = U.key v with
  | nil => rw [hf] at hmem; cases hmem
  | cons w ws =>
    cases T.contents (U.key v) with
    | none => rw [Upsert.foldl_absorb_none_cons]; simp
    | some d => rw [Upsert.foldl_absorb_some]; simp

/-- **Proposing the same rows once more changes nothing**, if updates are
columnwise: every row is there, under its number, with its data. -/
theorem putAll_putAll_rows (T : Table U) (hU : U.Columnwise) (vs : List ν) :
    ((T.putAll vs).putAll vs).rows = (T.putAll vs).rows := by
  rw [putAll_rows_eq_map _ fun v hv => T.contents_putAll_ne_none hv]
  conv_rhs => rw [← List.map_id (T.putAll vs).rows]
  refine List.map_congr_left fun r hr => ?_
  have hc : (T.putAll vs).contents (U.key r.data) = some r.data :=
    (Table.contents_eq_some_iff _).2 ⟨r, hr, rfl, rfl⟩
  rw [contents_putAll] at hc
  rw [hU.foldl_merge_of_absorb hc]
  rfl

/-- What a key holds when stored rows are kept: what it held, or the first row
proposed for it. -/
theorem contents_putAll_of_keepsOld (T : Table U) (hU : U.KeepsOld) (vs : List ν) (k : κ) :
    (T.putAll vs).contents k = (T.contents k).or (vs.find? fun v => U.key v = k) := by
  rw [contents_putAll, hU.foldl_absorb, List.head?_filter]

theorem prefix_putAll (T : Table U) (hU : U.KeepsOld) (vs : List ν) :
    T.rows <+: (T.putAll vs).rows := by
  rw [putAll_rows]
  exact hU.prefix_putAll _ _ _

/-- A statement is refused exactly when it proposes a key twice. -/
theorem upsert_eq_none_iff (T : Table U) (vs : List ν) :
    T.upsert vs = none ↔ ¬ (vs.map U.key).Nodup := by
  simp [upsert]

theorem upsert_eq_some (T : Table U) {vs : List ν} (h : (vs.map U.key).Nodup) :
    T.upsert vs = some (T.putAll vs) := if_pos h

end Table

end Keyed
