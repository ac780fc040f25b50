import DelayPredictor.Lib.Keyed

/-!
# Foreign keys

References from the rows of one keyed table to the keys of another.

* `Table.keys`, `Table.data` — what a table holds, without its serial numbers;
  `mem_keys_putAll`: keys are added and never lost.
* `Upsert.Replaces` — updates that take every column from the proposed row.
* `Refers` — every key in a column is held by the table it refers to.
  `Refers.putAll_parent`: proposing rows to that table keeps it so;
  `refers_putAll_iff`: **proposing rows to the table that refers keeps it so
  exactly when the proposed rows refer to held keys**.
-/

namespace Keyed

variable {κ κ' ν ν' : Type*} [DecidableEq κ] [DecidableEq κ'] {U : Upsert κ ν} {V : Upsert κ' ν'}

/-! ## What a table holds -/

namespace Table

/-- The keys of the rows. -/
def keys (T : Table U) : List κ := T.rows.map fun r => U.key r.data

/-- The rows without their serial numbers. -/
def data (T : Table U) : List ν := T.rows.map Row.data

theorem keys_eq_map (T : Table U) : T.keys = T.data.map U.key := by
  simp [keys, data]

theorem data_keys_nodup (T : Table U) : (T.data.map U.key).Nodup := by
  rw [← keys_eq_map]
  exact T.keys_nodup

@[simp] theorem keys_empty : (empty : Table U).keys = [] := rfl

@[simp] theorem data_empty : (empty : Table U).data = [] := rfl

theorem mem_keys_put (T : Table U) (v : ν) (k : κ) :
    k ∈ (T.put v).keys ↔ k ∈ T.keys ∨ k = U.key v := by
  have hkeys : (T.put v).keys = if U.key v ∈ T.keys then T.keys else T.keys ++ [U.key v] :=
    U.keys_put _ _ _
  rw [hkeys]
  split
  · rename_i hv
    refine ⟨.inl, ?_⟩
    rintro (h | rfl)
    · exact h
    · exact hv
  · simp

/-- **Proposed rows add their keys** to the ones that are held. -/
theorem mem_keys_putAll (T : Table U) (vs : List ν) (k : κ) :
    k ∈ (T.putAll vs).keys ↔ k ∈ T.keys ∨ k ∈ vs.map U.key := by
  induction vs generalizing T with
  | nil => simp
  | cons v vs ih =>
    show k ∈ ((T.put v).putAll vs).keys ↔ _
    rw [ih, mem_keys_put, List.map_cons, List.mem_cons, or_assoc]

/-- A row with a key that is not held comes last. -/
theorem data_put {T : Table U} {v : ν} (h : U.key v ∉ T.keys) :
    (T.put v).data = T.data ++ [v] := by
  have hput : ∀ (rows : List (Row ν)) (i : ℕ), U.key v ∉ rows.map (fun r => U.key r.data) →
      (U.put i v rows).map Row.data = rows.map Row.data ++ [v] := by
    intro rows i hv
    induction rows with
    | nil => rfl
    | cons r rs ih =>
      rw [List.map_cons, List.mem_cons, not_or] at hv
      rw [U.put_cons_other fun hr => hv.1 hr.symm, List.map_cons, ih hv.2]
      rfl
  exact hput T.rows T.nextId h

theorem mem_data_of_contents {T : Table U} {k : κ} {d : ν} (h : T.contents k = some d) :
    d ∈ T.data := by
  obtain ⟨r, hr, -, rfl⟩ := T.contents_eq_some_iff.1 h
  exact List.mem_map_of_mem hr

end Table

/-! ## Updates that replace the row -/

/-- An update takes every column from the proposed row. -/
def Upsert.Replaces (U : Upsert κ ν) : Prop := ∀ d v, U.key d = U.key v → U.merge d v = v

/-- Rows with distinct keys are stored as they are proposed. -/
theorem Table.contents_putAll_of_replaces (T : Table U) (hU : U.Replaces) {vs : List ν}
    (hnd : (vs.map U.key).Nodup) {v : ν} (hv : v ∈ vs) :
    (T.putAll vs).contents (U.key v) = some v := by
  have hfilter : (vs.filter fun w => U.key w = U.key v) = [v] := by
    have hnd' : (vs.filter fun w => U.key w = U.key v).Nodup := (hnd.of_map _).filter _
    refine List.perm_singleton.1 ((List.perm_ext_iff_of_nodup hnd' (by simp)).2 fun w => ?_)
    simp only [List.mem_filter, decide_eq_true_eq, List.mem_singleton]
    refine ⟨?_, ?_⟩
    · rintro ⟨hw, hk⟩
      exact List.inj_on_of_nodup_map hnd hw hv hk
    · rintro rfl
      exact ⟨hv, rfl⟩
  rw [contents_putAll, hfilter]
  cases hc : T.contents (U.key v) with
  | none => rfl
  | some d => exact congrArg some (hU d v (T.key_of_contents hc))

omit [DecidableEq κ] in
/-- Of the rows of a key, the last one is what counts. -/
theorem Upsert.Replaces.foldl_absorb (hU : U.Replaces) {k : κ} {c : Option ν}
    (hc : ∀ d ∈ c, U.key d = k) {vs : List ν} (hvs : ∀ v ∈ vs, U.key v = k) :
    vs.foldl U.absorb c = vs.getLast?.or c := by
  induction vs generalizing c with
  | nil => simp
  | cons v vs ih =>
    obtain ⟨hv, hvs⟩ := List.forall_mem_cons.1 hvs
    have habsorb : U.absorb c v = some v := by
      cases c with
      | none => rfl
      | some d => exact congrArg some (hU d v ((hc d rfl).trans hv.symm))
    rw [List.foldl_cons, habsorb, ih (by simpa using hv) hvs, List.getLast?_cons]
    cases vs.getLast? <;> rfl

/-- **What a key holds after rows were proposed**: the last of them that has it. -/
theorem Table.contents_putAll_last (T : Table U) (hU : U.Replaces) (vs : List ν) (k : κ) :
    (T.putAll vs).contents k =
      (vs.filter fun v => U.key v = k).getLast?.or (T.contents k) := by
  rw [contents_putAll]
  apply hU.foldl_absorb (k := k)
  · intro d hd
    exact T.key_of_contents hd
  · intro v hv
    simpa using (List.mem_filter.1 hv).2

/-- **What all rows have after a statement**: what the stored rows had and the
proposed ones have. -/
theorem Table.forall_mem_putAll_iff (T : Table U) (hU : U.Replaces) {vs : List ν}
    (hnd : (vs.map U.key).Nodup) {P : ν → Prop} (h : ∀ d ∈ T.data, P d) :
    (∀ d ∈ (T.putAll vs).data, P d) ↔ ∀ v ∈ vs, P v := by
  refine ⟨?_, ?_⟩
  · intro hall v hv
    exact hall v (mem_data_of_contents (T.contents_putAll_of_replaces hU hnd hv))
  · intro hvs
    have hmerge : ∀ r : Row ν, P r.data → ∀ v ∈ vs, U.key r.data = U.key v →
        P (U.merge r.data v) := by
      intro r _ v hv hk
      rw [hU _ _ hk]
      exact hvs v hv
    have hrows := T.forall_mem_putAll (P := fun r => P r.data)
      (fun r hr => h _ (List.mem_map_of_mem hr)) (fun _ _ v hv => hvs v hv) hmerge
    intro d hd
    obtain ⟨r, hr, rfl⟩ := List.mem_map.1 hd
    exact hrows r hr

/-! ## References -/

/-- Every key the column holds is a key of the other table. -/
def Refers (child : Table U) (column : ν → Option κ') (parent : Table V) : Prop :=
  ∀ d ∈ child.data, ∀ k ∈ column d, k ∈ parent.keys

instance (child : Table U) (column : ν → Option κ') (parent : Table V) :
    Decidable (Refers child column parent) :=
  inferInstanceAs (Decidable (∀ d ∈ child.data, ∀ k ∈ column d, k ∈ parent.keys))

theorem refers_empty (column : ν → Option κ') (parent : Table V) :
    Refers (Table.empty : Table U) column parent := by
  intro d hd
  simp at hd

/-- Rows proposed to the table that is referred to. -/
theorem Refers.putAll_parent {child : Table U} {column : ν → Option κ'} {parent : Table V}
    (h : Refers child column parent) (vs : List ν') : Refers child column (parent.putAll vs) := by
  intro d hd k hk
  exact (parent.mem_keys_putAll vs k).2 (.inl (h d hd k hk))

/-- **Rows proposed to the table that refers.** -/
theorem refers_putAll_iff {child : Table U} {column : ν → Option κ'} {parent : Table V}
    (h : Refers child column parent) (hU : U.Replaces) {vs : List ν}
    (hnd : (vs.map U.key).Nodup) :
    Refers (child.putAll vs) column parent ↔ ∀ v ∈ vs, ∀ k ∈ column v, k ∈ parent.keys :=
  child.forall_mem_putAll_iff hU hnd h

/-- A row that is inserted into the table that refers. -/
theorem refers_put_iff {child : Table U} {column : ν → Option κ'} {parent : Table V}
    (h : Refers child column parent) {v : ν} (hv : U.key v ∉ child.keys) :
    Refers (child.put v) column parent ↔ ∀ k ∈ column v, k ∈ parent.keys := by
  unfold Refers
  rw [Table.data_put hv, List.forall_mem_append, List.forall_mem_singleton]
  exact and_iff_right h

end Keyed
