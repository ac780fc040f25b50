import DelayPredictor.Lib.Query

/-!
# Pages of an ordered answer

A client that pages through a statement with an `ORDER BY`, a `LIMIT` and an `OFFSET`: each
page is a statement of its own, and rows that compare equal may come in a different order in
each.

* `Page` — what a page may be.
* `NoTieAt` — no row before a boundary compares equal to a row after it.
* `take_perm` — then every order of the rows has the same rows before the boundary.
* `pages_perm_iff` — **when paging lists every row exactly once**: exactly when no tie
  crosses a page boundary.
-/

namespace Query

variable {α : Type*} {le : α → α → Prop} {selected : List α}

/-- The rows in an order the statement asks for. -/
structure Sorted (le : α → α → Prop) (selected sorted : List α) : Prop where
  perm : sorted.Perm selected
  pairwise : sorted.Pairwise le

variable (le selected) in
/-- A page of the rows. -/
def Page (limit offset : ℕ) (rows : List α) : Prop :=
  ∃ sorted, Sorted le selected sorted ∧ rows = (sorted.drop offset).take limit

variable [DecidableRel le] [Std.Total le] [IsTrans α le]

theorem sorted_insertionSort : Sorted le selected (selected.insertionSort le) :=
  ⟨List.perm_insertionSort le selected, List.pairwise_insertionSort le selected⟩

variable (le selected) in
/-- No row before the boundary compares equal to one after it. -/
def NoTieAt (boundary : ℕ) : Prop :=
  ∀ x ∈ (selected.insertionSort le).take boundary,
    ∀ y ∈ (selected.insertionSort le).drop boundary, ¬ le y x

omit [DecidableRel le] [Std.Total le] [IsTrans α le] in
/-- A sorted list starts with the rows of a set that is closed downwards. -/
theorem filter_append_filter {sorted : List α} (h : sorted.Pairwise le) {p : α → Bool}
    (hp : ∀ a b, le a b → p b = true → p a = true) :
    sorted.filter p ++ sorted.filter (fun a => !p a) = sorted := by
  induction sorted with
  | nil => rfl
  | cons a sorted ih =>
    obtain ⟨hall, hsorted⟩ := List.pairwise_cons.1 h
    cases ha : p a with
    | true => simpa [ha] using ih hsorted
    | false =>
      have hnone : sorted.filter p = [] := by
        rw [List.filter_eq_nil_iff]
        intro b hb hpb
        rw [hp a b (hall b hb) hpb] at ha
        cases ha
      have hrest : sorted.filter (fun a => !p a) = sorted := by
        have := ih hsorted
        rwa [hnone, List.nil_append] at this
      simp [ha, hnone, hrest]

/-- **The rows before a boundary that no tie crosses** are the same in every order. -/
theorem take_perm {boundary : ℕ} (hno : NoTieAt le selected boundary) {sorted : List α}
    (h : Sorted le selected sorted) :
    (sorted.take boundary).Perm ((selected.insertionSort le).take boundary) := by
  classical
  set first := selected.insertionSort le with hfirst
  have hperm : sorted.Perm first := h.perm.trans sorted_insertionSort.perm.symm
  by_cases hlen : boundary ≤ first.length
  · -- The rows below some row before the boundary.
    let p : α → Bool := fun a => decide (∃ x ∈ first.take boundary, le a x)
    have hp : ∀ a b, le a b → p b = true → p a = true := by
      intro a b hab hb
      obtain ⟨x, hx, hbx⟩ := of_decide_eq_true hb
      exact decide_eq_true ⟨x, hx, trans_of le hab hbx⟩
    have hbefore : (first.take boundary).filter p = first.take boundary := by
      rw [List.filter_eq_self]
      exact fun x hx => decide_eq_true ⟨x, hx, (Std.Total.total x x).elim id id⟩
    have hafter : (first.drop boundary).filter p = [] := by
      rw [List.filter_eq_nil_iff]
      intro y hy hpy
      obtain ⟨x, hx, hyx⟩ := of_decide_eq_true hpy
      exact hno x hx y hy hyx
    have hfilter : first.filter p = first.take boundary := by
      conv_lhs => rw [← List.take_append_drop boundary first]
      rw [List.filter_append, hbefore, hafter, List.append_nil]
    have hpermFilter : (sorted.filter p).Perm (first.take boundary) := by
      rw [← hfilter]
      exact hperm.filter p
    have hlength : (sorted.filter p).length = boundary := by
      rw [hpermFilter.length_eq, List.length_take_of_le hlen]
    have htake : sorted.take boundary = sorted.filter p := by
      conv_lhs => rw [← filter_append_filter h.pairwise hp]
      rw [List.take_append_of_le_length hlength.ge, List.take_of_length_le hlength.le]
    rwa [htake]
  · rw [List.take_of_length_le (by rw [hperm.length_eq]; omega),
      List.take_of_length_le (by omega)]
    exact hperm

/-- A page between two boundaries that no tie crosses. -/
theorem Page.perm {limit offset : ℕ} {rows : List α} (h : Page le selected limit offset rows)
    (hstart : NoTieAt le selected offset) (hend : NoTieAt le selected (offset + limit)) :
    rows.Perm (((selected.insertionSort le).drop offset).take limit) := by
  obtain ⟨sorted, hsorted, rfl⟩ := h
  have hwhole := take_perm hend hsorted
  rw [List.take_add, List.take_add] at hwhole
  exact (List.perm_append_left_iff _).1
    (((take_perm hstart hsorted).symm.append_right _).trans hwhole)

/-- The pages of a client, each asked for on its own. -/
def Pages (le : α → α → Prop) (selected : List α) (limit : ℕ) (pages : ℕ → List α) : Prop :=
  ∀ i, Page le selected limit (i * limit) (pages i)

/-- The pages so far are the rows so far. -/
theorem pages_perm_take {limit : ℕ} {pages : ℕ → List α} (h : Pages le selected limit pages)
    (hno : ∀ i, NoTieAt le selected (i * limit)) (n : ℕ) :
    ((List.range n).flatMap pages).Perm ((selected.insertionSort le).take (n * limit)) := by
  induction n with
  | zero => simp
  | succ n ih =>
    have hend : NoTieAt le selected (n * limit + limit) := by
      rw [← Nat.succ_mul]
      exact hno (n + 1)
    rw [List.range_succ, List.flatMap_append, List.flatMap_singleton, Nat.succ_mul, List.take_add]
    exact ih.append ((h n).perm (hno n) hend)

omit [DecidableRel le] [Std.Total le] [IsTrans α le] in
/-- Two neighbours that compare equal may change places. -/
theorem Sorted.swap {before after : List α} {x y : α}
    (h : Sorted le selected (before ++ x :: y :: after)) (hyx : le y x) :
    Sorted le selected (before ++ y :: x :: after) := by
  obtain ⟨hperm, hpairwise⟩ := h
  refine ⟨((List.Perm.swap x y after).append_left before).trans hperm, ?_⟩
  rw [List.pairwise_append, List.pairwise_cons, List.pairwise_cons] at hpairwise ⊢
  obtain ⟨hbefore, ⟨hx, hy, hafter⟩, hcross⟩ := hpairwise
  refine ⟨hbefore, ⟨?_, ?_, hafter⟩, ?_⟩
  · intro b hb
    rcases List.mem_cons.1 hb with rfl | hb
    · exact hyx
    · exact hy b hb
  · exact fun b hb => hx b (List.mem_cons_of_mem y hb)
  · intro a ha b hb
    refine hcross a ha b ?_
    simp only [List.mem_cons] at hb ⊢
    tauto

/-- A tie at a boundary is one between neighbours. -/
theorem exists_neighbours {boundary : ℕ} (h : ¬ NoTieAt le selected boundary) :
    ∃ before x y after, selected.insertionSort le = before ++ x :: y :: after ∧
      before.length + 1 = boundary ∧ le y x := by
  set first := selected.insertionSort le with hfirst
  have hpairwise : first.Pairwise le := List.pairwise_insertionSort le selected
  have hexists : ∃ x ∈ first.take boundary, ∃ y ∈ first.drop boundary, le y x := by
    unfold NoTieAt at h
    push Not at h
    exact h
  obtain ⟨x, hx, y, hy, hyx⟩ := hexists
  have htake : first.take boundary ≠ [] := List.ne_nil_of_mem hx
  have hdrop : first.drop boundary ≠ [] := List.ne_nil_of_mem hy
  obtain ⟨before, x', hbefore⟩ := List.eq_nil_or_concat (first.take boundary) |>.resolve_left htake
  obtain ⟨y', after, hafter⟩ := List.exists_cons_of_ne_nil hdrop
  have hsplit : first = before ++ x' :: y' :: after := by
    rw [← List.take_append_drop boundary first, hbefore, hafter]
    simp
  have hlen : before.length + 1 = boundary := by
    have hlt : boundary < first.length := by
      by_contra hge
      exact hdrop (List.drop_eq_nil_of_le (by omega))
    have := congrArg List.length hbefore
    rw [List.length_take_of_le hlt.le] at this
    simpa using this.symm
  refine ⟨before, x', y', after, hsplit, hlen, ?_⟩
  -- The last row before the boundary is above `x`, the first one after it below `y`.
  have hrefl : ∀ a, le a a := fun a => (Std.Total.total a a).elim id id
  rw [hsplit, List.pairwise_append, List.pairwise_cons] at hpairwise
  obtain ⟨-, ⟨-, hafterSorted⟩, hcross⟩ := hpairwise
  have hxx' : le x x' := by
    rw [hbefore, List.concat_eq_append, List.mem_append, List.mem_singleton] at hx
    rcases hx with hx | rfl
    · exact hcross x hx x' (List.mem_cons_self ..)
    · exact hrefl x
  have hy'y : le y' y := by
    rw [hafter] at hy
    rcases List.mem_cons.1 hy with rfl | hy
    · exact hrefl y
    · exact (List.pairwise_cons.1 hafterSorted).1 y hy
  exact trans_of le hy'y (trans_of le hyx hxx')

/-- **When paging lists every row exactly once**, in whatever order the rows of each page
were sorted. -/
theorem pages_perm_iff (hnodup : selected.Nodup) {limit : ℕ} (hlimit : 0 < limit) :
    (∀ pages, Pages le selected limit pages → ∀ n, selected.length ≤ n * limit →
        ((List.range n).flatMap pages).Perm selected) ↔
      ∀ i, NoTieAt le selected (i * limit) := by
  constructor
  · intro h i
    by_contra htie
    obtain ⟨before, x, y, after, hsplit, hlen, hyx⟩ := exists_neighbours htie
    set first := selected.insertionSort le with hfirst
    have hsorted : Sorted le selected first := sorted_insertionSort
    have hswapped : Sorted le selected (before ++ y :: x :: after) := (hsplit ▸ hsorted).swap hyx
    -- Page `i` is answered in the other order, so that it starts with `x`.
    let pages : ℕ → List α := fun j =>
      if j = i then ((before ++ y :: x :: after).drop (i * limit)).take limit
      else (first.drop (j * limit)).take limit
    have hpages : Pages le selected limit pages := by
      intro j
      by_cases hj : j = i
      · subst hj
        exact ⟨_, hswapped, if_pos rfl⟩
      · exact ⟨_, hsorted, if_neg hj⟩
    -- It is the last row of the page before.
    obtain ⟨k, rfl⟩ : ∃ k, i = k + 1 := by
      cases i with
      | zero => omega
      | succ k => exact ⟨k, rfl⟩
    have hbefore : before.length = k * limit + (limit - 1) := by
      rw [Nat.succ_mul] at hlen
      omega
    have hlast : x ∈ pages k := by
      have hget : ((first.drop (k * limit)).take limit)[limit - 1]? = some x := by
        rw [List.getElem?_take_of_lt (by omega), List.getElem?_drop, hsplit, ← hbefore]
        simp
      rw [show pages k = (first.drop (k * limit)).take limit from if_neg (by omega)]
      exact List.mem_of_getElem? hget
    have hfirstAgain : x ∈ pages (k + 1) := by
      have hget : (((before ++ y :: x :: after).drop ((k + 1) * limit)).take limit)[0]? =
          some x := by
        rw [List.getElem?_take_of_lt hlimit, List.getElem?_drop, ← hlen]
        simp
      rw [show pages (k + 1) = ((before ++ y :: x :: after).drop ((k + 1) * limit)).take limit from
        if_pos rfl]
      exact List.mem_of_getElem? hget
    have hn : selected.length ≤ (k + 2 + selected.length) * limit :=
      (Nat.le_add_left _ _).trans (Nat.le_mul_of_pos_right _ hlimit)
    have hpagesNodup := (h pages hpages _ hn).nodup_iff.2 hnodup
    rw [List.nodup_flatMap] at hpagesNodup
    have hk : k ∈ List.range (k + 2 + selected.length) := List.mem_range.2 (by omega)
    have hk' : k + 1 ∈ List.range (k + 2 + selected.length) := List.mem_range.2 (by omega)
    have hsymm : Std.Symm (Function.onFun List.Disjoint pages) := ⟨fun _ _ h => h.symm⟩
    exact hpagesNodup.2.forall hk hk' (by omega) hlast hfirstAgain
  · intro hno pages hpages n hn
    refine (pages_perm_take hpages hno n).trans ?_
    rw [List.take_of_length_le (by rwa [List.length_insertionSort])]
    exact List.perm_insertionSort le selected

end Query
