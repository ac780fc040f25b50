import Mathlib

/-!
# Ordered and limited answers

What a database may answer to a statement with an `ORDER BY` and a `LIMIT`: rows that
compare equal come in any order.

* `Answers` — the selected rows in some order that is sorted, cut off at a limit.
* `Answers.perm` — within the limit nothing is left out; `exists_answers` — there is an
  answer.
* `answers_iff` — **what an answer is**, for rows that occur once: sorted rows, as many as
  there may be, and none that is left out comes strictly before one of them.
* `First` — the answer with a limit of one; `first_some_iff`: **the row is one that no
  selected row comes strictly before**, and any of these may be the one.
-/

namespace Query

variable {α : Type*} (le : α → α → Prop)

/-- The rows a statement may return. -/
def Answers (limit : ℕ) (selected rows : List α) : Prop :=
  ∃ sorted : List α, sorted.Perm selected ∧ sorted.Pairwise le ∧ rows = sorted.take limit

/-- The row a statement with a limit of one may return. -/
def First (selected : List α) (row : Option α) : Prop := Answers le 1 selected row.toList

variable {le} {limit : ℕ} {selected rows : List α}

theorem Answers.mem (h : Answers le limit selected rows) {a : α} (ha : a ∈ rows) :
    a ∈ selected := by
  obtain ⟨sorted, hperm, -, rfl⟩ := h
  exact hperm.subset (List.mem_of_mem_take ha)

theorem Answers.pairwise (h : Answers le limit selected rows) : rows.Pairwise le := by
  obtain ⟨sorted, -, hsorted, rfl⟩ := h
  exact hsorted.sublist (List.take_sublist limit sorted)

/-- **Within the limit nothing is left out.** -/
theorem Answers.perm (h : Answers le limit selected rows) (hlimit : selected.length ≤ limit) :
    rows.Perm selected := by
  obtain ⟨sorted, hperm, -, rfl⟩ := h
  rwa [List.take_of_length_le (by rwa [hperm.length_eq])]

/-- There is no first row when there is none at all. -/
theorem first_none_iff : First le selected none ↔ selected = [] := by
  constructor
  · rintro ⟨sorted, hperm, -, hnil⟩
    cases sorted with
    | nil => exact hperm.symm.eq_nil
    | cons a rest => cases hnil
  · rintro rfl
    exact ⟨[], .refl _, .nil, rfl⟩

section Total

variable [DecidableRel le] [Std.Total le] [IsTrans α le]

/-- **There is an answer.** -/
theorem exists_answers (le : α → α → Prop) [DecidableRel le] [Std.Total le] [IsTrans α le]
    (limit : ℕ) (selected : List α) : ∃ rows, Answers le limit selected rows :=
  ⟨_, selected.insertionSort le, List.perm_insertionSort le selected,
    List.pairwise_insertionSort le selected, rfl⟩

/-- **What an answer is**, for rows that occur once. -/
theorem answers_iff (hnodup : selected.Nodup) :
    Answers le limit selected rows ↔ rows.Pairwise le ∧ rows.Nodup ∧ rows ⊆ selected ∧
      rows.length = min limit selected.length ∧
      ∀ a ∈ selected, a ∉ rows → ∀ b ∈ rows, le b a := by
  classical
  constructor
  · rintro ⟨sorted, hperm, hsorted, rfl⟩
    have hsplit := List.take_append_drop limit sorted
    refine ⟨hsorted.sublist (List.take_sublist limit sorted),
      (hperm.nodup_iff.2 hnodup).sublist (List.take_sublist limit sorted),
      fun a ha => hperm.subset (List.mem_of_mem_take ha),
      by rw [List.length_take, hperm.length_eq], fun a ha hout b hb => ?_⟩
    have hrest : a ∈ sorted.drop limit := by
      have hmem := hperm.symm.subset ha
      rw [← hsplit, List.mem_append] at hmem
      exact hmem.resolve_left hout
    rw [← hsplit, List.pairwise_append] at hsorted
    exact hsorted.2.2 b hb a hrest
  · rintro ⟨hsorted, hrows, hsub, hlen, hout⟩
    let rest := selected.filter fun a => a ∉ rows
    have hperm : (rows ++ rest).Perm selected := by
      refine (List.perm_ext_iff_of_nodup ?_ hnodup).2 fun a => ?_
      · refine List.Nodup.append hrows (hnodup.filter _) fun a ha ha' => ?_
        have hnot := (List.mem_filter.1 ha').2
        simp only [decide_eq_true_eq] at hnot
        exact hnot ha
      · by_cases ha : a ∈ rows
        · simp [ha, hsub ha]
        · simp [rest, ha]
    refine ⟨rows ++ rest.insertionSort le, ?_, ?_, ?_⟩
    · exact ((List.perm_insertionSort le rest).append_left rows).trans hperm
    · rw [List.pairwise_append]
      refine ⟨hsorted, List.pairwise_insertionSort le rest, fun b hb a ha => ?_⟩
      have hmem := List.mem_filter.1 ((List.perm_insertionSort le rest).subset ha)
      exact hout a hmem.1 (by simpa using hmem.2) b hb
    · have hcount := hperm.length_eq
      rw [List.length_append] at hcount
      rcases le_total limit selected.length with hle | hle
      · rw [min_eq_left hle] at hlen
        rw [List.take_append_of_le_length hlen.ge, List.take_of_length_le hlen.le]
      · rw [min_eq_right hle] at hlen
        have hnil : rest = [] := List.length_eq_zero_iff.1 (by omega)
        rw [hnil, List.insertionSort_nil, List.append_nil,
          List.take_of_length_le (by omega)]

/-- **The first row** is one that no selected row comes strictly before. -/
theorem first_some_iff {a : α} :
    First le selected (some a) ↔ a ∈ selected ∧ ∀ b ∈ selected, le a b := by
  constructor
  · rintro ⟨sorted, hperm, hsorted, hrow⟩
    cases sorted with
    | nil => cases hrow
    | cons b rest =>
      obtain rfl : a = b := by simpa using hrow
      refine ⟨hperm.subset (List.mem_cons_self ..), ?_⟩
      intro c hc
      rcases List.mem_cons.1 (hperm.symm.subset hc) with rfl | hrest
      · exact (Std.Total.total c c).elim id id
      · exact (List.pairwise_cons.1 hsorted).1 c hrest
  · rintro ⟨ha, hfirst⟩
    obtain ⟨before, after, rfl⟩ := List.append_of_mem ha
    refine ⟨a :: (before ++ after).insertionSort le, ?_, ?_, by simp⟩
    · exact ((List.perm_insertionSort le _).cons a).trans List.perm_middle.symm
    · rw [List.pairwise_cons]
      refine ⟨?_, List.pairwise_insertionSort le _⟩
      intro b hb
      have hmem : b ∈ before ++ after := (List.perm_insertionSort le _).subset hb
      apply hfirst
      rw [List.mem_append] at hmem ⊢
      exact hmem.imp_right (List.mem_cons_of_mem a)

theorem exists_first (le : α → α → Prop) [DecidableRel le] [Std.Total le] [IsTrans α le]
    (selected : List α) : ∃ row, First le selected row := by
  obtain ⟨rows, sorted, hperm, hsorted, rfl⟩ := exists_answers le 1 selected
  refine ⟨sorted.head?, sorted, hperm, hsorted, ?_⟩
  cases sorted <;> simp

end Total

end Query
