import Mathlib

/-!
# Batches of a list

A list sent in slices of a fixed size, as `for i in range(0, len(rows), n)` with
`rows[i : i + n]` does.

* `chunks` — the slices, in order.
* `flatten_chunks` — **they make up the list**, whatever their size;
  `foldl_chunks`: so a loop over the slices is a loop over the elements.
-/

namespace Batches

variable {α β : Type*}

/-- The slices of length `n`, the last one with what is left. -/
def chunks (n : ℕ) (l : List α) : List (List α) :=
  (List.range ((l.length + n - 1) / n)).map fun i => (l.drop (i * n)).take n

theorem flatten_slices (n k : ℕ) (l : List α) :
    ((List.range k).map fun i => (l.drop (i * n)).take n).flatten = l.take (k * n) := by
  induction k with
  | zero => simp
  | succ k ih =>
    rw [List.range_succ, List.map_append, List.flatten_append, ih, Nat.succ_mul, List.take_add]
    simp

/-- **The slices make up the list.** -/
theorem flatten_chunks {n : ℕ} (hn : 0 < n) (l : List α) : (chunks n l).flatten = l := by
  unfold chunks
  rw [flatten_slices]
  apply List.take_of_length_le
  have hdiv := Nat.lt_div_mul_add hn (a := l.length + n - 1)
  omega

/-- No slice is longer than the size, or than the list. -/
theorem length_le_of_mem_chunks {n : ℕ} {l b : List α} (hb : b ∈ chunks n l) :
    b.length ≤ min n l.length := by
  obtain ⟨i, -, rfl⟩ := List.mem_map.1 hb
  simp only [List.length_take, List.length_drop]
  omega

/-- The first slice is as long as that. -/
theorem exists_mem_chunks_length {n : ℕ} (hn : 0 < n) {l : List α} (hl : l ≠ []) :
    ∃ b ∈ chunks n l, b.length = min n l.length := by
  have hpos : 0 < l.length := List.length_pos_of_ne_nil hl
  refine ⟨l.take n, List.mem_map.2 ⟨0, ?_, by simp⟩, List.length_take⟩
  rw [List.mem_range]
  exact Nat.div_pos (by omega) hn

/-- What bounds the slices bounds the longest one. -/
theorem forall_chunks_mul_le_iff {n : ℕ} (hn : 0 < n) {l : List α} {k m : ℕ} :
    (∀ b ∈ chunks n l, k * b.length ≤ m) ↔ k * min n l.length ≤ m := by
  constructor
  · intro h
    rcases eq_or_ne l [] with rfl | hl
    · simp
    · obtain ⟨b, hb, hlength⟩ := exists_mem_chunks_length hn hl
      exact hlength ▸ h b hb
  · intro h b hb
    exact (Nat.mul_le_mul_left k (length_le_of_mem_chunks hb)).trans h

theorem chunks_map (f : α → β) (n : ℕ) (l : List α) :
    chunks n (l.map f) = (chunks n l).map (List.map f) := by
  simp [chunks, List.map_take, List.map_drop]

/-- What the slices have, seen through a function of the elements. -/
theorem forall_chunks_map {f : α → β} {n : ℕ} {l : List α} {P : List β → Prop} :
    (∀ b ∈ chunks n (l.map f), P b) ↔ ∀ b ∈ chunks n l, P (b.map f) := by
  rw [chunks_map, List.forall_mem_map]

/-- What all elements of all slices have. -/
theorem forall_mem_chunks {n : ℕ} (hn : 0 < n) {l : List α} {P : α → Prop} :
    (∀ b ∈ chunks n l, ∀ a ∈ b, P a) ↔ ∀ a ∈ l, P a := by
  rw [← List.forall_mem_flatten, flatten_chunks hn]

/-- A loop over the slices that handles each as a loop over its elements. -/
theorem foldl_chunks {n : ℕ} (hn : 0 < n) (f : β → α → β) (b : β) (l : List α) :
    (chunks n l).foldl (fun b slice => slice.foldl f b) b = l.foldl f b := by
  rw [← List.foldl_flatten, flatten_chunks hn]

example : chunks 2 [1, 2, 3, 4, 5] = [[1, 2], [3, 4], [5]] := by decide

end Batches
