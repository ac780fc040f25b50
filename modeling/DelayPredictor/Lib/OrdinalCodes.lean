import Mathlib

/-!
# Ordinal codes

The values of a column as numbers: their positions among the sorted values that occurred
when the codes were fixed, and `-1` for any other value.

* `categories` — the sorted values.
* `encode` — the code of a value.
* `encode_eq_iff` — **when two values share a code**: when they are equal, or neither
  occurred.
-/

namespace OrdinalCodes

variable {α : Type*} [LinearOrder α]

/-- The values that occur, sorted. -/
def categories (xs : List α) : List α := xs.dedup.insertionSort (· ≤ ·)

/-- The position of a value, or `-1`. -/
def encode (cats : List α) (x : α) : ℤ := if x ∈ cats then (cats.idxOf x : ℤ) else -1

@[simp] theorem mem_categories {xs : List α} {x : α} : x ∈ categories xs ↔ x ∈ xs := by
  simp [categories]

/-- **When two values share a code.** -/
theorem encode_eq_iff {cats : List α} {x y : α} :
    encode cats x = encode cats y ↔ x = y ∨ x ∉ cats ∧ y ∉ cats := by
  unfold encode
  by_cases hx : x ∈ cats
  · by_cases hy : y ∈ cats
    · simp only [hx, hy, if_true, Nat.cast_inj, not_true_eq_false, and_self, or_false]
      exact List.idxOf_inj hx
    · have hne : x ≠ y := fun h => hy (h ▸ hx)
      simp only [hx, hy, hne, if_true, if_false, not_true_eq_false, false_and, or_false, iff_false]
      omega
  · by_cases hy : y ∈ cats
    · have hne : x ≠ y := fun h => hx (h ▸ hy)
      simp only [hx, hy, hne, if_true, if_false, not_true_eq_false, and_false, or_false, iff_false]
      omega
    · simp [hx, hy]

end OrdinalCodes
