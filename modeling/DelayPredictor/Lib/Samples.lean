import DelayPredictor.Lib.Stats

/-!
# Samples

A sample is a multiset of integers: the order in which a statement reads the rows it
aggregates does not matter.

* `sampleMean`, `quantile` — the mean and the quantiles of a sample.
* `mean_eq_sampleMean`, `percentileCont_eq_quantile` — the aggregates over a list are
  those of the sample it lists.
-/

namespace Stats

/-- The mean of a sample, 0 of an empty one. -/
def sampleMean (s : Multiset ℤ) : ℚ := s.sum / s.card

/-- The quantile of a sample by linear interpolation; an empty one has none. -/
def quantile (f : ℚ) (s : Multiset ℤ) : Option ℚ := percentileCont f (s.sort (· ≤ ·))

theorem mean_eq_sampleMean (xs : List ℤ) : mean xs = sampleMean xs := by
  unfold mean sampleMean
  rw [Multiset.sum_coe, Multiset.coe_card]

/-- Sorting beforehand changes nothing. -/
theorem percentileCont_insertionSort (f : ℚ) (xs : List ℤ) :
    percentileCont f (xs.insertionSort (· ≤ ·)) = percentileCont f xs := by
  have hsorted : (xs.insertionSort (· ≤ ·)).insertionSort (· ≤ ·) = xs.insertionSort (· ≤ ·) :=
    (List.pairwise_insertionSort (· ≤ ·) xs).insertionSort_eq
  unfold percentileCont
  rw [hsorted, List.length_insertionSort]

theorem percentileCont_eq_quantile (f : ℚ) (xs : List ℤ) :
    percentileCont f xs = quantile f xs := by
  unfold quantile
  rw [Multiset.coe_sort, List.mergeSort_eq_insertionSort, percentileCont_insertionSort]

end Stats
