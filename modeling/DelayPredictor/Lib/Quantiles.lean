import DelayPredictor.Lib.Stats

/-!
# Quantiles and rounding

What interpolation between sorted values, averaging and rounding keep of the values.

* `lerp` — linear interpolation between values at the integers; `lerp_mono`: **it is
  monotone where the values are**.
* `orderStat` — the values of a list in order; `orderStat_sat_iff`: **how many values meet
  a downward closed predicate** is where the ordered values stop meeting it.
* `percentileCont_eq_lerp`, `percentileCont_mono` — a percentile interpolates the ordered
  values, and a higher one is no smaller.
* `lt_roundHalfEven_iff` — **when a rounded number exceeds an integer**; rounding is
  monotone and leaves integers alone.
-/

namespace Stats

/-! ## Interpolation -/

section Interpolation

variable {K : Type*} [Field K] [LinearOrder K] [IsStrictOrderedRing K] [FloorRing K]

/-- The value at `p`, on the lines between the values at the integers. -/
def lerp (d : ℤ → K) (p : K) : K := d ⌊p⌋ + (p - ⌊p⌋) * (d ⌈p⌉ - d ⌊p⌋)

variable {d : ℤ → K} {p q : K}

theorem floor_le_lerp (h : d ⌊p⌋ ≤ d ⌈p⌉) : d ⌊p⌋ ≤ lerp d p := by
  have hrest : 0 ≤ p - ⌊p⌋ := sub_nonneg.2 (Int.floor_le p)
  have hstep := mul_nonneg hrest (sub_nonneg.2 h)
  unfold lerp
  linarith

theorem lerp_le_ceil (h : d ⌊p⌋ ≤ d ⌈p⌉) : lerp d p ≤ d ⌈p⌉ := by
  have hrest : 0 ≤ 1 - (p - ⌊p⌋) := by linarith [Int.lt_floor_add_one p]
  have hstep := mul_nonneg hrest (sub_nonneg.2 h)
  unfold lerp
  linarith

/-- **Interpolation is monotone** where the values are. -/
theorem lerp_mono (hd : MonotoneOn d (Set.Icc ⌊p⌋ ⌈q⌉)) (h : p ≤ q) : lerp d p ≤ lerp d q := by
  have hfloor : ⌊p⌋ ≤ ⌊q⌋ := Int.floor_mono h
  have hceil : ⌈p⌉ ≤ ⌈q⌉ := Int.ceil_mono h
  have hp : ⌊p⌋ ≤ ⌈p⌉ := Int.floor_le_ceil p
  have hq : ⌊q⌋ ≤ ⌈q⌉ := Int.floor_le_ceil q
  have hdp : d ⌊p⌋ ≤ d ⌈p⌉ := hd ⟨le_rfl, by omega⟩ ⟨hp, hceil⟩ hp
  have hdq : d ⌊q⌋ ≤ d ⌈q⌉ := hd ⟨hfloor, hq⟩ ⟨by omega, le_rfl⟩ hq
  rcases hfloor.eq_or_lt with heq | hlt
  · -- on one line, or starting from its left end
    rcases (Int.floor_le p).eq_or_lt with hint | hfrac
    · have hval : lerp d p = d ⌊p⌋ := by
        unfold lerp
        rw [sub_eq_zero.2 hint.symm, zero_mul, add_zero]
      rw [hval, heq]
      exact floor_le_lerp hdq
    · have hcp : ⌈p⌉ = ⌊p⌋ + 1 := Int.ceil_eq_floor_add_one_iff_notMem p |>.2 <| by
        rintro ⟨n, rfl⟩
        simp at hfrac
      have hcq : ⌈q⌉ = ⌊p⌋ + 1 := by
        have := Int.ceil_le_floor_add_one q
        omega
      unfold lerp
      rw [← heq, hcp, hcq]
      rw [hcp] at hdp
      have hstep := mul_le_mul_of_nonneg_right (sub_le_sub_right h (⌊p⌋ : K)) (sub_nonneg.2 hdp)
      linarith
  · have hmid : ⌈p⌉ ≤ ⌊q⌋ := by
      have := Int.ceil_le_floor_add_one p
      omega
    calc lerp d p ≤ d ⌈p⌉ := lerp_le_ceil hdp
      _ ≤ d ⌊q⌋ := hd ⟨hp, hceil⟩ ⟨hfloor, hq⟩ hmid
      _ ≤ lerp d q := floor_le_lerp hdq

/-- To the right of an integer. -/
theorem lerp_add {t : K} (k : ℤ) (h₀ : 0 ≤ t) (h₁ : t < 1) :
    lerp d (k + t) = d k + t * (d (k + 1) - d k) := by
  have hfloor : ⌊(k : K) + t⌋ = k := by
    rw [Int.floor_eq_iff]
    constructor <;> linarith
  unfold lerp
  rw [hfloor, add_sub_cancel_left]
  rcases h₀.eq_or_lt with rfl | hpos
  · simp
  · have hceil : ⌈(k : K) + t⌉ = k + 1 := by
      rw [Int.ceil_eq_iff]
      push_cast
      constructor <;> linarith
    rw [hceil]

/-- To the left of an integer. -/
theorem lerp_sub {t : K} (k : ℤ) (h₀ : 0 ≤ t) (h₁ : t < 1) :
    lerp d (k - t) = d k - t * (d k - d (k - 1)) := by
  rcases h₀.eq_or_lt with rfl | hpos
  · simp [lerp]
  · have hshift : (k : K) - t = (k - 1 : ℤ) + (1 - t) := by
      push_cast
      ring
    rw [hshift, lerp_add (k - 1) (by linarith) (by linarith), sub_add_cancel]
    ring

end Interpolation

/-! ## Values in order -/

/-- The value at a place of the sorted list. -/
def orderStat (xs : List ℤ) (i : ℕ) : ℤ := (xs.insertionSort (· ≤ ·)).getD i 0

section Order

variable (xs : List ℤ)

theorem orderStat_eq {i : ℕ} (h : i < xs.length) :
    (xs.insertionSort (· ≤ ·))[i]? = some (orderStat xs i) := by
  have hi : i < (xs.insertionSort (· ≤ ·)).length := by rwa [List.length_insertionSort]
  simp [orderStat, List.getElem?_eq_getElem hi]

theorem orderStat_mem {i : ℕ} (h : i < xs.length) : orderStat xs i ∈ xs := by
  have hmem := List.mem_of_getElem? (orderStat_eq xs h)
  rwa [List.mem_insertionSort] at hmem

theorem orderStat_mono {i j : ℕ} (hij : i ≤ j) (hj : j < xs.length) :
    orderStat xs i ≤ orderStat xs j := by
  have hsorted := List.pairwise_insertionSort (· ≤ ·) xs
  obtain ⟨hlti, heqi⟩ := List.getElem?_eq_some_iff.1 (orderStat_eq xs (hij.trans_lt hj))
  obtain ⟨hltj, heqj⟩ := List.getElem?_eq_some_iff.1 (orderStat_eq xs hj)
  rcases hij.eq_or_lt with rfl | hlt
  · exact le_rfl
  · rw [← heqi, ← heqj]
    exact List.pairwise_iff_getElem.1 hsorted _ _ hlti hltj hlt

/-- In a sorted list the values that meet a downward closed predicate come first. -/
theorem sat_iff_lt_countP {P : ℤ → Bool} (hP : ∀ a b, a ≤ b → P b = true → P a = true)
    {l : List ℤ} (hl : l.Pairwise (· ≤ ·)) {i : ℕ} (hi : i < l.length) :
    P l[i] = true ↔ i < l.countP P := by
  induction l generalizing i with
  | nil => simp at hi
  | cons a l ih =>
    obtain ⟨ha, hl⟩ := List.pairwise_cons.1 hl
    by_cases hPa : P a = true
    · rw [List.countP_cons_of_pos hPa]
      cases i with
      | zero => simp [hPa]
      | succ i => simpa using ih hl (by simpa using hi)
    · have hnone : ∀ b ∈ l, ¬ P b = true := fun b hb hPb => hPa (hP a b (ha b hb) hPb)
      rw [List.countP_cons_of_neg hPa, List.countP_eq_zero.2 hnone]
      cases i with
      | zero => simp [hPa]
      | succ i => simpa using hnone _ (List.getElem_mem _)

/-- **How many values meet a downward closed predicate.** -/
theorem orderStat_sat_iff {P : ℤ → Bool} (hP : ∀ a b, a ≤ b → P b = true → P a = true)
    {i : ℕ} (hi : i < xs.length) : P (orderStat xs i) = true ↔ i < xs.countP P := by
  have hlt : i < (xs.insertionSort (· ≤ ·)).length := by rwa [List.length_insertionSort]
  have hsat := sat_iff_lt_countP hP (List.pairwise_insertionSort (· ≤ ·) xs) hlt
  rw [(List.perm_insertionSort (· ≤ ·) xs).countP_eq] at hsat
  have hget : orderStat xs i = (xs.insertionSort (· ≤ ·))[i] := by
    simp [orderStat, List.getElem?_eq_getElem hlt]
  rwa [hget]

end Order

/-! ## Averages and percentiles -/

section Bounds

variable {xs : List ℤ} {lo hi : ℤ}

/-- The average is no smaller than every value. -/
theorem le_mean (h : xs ≠ []) (hlo : ∀ x ∈ xs, lo ≤ x) : (lo : ℚ) ≤ mean xs := by
  have hlen : (0 : ℚ) < xs.length := by exact_mod_cast List.length_pos_of_ne_nil h
  have hsum := List.card_nsmul_le_sum xs lo hlo
  rw [nsmul_eq_mul] at hsum
  unfold mean
  rw [le_div_iff₀ hlen, mul_comm]
  exact_mod_cast hsum

/-- The average is no larger than every value. -/
theorem mean_le (h : xs ≠ []) (hhi : ∀ x ∈ xs, x ≤ hi) : mean xs ≤ hi := by
  have hlen : (0 : ℚ) < xs.length := by exact_mod_cast List.length_pos_of_ne_nil h
  have hsum := List.sum_le_card_nsmul xs hi hhi
  rw [nsmul_eq_mul] at hsum
  unfold mean
  rw [div_le_iff₀ hlen, mul_comm]
  exact_mod_cast hsum

/-- The position of a percentile is between the first and the last place. -/
theorem position_mem {f : ℚ} (h₀ : 0 ≤ f) (h₁ : f ≤ 1) (h : xs ≠ []) :
    0 ≤ ⌊f * ((xs.length : ℚ) - 1)⌋ ∧ ⌈f * ((xs.length : ℚ) - 1)⌉ ≤ (xs.length : ℤ) - 1 := by
  have hlen : (1 : ℚ) ≤ xs.length := by exact_mod_cast List.length_pos_of_ne_nil h
  refine ⟨?_, ?_⟩
  · exact Int.floor_nonneg.2 (mul_nonneg h₀ (by linarith))
  · rw [Int.ceil_le]
    push_cast
    exact mul_le_of_le_one_left (by linarith) h₁

/-- **A percentile interpolates the ordered values.** -/
theorem percentileCont_eq_lerp {f : ℚ} (h₀ : 0 ≤ f) (h₁ : f ≤ 1) (h : xs ≠ []) :
    percentileCont f xs =
      some (lerp (fun i => (orderStat xs i.toNat : ℚ)) (f * ((xs.length : ℚ) - 1))) := by
  obtain ⟨hfloor, hceil⟩ := position_mem h₀ h₁ h
  have hle := Int.floor_le_ceil (f * ((xs.length : ℚ) - 1))
  have hlo := orderStat_eq xs (i := ⌊f * ((xs.length : ℚ) - 1)⌋.toNat) (by omega)
  have hhi := orderStat_eq xs (i := ⌈f * ((xs.length : ℚ) - 1)⌉.toNat) (by omega)
  simp [percentileCont, lerp, hlo, hhi]

theorem exists_percentileCont {f : ℚ} (h₀ : 0 ≤ f) (h₁ : f ≤ 1) (h : xs ≠ []) :
    ∃ x, percentileCont f xs = some x :=
  ⟨_, percentileCont_eq_lerp h₀ h₁ h⟩

/-- The ordered values as rationals. -/
theorem castOrderStat_mono (xs : List ℤ) :
    MonotoneOn (fun i : ℤ => (orderStat xs i.toNat : ℚ)) (Set.Icc 0 ((xs.length : ℤ) - 1)) := by
  rintro i ⟨hi, -⟩ j ⟨-, hj⟩ hij
  exact Int.cast_le.2 (orderStat_mono xs (by omega) (by omega))

/-- **A higher percentile is no smaller.** -/
theorem percentileCont_mono {f g x y : ℚ} (h₀ : 0 ≤ f) (hfg : f ≤ g) (h₁ : g ≤ 1) (h : xs ≠ [])
    (hx : percentileCont f xs = some x) (hy : percentileCont g xs = some y) : x ≤ y := by
  rw [percentileCont_eq_lerp h₀ (hfg.trans h₁) h] at hx
  rw [percentileCont_eq_lerp (h₀.trans hfg) h₁ h] at hy
  obtain rfl := Option.some.inj hx
  obtain rfl := Option.some.inj hy
  have hlen : (1 : ℚ) ≤ xs.length := by exact_mod_cast List.length_pos_of_ne_nil h
  apply lerp_mono
  · apply (castOrderStat_mono xs).mono
    apply Set.Icc_subset_Icc
    · exact (position_mem h₀ (hfg.trans h₁) h).1
    · exact (position_mem (h₀.trans hfg) h₁ h).2
  · exact mul_le_mul_of_nonneg_right hfg (by linarith)

/-- A percentile is no smaller than the least value, and no larger than the greatest. -/
theorem percentileCont_mem {f x : ℚ} (h₀ : 0 ≤ f) (h₁ : f ≤ 1) (h : xs ≠ [])
    (hlo : ∀ x ∈ xs, lo ≤ x) (hhi : ∀ x ∈ xs, x ≤ hi) (hx : percentileCont f xs = some x) :
    (lo : ℚ) ≤ x ∧ x ≤ hi := by
  rw [percentileCont_eq_lerp h₀ h₁ h] at hx
  obtain rfl := Option.some.inj hx
  obtain ⟨hfloor, hceil⟩ := position_mem h₀ h₁ h
  have hle := Int.floor_le_ceil (f * ((xs.length : ℚ) - 1))
  have hnodes := castOrderStat_mono xs ⟨hfloor, by omega⟩ ⟨by omega, hceil⟩ hle
  refine ⟨?_, ?_⟩
  · refine le_trans ?_ (floor_le_lerp hnodes)
    exact Int.cast_le.2 (hlo _ (orderStat_mem xs (by omega)))
  · refine (lerp_le_ceil hnodes).trans ?_
    exact Int.cast_le.2 (hhi _ (orderStat_mem xs (by omega)))

end Bounds

/-! ## Rounding -/

/-- **When a rounded number exceeds an integer.** -/
theorem lt_roundHalfEven_iff {n : ℤ} {q : ℚ} :
    n < roundHalfEven q ↔ (n : ℚ) + 1 / 2 < q ∨ q = n + 1 / 2 ∧ n % 2 = 1 := by
  have hlo := Int.floor_le q
  have hhi := Int.lt_floor_add_one q
  rcases lt_trichotomy n ⌊q⌋ with hlt | rfl | hgt
  · -- a whole unit below
    have hle : (n : ℚ) + 1 ≤ ⌊q⌋ := by exact_mod_cast hlt
    have hround : n < roundHalfEven q := by
      unfold roundHalfEven
      dsimp only
      split_ifs <;> omega
    exact iff_of_true hround (.inl (by linarith))
  · unfold roundHalfEven
    dsimp only
    split_ifs with h₁ h₂ h₃
    · refine iff_of_false (lt_irrefl _) ?_
      rintro (h | ⟨h, -⟩) <;> linarith
    · exact iff_of_true (by omega) (.inl (by linarith))
    · refine iff_of_false (lt_irrefl _) ?_
      rintro (h | ⟨-, h⟩)
      · linarith
      · omega
    · exact iff_of_true (by omega) (.inr ⟨by linarith, by omega⟩)
  · have hle : (⌊q⌋ : ℚ) + 1 ≤ n := by exact_mod_cast hgt
    have hround : ¬ n < roundHalfEven q := by
      unfold roundHalfEven
      dsimp only
      split_ifs <;> omega
    refine iff_of_false hround ?_
    rintro (h | ⟨h, -⟩) <;> linarith

/-- When a rounded number is less than an integer. -/
theorem roundHalfEven_lt_iff {n : ℤ} {q : ℚ} :
    roundHalfEven q < n ↔ q < (n : ℚ) - 1 / 2 ∨ q = n - 1 / 2 ∧ n % 2 = 1 := by
  have h := @lt_roundHalfEven_iff (n - 1) q
  push_cast at h
  have hhalf : (n : ℚ) - 1 + 1 / 2 = n - 1 / 2 := by ring
  rw [hhalf] at h
  refine ⟨?_, ?_⟩
  · intro hlt
    have hnot : ¬ n - 1 < roundHalfEven q := by omega
    rw [h, not_or] at hnot
    rcases (not_lt.1 hnot.1).eq_or_lt with heq | hlt
    · have hmod : ¬ (n - 1) % 2 = 1 := fun hmod => hnot.2 ⟨heq, hmod⟩
      exact .inr ⟨heq, by omega⟩
    · exact .inl hlt
  · intro hlt
    by_contra hge
    have hgt : n - 1 < roundHalfEven q := by omega
    rcases h.1 hgt with h' | ⟨h', hmod'⟩ <;> rcases hlt with h'' | ⟨h'', hmod''⟩
    · linarith
    · linarith
    · linarith
    · omega

/-- **Rounding is monotone.** -/
theorem roundHalfEven_mono {a b : ℚ} (h : a ≤ b) : roundHalfEven a ≤ roundHalfEven b := by
  rw [← not_lt]
  intro hlt
  have hb := lt_irrefl (roundHalfEven b)
  rw [lt_roundHalfEven_iff] at hlt hb
  apply hb
  rcases hlt with hlt | ⟨heq, hodd⟩
  · exact .inl (by linarith)
  · rcases h.eq_or_lt with rfl | hlt
    · exact .inr ⟨heq, hodd⟩
    · exact .inl (by linarith)

/-- Integers are left alone. -/
@[simp] theorem roundHalfEven_intCast (n : ℤ) : roundHalfEven n = n := by
  simp [roundHalfEven]

theorem le_roundHalfEven {n : ℤ} {q : ℚ} (h : (n : ℚ) ≤ q) : n ≤ roundHalfEven q := by
  simpa using roundHalfEven_mono h

theorem roundHalfEven_le {n : ℤ} {q : ℚ} (h : q ≤ n) : roundHalfEven q ≤ n := by
  simpa using roundHalfEven_mono h

end Stats
