import Mathlib

/-!
# Aggregates over stored numbers

The aggregates a database and its client compute, in exact rationals.

* `XFloat` — a double: a finite value, one of the infinities, or not-a-number.
* `avg` — `AVG` over a nullable column of doubles: nulls are skipped, and a
  single special value decides the result.
* `finiteMean` — the mean of the finite values only; `avg_eq_finiteMean`: **the two
  agree** on a column without special values.
* `mean`, `percentileCont` — `AVG` and `PERCENTILE_CONT` over integers, the
  latter as linear interpolation at position `f · (n - 1)` of the sorted values.
* `latestBy` — the first row of `ORDER BY time DESC`; of rows at the same time,
  which a database may return in any order, the one that comes first.
* `roundHalfEven` — Python's `round`, which sends half-way points to the even
  neighbour.
-/

namespace Stats

/-! ## Doubles -/

/-- A double-precision value, its finite part exact. -/
inductive XFloat where
  /-- A finite value. -/
  | fin (q : ℚ)
  /-- Positive infinity. -/
  | posInf
  /-- Negative infinity. -/
  | negInf
  /-- Not a number. -/
  | nan
  deriving DecidableEq, Repr

namespace XFloat

/-- Addition. -/
def add : XFloat → XFloat → XFloat
  | nan, _ => nan
  | _, nan => nan
  | posInf, negInf => nan
  | negInf, posInf => nan
  | posInf, _ => posInf
  | _, posInf => posInf
  | negInf, _ => negInf
  | _, negInf => negInf
  | fin a, fin b => fin (a + b)

/-- Division by a positive count. -/
def divNat (n : ℕ) : XFloat → XFloat
  | fin a => fin (a / n)
  | x => x

/-- The number, if it is finite. -/
def toRat? : XFloat → Option ℚ
  | fin a => some a
  | _ => none

/-- `x > q`; a comparison with not-a-number is false. -/
def gt (q : ℚ) : XFloat → Bool
  | fin a => q < a
  | posInf => true
  | negInf => false
  | nan => false

@[simp] theorem gt_nan (q : ℚ) : nan.gt q = false := rfl

end XFloat

/-- `AVG` over a nullable column of doubles; null when every value is. -/
def avg (column : List (Option XFloat)) : Option XFloat :=
  let values := column.reduceOption
  if values = [] then none
  else some ((values.foldl XFloat.add (.fin 0)).divNat values.length)

/-- The mean of the finite values of a nullable column; null when there are none. -/
def finiteMean (column : List (Option XFloat)) : Option XFloat :=
  let values := column.filterMap fun x => x.bind XFloat.toRat?
  if values = [] then none else some (.fin (values.sum / values.length))

theorem foldl_add_fin (a : ℚ) (qs : List ℚ) :
    (qs.map XFloat.fin).foldl XFloat.add (.fin a) = .fin (a + qs.sum) := by
  induction qs generalizing a with
  | nil => simp
  | cons q qs ih =>
    rw [List.map_cons, List.foldl_cons, XFloat.add, ih, List.sum_cons, add_assoc]

/-- **`AVG` is the mean** of a column that holds finite values and nulls only. -/
theorem avg_eq_finiteMean {column : List (Option XFloat)}
    (h : ∀ x ∈ column.reduceOption, x.toRat? ≠ none) : avg column = finiteMean column := by
  have hvalues : column.reduceOption =
      (column.filterMap fun x => x.bind XFloat.toRat?).map XFloat.fin := by
    induction column with
    | nil => rfl
    | cons x column ih =>
      cases x with
      | none => exact ih h
      | some x =>
        rw [List.reduceOption_cons_of_some, List.forall_mem_cons] at h
        rw [List.reduceOption_cons_of_some, ih h.2]
        cases x with
        | fin q => rfl
        | posInf => exact absurd rfl h.1
        | negInf => exact absurd rfl h.1
        | nan => exact absurd rfl h.1
  unfold avg finiteMean
  rw [hvalues]
  dsimp only
  rw [foldl_add_fin, zero_add, List.length_map]
  simp only [List.map_eq_nil_iff]
  rfl

/-! ## Integers -/

/-- `AVG` over integers, 0 when there are none (the client's `mean or 0.0`). -/
def mean (xs : List ℤ) : ℚ := xs.sum / xs.length

/-- `PERCENTILE_CONT(f) WITHIN GROUP (ORDER BY x)`; null when there is no value. -/
def percentileCont (f : ℚ) (xs : List ℤ) : Option ℚ :=
  let sorted := xs.insertionSort (· ≤ ·)
  let position := f * ((xs.length : ℚ) - 1)
  do
    let lo ← sorted[⌊position⌋.toNat]?
    let hi ← sorted[⌈position⌉.toNat]?
    return lo + (position - ⌊position⌋) * (hi - lo)

/-- A percentile of some values is one. -/
theorem percentileCont_ne_none {f : ℚ} (hf : f ≤ 1) {xs : List ℤ} (h : xs ≠ []) :
    percentileCont f xs ≠ none := by
  have hlen : 0 < xs.length := List.length_pos_of_ne_nil h
  have hcast : (1 : ℚ) ≤ xs.length := by exact_mod_cast hlen
  have hpos : f * ((xs.length : ℚ) - 1) ≤ ((xs.length - 1 : ℤ) : ℚ) := by
    push_cast
    exact mul_le_of_le_one_left (by linarith) hf
  have hceil : ⌈f * ((xs.length : ℚ) - 1)⌉ ≤ xs.length - 1 := Int.ceil_le.2 hpos
  have hfloor : ⌊f * ((xs.length : ℚ) - 1)⌋ ≤ ⌈f * ((xs.length : ℚ) - 1)⌉ := Int.floor_le_ceil _
  have hlo : ⌊f * ((xs.length : ℚ) - 1)⌋.toNat < (xs.insertionSort (· ≤ ·)).length := by
    rw [List.length_insertionSort]
    omega
  have hhi : ⌈f * ((xs.length : ℚ) - 1)⌉.toNat < (xs.insertionSort (· ≤ ·)).length := by
    rw [List.length_insertionSort]
    omega
  simp only [percentileCont, List.getElem?_eq_getElem hlo, List.getElem?_eq_getElem hhi]
  simp

/-- `ORDER BY time DESC LIMIT 1`. -/
def latestBy {α : Type*} (time : α → ℤ) : List α → Option α
  | [] => none
  | x :: xs =>
    match latestBy time xs with
    | none => some x
    | some y => if time x < time y then some y else some x

/-- Python's `round` to an integer: halves go to the even neighbour. -/
def roundHalfEven (q : ℚ) : ℤ :=
  let below := ⌊q⌋
  let rest := q - below
  if rest < 1 / 2 then below
  else if 1 / 2 < rest then below + 1
  else if below % 2 = 0 then below else below + 1

end Stats
