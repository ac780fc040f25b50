import DelayPredictor.Lib.Runs

/-!
# Reordered runs and footprints

When two orders of the same transactions lead to the same state, and which
transactions a part of the state depends on.

* `Swaps indep l m` — `l` becomes `m` by exchanging neighbours that are independent.
* `SameOrder kind dep l m` — the labels of any two dependent kinds come in the same
  order in `l` and in `m`.  `swaps_iff_sameOrder` — **the two are the same relation**:
  an order is determined up to independent exchanges by its projections.
  `SameOrder.replay_eq` — so runs of the same order lead to the same state.
* `Footprint` — what a function on a state made of named parts reads and writes.
  `Footprint.commute` — functions with disjoint footprints commute.
* `slice_agrees` — **a part of the state is determined by the labels that write into
  what it depends on**: all others may be left out of the run.
-/

namespace Traces

open Runs

variable {α κ σ : Type*}

/-! ## Exchanges of neighbours -/

/-- One exchange of two independent neighbours. -/
inductive Swap (indep : α → α → Prop) : List α → List α → Prop
  | mk (u v : List α) (a b : α) (h : indep a b) : Swap indep (u ++ a :: b :: v) (u ++ b :: a :: v)

/-- Any number of exchanges. -/
def Swaps (indep : α → α → Prop) : List α → List α → Prop := Relation.ReflTransGen (Swap indep)

section Swaps

variable {indep : α → α → Prop}

theorem Swap.cons {l m : List α} (h : Swap indep l m) (a : α) :
    Swap indep (a :: l) (a :: m) := by
  obtain ⟨u, v, b, c, hbc⟩ := h
  exact .mk (a :: u) v b c hbc

theorem Swaps.cons {l m : List α} (h : Swaps indep l m) (a : α) :
    Swaps indep (a :: l) (a :: m) := by
  induction h with
  | refl => exact .refl
  | tail _ hstep ih => exact ih.tail (hstep.cons a)

/-- A label that is independent of everything before it can be exchanged to the front. -/
theorem swaps_to_front {u : List α} {a : α} (h : ∀ b ∈ u, indep a b) (v : List α) :
    Swaps indep (a :: (u ++ v)) (u ++ a :: v) := by
  induction u with
  | nil => exact .refl
  | cons b u ih =>
    have hstep : Swap indep (a :: b :: (u ++ v)) (b :: a :: (u ++ v)) :=
      .mk [] (u ++ v) a b (h b (by simp))
    have hrest := ih fun c hc => h c (by simp [hc])
    exact .head hstep (hrest.cons b)

/-- Exchanges of commuting labels do not change where a run leads. -/
theorem Swaps.replay_eq {exec : σ → α → σ}
    (hcomm : ∀ a b, indep a b → ∀ s, exec (exec s a) b = exec (exec s b) a)
    {l m : List α} (h : Swaps indep l m) (s : σ) : replay exec s l = replay exec s m := by
  induction h with
  | refl => rfl
  | tail _ hstep ih =>
    obtain ⟨u, v, a, b, hab⟩ := hstep
    rw [ih, replay_append, replay_append, replay_cons, replay_cons, replay_cons, replay_cons,
      hcomm a b hab]

end Swaps

/-! ## The order of dependent kinds -/

section SameOrder

variable [DecidableEq κ] (kind : α → κ) (dep : κ → κ → Prop)

/-- The labels of two kinds, in order. -/
def projection (i j : κ) (l : List α) : List α := l.filter fun a => kind a = i ∨ kind a = j

/-- The labels of any two dependent kinds come in the same order. -/
def SameOrder (l m : List α) : Prop :=
  ∀ i j, dep i j → projection kind i j l = projection kind i j m

/-- Labels of kinds that do not depend on each other. -/
def Independent (a b : α) : Prop := ¬ dep (kind a) (kind b)

variable {kind dep}

theorem projection_append (i j : κ) (l m : List α) :
    projection kind i j (l ++ m) = projection kind i j l ++ projection kind i j m :=
  List.filter_append ..

theorem projection_cons_of_mem {i j : κ} {a : α} (h : kind a = i ∨ kind a = j) (l : List α) :
    projection kind i j (a :: l) = a :: projection kind i j l := by
  simp [projection, h]

theorem projection_cons_of_not_mem {i j : κ} {a : α} (h : ¬ (kind a = i ∨ kind a = j))
    (l : List α) : projection kind i j (a :: l) = projection kind i j l := by
  simp [projection, h]

theorem projection_eq_nil {i j : κ} {l : List α} (h : ∀ b ∈ l, ¬ (kind b = i ∨ kind b = j)) :
    projection kind i j l = [] := by
  rw [projection, List.filter_eq_nil_iff]
  simpa using h

/-- What stands before the first label of a kind in `m`, when `m` is ordered like a
list that starts with such a label, is independent of it. -/
theorem independent_before {a : α} {l u v : List α} (hu : ∀ b ∈ u, kind b ≠ kind a)
    (h : SameOrder kind dep (a :: l) (u ++ a :: v)) : ∀ b ∈ u, Independent kind dep a b := by
  intro b hb hdep
  have hproj := h _ _ hdep
  rw [projection_cons_of_mem (.inl rfl), projection_append] at hproj
  have hmem : b ∈ projection kind (kind a) (kind b) u := by simp [projection, hb]
  cases hp : projection kind (kind a) (kind b) u with
  | nil => simp [hp] at hmem
  | cons c rest =>
    -- The projection of `m` starts inside `u`, and the other one with `a`.
    rw [hp] at hproj
    obtain rfl : a = c := (List.cons.inj hproj).1
    have hc : a ∈ projection kind (kind a) (kind b) u := by simp [hp]
    exact hu a (List.mem_of_mem_filter hc) rfl

/-- **An order is determined, up to exchanges of independent neighbours, by its
projections on the pairs of dependent kinds.** -/
theorem swaps_of_sameOrder (hrefl : ∀ i, dep i i) (hsymm : ∀ i j, dep i j → dep j i)
    {l m : List α} (h : SameOrder kind dep l m) : Swaps (Independent kind dep) l m := by
  induction l generalizing m with
  | nil =>
    cases m with
    | nil => exact .refl
    | cons b m =>
      have hproj := h _ _ (hrefl (kind b))
      rw [projection_cons_of_mem (.inl rfl)] at hproj
      cases hproj
  | cons a l ih =>
    have hself := h _ _ (hrefl (kind a))
    rw [projection_cons_of_mem (.inl rfl)] at hself
    -- `a` is the first label of its kind in `m`.
    obtain ⟨u, v, rfl, hu, -, -⟩ := List.filter_eq_cons_iff.1 hself.symm
    have hu' : ∀ b ∈ u, kind b ≠ kind a := by simpa using hu
    have hind := independent_before hu' h
    have hrest : SameOrder kind dep l (u ++ v) := by
      intro i j hij
      have hproj := h i j hij
      rw [projection_append] at hproj ⊢
      by_cases ha : kind a = i ∨ kind a = j
      · have hnil : projection kind i j u = [] := by
          refine projection_eq_nil fun b hb hbk => hind b hb ?_
          rcases ha with ha | ha <;> rcases hbk with hbk | hbk
          · exact absurd (hbk.trans ha.symm) (hu' b hb)
          · rw [ha, hbk]; exact hij
          · rw [ha, hbk]; exact hsymm i j hij
          · exact absurd (hbk.trans ha.symm) (hu' b hb)
        rw [projection_cons_of_mem ha, projection_cons_of_mem ha, hnil] at hproj
        rw [hnil]
        exact (List.cons.inj hproj).2
      · rwa [projection_cons_of_not_mem ha, projection_cons_of_not_mem ha] at hproj
    exact ((ih hrest).cons a).trans (swaps_to_front hind v)

/-- Exchanges of independent labels do not reorder labels of dependent kinds. -/
theorem sameOrder_of_swaps (hrefl : ∀ i, dep i i) (hsymm : ∀ i j, dep i j → dep j i)
    {l m : List α} (h : Swaps (Independent kind dep) l m) : SameOrder kind dep l m := by
  induction h with
  | refl => exact fun _ _ _ => rfl
  | tail _ hstep ih =>
    obtain ⟨u, v, a, b, hab⟩ := hstep
    intro i j hij
    rw [ih i j hij, projection_append, projection_append]
    congr 1
    by_cases ha : kind a = i ∨ kind a = j
    · have hb : ¬ (kind b = i ∨ kind b = j) := by
        intro hb
        refine hab ?_
        rcases ha with ha | ha <;> rcases hb with hb | hb <;> rw [ha, hb]
        · exact hrefl i
        · exact hij
        · exact hsymm i j hij
        · exact hrefl j
      rw [projection_cons_of_mem ha, projection_cons_of_not_mem hb,
        projection_cons_of_not_mem hb, projection_cons_of_mem ha]
    · rw [projection_cons_of_not_mem ha]
      by_cases hb : kind b = i ∨ kind b = j
      · rw [projection_cons_of_mem hb, projection_cons_of_mem hb, projection_cons_of_not_mem ha]
      · rw [projection_cons_of_not_mem hb, projection_cons_of_not_mem hb,
          projection_cons_of_not_mem ha]

/-- **To exchange independent neighbours is to keep the order of the dependent kinds.** -/
theorem swaps_iff_sameOrder (hrefl : ∀ i, dep i i) (hsymm : ∀ i j, dep i j → dep j i)
    {l m : List α} : Swaps (Independent kind dep) l m ↔ SameOrder kind dep l m :=
  ⟨sameOrder_of_swaps hrefl hsymm, swaps_of_sameOrder hrefl hsymm⟩

/-- **Runs of the same order agree**, if labels of kinds that do not depend on each
other commute. -/
theorem SameOrder.replay_eq {exec : σ → α → σ} (hrefl : ∀ i, dep i i)
    (hsymm : ∀ i j, dep i j → dep j i)
    (hcomm : ∀ a b, ¬ dep (kind a) (kind b) → ∀ s, exec (exec s a) b = exec (exec s b) a)
    {l m : List α} (h : SameOrder kind dep l m) (s : σ) : replay exec s l = replay exec s m :=
  (swaps_of_sameOrder hrefl hsymm h).replay_eq hcomm s

end SameOrder

/-! ## Footprints -/

section Footprints

variable {ι : Type*} {T : ι → Type*} (get : σ → ∀ i, T i)

/-- Two states agree on some of their parts. -/
def AgreeOn (parts : Set ι) (s t : σ) : Prop := ∀ i ∈ parts, get s i = get t i

/-- `f` leaves every part outside `writes` alone, and what it makes of a part in there
is determined by the `inputs` of that part. -/
structure Footprint (f : σ → σ) (writes : Set ι) (inputs : ι → Set ι) : Prop where
  frame : ∀ s, ∀ i ∉ writes, get (f s) i = get s i
  inputs : ∀ s t, ∀ i ∈ writes, AgreeOn get (inputs i) s t → get (f s) i = get (f t) i

variable {get} {f g : σ → σ} {W W' : Set ι} {R R' : ι → Set ι}

/-- The footprint of a function that writes one part. -/
theorem footprint_single {i : ι} (hframe : ∀ s, ∀ j ≠ i, get (f s) j = get s j)
    (hinputs : ∀ s t, AgreeOn get (R i) s t → get (f s) i = get (f t) i) :
    Footprint get f {i} R where
  frame := fun s j hj => hframe s j hj
  inputs := by
    rintro s t j rfl h
    exact hinputs s t h

/-- Functions that write different parts commute, as far as a part tells, if neither
makes something else of it after the other. -/
theorem commute_of_frames (hf : ∀ s, ∀ i ∉ W, get (f s) i = get s i)
    (hg : ∀ s, ∀ i ∉ W', get (g s) i = get s i) (hww : Disjoint W W') {s : σ} {i : ι}
    (hfi : i ∈ W → get (f (g s)) i = get (f s) i)
    (hgi : i ∈ W' → get (g (f s)) i = get (g s) i) : get (f (g s)) i = get (g (f s)) i := by
  by_cases hi : i ∈ W
  · calc get (f (g s)) i = get (f s) i := hfi hi
      _ = get (g (f s)) i := (hg _ i (Set.disjoint_left.1 hww hi)).symm
  · rw [hf _ i hi]
    by_cases hi' : i ∈ W'
    · exact (hgi hi').symm
    · rw [hg _ i hi', hg _ i hi', hf _ i hi]

/-- **Functions of which neither writes or takes as input what the other writes
commute**, as far as the parts of the state tell. -/
theorem Footprint.commute (hf : Footprint get f W R) (hg : Footprint get g W' R')
    (hww : Disjoint W W') (hrw : ∀ i ∈ W, Disjoint (R i) W') (hwr : ∀ i ∈ W', Disjoint (R' i) W)
    (s : σ) (i : ι) : get (f (g s)) i = get (g (f s)) i := by
  refine commute_of_frames hf.frame hg.frame hww ?_ ?_
  · intro hi
    exact hf.inputs _ _ i hi fun j hj => hg.frame s j (Set.disjoint_left.1 (hrw i hi) hj)
  · intro hi
    exact hg.inputs _ _ i hi fun j hj => hf.frame s j (Set.disjoint_left.1 (hwr i hi) hj)

/-- States that agree on some parts agree on them afterwards, if these are the only
inputs of those among them that are written. -/
theorem Footprint.agree {V : Set ι} (hf : Footprint get f W R)
    (hclosed : ∀ i ∈ W, i ∈ V → R i ⊆ V) {s t : σ} (h : AgreeOn get V s t) :
    AgreeOn get V (f s) (f t) := by
  intro i hi
  by_cases hw : i ∈ W
  · exact hf.inputs s t i hw fun j hj => h j (hclosed i hw hi hj)
  · rw [hf.frame s i hw, hf.frame t i hw]
    exact h i hi

/-- **Labels that write into none of the parts may be left out**, if the inputs of the
parts are among them. -/
theorem slice_agrees {exec : σ → α → σ} {writes : α → Set ι} {inputs : α → ι → Set ι} {V : Set ι}
    (hexec : ∀ a, Footprint get (exec · a) (writes a) (inputs a))
    (hclosed : ∀ a, ∀ i ∈ writes a, i ∈ V → inputs a i ⊆ V) {p : α → Bool}
    (hp : ∀ a, p a = false → Disjoint (writes a) V) (l : List α) (s : σ) :
    AgreeOn get V (replay exec s l) (replay exec s (l.filter p)) := by
  induction l using List.reverseRecOn with
  | nil => exact fun i _ => rfl
  | append_singleton l a ih =>
    rw [replay_snoc, List.filter_append, List.filter_singleton]
    cases ha : p a with
    | true =>
      rw [cond_true, replay_snoc]
      exact (hexec a).agree (hclosed a) ih
    | false =>
      rw [cond_false, List.append_nil]
      intro i hi
      exact ((hexec a).frame _ i (Set.disjoint_right.1 (hp a ha) hi)).trans (ih i hi)

end Footprints

end Traces
