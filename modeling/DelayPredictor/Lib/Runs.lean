import Mathlib

/-!
# Runs of a transition system

The two shapes of run that the rest of the development quantifies over.

* `Run step s l t` — a **labelled relation** run: from `s`, taking the steps
  labelled `l` in order can lead to `t`.  Used where several parties interleave,
  so that one label can have several outcomes or none.
* `replay exec s l` — the run of a **function**: every label has exactly one
  outcome.  Used where a component processes one transaction after another.

For both there is one induction rule per kind of statement, so that a later
proof only has to say what a single step preserves: `Run.invariant` and
`Run.history` for relations, `replay_invariant`, `replay_history` and
`invariant_along_iff` for functions.  `along_iff`: what every step of a run meets can
be checked step after step.
-/

namespace Runs

variable {σ α : Type*}

/-! ## Labelled relations -/

/-- From `s`, the labels `l`, taken in order, lead to the state named last. -/
inductive Run (step : σ → α → σ → Prop) (s : σ) : List α → σ → Prop
  /-- Nothing has happened yet. -/
  | refl : Run step s [] s
  /-- One more step at the end. -/
  | snoc {l : List α} {t : σ} {a : α} {u : σ} :
      Run step s l t → step t a u → Run step s (l ++ [a]) u

namespace Run

variable {step : σ → α → σ → Prop} {s t u : σ} {l m : List α} {a : α}

theorem single (h : step s a t) : Run step s [a] t := Run.refl.snoc h

theorem trans (h₁ : Run step s l t) (h₂ : Run step t m u) : Run step s (l ++ m) u := by
  induction h₂ with
  | refl => simpa using h₁
  | snoc _ hstep ih => rw [← List.append_assoc]; exact ih.snoc hstep

/-- **The invariant rule.**  What holds at the start and is preserved by every
step holds wherever a run leads. -/
theorem invariant {P : σ → Prop} (h : Run step s l t) (h₀ : P s)
    (hstep : ∀ t a u, P t → step t a u → P u) : P t := by
  induction h with
  | refl => exact h₀
  | snoc _ hs ih => exact hstep _ _ _ ih hs

/-- The invariant rule for runs all of whose labels are of one kind. -/
theorem invariant_of_labels {P : σ → Prop} {C : α → Prop} (h : Run step s l t) (h₀ : P s)
    (hC : ∀ a ∈ l, C a) (hstep : ∀ t a u, C a → P t → step t a u → P u) : P t := by
  induction h with
  | refl => exact h₀
  | snoc _ hs ih =>
    exact hstep _ _ _ (hC _ (by simp)) (ih fun b hb => hC b (by simp [hb])) hs

/-- The invariant rule with the labels taken so far in view. -/
theorem history {P : List α → σ → Prop} (h : Run step s l t) (h₀ : P [] s)
    (hstep : ∀ l t a u, Run step s l t → P l t → step t a u → P (l ++ [a]) u) : P l t := by
  induction h with
  | refl => exact h₀
  | snoc hr hs ih => exact hstep _ _ _ _ hr ih hs

/-- A run whose steps are computed. -/
theorem of_foldlM {exec : σ → α → Option σ} (h : l.foldlM exec s = some t) :
    Run (fun s a t => exec s a = some t) s l t := by
  induction l generalizing s with
  | nil =>
    obtain rfl := Option.some.inj h
    exact .refl
  | cons a l ih =>
    rw [List.foldlM_cons] at h
    obtain ⟨u, hu, hrest⟩ := Option.bind_eq_some_iff.1 h
    exact (single hu).trans (ih hrest)

end Run

/-! ## Functions -/

/-- The state after the labels `l`, each executed by `exec`. -/
def replay (exec : σ → α → σ) (s : σ) (l : List α) : σ := l.foldl exec s

variable (exec : σ → α → σ) (s : σ)

@[simp] theorem replay_nil : replay exec s [] = s := rfl

theorem replay_cons (a : α) (l : List α) : replay exec s (a :: l) = replay exec (exec s a) l := rfl

@[simp] theorem replay_snoc (l : List α) (a : α) :
    replay exec s (l ++ [a]) = exec (replay exec s l) a := by
  simp [replay]

theorem replay_append (l m : List α) :
    replay exec s (l ++ m) = replay exec (replay exec s l) m := List.foldl_append

variable {exec s}

/-- The invariant rule for a function. -/
theorem replay_invariant {P : σ → Prop} (h₀ : P s) (hstep : ∀ t a, P t → P (exec t a))
    (l : List α) : P (replay exec s l) := by
  induction l using List.reverseRecOn with
  | nil => exact h₀
  | append_singleton l a ih => rw [replay_snoc]; exact hstep _ _ ih

/-- The invariant rule with the labels executed so far in view. -/
theorem replay_history {P : List α → σ → Prop} (h₀ : P [] s)
    (hstep : ∀ l a, P l (replay exec s l) → P (l ++ [a]) (exec (replay exec s l) a))
    (l : List α) : P l (replay exec s l) := by
  induction l using List.reverseRecOn with
  | nil => exact h₀
  | append_singleton l a ih => rw [replay_snoc]; exact hstep _ _ ih

/-- **The exact invariant rule.**  If a step preserves a property exactly when it
meets a condition, then the property holds all along a run exactly when every
step of the run meets the condition. -/
theorem invariant_along_iff {P : σ → Prop} {C : σ → α → Prop} (h₀ : P s)
    (hstep : ∀ t a, P t → (P (exec t a) ↔ C t a)) (l : List α) :
    (∀ p, p <+: l → P (replay exec s p)) ↔ ∀ p a, p ++ [a] <+: l → C (replay exec s p) a := by
  refine ⟨?_, ?_⟩
  · intro h p a hpa
    have hP := h (p ++ [a]) hpa
    rw [replay_snoc] at hP
    exact (hstep _ a (h p ((List.prefix_append p [a]).trans hpa))).1 hP
  · intro h p hp
    induction p using List.reverseRecOn with
    | nil => exact h₀
    | append_singleton p a ih =>
      rw [replay_snoc]
      exact (hstep _ a (ih ((List.prefix_append p [a]).trans hp))).2 (h p a hp)

/-- Every step of a run meets a condition, step after step. -/
def Along (exec : σ → α → σ) (C : σ → α → Prop) : σ → List α → Prop
  | _, [] => True
  | s, a :: l => C s a ∧ Along exec C (exec s a) l

instance decidableAlong (exec : σ → α → σ) (C : σ → α → Prop) [∀ s a, Decidable (C s a)] :
    ∀ s l, Decidable (Along exec C s l)
  | _, [] => .isTrue trivial
  | s, a :: l =>
    have := decidableAlong exec C (exec s a) l
    inferInstanceAs (Decidable (C s a ∧ Along exec C (exec s a) l))

/-- This is to meet it wherever the run has come to. -/
theorem along_iff {C : σ → α → Prop} {l : List α} :
    Along exec C s l ↔ ∀ p a, p ++ [a] <+: l → C (replay exec s p) a := by
  induction l generalizing s with
  | nil =>
    refine iff_of_true trivial ?_
    intro p a h
    simpa using List.prefix_nil.1 h
  | cons b l ih =>
    show C s b ∧ Along exec C (exec s b) l ↔ _
    rw [ih]
    constructor
    · rintro ⟨hb, hl⟩ p a h
      cases p with
      | nil =>
        obtain rfl : a = b := by simpa using h
        exact hb
      | cons c p =>
        obtain ⟨rfl, htail⟩ := List.cons_prefix_cons.1 h
        exact hl p a htail
    · intro h
      refine ⟨h [] b (by simp), ?_⟩
      intro p a hp
      exact h (b :: p) a (List.cons_prefix_cons.2 ⟨rfl, hp⟩)

end Runs
