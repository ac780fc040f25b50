import DelayPredictor.Lib.Newest
import DelayPredictor.Lib.Runs

/-!
# Rows that are kept for some time

A list that rows are appended to and old rows are dropped from, over any run.

* `Op.apply` — appending, and dropping what is older than a cutoff.
* `appended`, `retained` — everything that was appended, and what is left of it;
  `replay_apply`: the latter is what a run leaves.
* `keeps_iff` — **when a condition selects the same of both**: exactly when every row it
  holds of survives whatever is dropped after it.
* `newestRows_perm_iff` — **when the newest rows of every group stay the same.**
-/

namespace Retention

open Newest Runs

variable {α κ : Type*} [DecidableEq κ] {time : α → ℤ} {key : α → κ}

/-- What happens to the list. -/
inductive Op (α : Type*) where
  | append (rows : List α)
  | expire (cutoff : ℤ)

variable (time) in
/-- What is left after it. -/
def Op.apply (rows : List α) : Op α → List α
  | .append new => rows ++ new
  | .expire cutoff => rows.filter fun a => cutoff ≤ time a

variable (time) in
/-- The row is not dropped. -/
def Op.spares (a : α) : Op α → Bool
  | .append _ => true
  | .expire cutoff => cutoff ≤ time a

variable (time) in
/-- The row is never dropped. -/
def survives (ops : List (Op α)) (a : α) : Bool := ops.all (Op.spares time a)

/-- Everything that is appended. -/
def appended : List (Op α) → List α
  | [] => []
  | .append rows :: ops => rows ++ appended ops
  | .expire _ :: ops => appended ops

variable (time) in
/-- What is left of it. -/
def retained : List (Op α) → List α
  | [] => []
  | .append rows :: ops => rows.filter (survives time ops) ++ retained ops
  | .expire _ :: ops => retained ops

/-- **What a run leaves.** -/
theorem replay_apply (rows : List α) (ops : List (Op α)) :
    replay (Op.apply time) rows ops = rows.filter (survives time ops) ++ retained time ops := by
  induction ops generalizing rows with
  | nil => simp [retained, List.filter_eq_self.2 fun a _ => show survives time [] a = true from rfl]
  | cons op ops ih =>
    rw [replay_cons, ih]
    cases op with
    | append new =>
      have hsurvives : survives time (.append new :: ops) = survives time ops := by
        funext a
        simp [survives, Op.spares]
      rw [Op.apply, retained, hsurvives, List.filter_append, List.append_assoc]
    | expire cutoff =>
      rw [Op.apply, retained, List.filter_filter]
      congr 1
      refine List.filter_congr fun a _ => ?_
      simp [survives, Op.spares, Bool.and_comm]

variable (time) in
theorem retained_sublist (ops : List (Op α)) : (retained time ops).Sublist (appended ops) := by
  induction ops with
  | nil => exact .slnil
  | cons op ops ih =>
    cases op with
    | append rows => exact List.filter_sublist.append ih
    | expire cutoff => exact ih

/-- Without anything dropped, all is left. -/
theorem retained_eq_appended {ops : List (Op α)} (h : ∀ cutoff, .expire cutoff ∉ ops) :
    retained time ops = appended ops := by
  induction ops with
  | nil => rfl
  | cons op ops ih =>
    have hops := ih fun cutoff hmem => h cutoff (List.mem_cons_of_mem _ hmem)
    cases op with
    | append rows =>
      have hall : rows.filter (survives time ops) = rows := by
        rw [List.filter_eq_self]
        intro a _
        refine List.all_eq_true.2 fun op hop => ?_
        cases op with
        | append _ => rfl
        | expire cutoff => exact absurd (List.mem_cons_of_mem _ hop) (h cutoff)
      rw [retained, appended, hall, hops]
    | expire cutoff => exact absurd (List.mem_cons_self ..) (h cutoff)

variable (time) in
/-- The row was appended and not dropped since. -/
def Remains (ops : List (Op α)) (a : α) : Prop :=
  ∃ before rows later, ops = before ++ .append rows :: later ∧ a ∈ rows ∧
    survives time later a = true

/-- **What is left** is what remains. -/
theorem mem_retained_iff {ops : List (Op α)} {a : α} :
    a ∈ retained time ops ↔ Remains time ops a := by
  induction ops with
  | nil => simp [retained, Remains]
  | cons op ops ih =>
    constructor
    · intro h
      have hrest : a ∈ retained time ops → Remains time (op :: ops) a := by
        intro hmem
        obtain ⟨before, rows, later, rfl, ha, hlater⟩ := ih.1 hmem
        exact ⟨op :: before, rows, later, rfl, ha, hlater⟩
      cases op with
      | expire cutoff => exact hrest h
      | append rows =>
        rcases List.mem_append.1 h with hrows | hmem
        · obtain ⟨ha, hlater⟩ := List.mem_filter.1 hrows
          exact ⟨[], rows, ops, rfl, ha, hlater⟩
        · exact hrest hmem
    · rintro ⟨before, rows, later, heq, ha, hlater⟩
      cases before with
      | nil =>
        obtain ⟨rfl, rfl⟩ := List.cons.inj heq
        exact List.mem_append_left _ (List.mem_filter.2 ⟨ha, hlater⟩)
      | cons op' before =>
        obtain ⟨rfl, rfl⟩ := List.cons.inj heq
        have hmem := ih.2 ⟨before, rows, later, rfl, ha, hlater⟩
        cases op with
        | append rows' => exact List.mem_append_right _ hmem
        | expire cutoff => exact hmem

/-! ## What a condition selects -/

variable (time) in
/-- Every row with a property survives what comes after it. -/
def Keeps (ops : List (Op α)) (p : α → Prop) : Prop :=
  ∀ before rows later, ops = before ++ .append rows :: later →
    ∀ a ∈ rows, p a → survives time later a = true

theorem keeps_cons {op : Op α} {ops : List (Op α)} {p : α → Prop} :
    Keeps time (op :: ops) p ↔
      (∀ rows, op = .append rows → ∀ a ∈ rows, p a → survives time ops a = true) ∧
        Keeps time ops p := by
  constructor
  · intro h
    constructor
    · rintro rows rfl
      exact h [] rows ops rfl
    · rintro before rows later rfl
      exact h (op :: before) rows later rfl
  · rintro ⟨hfirst, hrest⟩ before rows later heq
    cases before with
    | nil =>
      obtain ⟨rfl, rfl⟩ := List.cons.inj heq
      exact hfirst rows rfl
    | cons op' before =>
      obtain ⟨rfl, rfl⟩ := List.cons.inj heq
      exact hrest before rows later rfl

/-- **When a condition selects the same** of what is left as of everything. -/
theorem keeps_iff {ops : List (Op α)} {p : α → Prop} [DecidablePred p] :
    Keeps time ops p ↔
      (retained time ops).filter (fun a => p a) = (appended ops).filter fun a => p a := by
  induction ops with
  | nil => simp [Keeps, retained, appended]
  | cons op ops ih =>
    rw [keeps_cons, ih]
    cases op with
    | expire cutoff => simp [retained, appended]
    | append rows =>
      have hsub := (retained_sublist time ops).filter fun a => decide (p a)
      have hsub' := (List.filter_sublist (l := rows) (p := survives time ops)).filter
        fun a => decide (p a)
      simp only [retained, appended, List.filter_append, Op.append.injEq, forall_eq']
      constructor
      · rintro ⟨hrows, hops⟩
        rw [hops, List.filter_filter]
        congr 1
        refine List.filter_congr fun a ha => ?_
        by_cases hp : p a
        · simp [hp, hrows a ha hp]
        · simp [hp]
      · intro heq
        have hlen := congrArg List.length heq
        rw [List.length_append, List.length_append] at hlen
        have hle := hsub.length_le
        have hle' := hsub'.length_le
        refine ⟨fun a ha hp => ?_, hsub.eq_of_length (by omega)⟩
        have hfilter := hsub'.eq_of_length (by omega)
        have hmem : a ∈ (rows.filter (survives time ops)).filter fun a => decide (p a) := by
          rw [hfilter]
          exact List.mem_filter.2 ⟨ha, by simpa using hp⟩
        exact (List.mem_filter.1 (List.mem_of_mem_filter hmem)).2

/-! ## The newest rows -/

/-- The rows that are newest in their group. -/
def newestRows [DecidableEq α] (key : α → κ) (time : α → ℤ) (rows : List α) : List α :=
  rows.filter fun a => a ∈ atNewest key time (key a) rows

/-- **When the newest rows of every group stay the same.** -/
theorem newestRows_perm_iff [DecidableEq α] {ops : List (Op α)} :
    (newestRows key time (retained time ops)).Perm (newestRows key time (appended ops)) ↔
      Keeps time ops fun a => a ∈ atNewest key time (key a) (appended ops) := by
  have hsub := retained_sublist time ops
  rw [keeps_iff]
  constructor
  · intro h
    -- What is newest among the retained rows is newest among all.
    have hnewest : newestRows key time (retained time ops) =
        (newestRows key time (retained time ops)).filter
          fun a => a ∈ atNewest key time (key a) (appended ops) := by
      refine (List.filter_eq_self.2 fun a ha => ?_).symm
      exact (List.mem_filter.1 (h.subset ha)).2
    have hle : (newestRows key time (retained time ops)).length ≤
        ((retained time ops).filter
          fun a => a ∈ atNewest key time (key a) (appended ops)).length := by
      rw [hnewest]
      exact (List.filter_sublist.filter _).length_le
    refine (hsub.filter _).eq_of_length (le_antisymm (hsub.filter _).length_le ?_)
    rw [h.length_eq] at hle
    exact hle
  · intro h
    have hsame : newestRows key time (retained time ops) =
        (retained time ops).filter fun a => a ∈ atNewest key time (key a) (appended ops) := by
      refine List.filter_congr fun a ha => decide_eq_decide.2 ?_
      rw [mem_atNewest_iff_le, mem_atNewest_iff_le]
      constructor
      · rintro ⟨-, hmax⟩
        refine ⟨hsub.subset ha, fun b hb hk => ?_⟩
        -- A newest row of the group is retained.
        obtain ⟨c, hc⟩ := List.exists_mem_of_ne_nil _
          (atNewest_ne_nil (newest_ne_bot key time hb))
        obtain ⟨hcmem, hck, -⟩ := mem_atNewest.1 hc
        rw [← hck] at hc
        have hcretained : c ∈ (retained time ops).filter
            fun a => a ∈ atNewest key time (key a) (appended ops) := by
          rw [h]
          exact List.mem_filter.2 ⟨hcmem, by simpa using hc⟩
        calc time b ≤ time c := (mem_atNewest_iff_le.1 hc).2 b hb hck.symm
          _ ≤ time a := hmax c (List.mem_of_mem_filter hcretained) (hck.trans hk)
      · rintro ⟨-, hmax⟩
        exact ⟨ha, fun b hb => hmax b (hsub.subset hb)⟩
    rw [hsame, h]
    exact .refl _

end Retention
