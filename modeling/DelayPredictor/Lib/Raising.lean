import Mathlib

/-!
# Computations that may raise

Python's exceptions as `Except`, and the loop that most ingest code is.

* `bind_eq_ok_iff` — a sequence goes through when its parts do.
* `collect` — a loop that appends what its body yields for an element, or skips
  it; the first exception ends it.  `collect_isOk_iff`: **it goes through when
  its body does everywhere**; `collect_eq_ok_iff`: what it then yields.
* `Settles` — a computation that ends normally when its requirements are met,
  and otherwise raises an exception that names one that is not.
-/

namespace Raising

universe u v w

variable {ε : Type u} {α β : Type v}

/-! ## Sequences and guards -/

theorem bind_eq_ok_iff {x : Except ε α} {f : α → Except ε β} {b : β} :
    (x >>= f) = .ok b ↔ ∃ a, x = .ok a ∧ f a = .ok b := by
  cases x with
  | error e =>
    refine ⟨?_, ?_⟩
    · intro h; cases h
    · rintro ⟨a, h, -⟩; cases h
  | ok a =>
    refine ⟨?_, ?_⟩
    · intro h; exact ⟨a, rfl, h⟩
    · rintro ⟨_, ha, hf⟩; cases ha; exact hf

theorem pure_eq_ok_iff {a b : α} : (pure a : Except ε α) = .ok b ↔ a = b :=
  Except.ok.injEq a b ▸ Iff.rfl

theorem map_eq_ok_iff {x : Except ε α} {f : α → β} {b : β} :
    x.map f = .ok b ↔ ∃ a, x = .ok a ∧ f a = b := by
  cases x <;> simp [Except.map]

theorem mapError_eq_ok_iff {ε' : Type u} {x : Except ε α} {f : ε → ε'} {a : α} :
    x.mapError f = .ok a ↔ x = .ok a := by
  cases x <;> simp [Except.mapError]

/-- A guard that lets a value through. -/
theorem ite_isOk_iff {p : Prop} [Decidable p] {a : α} {e : ε} :
    (∃ b, (if p then Except.ok a else Except.error e) = .ok b) ↔ p := by
  by_cases h : p <;> simp [h]

/-- A guard that stops it. -/
theorem ite_isOk_iff_not {p : Prop} [Decidable p] {a : α} {e : ε} :
    (∃ b, (if p then Except.error e else Except.ok a) = .ok b) ↔ ¬ p := by
  by_cases h : p <;> simp [h]

/-! ## Loops -/

/-- Related lists with all elements good exist exactly when good related elements do. -/
theorem exists_forall₂_iff {α β : Type*} {R : α → β → Prop} {good : β → Prop} (l : List α) :
    (∃ rs, List.Forall₂ R l rs ∧ ∀ r ∈ rs, good r) ↔ ∀ x ∈ l, ∃ r, R x r ∧ good r := by
  induction l with
  | nil => simp
  | cons x l ih =>
    rw [List.forall_mem_cons, ← ih]
    refine ⟨?_, ?_⟩
    · rintro ⟨rs, hrs, hall⟩
      cases hrs with
      | cons hx hl =>
        rw [List.forall_mem_cons] at hall
        exact ⟨⟨_, hx, hall.1⟩, _, hl, hall.2⟩
    · rintro ⟨⟨r, hx, hr⟩, rs, hl, hall⟩
      exact ⟨r :: rs, .cons hx hl, List.forall_mem_cons.2 ⟨hr, hall⟩⟩

/-- What is true of related elements exactly when it is true of the first of them is so of
related lists. -/
theorem forall₂_iff_forall_mem {α β : Type*} {R P : α → β → Prop} {Q : α → Prop} {l : List α}
    {rs : List β} (h : List.Forall₂ R l rs) (hiff : ∀ x r, R x r → (P x r ↔ Q x)) :
    List.Forall₂ P l rs ↔ ∀ x ∈ l, Q x := by
  induction h with
  | nil => simp
  | cons hx _ ih => rw [List.forall₂_cons, List.forall_mem_cons, hiff _ _ hx, ih]

variable {γ : Type w}

/-- A loop: what its body yields, element by element. -/
def collect (body : γ → Except ε (Option β)) : List γ → Except ε (List β)
  | [] => .ok []
  | c :: cs => do
    let r ← body c
    let rs ← collect body cs
    return r.toList ++ rs

variable {body : γ → Except ε (Option β)}

/-- **What a loop yields** when it goes through. -/
theorem collect_eq_ok_iff {cs : List γ} {bs : List β} :
    collect body cs = .ok bs ↔
      ∃ rs, List.Forall₂ (fun c r => body c = .ok r) cs rs ∧ rs.reduceOption = bs := by
  induction cs generalizing bs with
  | nil =>
    simp only [collect, Except.ok.injEq, List.forall₂_nil_left_iff, exists_eq_left,
      List.reduceOption_nil]
  | cons c cs ih =>
    simp only [collect, bind_eq_ok_iff, pure_eq_ok_iff, ih, List.forall₂_cons_left_iff]
    refine ⟨?_, ?_⟩
    · rintro ⟨r, hr, _, ⟨rs, hrs, rfl⟩, rfl⟩
      refine ⟨r :: rs, ⟨r, rs, hr, hrs, rfl⟩, ?_⟩
      cases r <;> rfl
    · rintro ⟨_, ⟨r, rs, hr, hrs, rfl⟩, rfl⟩
      refine ⟨r, hr, _, ⟨rs, hrs, rfl⟩, ?_⟩
      cases r <;> rfl

/-- **When a loop goes through.** -/
theorem collect_isOk_iff {cs : List γ} :
    (∃ bs, collect body cs = .ok bs) ↔ ∀ c ∈ cs, ∃ r, body c = .ok r := by
  have h := @exists_forall₂_iff _ _ (fun c r => body c = .ok r) (fun _ => True) cs
  simp only [implies_true, and_true] at h
  rw [← h]
  simp only [collect_eq_ok_iff]
  refine ⟨?_, ?_⟩
  · rintro ⟨_, rs, hrs, -⟩
    exact ⟨rs, hrs⟩
  · rintro ⟨rs, hrs⟩
    exact ⟨_, rs, hrs, rfl⟩

/-- What the body yields for an element is among what the loop yields. -/
theorem mem_collect {cs : List γ} {bs : List β} (h : collect body cs = .ok bs) {c : γ}
    (hc : c ∈ cs) : ∃ r, body c = .ok r ∧ ∀ b, r = some b → b ∈ bs := by
  obtain ⟨rs, hrs, rfl⟩ := collect_eq_ok_iff.1 h
  obtain ⟨i, hi, rfl⟩ := List.getElem_of_mem hc
  have hi' : i < rs.length := hrs.length_eq ▸ hi
  refine ⟨rs[i], hrs.get hi hi', fun b hb => ?_⟩
  rw [List.reduceOption_mem_iff, ← hb]
  exact List.getElem_mem hi'

/-- **What a loop yields for the elements it keeps**, in order. -/
theorem forall₂_collect {kept : γ → Bool}
    (hkept : ∀ c r, body c = .ok r → r.isSome = kept c) {cs : List γ} {bs : List β}
    (h : collect body cs = .ok bs) :
    List.Forall₂ (fun c b => body c = .ok (some b)) (cs.filter kept) bs := by
  induction cs generalizing bs with
  | nil =>
    cases h
    exact .nil
  | cons c cs ih =>
    obtain ⟨r, hr, h⟩ := bind_eq_ok_iff.1 h
    obtain ⟨rs, hrs, h⟩ := bind_eq_ok_iff.1 h
    obtain rfl := pure_eq_ok_iff.1 h
    cases r with
    | none =>
      rw [List.filter_cons_of_neg (by simp [← hkept c none hr])]
      exact ih hrs
    | some b =>
      rw [List.filter_cons_of_pos (by simp [← hkept c (some b) hr])]
      exact .cons hr (ih hrs)

/-- What is seen of the values a loop yields, if it is seen of the elements already. -/
theorem map_collect {κ : Type*} {f : β → κ} {g : γ → Option κ}
    (hbody : ∀ c r, body c = .ok r → r.map f = g c) {cs : List γ} {bs : List β}
    (h : collect body cs = .ok bs) : bs.map f = cs.filterMap g := by
  induction cs generalizing bs with
  | nil =>
    cases h
    rfl
  | cons c cs ih =>
    obtain ⟨r, hr, h⟩ := bind_eq_ok_iff.1 h
    obtain ⟨rs, hrs, h⟩ := bind_eq_ok_iff.1 h
    obtain rfl := pure_eq_ok_iff.1 h
    have hc := hbody c r hr
    rw [List.map_append, ih hrs, List.filterMap_cons, ← hc]
    cases r with
    | none => rfl
    | some b => rfl

/-- What all values have that a loop yields. -/
theorem forall_mem_collect_iff {P : β → Prop} {cs : List γ} {bs : List β}
    (h : collect body cs = .ok bs) :
    (∀ b ∈ bs, P b) ↔ ∀ c ∈ cs, ∃ r, body c = .ok r ∧ ∀ b, r = some b → P b := by
  induction cs generalizing bs with
  | nil =>
    cases h
    simp
  | cons c cs ih =>
    obtain ⟨r, hr, h⟩ := bind_eq_ok_iff.1 h
    obtain ⟨rs, hrs, h⟩ := bind_eq_ok_iff.1 h
    obtain rfl := pure_eq_ok_iff.1 h
    rw [List.forall_mem_cons, ← ih hrs, List.forall_mem_append]
    simp [hr]

/-- Elements and values of which the same is seen. -/
theorem map_eq_of_forall₂ {κ : Type*} {R : γ → β → Prop} {g : γ → κ} {f : β → κ} {cs : List γ}
    {bs : List β} (h : List.Forall₂ R cs bs) (hR : ∀ c b, R c b → g c = f b) :
    cs.map g = bs.map f := by
  induction h with
  | nil => rfl
  | cons hcb _ ih => rw [List.map_cons, List.map_cons, hR _ _ hcb, ih]

/-! ## Requirements -/

section Settles

variable {K : Type*} {kind : ε → K}

/-- The computation ends normally, with `Q`, if all requirements are met; an
exception names one that is not. -/
def Settles (kind : ε → K) (req : K → Prop) (x : Except ε α) (Q : α → Prop) : Prop :=
  match x with
  | .ok a => (∀ k, req k) ∧ Q a
  | .error e => ¬ req (kind e)

variable {req req' : K → Prop} {x : Except ε α} {Q : α → Prop}

theorem Settles.congr (h : Settles kind req x Q) (hreq : ∀ k, req k ↔ req' k) :
    Settles kind req' x Q := by
  obtain rfl : req = req' := funext fun k => propext (hreq k)
  exact h

theorem Settles.imp {Q' : α → Prop} (h : Settles kind req x Q) (hQ : ∀ a, Q a → Q' a) :
    Settles kind req x Q' := by
  cases x with
  | ok a => exact ⟨h.1, hQ a h.2⟩
  | error e => exact h

/-- The second part of a sequence may count on what the first requires. -/
theorem Settles.bind {f : α → Except ε β} {Q' : β → Prop} (h : Settles kind req x Q)
    (hf : ∀ a, (∀ k, req k) → Q a → Settles kind req' (f a) Q') :
    Settles kind (fun k => req k ∧ req' k) (x >>= f) Q' := by
  cases x with
  | error e => exact fun hreq => h hreq.1
  | ok a =>
    have hfa := hf a h.1 h.2
    show Settles kind _ (f a) Q'
    cases hx : f a with
    | ok b =>
      rw [hx] at hfa
      exact ⟨fun k => ⟨h.1 k, hfa.1 k⟩, hfa.2⟩
    | error e =>
      rw [hx] at hfa
      exact fun hreq => hfa hreq.2

theorem Settles.map {f : α → β} {Q' : β → Prop} (h : Settles kind req x Q)
    (hf : ∀ a, Q a → Q' (f a)) : Settles kind req (x.map f) Q' := by
  cases x with
  | ok a => exact ⟨h.1, hf a h.2⟩
  | error e => exact h

theorem Settles.mapError {ε' : Type u} {f : ε → ε'} {kind : ε' → K}
    (h : Settles (fun e => kind (f e)) req x Q) : Settles kind req (x.mapError f) Q := by
  cases x with
  | ok a => exact h
  | error e => exact h

/-- **It ends normally exactly when all requirements are met.** -/
theorem Settles.isOk_iff (h : Settles kind req x Q) : (∃ a, x = .ok a) ↔ ∀ k, req k := by
  cases x with
  | ok a => exact ⟨fun _ => h.1, fun _ => ⟨a, rfl⟩⟩
  | error e =>
    refine ⟨?_, ?_⟩
    · rintro ⟨a, ha⟩
      cases ha
    · intro hreq
      exact absurd (hreq _) h

theorem Settles.not_of_error {e : ε} (h : Settles kind req x Q) (hx : x = .error e) :
    ¬ req (kind e) := by
  subst hx
  exact h

end Settles

end Raising
