import Mathlib

/-!
# Texts joined by a separator

What can be told of the parts of a text from the whole.

* `append_cons_eq_iff` — two pairs of parts give one text **only if the text is cut at
  the same place, or at two of its separators**.
* `append_cons_inj_right` — the last part is known when no separator is in it.
* `sep_not_mem_toString`, `toString_int_injective` — the decimal form of an integer is
  such a part, and tells the integer.
-/

namespace Joined

section

variable {α : Type*} {sep : α} {l l' r r' : List α}

/-- **Two cuts of one text.** -/
theorem append_cons_eq_iff :
    l ++ sep :: r = l' ++ sep :: r' ↔
      (l = l' ∧ r = r') ∨ (∃ t, l' = l ++ sep :: t ∧ r = t ++ sep :: r') ∨
        ∃ t, l = l' ++ sep :: t ∧ r' = t ++ sep :: r := by
  rw [List.append_eq_append_iff]
  refine ⟨?_, ?_⟩
  · rintro (⟨t, rfl, ht⟩ | ⟨t, rfl, ht⟩)
    · rcases List.cons_eq_append_iff.1 ht with ⟨rfl, h⟩ | ⟨t, rfl, rfl⟩
      · obtain ⟨-, rfl⟩ := List.cons.inj h
        exact .inl ⟨by simp, rfl⟩
      · exact .inr (.inl ⟨t, rfl, rfl⟩)
    · rcases List.cons_eq_append_iff.1 ht with ⟨rfl, h⟩ | ⟨t, rfl, rfl⟩
      · obtain ⟨-, rfl⟩ := List.cons.inj h
        exact .inl ⟨by simp, rfl⟩
      · exact .inr (.inr ⟨t, rfl, rfl⟩)
  · rintro (⟨rfl, rfl⟩ | ⟨t, rfl, rfl⟩ | ⟨t, rfl, rfl⟩)
    · exact .inl ⟨[], by simp, by simp⟩
    · exact .inl ⟨sep :: t, rfl, by simp⟩
    · exact .inr ⟨sep :: t, rfl, by simp⟩

/-- The last part has no separator in it. -/
theorem append_cons_inj_right (h : sep ∉ r) (h' : sep ∉ r') :
    l ++ sep :: r = l' ++ sep :: r' ↔ l = l' ∧ r = r' := by
  rw [append_cons_eq_iff]
  refine ⟨?_, ?_⟩
  · rintro (heq | ⟨t, -, rfl⟩ | ⟨t, -, rfl⟩)
    · exact heq
    · exact absurd (by simp) h
    · exact absurd (by simp) h'
  · exact .inl

end

/-! ## Strings -/

section

variable {sep : Char} {s t s' t' : String}

/-- Two cuts of one string. -/
theorem join_eq_iff :
    s ++ String.singleton sep ++ t = s' ++ String.singleton sep ++ t' ↔
      (s = s' ∧ t = t') ∨
        (∃ u, s' = s ++ String.singleton sep ++ u ∧ t = u ++ String.singleton sep ++ t') ∨
          ∃ u, s = s' ++ String.singleton sep ++ u ∧ t' = u ++ String.singleton sep ++ t := by
  have hexists : ∀ p : List Char → Prop, (∃ u : String, p u.toList) ↔ ∃ l, p l := by
    intro p
    refine ⟨?_, ?_⟩
    · rintro ⟨u, h⟩
      exact ⟨u.toList, h⟩
    · rintro ⟨l, h⟩
      exact ⟨String.ofList l, by rwa [String.toList_ofList]⟩
  simp only [← String.toList_inj, String.toList_append, String.toList_singleton,
    List.append_assoc, List.singleton_append]
  rw [append_cons_eq_iff, ← hexists, ← hexists]

/-- The last part has no separator in it. -/
theorem join_inj_right (h : sep ∉ t.toList) (h' : sep ∉ t'.toList) :
    s ++ String.singleton sep ++ t = s' ++ String.singleton sep ++ t' ↔ s = s' ∧ t = t' := by
  simp only [← String.toList_inj, String.toList_append, String.toList_singleton,
    List.append_assoc, List.singleton_append]
  exact append_cons_inj_right h h'

end

/-! ## Decimal numbers -/

theorem not_mem_repr {c : Char} (h : c.isDigit = false) (n : ℕ) : c ∉ n.repr.toList := by
  intro hc
  rw [Nat.toList_repr] at hc
  have hdigit := Nat.isDigit_of_mem_toDigits (by decide) (by decide) hc
  rw [h] at hdigit
  cases hdigit

/-- In a decimal number there is nothing but digits and a sign. -/
theorem sep_not_mem_toString {sep : Char} (hdigit : sep.isDigit = false) (hminus : sep ≠ '-')
    (n : ℤ) : sep ∉ (toString n).toList := by
  rw [Int.toString_eq_repr, Int.repr_eq_if]
  split
  · exact not_mem_repr hdigit _
  · rw [String.toList_append, List.mem_append, not_or]
    exact ⟨by simpa using hminus, not_mem_repr hdigit _⟩

theorem repr_nat_injective : Function.Injective Nat.repr := by
  intro m n h
  have hdigits : Nat.toDigits 10 m = Nat.toDigits 10 n := by
    rw [← Nat.toList_repr, ← Nat.toList_repr, h]
  rw [← Nat.ofDigitChars_ten_toDigits (n := m), hdigits, Nat.ofDigitChars_ten_toDigits]

theorem repr_nat_ne_minus (m n : ℕ) : m.repr ≠ "-" ++ n.repr := by
  intro h
  have hminus : '-' ∈ m.repr.toList := by
    rw [h, String.toList_append]
    simp
  exact not_mem_repr (by decide) m hminus

theorem toString_int_injective : Function.Injective (toString : ℤ → String) := by
  intro m n h
  rw [Int.toString_eq_repr, Int.toString_eq_repr, Int.repr_eq_if, Int.repr_eq_if] at h
  split at h <;> split at h
  · have := repr_nat_injective h
    omega
  · exact absurd h (repr_nat_ne_minus _ _)
  · exact absurd h.symm (repr_nat_ne_minus _ _)
  · have := repr_nat_injective ((String.append_right_inj "-").1 h)
    omega

end Joined
