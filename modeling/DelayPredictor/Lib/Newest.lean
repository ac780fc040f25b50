import Mathlib

/-!
# The newest rows of a group

Rows carry a key and a time; the rows of a group are those with one key.

* `newest` — the newest time in a group, `⊥` when the group is empty.
* `atNewest` — the rows of a group at that time; there may be several.
* `Unrivalled` — every group has exactly one.
* `atNewest_append`, `unrivalled_append_iff` — **what appending rows does**: a
  group keeps a single newest row exactly when the appended rows do not tie with
  the newest one and, if they are newer, have a single newest row themselves.
* `atNewest_filter`, `Unrivalled.filter` — dropping everything before a cutoff
  does not touch the newest rows of the groups that remain.
-/

namespace Newest

variable {α κ : Type*} [DecidableEq κ] (key : α → κ) (time : α → ℤ)

/-- The newest time in the group `k`. -/
def newest (k : κ) : List α → WithBot ℤ
  | [] => ⊥
  | a :: l => if key a = k then max (time a : WithBot ℤ) (newest k l) else newest k l

/-- The rows of the group `k` at its newest time. -/
def atNewest (k : κ) (l : List α) : List α :=
  l.filter fun a => key a = k ∧ (time a : WithBot ℤ) = newest key time k l

/-- Every group has exactly one newest row. -/
def Unrivalled (l : List α) : Prop := ∀ a ∈ l, (atNewest key time (key a) l).length = 1

variable {key time}

/-! ## The newest time -/

theorem newest_append (k : κ) (l m : List α) :
    newest key time k (l ++ m) = max (newest key time k l) (newest key time k m) := by
  induction l with
  | nil => simp [newest]
  | cons a l ih =>
    rw [List.cons_append, newest, newest, ih]
    split
    · rw [max_assoc]
    · rfl

theorem le_newest (key : α → κ) (time : α → ℤ) {l : List α} {a : α} (h : a ∈ l) :
    (time a : WithBot ℤ) ≤ newest key time (key a) l := by
  induction l with
  | nil => cases h
  | cons b l ih =>
    rw [newest]
    rcases List.mem_cons.1 h with rfl | h
    · rw [if_pos rfl]
      exact le_max_left _ _
    · split
      · exact (ih h).trans (le_max_right _ _)
      · exact ih h

/-- The newest time of a group is the time of one of its rows. -/
theorem exists_mem_newest {k : κ} {l : List α} (h : newest key time k l ≠ ⊥) :
    ∃ a ∈ l, key a = k ∧ newest key time k l = time a := by
  induction l with
  | nil => exact absurd rfl h
  | cons b l ih =>
    rw [newest] at h ⊢
    by_cases hb : key b = k
    · rw [if_pos hb]
      rcases le_total (newest key time k l) (time b : WithBot ℤ) with hle | hle
      · exact ⟨b, by simp, hb, max_eq_left hle⟩
      · have hbot : newest key time k l ≠ ⊥ := by
          rintro hbot
          rw [hbot, le_bot_iff] at hle
          exact WithBot.coe_ne_bot hle
        obtain ⟨a, ha, hk, hn⟩ := ih hbot
        exact ⟨a, by simp [ha], hk, by rw [max_eq_right hle, hn]⟩
    · rw [if_neg hb] at h ⊢
      obtain ⟨a, ha, hk, hn⟩ := ih h
      exact ⟨a, by simp [ha], hk, hn⟩

theorem newest_ne_bot (key : α → κ) (time : α → ℤ) {l : List α} {a : α} (h : a ∈ l) :
    newest key time (key a) l ≠ ⊥ := by
  intro hbot
  have hle := le_newest key time h
  rw [hbot, le_bot_iff] at hle
  exact WithBot.coe_ne_bot hle

theorem newest_eq_bot {k : κ} {l : List α} (h : ∀ a ∈ l, key a ≠ k) : newest key time k l = ⊥ := by
  by_contra hbot
  obtain ⟨a, ha, hk, -⟩ := exists_mem_newest hbot
  exact h a ha hk

/-! ## The newest rows -/

theorem mem_atNewest {k : κ} {l : List α} {a : α} :
    a ∈ atNewest key time k l ↔ a ∈ l ∧ key a = k ∧ (time a : WithBot ℤ) = newest key time k l := by
  simp [atNewest]

/-- A row is among the newest of its group exactly when none of them is newer. -/
theorem mem_atNewest_iff_le {l : List α} {a : α} :
    a ∈ atNewest key time (key a) l ↔ a ∈ l ∧ ∀ b ∈ l, key b = key a → time b ≤ time a := by
  rw [mem_atNewest]
  refine ⟨?_, ?_⟩
  · rintro ⟨ha, -, hn⟩
    refine ⟨ha, fun b hb hk => ?_⟩
    have hle := le_newest key time hb
    rw [hk, ← hn] at hle
    exact WithBot.coe_le_coe.1 hle
  · rintro ⟨ha, hmax⟩
    refine ⟨ha, rfl, le_antisymm (le_newest key time ha) ?_⟩
    obtain ⟨b, hb, hk, hn⟩ := exists_mem_newest (newest_ne_bot key time ha)
    rw [hn]
    exact WithBot.coe_le_coe.2 (hmax b hb hk)

theorem atNewest_ne_nil {k : κ} {l : List α} (h : newest key time k l ≠ ⊥) :
    atNewest key time k l ≠ [] := by
  obtain ⟨a, ha, hk, hn⟩ := exists_mem_newest h
  exact List.ne_nil_of_mem (mem_atNewest.2 ⟨ha, hk, hn.symm⟩)

/-- Rows of a list at a time its group does not reach. -/
theorem filter_eq_nil_of_newest_lt {k : κ} {l : List α} {t : WithBot ℤ}
    (h : newest key time k l < t) :
    (l.filter fun a => key a = k ∧ (time a : WithBot ℤ) = t) = [] := by
  rw [List.filter_eq_nil_iff]
  intro a ha hat
  obtain ⟨rfl, rfl⟩ := of_decide_eq_true hat
  exact absurd (le_newest key time ha) (not_le.2 h)

/-- **The newest rows after appending**: those of the side that reaches further,
or of both. -/
theorem atNewest_append (k : κ) (l m : List α) :
    atNewest key time k (l ++ m) =
      (if newest key time k m ≤ newest key time k l then atNewest key time k l else []) ++
        if newest key time k l ≤ newest key time k m then atNewest key time k m else [] := by
  rw [atNewest, List.filter_append, newest_append]
  congr 1
  · split
    · rename_i hle
      rw [max_eq_left hle, atNewest]
    · rename_i hlt
      rw [not_le] at hlt
      rw [max_eq_right hlt.le]
      exact filter_eq_nil_of_newest_lt hlt
  · split
    · rename_i hle
      rw [max_eq_right hle, atNewest]
    · rename_i hlt
      rw [not_le] at hlt
      rw [max_eq_left hlt.le]
      exact filter_eq_nil_of_newest_lt hlt

/-- **When appended rows leave every group with a single newest row.** -/
theorem unrivalled_append_iff {l : List α} (hl : Unrivalled key time l) (m : List α) :
    Unrivalled key time (l ++ m) ↔ ∀ b ∈ m,
      newest key time (key b) l ≠ newest key time (key b) m ∧
      (newest key time (key b) l < newest key time (key b) m →
        (atNewest key time (key b) m).length = 1) := by
  refine ⟨?_, ?_⟩
  · intro h b hb
    have hone := h b (by simp [hb])
    rw [atNewest_append] at hone
    have hm := List.length_pos_iff.2 (atNewest_ne_nil (newest_ne_bot key time hb))
    refine ⟨?_, ?_⟩
    · intro heq
      have hl' : newest key time (key b) l ≠ ⊥ := heq ▸ newest_ne_bot key time hb
      have hpos := List.length_pos_iff.2 (atNewest_ne_nil hl')
      rw [if_pos heq.ge, if_pos heq.le, List.length_append] at hone
      omega
    · intro hlt
      rw [if_neg (not_le.2 hlt), if_pos hlt.le, List.nil_append] at hone
      exact hone
  · intro h a ha
    have hcase : (∃ b ∈ m, key b = key a) ∨ ∀ b ∈ m, key b ≠ key a := by
      by_cases hex : ∃ b ∈ m, key b = key a
      · exact .inl hex
      · exact .inr fun b hb hk => hex ⟨b, hb, hk⟩
    rcases hcase with ⟨b, hb, hk⟩ | hnone
    · obtain ⟨hne, hnew⟩ := h b hb
      rw [hk] at hne hnew
      rw [atNewest_append]
      rcases lt_or_gt_of_ne hne with hlt | hgt
      · rw [if_neg (not_le.2 hlt), if_pos hlt.le, List.nil_append]
        exact hnew hlt
      · rw [if_pos hgt.le, if_neg (not_le.2 hgt), List.append_nil]
        obtain ⟨c, hc, hck, -⟩ := exists_mem_newest (ne_bot_of_gt hgt)
        rw [← hck]
        exact hl c hc
    · have hal : a ∈ l := (List.mem_append.1 ha).resolve_right fun ham => hnone a ham rfl
      have hbot : newest key time (key a) m = ⊥ := newest_eq_bot hnone
      have hpos := bot_lt_iff_ne_bot.2 (newest_ne_bot key time hal)
      rw [atNewest_append, hbot, if_pos bot_le, if_neg (not_le.2 hpos), List.append_nil]
      exact hl a hal

/-! ## Dropping the old -/

/-- A group that still has a row keeps its newest rows. -/
theorem atNewest_filter (cutoff : ℤ) {l : List α} {a : α} (ha : a ∈ l) (hcut : cutoff ≤ time a) :
    atNewest key time (key a) (l.filter fun b => cutoff ≤ time b) =
      atNewest key time (key a) l := by
  have hnewest : newest key time (key a) (l.filter fun b => cutoff ≤ time b) =
      newest key time (key a) l := by
    have ha' : a ∈ l.filter fun b => cutoff ≤ time b := by simpa using ⟨ha, hcut⟩
    obtain ⟨b, hb, hbk, hbn⟩ := exists_mem_newest (newest_ne_bot key time ha)
    obtain ⟨c, hc, hck, hcn⟩ := exists_mem_newest (newest_ne_bot key time ha')
    have hcut' : cutoff ≤ time b := by
      have hab := le_newest key time ha
      rw [hbn] at hab
      exact hcut.trans (WithBot.coe_le_coe.1 hab)
    have hb' : b ∈ l.filter fun b => cutoff ≤ time b := by simpa using ⟨hb, hcut'⟩
    have hbc := le_newest key time hb'
    have hcb := le_newest key time (List.mem_of_mem_filter hc)
    rw [hbk, hcn] at hbc
    rw [hck, hbn] at hcb
    rw [hbn, hcn]
    exact le_antisymm hcb hbc
  rw [atNewest, atNewest, List.filter_filter, hnewest]
  refine List.filter_congr fun b hb => ?_
  have hkeep : (key b = key a ∧ (time b : WithBot ℤ) = newest key time (key a) l) →
      cutoff ≤ time b := by
    rintro ⟨-, hbn⟩
    have hab := le_newest key time ha
    rw [← hbn] at hab
    exact hcut.trans (WithBot.coe_le_coe.1 hab)
  by_cases hnew : key b = key a ∧ (time b : WithBot ℤ) = newest key time (key a) l
  · simp [hnew, hkeep hnew]
  · simp [hnew]

/-- Dropping everything before a cutoff makes no rivals. -/
theorem Unrivalled.filter {l : List α} (h : Unrivalled key time l) (cutoff : ℤ) :
    Unrivalled key time (l.filter fun b => cutoff ≤ time b) := by
  intro a ha
  obtain ⟨hal, hcut⟩ := List.mem_filter.1 ha
  rw [atNewest_filter cutoff hal (of_decide_eq_true hcut)]
  exact h a hal

end Newest
