import Mathlib

/-!
# Files whose versions are told apart by a tag

A file that is only ever replaced as a whole, each time under a tag — a
modification time, a hash — that no earlier version had.

* `File` — all its versions, the tags being distinct by construction.
* `File.since`, `File.AsNewAs` — the versions from the one with a given tag on,
  and a content that is one of theirs: what a reader may hold who saw that tag
  and read the file at some later moment.
* `File.AsNewAs.eq_current` — a reader who saw the tag of the current version and
  holds a content that new holds the current content.
-/

namespace Versioned

variable {β ν : Type*}

/-- One version of a file. -/
structure Version (β ν : Type*) where
  content : β
  tag : ν
  deriving DecidableEq, Repr

/-- A file, with every version it has had, the oldest first. -/
structure File (β ν : Type*) where
  versions : List (Version β ν)
  tags_nodup : (versions.map Version.tag).Nodup

namespace File

/-- The tags the file has had. -/
def tags (f : File β ν) : List ν := f.versions.map Version.tag

/-- The version a reader finds, if the file exists. -/
def current (f : File β ν) : Option (Version β ν) := f.versions.getLast?

/-- The file that has never been written. -/
def absent : File β ν := ⟨[], List.nodup_nil⟩

/-- Replace the file. -/
def write (f : File β ν) (v : Version β ν) (hv : v.tag ∉ f.tags) : File β ν where
  versions := f.versions ++ [v]
  tags_nodup := by
    rw [List.map_append, List.map_singleton]
    exact f.tags_nodup.append (List.nodup_singleton _) (by simpa [tags] using hv)

@[simp] theorem tags_write (f : File β ν) (v : Version β ν) (hv : v.tag ∉ f.tags) :
    (f.write v hv).tags = f.tags ++ [v.tag] := by
  simp [write, tags]

theorem tag_mem_of_current {f : File β ν} {v : Version β ν} (h : f.current = some v) :
    v.tag ∈ f.tags :=
  List.mem_map_of_mem (List.mem_of_getLast? h)

/-- A file that has had a version has a current one. -/
theorem exists_current {f : File β ν} {tag : ν} (h : tag ∈ f.tags) : ∃ v, f.current = some v := by
  cases hcur : f.current with
  | some v => exact ⟨v, rfl⟩
  | none =>
    rw [current, List.getLast?_eq_none_iff] at hcur
    simp [tags, hcur] at h

/-- The version with a given tag, and what was before and after it. -/
theorem exists_split {f : File β ν} {tag : ν} (h : tag ∈ f.tags) :
    ∃ before v after, v.tag = tag ∧ f.versions = before ++ v :: after := by
  obtain ⟨v, hv, rfl⟩ := List.mem_map.1 h
  obtain ⟨before, after, hsplit⟩ := List.append_of_mem hv
  exact ⟨before, v, after, rfl, hsplit⟩

/-! ## The versions since a tag -/

variable [DecidableEq ν]

/-- The versions from the one tagged `tag` on. -/
def since (f : File β ν) (tag : ν) : List (Version β ν) :=
  f.versions.dropWhile fun v => v.tag ≠ tag

/-- The content is that of the version tagged `tag` or of a later one. -/
def AsNewAs (f : File β ν) (tag : ν) (content : β) : Prop :=
  content ∈ (f.since tag).map Version.content

instance [DecidableEq β] (f : File β ν) (tag : ν) (content : β) :
    Decidable (f.AsNewAs tag content) :=
  inferInstanceAs (Decidable (content ∈ (f.since tag).map Version.content))

/-- The versions since a tag the file has had are not affected by those before it. -/
theorem since_eq_of_split {f : File β ν} {before after : List (Version β ν)} {v : Version β ν}
    (h : f.versions = before ++ v :: after) : f.since v.tag = v :: after := by
  have hnd := f.tags_nodup
  rw [h, List.map_append, List.map_cons, List.nodup_middle, List.nodup_cons] at hnd
  have hbefore : ∀ u ∈ before, decide (u.tag ≠ v.tag) = true := by
    intro u hu
    rw [decide_eq_true_iff]
    intro htag
    exact hnd.1 (List.mem_append_left _ (htag ▸ List.mem_map_of_mem hu))
  rw [since, h, List.dropWhile_append_of_pos hbefore, List.dropWhile_cons_of_neg (by simp)]

theorem since_write {f : File β ν} {tag : ν} (h : tag ∈ f.tags) (v : Version β ν)
    (hv : v.tag ∉ f.tags) : (f.write v hv).since tag = f.since tag ++ [v] := by
  obtain ⟨before, u, after, rfl, hsplit⟩ := exists_split h
  have hsplit' : (f.write v hv).versions = before ++ u :: (after ++ [v]) := by
    simp [write, hsplit]
  rw [since_eq_of_split hsplit, since_eq_of_split hsplit', List.cons_append]

/-- Only a tag the file has had has versions since. -/
theorem AsNewAs.tag_mem {f : File β ν} {tag : ν} {content : β} (h : f.AsNewAs tag content) :
    tag ∈ f.tags := by
  by_contra htag
  have hnil : f.since tag = [] := by
    rw [since, List.dropWhile_eq_nil_iff]
    intro v hv
    rw [decide_eq_true_iff]
    rintro rfl
    exact htag (List.mem_map_of_mem hv)
  simp [AsNewAs, hnil] at h

/-- What is as new as a tag stays so when the file is replaced. -/
theorem AsNewAs.write {f : File β ν} {tag : ν} {content : β} (h : f.AsNewAs tag content)
    (v : Version β ν) (hv : v.tag ∉ f.tags) : (f.write v hv).AsNewAs tag content := by
  have htag := h.tag_mem
  unfold AsNewAs at h ⊢
  rw [since_write htag, List.map_append]
  exact List.mem_append_left _ h

/-- The current content is as new as every tag. -/
theorem asNewAs_current {f : File β ν} {tag : ν} {v : Version β ν} (htag : tag ∈ f.tags)
    (hcur : f.current = some v) : f.AsNewAs tag v.content := by
  obtain ⟨before, u, after, rfl, hsplit⟩ := exists_split htag
  have hlast : v ∈ u :: after := by
    rw [current, hsplit, List.getLast?_append_of_ne_nil _ (List.cons_ne_nil u after)] at hcur
    exact List.mem_of_getLast? hcur
  rw [AsNewAs, since_eq_of_split hsplit]
  exact List.mem_map_of_mem hlast

/-- **Only the current content is as new as the current tag.** -/
theorem AsNewAs.eq_current {f : File β ν} {v : Version β ν} {content : β}
    (hcur : f.current = some v) (h : f.AsNewAs v.tag content) : content = v.content := by
  obtain ⟨before, hsplit⟩ := List.getLast?_eq_some_iff.1 hcur
  rw [AsNewAs, since_eq_of_split hsplit] at h
  simpa using h

end File

end Versioned
