import Mathlib

/-!
# `LIKE` patterns

Patterns with `%` for any text, `_` for any character, and `\` to take a character as it is.

* `tokens` — reading a pattern, which fails when it ends in an escape.
* `Matches` — whether a text matches; `matches_append`: **a concatenation matches the
  concatenations of matches**.
* `wrapped`, `exists_tokens_wrapped` — a search term between two `%`, which can always be
  read.
* `searches_iff` — **when such a pattern searches for its term**: exactly when the term has
  no character with a meaning.
-/

namespace Like

/-- A piece of a pattern. -/
inductive Token where
  /-- `%`. -/
  | any
  /-- `_`. -/
  | one
  /-- A character that stands for itself. -/
  | lit (c : Char)
  deriving DecidableEq, Repr

/-- The characters with a meaning. -/
def IsMeta (c : Char) : Prop := c = '%' ∨ c = '_' ∨ c = '\\'

instance : DecidablePred IsMeta := fun c =>
  inferInstanceAs (Decidable (c = '%' ∨ c = '_' ∨ c = '\\'))

/-- The pieces of a pattern; none if it ends in an escape. -/
def tokens : List Char → Option (List Token)
  | [] => some []
  | c :: rest =>
    if c = '\\' then
      match rest with
      | [] => none
      | d :: rest => (tokens rest).map (.lit d :: ·)
    else if c = '%' then (tokens rest).map (.any :: ·)
    else if c = '_' then (tokens rest).map (.one :: ·)
    else (tokens rest).map (.lit c :: ·)

/-- Whether a text matches. -/
def Matches : List Token → List Char → Bool
  | [], text => text.isEmpty
  | .lit c :: p, d :: text => c = d && Matches p text
  | .lit _ :: _, [] => false
  | .one :: p, _ :: text => Matches p text
  | .one :: _, [] => false
  | .any :: p, text => text.tails.any (Matches p)

/-- `text LIKE pattern`, where an unreadable pattern matches nothing. -/
def like (pattern text : List Char) : Bool := (tokens pattern).any (Matches · text)

/-! ## Matching -/

@[simp] theorem matches_nil (text : List Char) : Matches [] text = true ↔ text = [] := by
  simp [Matches]

theorem matches_lit_cons {c : Char} {p : List Token} {text : List Char} :
    Matches (.lit c :: p) text = true ↔ ∃ rest, text = c :: rest ∧ Matches p rest = true := by
  cases text with
  | nil => simp [Matches]
  | cons d rest =>
    simp only [Matches, Bool.and_eq_true, decide_eq_true_eq, List.cons.injEq]
    constructor
    · rintro ⟨rfl, h⟩
      exact ⟨rest, ⟨rfl, rfl⟩, h⟩
    · rintro ⟨_, ⟨rfl, rfl⟩, h⟩
      exact ⟨rfl, h⟩

theorem matches_one_cons {p : List Token} {text : List Char} :
    Matches (.one :: p) text = true ↔ ∃ d rest, text = d :: rest ∧ Matches p rest = true := by
  cases text with
  | nil => simp [Matches]
  | cons d rest => simp [Matches]

theorem matches_any_cons {p : List Token} {text : List Char} :
    Matches (.any :: p) text = true ↔ ∃ a b, text = a ++ b ∧ Matches p b = true := by
  simp only [Matches, List.any_eq_true, List.mem_tails]
  constructor
  · rintro ⟨b, ⟨a, rfl⟩, hb⟩
    exact ⟨a, b, rfl, hb⟩
  · rintro ⟨a, b, rfl, hb⟩
    exact ⟨b, ⟨a, rfl⟩, hb⟩

/-- **A concatenation** matches the concatenations of matches. -/
theorem matches_append {p q : List Token} {text : List Char} :
    Matches (p ++ q) text = true ↔
      ∃ a b, text = a ++ b ∧ Matches p a = true ∧ Matches q b = true := by
  induction p generalizing text with
  | nil => simp
  | cons t p ih =>
    rw [List.cons_append]
    cases t with
    | lit c =>
      simp only [matches_lit_cons, ih]
      constructor
      · rintro ⟨_, rfl, a, b, rfl, ha, hb⟩
        exact ⟨c :: a, b, rfl, ⟨a, rfl, ha⟩, hb⟩
      · rintro ⟨_, b, rfl, ⟨a, rfl, ha⟩, hb⟩
        exact ⟨a ++ b, rfl, a, b, rfl, ha, hb⟩
    | one =>
      simp only [matches_one_cons, ih]
      constructor
      · rintro ⟨d, _, rfl, a, b, rfl, ha, hb⟩
        exact ⟨d :: a, b, rfl, ⟨d, a, rfl, ha⟩, hb⟩
      · rintro ⟨_, b, rfl, ⟨d, a, rfl, ha⟩, hb⟩
        exact ⟨d, a ++ b, rfl, a, b, rfl, ha, hb⟩
    | any =>
      simp only [matches_any_cons, ih]
      constructor
      · rintro ⟨front, _, rfl, a, b, rfl, ha, hb⟩
        exact ⟨front ++ a, b, by simp, ⟨front, a, rfl, ha⟩, hb⟩
      · rintro ⟨_, b, rfl, ⟨front, a, rfl, ha⟩, hb⟩
        exact ⟨front, a ++ b, by simp, a, b, rfl, ha, hb⟩

theorem matches_lits {cs text : List Char} :
    Matches (cs.map .lit) text = true ↔ text = cs := by
  induction cs generalizing text with
  | nil => simp
  | cons c cs ih => simp [matches_lit_cons, ih]

/-- Between two `%`, a pattern matches the texts with a match inside. -/
theorem matches_between {p : List Token} {text : List Char} :
    Matches (.any :: (p ++ [.any])) text = true ↔
      ∃ a b c, text = a ++ (b ++ c) ∧ Matches p b = true := by
  simp only [matches_any_cons, matches_append]
  constructor
  · rintro ⟨a, _, rfl, b, c, rfl, hb, -⟩
    exact ⟨a, b, c, rfl, hb⟩
  · rintro ⟨a, b, c, rfl, hb⟩
    exact ⟨a, b ++ c, rfl, b, c, rfl, hb, c, [], by simp, by simp⟩

/-! ## Reading -/

theorem tokens_escape (d : Char) (rest : List Char) :
    tokens ('\\' :: d :: rest) = (tokens rest).map (.lit d :: ·) := by
  rw [tokens.eq_def]
  simp

theorem tokens_percent (rest : List Char) :
    tokens ('%' :: rest) = (tokens rest).map (.any :: ·) := by
  rw [tokens.eq_def]
  simp

theorem tokens_underscore (rest : List Char) :
    tokens ('_' :: rest) = (tokens rest).map (.one :: ·) := by
  rw [tokens.eq_def]
  simp

theorem tokens_plain {c : Char} (h : ¬ IsMeta c) (rest : List Char) :
    tokens (c :: rest) = (tokens rest).map (.lit c :: ·) := by
  simp only [IsMeta, not_or] at h
  rw [tokens.eq_def]
  simp [h.1, h.2.1, h.2.2]

/-- A pattern that can be read, followed by another one. -/
theorem tokens_append {a b : List Char} {p : List Token} (h : tokens a = some p) :
    tokens (a ++ b) = (tokens b).map (p ++ ·) := by
  fun_induction tokens a generalizing p with
  | case1 =>
    obtain rfl := Option.some.inj h
    simp
  | case2 => cases h
  | case3 d rest ih =>
    obtain ⟨q, hq, rfl⟩ := Option.map_eq_some_iff.1 h
    simp [tokens_escape, ih hq, Function.comp_def]
  | case4 rest _ ih =>
    obtain ⟨q, hq, rfl⟩ := Option.map_eq_some_iff.1 h
    simp [tokens_percent, ih hq, Function.comp_def]
  | case5 rest _ _ ih =>
    obtain ⟨q, hq, rfl⟩ := Option.map_eq_some_iff.1 h
    simp [tokens_underscore, ih hq, Function.comp_def]
  | case6 c rest hescape hpercent hunderscore ih =>
    obtain ⟨q, hq, rfl⟩ := Option.map_eq_some_iff.1 h
    have hplain : ¬ IsMeta c := by simp [IsMeta, hescape, hpercent, hunderscore]
    simp [tokens_plain hplain, ih hq, Function.comp_def]

/-- A pattern that cannot be read ends in an escape. -/
theorem exists_dangling {a : List Char} (h : tokens a = none) :
    ∃ front p, a = front ++ ['\\'] ∧ tokens front = some p := by
  fun_induction tokens a with
  | case1 => cases h
  | case2 => exact ⟨[], [], rfl, rfl⟩
  | case3 d rest ih =>
    obtain ⟨front, p, rfl, hp⟩ := ih (Option.map_eq_none_iff.1 h)
    exact ⟨'\\' :: d :: front, .lit d :: p, rfl, by rw [tokens_escape, hp]; rfl⟩
  | case4 rest _ ih =>
    obtain ⟨front, p, rfl, hp⟩ := ih (Option.map_eq_none_iff.1 h)
    exact ⟨'%' :: front, .any :: p, rfl, by rw [tokens_percent, hp]; rfl⟩
  | case5 rest _ _ ih =>
    obtain ⟨front, p, rfl, hp⟩ := ih (Option.map_eq_none_iff.1 h)
    exact ⟨'_' :: front, .one :: p, rfl, by rw [tokens_underscore, hp]; rfl⟩
  | case6 c rest hescape hpercent hunderscore ih =>
    obtain ⟨front, p, rfl, hp⟩ := ih (Option.map_eq_none_iff.1 h)
    have hplain : ¬ IsMeta c := by simp [IsMeta, hescape, hpercent, hunderscore]
    exact ⟨c :: front, .lit c :: p, rfl, by rw [tokens_plain hplain, hp]; rfl⟩

/-- Characters without a meaning stand for themselves. -/
theorem tokens_of_plain {q : List Char} (h : ∀ c ∈ q, ¬ IsMeta c) :
    tokens q = some (q.map .lit) := by
  induction q with
  | nil => rfl
  | cons c q ih =>
    rw [List.forall_mem_cons] at h
    rw [tokens_plain h.1, ih h.2]
    rfl

/-! ## Search terms -/

/-- A term between two `%`. -/
def wrapped (q : List Char) : List Char := '%' :: (q ++ ['%'])

/-- A term that can be read is looked for inside the text; the escape a term ends in takes
the last `%`, which is then looked for at the end of the text. -/
theorem tokens_wrapped (q : List Char) :
    (∃ p, tokens q = some p ∧ tokens (wrapped q) = some (.any :: (p ++ [.any]))) ∨
      ∃ front p, q = front ++ ['\\'] ∧ tokens front = some p ∧
        tokens (wrapped q) = some (.any :: (p ++ [.lit '%'])) := by
  cases hq : tokens q with
  | some p =>
    refine .inl ⟨p, rfl, ?_⟩
    rw [wrapped, tokens_percent, tokens_append hq, tokens_percent]
    rfl
  | none =>
    obtain ⟨front, p, rfl, hp⟩ := exists_dangling hq
    refine .inr ⟨front, p, rfl, hp, ?_⟩
    rw [wrapped, tokens_percent, List.append_assoc, tokens_append hp]
    rfl

/-- **A term between two `%` can always be read**, as a pattern. -/
theorem exists_tokens_wrapped (q : List Char) : ∃ p, tokens (wrapped q) = some p := by
  rcases tokens_wrapped q with ⟨p, -, h⟩ | ⟨front, p, -, -, h⟩
  · exact ⟨_, h⟩
  · exact ⟨_, h⟩

/-- A text that matches a pattern. -/
def sample (filler : Char) : List Token → List Char
  | [] => []
  | .any :: p => sample filler p
  | .one :: p => filler :: sample filler p
  | .lit c :: p => c :: sample filler p

theorem matches_sample (filler : Char) (p : List Token) :
    Matches p (sample filler p) = true := by
  induction p with
  | nil => rfl
  | cons t p ih =>
    cases t with
    | any => exact matches_any_cons.2 ⟨[], _, rfl, ih⟩
    | one => exact matches_one_cons.2 ⟨filler, _, rfl, ih⟩
    | lit c => exact matches_lit_cons.2 ⟨_, rfl, ih⟩

/-- It is no longer than the pattern, and only like it if nothing in it has a meaning. -/
theorem sample_eq_self {filler : Char} (hfiller : filler ≠ '_') {q : List Char} {p : List Token}
    (h : tokens q = some p) :
    (sample filler p).length ≤ q.length ∧ (sample filler p = q → ∀ c ∈ q, ¬ IsMeta c) := by
  fun_induction tokens q generalizing p with
  | case1 =>
    obtain rfl := Option.some.inj h
    simp [sample]
  | case2 => cases h
  | case3 d rest ih =>
    obtain ⟨r, hr, rfl⟩ := Option.map_eq_some_iff.1 h
    have hlen := (ih hr).1
    refine ⟨by simp only [sample, List.length_cons]; omega, fun heq => ?_⟩
    have := congrArg List.length heq
    simp only [sample, List.length_cons] at this
    omega
  | case4 rest _ ih =>
    obtain ⟨r, hr, rfl⟩ := Option.map_eq_some_iff.1 h
    have hlen := (ih hr).1
    refine ⟨by simp only [sample, List.length_cons]; omega, fun heq => ?_⟩
    have := congrArg List.length heq
    simp only [sample, List.length_cons] at this
    omega
  | case5 rest _ _ ih =>
    obtain ⟨r, hr, rfl⟩ := Option.map_eq_some_iff.1 h
    have hlen := (ih hr).1
    refine ⟨by simp only [sample, List.length_cons]; omega, fun heq => ?_⟩
    exact absurd (List.cons.inj heq).1 hfiller
  | case6 c rest hescape hpercent hunderscore ih =>
    obtain ⟨r, hr, rfl⟩ := Option.map_eq_some_iff.1 h
    obtain ⟨hlen, hplain⟩ := ih hr
    refine ⟨by simp only [sample, List.length_cons]; omega, fun heq => ?_⟩
    rw [List.forall_mem_cons]
    exact ⟨by simp [IsMeta, hescape, hpercent, hunderscore], hplain (List.cons.inj heq).2⟩

/-- Its characters are the filler and characters of the pattern. -/
theorem mem_sample {filler : Char} {q : List Char} {p : List Token} (h : tokens q = some p)
    {c : Char} (hc : c ∈ sample filler p) : c = filler ∨ c ∈ q := by
  fun_induction tokens q generalizing p with
  | case1 =>
    obtain rfl := Option.some.inj h
    cases hc
  | case2 => cases h
  | case3 d rest ih =>
    obtain ⟨r, hr, rfl⟩ := Option.map_eq_some_iff.1 h
    rcases List.mem_cons.1 hc with rfl | hc
    · simp
    · exact (ih hr hc).imp_right (by simp_all)
  | case4 rest _ ih =>
    obtain ⟨r, hr, rfl⟩ := Option.map_eq_some_iff.1 h
    exact (ih hr hc).imp_right (List.mem_cons_of_mem _)
  | case5 rest _ _ ih =>
    obtain ⟨r, hr, rfl⟩ := Option.map_eq_some_iff.1 h
    rcases List.mem_cons.1 hc with rfl | hc
    · exact .inl rfl
    · exact (ih hr hc).imp_right (List.mem_cons_of_mem _)
  | case6 d rest _ _ _ ih =>
    obtain ⟨r, hr, rfl⟩ := Option.map_eq_some_iff.1 h
    rcases List.mem_cons.1 hc with rfl | hc
    · simp
    · exact (ih hr hc).imp_right (List.mem_cons_of_mem _)

/-- A term without characters with a meaning is looked for as it is. -/
theorem like_wrapped_iff {q : List Char} (h : ∀ c ∈ q, ¬ IsMeta c) (text : List Char) :
    like (wrapped q) text = true ↔ q <:+: text := by
  have htokens : tokens (wrapped q) = some (.any :: (q.map .lit ++ [.any])) := by
    rw [wrapped, tokens_percent, tokens_append (tokens_of_plain h), tokens_percent]
    rfl
  rw [like, htokens, Option.any_some, matches_between]
  simp only [matches_lits]
  constructor
  · rintro ⟨a, _, c, rfl, rfl⟩
    exact ⟨a, c, by simp⟩
  · rintro ⟨a, c, rfl⟩
    exact ⟨a, q, c, by simp, rfl⟩

/-- **When a pattern searches for its term** in the texts over some alphabet: exactly when
no character of the term has a meaning. -/
theorem searches_iff {alphabet : Char → Prop} {filler : Char} (hfiller : filler ≠ '_')
    (hmem : alphabet filler) {q : List Char} (hq : ∀ c ∈ q, alphabet c) :
    (∀ text, (∀ c ∈ text, alphabet c) → (like (wrapped q) text = true ↔ q <:+: text)) ↔
      ∀ c ∈ q, ¬ IsMeta c := by
  constructor
  · intro h
    rcases tokens_wrapped q with ⟨p, hp, hwrapped⟩ | ⟨front, p, rfl, -, hwrapped⟩
    · -- A sample of the pattern is a match, and too short to hold a term that differs.
      have halphabet : ∀ c ∈ sample filler p, alphabet c := by
        intro c hc
        rcases mem_sample hp hc with rfl | hc
        · exact hmem
        · exact hq c hc
      have hlike : like (wrapped q) (sample filler p) = true := by
        rw [like, hwrapped, Option.any_some, matches_between]
        exact ⟨[], sample filler p, [], by simp, matches_sample filler p⟩
      have hinside := (h _ halphabet).1 hlike
      obtain ⟨hlen, hplain⟩ := sample_eq_self hfiller hp
      exact hplain (hinside.eq_of_length (le_antisymm hinside.length_le hlen)).symm
    · -- The term is in itself, but the pattern asks for a text that ends in `%`.
      have hlike := (h _ hq).2 (List.infix_refl _)
      rw [like, hwrapped, Option.any_some, matches_any_cons] at hlike
      obtain ⟨a, _, heq, hmatches⟩ := hlike
      obtain ⟨b, c, rfl, -, hc⟩ := matches_append.1 hmatches
      obtain ⟨_, rfl, hnil⟩ := matches_lit_cons.1 hc
      obtain rfl := (matches_nil _).1 hnil
      rw [← List.append_assoc] at heq
      have hlast := (List.append_inj' heq rfl).2
      cases hlast
  · intro h text _
    exact like_wrapped_iff h text

end Like
