import DelayPredictor.Lib.PyText
import DelayPredictor.Lib.Stats

/-!
# Numbers in a Python string

What `float` and `int` make of a string, and the double a number is stored as.

* `Literal`, `floatLiteral` — what a string that `float` takes names: a decimal
  number, an infinity, or not-a-number.
* `toDouble` — the nearest double, an infinity from `doubleLimit` on.
* `pyFloat`, `pyInt` — the two conversions; `none` is a `ValueError`.
* `Literal.IsFinite` — a literal with a finite value.
* `IsForeign` — a character that no number holds: a string with one is refused
  (`IsForeign.pyFloat_eq_none`).
-/

namespace PyNumber

open PyText Stats

/-! ## What the conversions have in common -/

/-- A string outside ASCII has its white space and its digits written in ASCII
first; any other character makes it no number. -/
def asciiForm (s : List Char) : List Char :=
  if s.all fun c => c.toNat < 128 then s
  else s.map fun c =>
    if c.toNat < 127 then c
    else if isSpace c then ' '
    else match decimalDigit c with
      | some n => Char.ofNat (48 + n)
      | none => '?'

/-- White space within ASCII. -/
def isAsciiSpace (c : Char) : Bool := c = ' ' || (9 ≤ c.toNat && c.toNat ≤ 13)

/-- An ASCII digit. -/
def isDigit (c : Char) : Bool := (digit c).isSome

/-- Underscores may stand between two digits, and nowhere else. -/
def dropUnderscores : List Char → Option (List Char)
  | [] => some []
  | '_' :: _ => none
  | a :: '_' :: b :: rest =>
    if isDigit a && isDigit b then (dropUnderscores (b :: rest)).map (a :: ·) else none
  | a :: rest => (dropUnderscores rest).map (a :: ·)

/-- A sign, and whether it is a minus. -/
def sign : List Char → Bool × List Char
  | '-' :: s => (true, s)
  | '+' :: s => (false, s)
  | s => (false, s)

/-- The number a run of digits writes. -/
def digitsValue (s : List Char) : ℕ := s.foldl (fun n c => 10 * n + (digit c).getD 0) 0

/-! ## Decimal literals -/

/-- `e` or `E`, a sign, and one or more digits; nothing means an exponent of zero. -/
def exponent : List Char → Option ℤ
  | [] => some 0
  | e :: s =>
    let (negative, digits) := sign s
    if (e = 'e' || e = 'E') && digits ≠ [] && digits.all isDigit then
      some (if negative then -digitsValue digits else digitsValue digits)
    else none

/-- Digits with at most one point among them, and at least one digit. -/
def decimalLiteral (s : List Char) : Option ℚ :=
  let whole := s.takeWhile isDigit
  let s := s.dropWhile isDigit
  let (fraction, s) := match s with
    | '.' :: s => (s.takeWhile isDigit, s.dropWhile isDigit)
    | s => ([], s)
  if whole = [] ∧ fraction = [] then none
  else (exponent s).map fun e =>
    (digitsValue (whole ++ fraction) : ℚ) / 10 ^ fraction.length * 10 ^ e

/-- What a string that `float` takes names. -/
inductive Literal where
  | decimal (q : ℚ)
  | infinity (negative : Bool)
  | nan
  deriving DecidableEq, Repr

/-- What `float` reads in a string. -/
def floatLiteral (s : String) : Option Literal := do
  let (negative, s) := sign (← dropUnderscores (trim isAsciiSpace (asciiForm s.toList)))
  let word := s.map Char.toLower
  if word = ['i', 'n', 'f'] ∨ word = ['i', 'n', 'f', 'i', 'n', 'i', 't', 'y'] then
    some (.infinity negative)
  else if word = ['n', 'a', 'n'] then some .nan
  else (decimalLiteral s).map fun q => .decimal (if negative then -q else q)

/-! ## Doubles -/

/-- Half a unit beyond the greatest double. -/
def doubleLimit : ℚ := 2 ^ 1024 - 2 ^ 970

/-- The nearest double to a number below the limit: 53 bits of precision, none
finer than the smallest subnormal. -/
def roundToDouble (q : ℚ) : ℚ :=
  let ulp : ℤ := max (Int.log 2 |q| - 52) (-1074)
  roundHalfEven (q / 2 ^ ulp) * 2 ^ ulp

/-- The double nearest to a number. -/
def toDouble (q : ℚ) : XFloat :=
  if |q| < doubleLimit then .fin (roundToDouble q) else if 0 < q then .posInf else .negInf

/-- The double a literal stands for. -/
def Literal.value : Literal → XFloat
  | .decimal q => toDouble q
  | .infinity negative => if negative then .negInf else .posInf
  | .nan => .nan

/-- `float(s)`. -/
def pyFloat (s : String) : Option XFloat := (floatLiteral s).map Literal.value

/-- `int(s)`, for at most 4300 digits. -/
def pyInt (s : String) : Option ℤ := do
  let (negative, s) := sign (trim isAsciiSpace (asciiForm s.toList))
  let digits ← dropUnderscores s
  if digits ≠ [] ∧ digits.all isDigit ∧ digits.length ≤ 4300 then
    some (if negative then -digitsValue digits else digitsValue digits)
  else none

/-! ## When a conversion is finite -/

/-- The literal stands for a finite number. -/
def Literal.IsFinite : Literal → Prop
  | .decimal q => |q| < doubleLimit
  | .infinity _ => False
  | .nan => False

theorem toDouble_eq_fin {q : ℚ} (h : |q| < doubleLimit) : toDouble q = .fin (roundToDouble q) :=
  if_pos h

/-! ## What no number holds -/

/-- A character within ASCII that stands in no number. -/
structure IsForeign (c : Char) : Prop where
  ascii : c.toNat < 127
  not_space : isAsciiSpace c = false
  not_digit : isDigit c = false
  not_mark : c.toLower ∉ "+-._aefinty".toList

theorem isForeign_comma : IsForeign ',' := ⟨by decide, by decide, by decide, by decide⟩

theorem mem_asciiForm {s : List Char} {c : Char} (hc : c ∈ s) (hascii : c.toNat < 127) :
    c ∈ asciiForm s := by
  unfold asciiForm
  split
  · exact hc
  · exact List.mem_map.2 ⟨c, hc, if_pos hascii⟩

/-- Only underscores are dropped. -/
theorem mem_dropUnderscores {s t : List Char} {c : Char} (hs : dropUnderscores s = some t)
    (hc : c ∈ s) (hne : c ≠ '_') : c ∈ t := by
  fun_induction dropUnderscores s generalizing t with
  | case1 => simp at hc
  | case2 => simp at hs
  | case3 a b rest _ _ ih =>
    obtain ⟨t, ht, rfl⟩ := Option.map_eq_some_iff.1 hs
    rcases List.mem_cons.1 hc with rfl | hc
    · exact List.mem_cons_self
    · exact List.mem_cons_of_mem _ (ih ht ((List.mem_cons.1 hc).resolve_left hne))
  | case4 => simp at hs
  | case5 a rest _ _ ih =>
    obtain ⟨t, ht, rfl⟩ := Option.map_eq_some_iff.1 hs
    rcases List.mem_cons.1 hc with rfl | hc
    · exact List.mem_cons_self
    · exact List.mem_cons_of_mem _ (ih ht hc)

namespace IsForeign

variable {c : Char} (hforeign : IsForeign c)
include hforeign

theorem ne {d : Char} (hd : d.toLower ∈ "+-._aefinty".toList) : c ≠ d := by
  rintro rfl
  exact hforeign.not_mark hd

theorem mem_sign {s : List Char} (hc : c ∈ s) : c ∈ (sign s).2 := by
  unfold sign
  split
  · exact (List.mem_cons.1 hc).resolve_left (hforeign.ne (by decide))
  · exact (List.mem_cons.1 hc).resolve_left (hforeign.ne (by decide))
  · exact hc

theorem exponent_eq_none {s : List Char} (hc : c ∈ s) : exponent s = none := by
  cases s with
  | nil => simp at hc
  | cons e s =>
    rcases List.mem_cons.1 hc with rfl | hc
    · have hlower := hforeign.ne (d := 'e') (by decide)
      have hupper := hforeign.ne (d := 'E') (by decide)
      simp [exponent, hlower, hupper]
    · have hall : (sign s).2.all isDigit = false :=
        List.all_eq_false.2 ⟨c, hforeign.mem_sign hc, by simp [hforeign.not_digit]⟩
      simp [exponent, hall]

theorem decimalLiteral_eq_none {s : List Char} (hc : c ∈ s) : decimalLiteral s = none := by
  have hrest : c ∈ s.dropWhile isDigit := mem_dropWhile hc hforeign.not_digit
  unfold decimalLiteral
  dsimp only
  split
  · rename_i s' hdrop
    rw [hdrop] at hrest
    have hfraction : c ∈ s' := (List.mem_cons.1 hrest).resolve_left (hforeign.ne (by decide))
    rw [hforeign.exponent_eq_none (mem_dropWhile hfraction hforeign.not_digit)]
    simp
  · rw [hforeign.exponent_eq_none hrest]
    simp

/-- **A string with a foreign character is no number.** -/
theorem pyFloat_eq_none {s : String} (hc : c ∈ s.toList) : pyFloat s = none := by
  have htrim : c ∈ trim isAsciiSpace (asciiForm s.toList) :=
    mem_trim (mem_asciiForm hc hforeign.ascii) hforeign.not_space
  unfold pyFloat floatLiteral
  cases hdrop : dropUnderscores (trim isAsciiSpace (asciiForm s.toList)) with
  | none => rfl
  | some t =>
    have ht : c ∈ (sign t).2 :=
      hforeign.mem_sign (mem_dropUnderscores hdrop htrim (hforeign.ne (by decide)))
    -- The words for an infinity and for not-a-number have no letter that is foreign.
    have hword : ∀ word : List Char, word ⊆ "+-._aefinty".toList →
        (sign t).2.map Char.toLower ≠ word := by
      rintro word hsub rfl
      exact hforeign.not_mark (hsub (List.mem_map_of_mem ht))
    have hinf := hword ['i', 'n', 'f'] (by decide)
    have hinfinity := hword ['i', 'n', 'f', 'i', 'n', 'i', 't', 'y'] (by decide)
    have hnan := hword ['n', 'a', 'n'] (by decide)
    simp [hinf, hinfinity, hnan, hforeign.decimalLiteral_eq_none ht]

end IsForeign

end PyNumber
