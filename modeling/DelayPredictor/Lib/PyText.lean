import Mathlib

/-!
# Characters of a Python string

The classes of characters that Python's own parsers go by.

* `digit` — an ASCII digit, with its value: what the class `[0-9]` matches.
* `decimalDigit` — a decimal digit of any script (category Nd), with its value:
  what `\d` matches and `int` reads.
* `isSpace`, `strip` — white space, and a string without it at both ends.
-/

namespace PyText

/-- The value of an ASCII digit. -/
def digit (c : Char) : Option ℕ :=
  if '0' ≤ c ∧ c ≤ '9' then some (c.toNat - '0'.toNat) else none

/-- The zeros of the scripts; the digits of a script follow its zero. -/
def decimalZeros : List ℕ :=
  [0x30, 0x660, 0x6f0, 0x7c0, 0x966, 0x9e6, 0xa66, 0xae6, 0xb66, 0xbe6, 0xc66, 0xce6, 0xd66, 0xde6,
    0xe50, 0xed0, 0xf20, 0x1040, 0x1090, 0x17e0, 0x1810, 0x1946, 0x19d0, 0x1a80, 0x1a90, 0x1b50,
    0x1bb0, 0x1c40, 0x1c50, 0xa620, 0xa8d0, 0xa900, 0xa9d0, 0xa9f0, 0xaa50, 0xabf0, 0xff10, 0x104a0,
    0x10d30, 0x11066, 0x110f0, 0x11136, 0x111d0, 0x112f0, 0x11450, 0x114d0, 0x11650, 0x116c0,
    0x11730, 0x118e0, 0x11950, 0x11c50, 0x11d50, 0x11da0, 0x16a60, 0x16ac0, 0x16b50, 0x1d7ce,
    0x1d7d8, 0x1d7e2, 0x1d7ec, 0x1d7f6, 0x1e140, 0x1e2f0, 0x1e950, 0x1fbf0]

/-- The value of a decimal digit. -/
def decimalDigit (c : Char) : Option ℕ :=
  decimalZeros.findSome? fun first =>
    if first ≤ c.toNat ∧ c.toNat ≤ first + 9 then some (c.toNat - first) else none

/-- `str.isspace` of a single character. -/
def isSpace (c : Char) : Bool :=
  (9 ≤ c.toNat && c.toNat ≤ 13) || (0x1c ≤ c.toNat && c.toNat ≤ 0x20) || c.toNat = 0x85 ||
    c.toNat = 0xa0 || c.toNat = 0x1680 || (0x2000 ≤ c.toNat && c.toNat ≤ 0x200a) ||
    c.toNat = 0x2028 || c.toNat = 0x2029 || c.toNat = 0x202f || c.toNat = 0x205f || c.toNat = 0x3000

/-- A string without the characters of a class at its ends. -/
def trim (p : Char → Bool) (s : List Char) : List Char :=
  ((s.dropWhile p).reverse.dropWhile p).reverse

/-- `str.strip`. -/
def strip (s : List Char) : List Char := trim isSpace s

/-- A character of another class stays. -/
theorem mem_dropWhile {p : Char → Bool} {s : List Char} {c : Char} (hc : c ∈ s)
    (hp : p c = false) : c ∈ s.dropWhile p := by
  rw [← List.takeWhile_append_dropWhile (p := p) (l := s), List.mem_append] at hc
  refine hc.resolve_left fun htake => ?_
  simp [List.mem_takeWhile_imp htake] at hp

theorem mem_trim {p : Char → Bool} {s : List Char} {c : Char} (hc : c ∈ s) (hp : p c = false) :
    c ∈ trim p s := by
  rw [trim, List.mem_reverse]
  exact mem_dropWhile (List.mem_reverse.2 (mem_dropWhile hc hp)) hp

/-- An ASCII digit is a decimal digit with the same value. -/
theorem decimalDigit_of_digit {c : Char} {n : ℕ} (h : digit c = some n) :
    decimalDigit c = some n := by
  unfold digit at h
  split at h
  · rename_i hc
    have hlo : 48 ≤ c.toNat := UInt32.le_iff_toNat_le.1 hc.1
    have hhi : c.toNat ≤ 57 := UInt32.le_iff_toNat_le.1 hc.2
    unfold decimalDigit decimalZeros
    rw [List.findSome?_cons, if_pos ⟨hlo, hhi⟩]
    exact h
  · cases h

example : decimalDigit '٣' = some 3 := by decide

end PyText
