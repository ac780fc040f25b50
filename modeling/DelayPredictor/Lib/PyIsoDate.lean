import DelayPredictor.Lib.PyTime

/-!
# Dates in ISO 8601 format

`datetime.date.fromisoformat`, as CPython 3.11 reads its argument.

* `Date.ofDayOfYear`, `Date.ofIsoWeek` — a date by its place in the year, and by its
  ISO week and day.
* `fromIsoFormat` — a string of 7, 8 or 10 bytes: a year, then a month and a day, or
  a week and maybe a day, with the separators both there or both not.  What follows
  a complete date within that length is not looked at.
-/

namespace PyTime

open PyText

/-- The day of a list of months that `n` days follow the first of. -/
def Date.ofMonths (year : ℕ) : List ℕ → ℕ → Option Date
  | [], _ => none
  | month :: months, n =>
    if n < daysInMonth year month then Date.ofYmd year month (n + 1)
    else Date.ofMonths year months (n - daysInMonth year month)

/-- The day that `n` days follow the first of January. -/
def Date.ofDayOfYear (year n : ℕ) : Option Date := Date.ofMonths year (List.range' 1 12) n

/-- The length of a year. -/
def daysInYear (year : ℕ) : ℕ := if isLeap year then 366 else 365

/-- The weekday of the first of January, Monday being 0. -/
def firstWeekday (year : ℕ) : ℕ :=
  (365 * (year - 1) + (year - 1) / 4 - (year - 1) / 100 + (year - 1) / 400) % 7

/-- The number of weeks of an ISO year. -/
def isoWeeks (year : ℕ) : ℕ :=
  if firstWeekday year = 3 ∨ (firstWeekday year = 2 ∧ isLeap year) then 53 else 52

/-- The day of a week of an ISO year; its first week has the year's first Thursday, and
may begin in the year before. -/
def Date.ofIsoWeek (year week day : ℕ) : Option Date :=
  if year = 0 ∨ ¬ (1 ≤ week ∧ week ≤ isoWeeks year) ∨ ¬ (1 ≤ day ∧ day ≤ 7) then none
  else
    let offset : ℤ := (week - 1) * 7 + (day - 1) - firstWeekday year +
      if 3 < firstWeekday year then 7 else 0
    if offset < 0 then Date.ofDayOfYear (year - 1) (daysInYear (year - 1) + offset).toNat
    else if offset < daysInYear year then Date.ofDayOfYear year offset.toNat
    else Date.ofDayOfYear (year + 1) (offset - daysInYear year).toNat

/-- The separator, where one is used. -/
def separator (used : Bool) (s : List Char) : Option (List Char) :=
  if used then
    match s with
    | '-' :: rest => some rest
    | _ => none
  else some s

/-- What follows the year. -/
def isoMonthOrWeek (year : ℕ) (used : Bool) : List Char → Option Date
  | 'W' :: s => do
    let (week, s) ← twoDigits digit digit s
    if s = [] then Date.ofIsoWeek year week 1
    else
      let (day, _) ← oneDigit digit (← separator used s)
      Date.ofIsoWeek year week day
  | s => do
    let (month, s) ← twoDigits digit digit s
    let (day, _) ← twoDigits digit digit (← separator used s)
    Date.ofYmd year month day

/-- `datetime.date.fromisoformat`; none when it raises `ValueError`. -/
def fromIsoFormat (value : String) : Option Date := do
  if value.utf8ByteSize = 7 ∨ value.utf8ByteSize = 8 ∨ value.utf8ByteSize = 10 then
    let (hi, s) ← twoDigits digit digit value.toList
    let (lo, s) ← twoDigits digit digit s
    match s with
    | '-' :: s => isoMonthOrWeek (100 * hi + lo) true s
    | s => isoMonthOrWeek (100 * hi + lo) false s
  else none

example : (fromIsoFormat "2026-04-25").map (fun d => (d.year, d.month, d.day)) =
    some (2026, 4, 25) := by
  decide

example : (fromIsoFormat "2026-W53-7").map (fun d => (d.year, d.month, d.day)) =
    some (2027, 1, 3) := by
  decide

end PyTime
