import DelayPredictor.Lib.PyText

/-!
# Instants, aware datetimes and dates

The part of Python's `datetime` that the development computes with, in exact
integer microseconds.

* `Instant` — microseconds since the epoch, on the UTC time line.
* `DateTime` — a wall clock reading with an optional UTC offset; `hour` and
  `weekday` read the *wall clock*, as Python's do.
* `sameHourOfWeek_iff` — two wall clocks less than a day apart show the same hour
  of the same weekday exactly when neither leaves the other's clock hour.
* `Date` — a calendar date of the years 1 to 9999; an invalid one cannot be
  built.  `strptimeYmd` reads the format `%Y%m%d` as Python's regular expression
  does, shortened months and days included.
* `strptimeYmdHMS` reads `%Y%m%d%H%M%S`; `strptimeYmdHMS_of_timestamp`: **fourteen
  digits that write a time are read as that time**.
* `fromTimestamp` — seconds since the epoch, refused outside `datetime`'s range.
-/

namespace PyTime

open PyText

/-- An instant: microseconds since 1970-01-01T00:00:00Z. -/
abbrev Instant := ℤ

/-- A number of seconds, as a difference of instants. -/
def seconds (n : ℤ) : ℤ := n * 1000000

/-- A number of minutes, as a difference of instants. -/
def minutes (n : ℤ) : ℤ := seconds (n * 60)

/-- A number of hours, as a difference of instants. -/
def hours (n : ℤ) : ℤ := seconds (n * 3600)

/-- A number of days, as a difference of instants. -/
def days (n : ℤ) : ℤ := seconds (n * 86400)

theorem days_inj {a b : ℤ} (h : days a = days b) : a = b := by
  unfold days seconds at h
  omega

/-! ## Reading a wall clock -/

/-- The hour a wall clock shows, 0 to 23. -/
def hourOfDay (wall : ℤ) : ℤ := wall / 3600000000 % 24

/-- The minute a wall clock shows, 0 to 59. -/
def minuteOfHour (wall : ℤ) : ℤ := wall / 60000000 % 60

/-- The second a wall clock shows, 0 to 59. -/
def secondOfMinute (wall : ℤ) : ℤ := wall / 1000000 % 60

/-- The weekday a wall clock shows, Monday being 0: the epoch was a Thursday. -/
def weekdayOf (wall : ℤ) : ℤ := (wall / 86400000000 + 3) % 7

/-- The day a wall clock shows, counted from 1970-01-01. -/
def dayOf (wall : ℤ) : ℤ := wall / 86400000000

/-- The seconds of the day a wall clock shows. -/
theorem secondsOfDay_eq (wall : ℤ) :
    hourOfDay wall * 3600 + minuteOfHour wall * 60 + secondOfMinute wall =
      wall % 86400000000 / 1000000 := by
  unfold hourOfDay minuteOfHour secondOfMinute
  omega

/-- The hour and the weekday of two wall clocks agree exactly when they are a
whole number of weeks of clock hours apart. -/
theorem hourOfWeek_iff (a b : ℤ) :
    hourOfDay a = hourOfDay b ∧ weekdayOf a = weekdayOf b ↔
      a / 3600000000 % 168 = b / 3600000000 % 168 := by
  have ha : a / 86400000000 = a / 3600000000 / 24 := by omega
  have hb : b / 86400000000 = b / 3600000000 / 24 := by omega
  rw [hourOfDay, hourOfDay, weekdayOf, weekdayOf, ha, hb]
  omega

/-- **Two wall clocks less than a day apart** show the same hour of the same
weekday exactly when the shift does not leave the clock hour. -/
theorem sameHourOfWeek_iff {t d : ℤ} (hlo : -86400000000 < d) (hhi : d < 86400000000) :
    hourOfDay (t + d) = hourOfDay t ∧ weekdayOf (t + d) = weekdayOf t ↔
      0 ≤ t % 3600000000 + d ∧ t % 3600000000 + d < 3600000000 := by
  rw [hourOfWeek_iff]
  omega

/-! ## Aware and naive datetimes -/

/-- A UTC offset: strictly between a day behind and a day ahead. -/
structure Offset where
  /-- The offset in microseconds, positive to the east. -/
  micros : ℤ
  /-- Less than a day behind. -/
  lower : -86400000000 < micros
  /-- Less than a day ahead. -/
  upper : micros < 86400000000
  deriving DecidableEq, Repr

namespace Offset

/-- UTC itself. -/
def utc : Offset := ⟨0, by decide, by decide⟩

@[simp] theorem utc_micros : utc.micros = 0 := rfl

end Offset

/-- A datetime: what its wall clock shows, and its UTC offset if it has one. -/
structure DateTime where
  /-- The wall clock, as microseconds since 1970-01-01T00:00:00 on that clock. -/
  wall : ℤ
  /-- The UTC offset; `none` for a naive datetime. -/
  tzinfo : Option Offset
  deriving DecidableEq, Repr

namespace DateTime

/-- The instant `t` written in the offset `off`. -/
def inOffset (t : Instant) (off : Offset) : DateTime := ⟨t + off.micros, some off⟩

/-- The instant `t` written in UTC. -/
def utc (t : Instant) : DateTime := DateTime.inOffset t Offset.utc

/-- `datetime.hour`. -/
def hour (d : DateTime) : ℤ := hourOfDay d.wall

/-- `datetime.weekday()`. -/
def weekday (d : DateTime) : ℤ := weekdayOf d.wall

@[simp] theorem utc_hour (t : Instant) : (utc t).hour = hourOfDay t := by
  simp [hour, utc, DateTime.inOffset]

@[simp] theorem utc_weekday (t : Instant) : (utc t).weekday = weekdayOf t := by
  simp [weekday, utc, DateTime.inOffset]

/-- An instant written in an offset falls in the clock hour it falls in when
written in UTC exactly when the offset does not carry it out of that hour. -/
theorem inOffset_sameHourOfWeek_iff (t : Instant) (off : Offset) :
    ((DateTime.inOffset t off).hour = (utc t).hour ∧
        (DateTime.inOffset t off).weekday = (utc t).weekday) ↔
      0 ≤ t % 3600000000 + off.micros ∧ t % 3600000000 + off.micros < 3600000000 := by
  rw [utc_hour, utc_weekday]
  exact sameHourOfWeek_iff off.lower off.upper

end DateTime

/-- `datetime.fromtimestamp(epoch, tz=UTC)`: an error outside the years 1 to 9999. -/
def fromTimestamp (epoch : ℤ) : Option Instant :=
  if -62135596800 ≤ epoch ∧ epoch ≤ 253402300799 then some (seconds epoch) else none

/-! ## Dates -/

/-- Leap years of the Gregorian calendar. -/
def isLeap (year : ℕ) : Bool := year % 4 = 0 && (year % 100 ≠ 0 || year % 400 = 0)

/-- The length of a month. -/
def daysInMonth (year month : ℕ) : ℕ :=
  if month = 2 then if isLeap year then 29 else 28
  else if month = 4 ∨ month = 6 ∨ month = 9 ∨ month = 11 then 30 else 31

/-- A calendar date. -/
structure Date where
  /-- The year. -/
  year : ℕ
  /-- The month, January being 1. -/
  month : ℕ
  /-- The day of the month. -/
  day : ℕ
  /-- `datetime.date` covers the years 1 to 9999. -/
  year_range : 1 ≤ year ∧ year ≤ 9999
  /-- The month exists. -/
  month_range : 1 ≤ month ∧ month ≤ 12
  /-- The day exists in that month. -/
  day_range : 1 ≤ day ∧ day ≤ daysInMonth year month
  deriving DecidableEq, Repr

/-- `datetime.date(year, month, day)`: an error when there is no such day. -/
def Date.ofYmd (year month day : ℕ) : Option Date :=
  if hy : 1 ≤ year ∧ year ≤ 9999 then
    if hm : 1 ≤ month ∧ month ≤ 12 then
      if hd : 1 ≤ day ∧ day ≤ daysInMonth year month then some ⟨year, month, day, hy, hm, hd⟩
      else none
    else none
  else none

/-- A digit between `lo` and `hi`. -/
def digitIn (lo hi : ℕ) (c : Char) : Option ℕ := (digit c).filter fun n => lo ≤ n ∧ n ≤ hi

/-- Two characters read by `f` and `g` as a two-digit number. -/
def twoDigits (f g : Char → Option ℕ) : List Char → Option (ℕ × List Char)
  | a :: b :: rest => do return (10 * (← f a) + (← g b), rest)
  | _ => none

/-- One character read by `f`. -/
def oneDigit (f : Char → Option ℕ) : List Char → Option (ℕ × List Char)
  | a :: rest => do return (← f a, rest)
  | _ => none

/-- `%Y`: four digits. -/
def directiveY (s : List Char) : Option (ℕ × List Char) := do
  let (hi, s) ← twoDigits decimalDigit decimalDigit s
  let (lo, s) ← twoDigits decimalDigit decimalDigit s
  return (100 * hi + lo, s)

/-- `%m`, the readings `1[0-2]|0[1-9]|[1-9]` in order of preference. -/
def directiveM (s : List Char) : List (ℕ × List Char) :=
  [twoDigits (digitIn 1 1) (digitIn 0 2) s, twoDigits (digitIn 0 0) (digitIn 1 9) s,
    oneDigit (digitIn 1 9) s].reduceOption

/-- A blank, read as no tens. -/
def blank (c : Char) : Option ℕ := if c = ' ' then some 0 else none

/-- `%d`, the readings `3[0-1]|[1-2]\d|0[1-9]|[1-9]| [1-9]` in order of preference. -/
def directiveD (s : List Char) : List (ℕ × List Char) :=
  [twoDigits (digitIn 3 3) (digitIn 0 1) s, twoDigits (digitIn 1 2) decimalDigit s,
    twoDigits (digitIn 0 0) (digitIn 1 9) s, oneDigit (digitIn 1 9) s,
    twoDigits blank (digitIn 1 9) s].reduceOption

/-- `datetime.strptime(value, "%Y%m%d").date()`.  The expression settles on its
first match; text left over after it, and a day that does not exist, are errors. -/
def strptimeYmd (value : String) : Option Date := do
  let (year, s) ← directiveY value.toList
  let (month, day, rest) ← (directiveM s).findSome? fun (m, s) =>
    (directiveD s).head?.map fun (d, s) => (m, d, s)
  if rest = [] then Date.ofYmd year month day else none

example : (strptimeYmd "20260513").map (fun d => (d.year, d.month, d.day)) =
    some (2026, 5, 13) := by
  decide

example : (strptimeYmd "202611").map (fun d => (d.year, d.month, d.day)) = some (2026, 1, 1) := by
  decide

example : strptimeYmd "20260230" = none := by decide

/-! ## Times of day -/

/-- The day of a date, counted from 1970-01-01. -/
def Date.dayNumber (d : Date) : ℤ :=
  let years := d.year - 1
  (365 * years + years / 4 - years / 100 + years / 400 : ℤ) +
    ((List.range' 1 (d.month - 1)).map (daysInMonth d.year)).sum + d.day - 719163

/-- A time of a day, in UTC. -/
def Date.at (d : Date) (hour minute second : ℕ) : Instant :=
  days d.dayNumber + seconds (hour * 3600 + minute * 60 + second)

/-- `datetime.datetime(year, month, day, hour, minute, second, tzinfo=UTC)`. -/
def timestamp (year month day hour minute second : ℕ) : Option Instant :=
  if hour ≤ 23 ∧ minute ≤ 59 ∧ second ≤ 59 then
    (Date.ofYmd year month day).map fun d => d.at hour minute second
  else none

/-- `%H`, the readings `2[0-3]|[0-1]\d|\d` in order of preference. -/
def directiveH (s : List Char) : List (ℕ × List Char) :=
  [twoDigits (digitIn 2 2) (digitIn 0 3) s, twoDigits (digitIn 0 1) decimalDigit s,
    oneDigit decimalDigit s].reduceOption

/-- `%M`, the readings `[0-5]\d|\d` in order of preference. -/
def directiveMinute (s : List Char) : List (ℕ × List Char) :=
  [twoDigits (digitIn 0 5) decimalDigit s, oneDigit decimalDigit s].reduceOption

/-- `%S`, the readings `6[0-1]|[0-5]\d|\d` in order of preference. -/
def directiveS (s : List Char) : List (ℕ × List Char) :=
  [twoDigits (digitIn 6 6) (digitIn 0 1) s, twoDigits (digitIn 0 5) decimalDigit s,
    oneDigit decimalDigit s].reduceOption

/-- The readings of `%m%d%H%M%S`, in the order the expression tries them. -/
def readingsMdHMS (s : List Char) : List ((ℕ × ℕ × ℕ × ℕ × ℕ) × List Char) :=
  (directiveM s).flatMap fun (month, s) => (directiveD s).flatMap fun (day, s) =>
    (directiveH s).flatMap fun (hour, s) => (directiveMinute s).flatMap fun (minute, s) =>
      (directiveS s).map fun (second, s) => ((month, day, hour, minute, second), s)

/-- `datetime.strptime(value, "%Y%m%d%H%M%S").replace(tzinfo=UTC)`.  A leap second
is matched and then refused. -/
def strptimeYmdHMS (value : List Char) : Option Instant := do
  let (year, s) ← directiveY value
  let ((month, day, hour, minute, second), rest) ← (readingsMdHMS s).head?
  if rest = [] then timestamp year month day hour minute second else none

example : (strptimeYmdHMS "20260513013000".toList) = some (seconds 1778635800) := by decide

/-- Two ASCII digits as a number. -/
def number (a b : Char) : Option ℕ := do return 10 * (← digit a) + (← digit b)

/-- Fourteen ASCII digits that write an existing time, year first. -/
def fourteenDigits : List Char → Option Instant
  | [y₁, y₂, y₃, y₄, m₁, m₂, d₁, d₂, h₁, h₂, n₁, n₂, s₁, s₂] => do
    timestamp (100 * (← number y₁ y₂) + (← number y₃ y₄)) (← number m₁ m₂) (← number d₁ d₂)
      (← number h₁ h₂) (← number n₁ n₂) (← number s₁ s₂)
  | _ => none

/-! ### Fourteen digits are read as the time they write -/

theorem digit_le {c : Char} {n : ℕ} (h : digit c = some n) : n ≤ 9 := by
  unfold digit at h
  split at h
  · rename_i hc
    have hhi : c.toNat ≤ '9'.toNat := UInt32.le_iff_toNat_le.1 hc.2
    have hn : c.toNat - '0'.toNat = n := Option.some.inj h
    have h9 : '9'.toNat = '0'.toNat + 9 := by decide
    omega
  · cases h

/-- The first reading of what two digits start with. -/
theorem head?_flatMap {α β : Type*} {l : List α} {f : α → List β} {a : α} {b : β}
    (ha : l.head? = some a) (hb : (f a).head? = some b) : (l.flatMap f).head? = some b := by
  obtain ⟨as, rfl⟩ := List.head?_eq_some_iff.1 ha
  obtain ⟨bs, hbs⟩ := List.head?_eq_some_iff.1 hb
  rw [List.flatMap_cons, hbs]
  rfl

theorem number_eq_some {a b : Char} {k : ℕ} (h : number a b = some k) :
    ∃ m n, digit a = some m ∧ digit b = some n ∧ k = 10 * m + n := by
  simp only [number, Option.bind_eq_bind, Option.bind_eq_some_iff] at h
  obtain ⟨m, hm, n, hn, hk⟩ := h
  exact ⟨m, n, hm, hn, (Option.some.inj hk).symm⟩

section Directives

variable {a b : Char} {m n k : ℕ}

theorem digitIn_of_digit {lo hi : ℕ} (ha : digit a = some m) (hlo : lo ≤ m) (hhi : m ≤ hi) :
    digitIn lo hi a = some m := by
  rw [digitIn, ha, Option.filter_some, if_pos (by simp [hlo, hhi])]

theorem digitIn_of_not {lo hi : ℕ} (ha : digit a = some m) (h : ¬ (lo ≤ m ∧ m ≤ hi)) :
    digitIn lo hi a = none := by
  rw [digitIn, ha, Option.filter_some, if_neg (by simpa using h)]

theorem twoDigits_eq_some {f g : Char → Option ℕ} (ha : f a = some m) (hb : g b = some n)
    (s : List Char) : twoDigits f g (a :: b :: s) = some (10 * m + n, s) := by
  simp [twoDigits, ha, hb]

theorem twoDigits_eq_none {f : Char → Option ℕ} (ha : f a = none) (g : Char → Option ℕ)
    (s : List Char) : twoDigits f g (a :: b :: s) = none := by
  simp [twoDigits, ha]

theorem directiveM_head? (h : number a b = some k) (hlo : 1 ≤ k) (hhi : k ≤ 12) (s : List Char) :
    (directiveM (a :: b :: s)).head? = some (k, s) := by
  obtain ⟨m, n, ha, hb, rfl⟩ := number_eq_some h
  have hn := digit_le hb
  unfold directiveM
  by_cases hm : m = 1
  · rw [twoDigits_eq_some (digitIn_of_digit ha (by omega) (by omega))
      (digitIn_of_digit hb (by omega) (by omega))]
    rfl
  · rw [twoDigits_eq_none (digitIn_of_not ha (by omega)),
      twoDigits_eq_some (digitIn_of_digit ha (by omega) (by omega))
        (digitIn_of_digit hb (by omega) (by omega))]
    rfl

theorem directiveD_head? (h : number a b = some k) (hlo : 1 ≤ k) (hhi : k ≤ 31) (s : List Char) :
    (directiveD (a :: b :: s)).head? = some (k, s) := by
  obtain ⟨m, n, ha, hb, rfl⟩ := number_eq_some h
  have hn := digit_le hb
  unfold directiveD
  by_cases h3 : m = 3
  · rw [twoDigits_eq_some (digitIn_of_digit ha (by omega) (by omega))
      (digitIn_of_digit hb (by omega) (by omega))]
    rfl
  · rw [twoDigits_eq_none (digitIn_of_not ha (by omega))]
    by_cases h0 : m = 0
    · rw [twoDigits_eq_none (digitIn_of_not ha (by omega)),
        twoDigits_eq_some (digitIn_of_digit ha (by omega) (by omega))
          (digitIn_of_digit hb (by omega) (by omega))]
      rfl
    · rw [twoDigits_eq_some (digitIn_of_digit ha (by omega) (by omega))
        (decimalDigit_of_digit hb)]
      rfl

theorem directiveH_head? (h : number a b = some k) (hhi : k ≤ 23) (s : List Char) :
    (directiveH (a :: b :: s)).head? = some (k, s) := by
  obtain ⟨m, n, ha, hb, rfl⟩ := number_eq_some h
  unfold directiveH
  by_cases h2 : m = 2
  · rw [twoDigits_eq_some (digitIn_of_digit ha (by omega) (by omega))
      (digitIn_of_digit hb (by omega) (by omega))]
    rfl
  · rw [twoDigits_eq_none (digitIn_of_not ha (by omega)),
      twoDigits_eq_some (digitIn_of_digit ha (by omega) (by omega)) (decimalDigit_of_digit hb)]
    rfl

theorem directiveMinute_head? (h : number a b = some k) (hhi : k ≤ 59) (s : List Char) :
    (directiveMinute (a :: b :: s)).head? = some (k, s) := by
  obtain ⟨m, n, ha, hb, rfl⟩ := number_eq_some h
  unfold directiveMinute
  rw [twoDigits_eq_some (digitIn_of_digit ha (by omega) (by omega)) (decimalDigit_of_digit hb)]
  rfl

theorem directiveS_head? (h : number a b = some k) (hhi : k ≤ 59) (s : List Char) :
    (directiveS (a :: b :: s)).head? = some (k, s) := by
  obtain ⟨m, n, ha, hb, rfl⟩ := number_eq_some h
  unfold directiveS
  rw [twoDigits_eq_none (digitIn_of_not ha (by omega)),
    twoDigits_eq_some (digitIn_of_digit ha (by omega) (by omega)) (decimalDigit_of_digit hb)]
  rfl

end Directives

theorem timestamp_eq_some {year month day hour minute second : ℕ} {t : Instant}
    (h : timestamp year month day hour minute second = some t) :
    (1 ≤ month ∧ month ≤ 12) ∧ (1 ≤ day ∧ day ≤ 31) ∧ hour ≤ 23 ∧ minute ≤ 59 ∧ second ≤ 59 := by
  unfold timestamp at h
  split at h
  · rename_i htime
    obtain ⟨d, hd, -⟩ := Option.map_eq_some_iff.1 h
    unfold Date.ofYmd at hd
    split at hd
    · split at hd
      · rename_i hm
        split at hd
        · rename_i hday
          have h31 : daysInMonth year month ≤ 31 := by
            unfold daysInMonth
            split
            · split <;> decide
            · split <;> decide
          exact ⟨hm, ⟨hday.1, by omega⟩, htime⟩
        · cases hd
      · cases hd
    · cases hd
  · cases h

theorem fourteenDigits_length {s : List Char} {t : Instant} (h : fourteenDigits s = some t) :
    s.length = 14 := by
  unfold fourteenDigits at h
  split at h
  · rfl
  · cases h

theorem directiveY_of_number {a b c d : Char} {hi lo : ℕ} (hab : number a b = some hi)
    (hcd : number c d = some lo) (s : List Char) :
    directiveY (a :: b :: c :: d :: s) = some (100 * hi + lo, s) := by
  obtain ⟨m, n, ha, hb, rfl⟩ := number_eq_some hab
  obtain ⟨k, l, hc, hd, rfl⟩ := number_eq_some hcd
  unfold directiveY
  rw [twoDigits_eq_some (decimalDigit_of_digit ha) (decimalDigit_of_digit hb)]
  show (do let (lo, s) ← twoDigits _ _ (c :: d :: s); return (_, s)) = _
  rw [twoDigits_eq_some (decimalDigit_of_digit hc) (decimalDigit_of_digit hd)]
  rfl

/-- **Fourteen digits that write a time are read as that time.** -/
theorem strptimeYmdHMS_of_timestamp {s : List Char} {t : Instant} (h : fourteenDigits s = some t) :
    strptimeYmdHMS s = some t := by
  unfold fourteenDigits at h
  split at h
  · rename_i y₁ y₂ y₃ y₄ m₁ m₂ d₁ d₂ h₁ h₂ n₁ n₂ s₁ s₂
    simp only [Option.bind_eq_bind, Option.bind_eq_some_iff] at h
    obtain ⟨hi, hhi, lo, hlo, month, hmonth, day, hday, hour, hhour, minute, hminute, second,
      hsecond, ht⟩ := h
    obtain ⟨hm, hd, hh, hn, hs⟩ := timestamp_eq_some ht
    have hread : (readingsMdHMS [m₁, m₂, d₁, d₂, h₁, h₂, n₁, n₂, s₁, s₂]).head? =
        some ((month, day, hour, minute, second), []) := by
      refine head?_flatMap (directiveM_head? hmonth hm.1 hm.2 _) ?_
      refine head?_flatMap (directiveD_head? hday hd.1 hd.2 _) ?_
      refine head?_flatMap (directiveH_head? hhour hh _) ?_
      refine head?_flatMap (directiveMinute_head? hminute hn _) ?_
      rw [List.head?_map, directiveS_head? hsecond hs]
      rfl
    simp only [strptimeYmdHMS, directiveY_of_number hhi hlo, hread, Option.bind_eq_bind,
      Option.bind_some, if_true]
    exact ht
  · cases h

end PyTime
