import DelayPredictor.Lib.PyIsoDate
import DelayPredictor.Weather

/-!
# Public holidays

`app/services/holidays.py`: what a sync makes of the responses, and what it leaves in
`public_holidays`.

* `parseHolidays`, `syncQldHolidays` — the parser, and a sync: all rows of all years
  go into one statement.
* `Mirrored` — every date of a holiday that applies to Queensland has one row, and
  the years that were asked for have no other rows.
* `mirrored_iff` — **when a sync mirrors its responses**: exactly when these can be
  read and stored, no date comes twice, and every row the years had is stated again.
-/

namespace DelayPredictor

open Keyed PyJson PyTime Raising

/-! ## The parser -/

/-- Whether a value is the string `text`. -/
def isText (text : String) : Value → Bool
  | .str s => s = text
  | _ => false

/-- `text in value`. -/
def valueContains (text : String) : Value → Except WeatherError Bool
  | .arr items => .ok (items.any (isText text))
  | .str s => .ok (text.toList <:+: s.toList)
  | .obj members => .ok (members.any fun m => m.1 = text)
  | _ => .error .typeError

/-- `a or b`. -/
def valueOr (a b : Value) : Value := if a.truthy then a else b

/-- `_qld_applicable`. -/
def qldApplicable (entry : Value) : Except WeatherError Bool := do
  let counties ← dictGet entry "counties"
  if counties.truthy then valueContains "AU-QLD" counties else return true

/-- The values of a proposed row; the name is whatever the entry has. -/
structure HolidayValues where
  date : Date
  name : Value
  subdivision : String
  source : String

/-- The values of an entry whose date is `date`. -/
def holidayValues (entry : Value) (date : Date) : Except WeatherError HolidayValues := do
  let localName ← dictGet entry "localName"
  let name ← dictGet entry "name"
  let counties ← dictGet entry "counties"
  return {
    date
    name := valueOr (valueOr localName name) (.str "Public holiday")
    subdivision := if counties.truthy then "AU-QLD" else "AU"
    source := "nager.at" }

/-- The body of the loop over the entries. -/
def parseHoliday (entry : Value) : Except WeatherError (Option HolidayValues) := do
  if ← qldApplicable entry then
    let dateStr ← dictGet entry "date"
    if dateStr.truthy then
      match dateStr with
      | .str s =>
        match fromIsoFormat s with
        | some date => return some (← holidayValues entry date)
        | none => return none
      | _ => throw .typeError
    else return none
  else return none

/-- `parse_holidays`. -/
def parseHolidays (payload : Value) : Except WeatherError (List HolidayValues) := do
  collect parseHoliday (← iterate payload)

/-! ## A sync -/

/-- What asking for a year ends in. -/
inductive YearOutcome where
  /-- A transport error, or a status that is not a success. -/
  | httpError
  /-- A response whose body is one `response.json()` raises at. -/
  | notJson
  /-- A response, and what `response.json()` returned. -/
  | json (payload : Value)

/-- One sync: the years in order, each with its outcome. -/
abbrev HolidaySync := List (ℤ × YearOutcome)

/-- What makes a sync raise. -/
inductive HolidayError where
  | httpError
  /-- Raised by the parser. -/
  | parser (e : WeatherError)
  /-- A name that is no text, or none of the column. -/
  | dataError
  /-- More arguments than a statement takes. -/
  | interfaceError
  /-- Two proposed rows on one date. -/
  | cardinalityViolation
  deriving DecidableEq, Repr

/-- `all_rows`: what is parsed of every year. -/
def fetchHolidays : HolidaySync → Except HolidayError (List HolidayValues)
  | [] => .ok []
  | (_, .httpError) :: _ => .error .httpError
  | (_, .notJson) :: _ => .error (.parser .jsonDecodeError)
  | (_, .json payload) :: rest => do
    let rows ← (parseHolidays payload).mapError .parser
    let allRows ← fetchHolidays rest
    return rows ++ allRows

/-- The row of some values; the driver takes strings for a text column only. -/
def HolidayValues.row (v : HolidayValues) : Except HolidayError (Option PublicHoliday) :=
  match v.name with
  | .str name =>
    if textFits name then
      .ok (some ⟨v.date, name, some v.subdivision, some v.source⟩)
    else .error .dataError
  | _ => .error .dataError

/-- The statement that proposes all rows.  It has four arguments a row, and the driver
takes as many as a 16 bit integer counts. -/
def upsertHolidays (db : Db) (allRows : List HolidayValues) : Except HolidayError Db := do
  let rows ← collect HolidayValues.row allRows
  if 4 * rows.length ≤ 32767 then
    match db.publicHolidays.upsert rows with
    | some table => return { db with publicHolidays := table }
    | none => throw .cardinalityViolation
  else throw .interfaceError

/-- `sync_qld_holidays`: the committed database, and the number returned. -/
def syncQldHolidays (db : Db) (run : HolidaySync) : Except HolidayError (Db × ℕ) := do
  let allRows ← fetchHolidays run
  if allRows.isEmpty then return (db, 0)
  else return (← upsertHolidays db allRows, allRows.length)

/-! ## What is asked of the responses -/

/-- The date of an entry that applies to Queensland and has one. -/
def holidayDate (entry : Value) : Option Date :=
  match qldApplicable entry, dictGet entry "date" with
  | .ok true, .ok (.str s) => fromIsoFormat s
  | _, _ => none

/-- The dates of the entries of a response that apply to Queensland. -/
def qldDatesOf : YearOutcome → List Date
  | .json payload =>
    match iterate payload with
    | .ok entries => entries.filterMap holidayDate
    | .error _ => []
  | _ => []

/-- The dates of all entries that apply to Queensland, in order. -/
def qldDates (run : HolidaySync) : List Date := run.flatMap fun p => qldDatesOf p.2

/-- Something counties may be looked up in, or nothing at all. -/
def CountiesReadable (counties : Value) : Prop :=
  counties.truthy → ∃ listed, valueContains "AU-QLD" counties = .ok listed

/-- A text, or nothing at all. -/
def DateReadable (date : Value) : Prop := date.truthy → ∃ s, date = .str s

/-- The name of an entry. -/
def holidayName (members : List (String × Value)) : Value :=
  valueOr (valueOr (Value.lookup "localName" members) (Value.lookup "name" members))
    (.str "Public holiday")

/-- A text that fits its column. -/
def NameStorable (name : Value) : Prop := ∃ s, name = .str s ∧ textFits s = true

/-- An object of which the parser looks at nothing that raises. -/
def EntryReadable (entry : Value) : Prop :=
  ∃ members, entry = .obj members ∧ CountiesReadable (Value.lookup "counties" members) ∧
    (qldApplicable entry = .ok true → DateReadable (Value.lookup "date" members)) ∧
    (holidayDate entry ≠ none → NameStorable (holidayName members))

/-- A response with a JSON body whose entries can all be read. -/
def YearOutcome.Readable (outcome : YearOutcome) : Prop :=
  ∃ payload entries, outcome = .json payload ∧ iterate payload = .ok entries ∧
    ∀ entry ∈ entries, EntryReadable entry

/-! ## What the parser yields -/

theorem qldApplicable_obj (members : List (String × Value)) :
    qldApplicable (.obj members) =
      if (Value.lookup "counties" members).truthy then
        valueContains "AU-QLD" (Value.lookup "counties" members)
      else .ok true := rfl

/-- Only an object has counties. -/
theorem obj_of_qldApplicable {entry : Value} {applicable : Bool}
    (h : qldApplicable entry = .ok applicable) : ∃ members, entry = .obj members := by
  cases entry with
  | obj members => exact ⟨members, rfl⟩
  | _ => cases h

theorem qldApplicable_isOk_iff (members : List (String × Value)) :
    (∃ applicable, qldApplicable (.obj members) = .ok applicable) ↔
      CountiesReadable (Value.lookup "counties" members) := by
  rw [qldApplicable_obj]
  unfold CountiesReadable
  by_cases h : (Value.lookup "counties" members).truthy = true
  · simp [h]
  · simp [h]

/-- The values of an entry of a holiday. -/
def valuesAt (members : List (String × Value)) (date : Date) : HolidayValues where
  date
  name := holidayName members
  subdivision := if (Value.lookup "counties" members).truthy then "AU-QLD" else "AU"
  source := "nager.at"

theorem parseHoliday_of_not_applicable {members : List (String × Value)}
    (h : qldApplicable (.obj members) = .ok false) : parseHoliday (.obj members) = .ok none := by
  unfold parseHoliday
  rw [h]
  rfl

theorem parseHoliday_of_raises {entry : Value} {e : WeatherError}
    (h : qldApplicable entry = .error e) : parseHoliday entry = .error e := by
  unfold parseHoliday
  rw [h]
  rfl

/-- What is made of an entry that applies to Queensland. -/
theorem parseHoliday_of_applicable {members : List (String × Value)}
    (h : qldApplicable (.obj members) = .ok true) :
    parseHoliday (.obj members) =
      if (Value.lookup "date" members).truthy then
        match Value.lookup "date" members with
        | .str s => .ok ((fromIsoFormat s).map (valuesAt members))
        | _ => .error .typeError
      else .ok none := by
  unfold parseHoliday
  rw [h]
  show (if (Value.lookup "date" members).truthy then _ else _) = _
  split
  · cases Value.lookup "date" members with
    | str s =>
      show (match fromIsoFormat s with | some date => _ | none => _) =
        Except.ok ((fromIsoFormat s).map (valuesAt members))
      cases fromIsoFormat s with
      | some date => rfl
      | none => rfl
    | _ => rfl
  · rfl

theorem holidayDate_of_applicable {members : List (String × Value)}
    (h : qldApplicable (.obj members) = .ok true) :
    holidayDate (.obj members) =
      match Value.lookup "date" members with
      | .str s => fromIsoFormat s
      | _ => none := by
  unfold holidayDate
  rw [h]
  cases hdate : Value.lookup "date" members <;> simp [dictGet, hdate]

theorem holidayDate_of_not_applicable {entry : Value} (h : qldApplicable entry ≠ .ok true) :
    holidayDate entry = none := by
  unfold holidayDate
  split
  · contradiction
  · rfl

/-- No date is read from the empty string. -/
theorem fromIsoFormat_empty : fromIsoFormat "" = none := by decide

/-- **What is made of an entry** is dated as the entry is. -/
theorem date_of_parseHoliday {entry : Value} {r : Option HolidayValues}
    (h : parseHoliday entry = .ok r) : r.map HolidayValues.date = holidayDate entry := by
  cases hq : qldApplicable entry with
  | error e =>
    rw [parseHoliday_of_raises hq] at h
    cases h
  | ok applicable =>
    obtain ⟨members, rfl⟩ := obj_of_qldApplicable hq
    cases applicable with
    | false =>
      rw [parseHoliday_of_not_applicable hq] at h
      rw [holidayDate_of_not_applicable (by simp [hq])]
      cases h
      rfl
    | true =>
      rw [parseHoliday_of_applicable hq] at h
      rw [holidayDate_of_applicable hq]
      cases hdate : Value.lookup "date" members with
      | str s =>
        rw [hdate] at h
        by_cases hs : s = ""
        · subst hs
          cases h
          exact fromIsoFormat_empty.symm
        · rw [if_pos (by simpa [Value.truthy] using hs)] at h
          cases h
          rw [Option.map_map]
          exact Option.map_id'
      | _ =>
        rw [hdate] at h
        split at h
        · cases h
        · cases h
          rfl

/-! ## When a response goes through -/

theorem row_isOk_iff (v : HolidayValues) : (∃ r, v.row = .ok r) ↔ NameStorable v.name := by
  unfold HolidayValues.row NameStorable
  cases v.name with
  | str name => simp [ite_isOk_iff]
  | _ => simp

theorem date_of_row {v : HolidayValues} {r : Option PublicHoliday} (h : v.row = .ok r) :
    r.map PublicHoliday.date = some v.date := by
  unfold HolidayValues.row at h
  split at h
  · split at h
    · cases h
      rfl
    · cases h
  · cases h

/-- What the parser asks of an entry that applies to Queensland. -/
theorem parseHoliday_isOk_iff {members : List (String × Value)}
    (h : qldApplicable (.obj members) = .ok true) :
    (∃ r, parseHoliday (.obj members) = .ok r) ↔
      DateReadable (Value.lookup "date" members) := by
  rw [parseHoliday_of_applicable h]
  unfold DateReadable
  by_cases ht : (Value.lookup "date" members).truthy = true
  · rw [if_pos ht]
    generalize Value.lookup "date" members = date at ht ⊢
    cases date with
    | str s => simp
    | _ => simpa using ht
  · simp [ht]

/-- What it yields for one has the entry's name. -/
theorem name_of_parseHoliday {members : List (String × Value)} {v : HolidayValues}
    (h : parseHoliday (.obj members) = .ok (some v)) : v.name = holidayName members := by
  cases hq : qldApplicable (.obj members) with
  | error e =>
    rw [parseHoliday_of_raises hq] at h
    cases h
  | ok applicable =>
    cases applicable with
    | false =>
      rw [parseHoliday_of_not_applicable hq] at h
      cases h
    | true =>
      rw [parseHoliday_of_applicable hq] at h
      split at h
      · split at h
        · obtain ⟨date, -, rfl⟩ := Option.map_eq_some_iff.1 (Except.ok.inj h)
          rfl
        · cases h
      · cases h

theorem entryReadable_iff (entry : Value) :
    (∃ r, parseHoliday entry = .ok r ∧ ∀ v, r = some v → NameStorable v.name) ↔
      EntryReadable entry := by
  constructor
  · rintro ⟨r, hr, hname⟩
    cases hq : qldApplicable entry with
    | error e =>
      rw [parseHoliday_of_raises hq] at hr
      cases hr
    | ok applicable =>
      obtain ⟨members, rfl⟩ := obj_of_qldApplicable hq
      refine ⟨members, rfl, (qldApplicable_isOk_iff members).1 ⟨_, hq⟩, ?_, ?_⟩
      · intro htrue
        exact (parseHoliday_isOk_iff htrue).1 ⟨r, hr⟩
      · intro hdate
        rw [← date_of_parseHoliday hr] at hdate
        cases r with
        | none => exact absurd rfl hdate
        | some v => exact name_of_parseHoliday hr ▸ hname v rfl
  · rintro ⟨members, rfl, hcounties, hdate, hname⟩
    obtain ⟨applicable, hq⟩ := (qldApplicable_isOk_iff members).2 hcounties
    have hok : ∃ r, parseHoliday (.obj members) = .ok r := by
      cases applicable with
      | false => exact ⟨none, parseHoliday_of_not_applicable hq⟩
      | true => exact (parseHoliday_isOk_iff hq).2 (hdate hq)
    obtain ⟨r, hr⟩ := hok
    refine ⟨r, hr, ?_⟩
    rintro v rfl
    rw [name_of_parseHoliday hr]
    apply hname
    rw [← date_of_parseHoliday hr]
    simp

/-! ## When a sync goes through -/

/-- The values of a response. -/
theorem parseHolidays_eq {payload : Value} {entries : List Value}
    (h : iterate payload = .ok entries) :
    parseHolidays payload = collect parseHoliday entries := by
  unfold parseHolidays
  rw [h]
  rfl

theorem dates_of_parseHolidays {payload : Value} {vs : List HolidayValues}
    (h : parseHolidays payload = .ok vs) :
    vs.map HolidayValues.date = qldDatesOf (.json payload) := by
  obtain ⟨entries, hentries, hvs⟩ := bind_eq_ok_iff.1 h
  unfold qldDatesOf
  dsimp only
  rw [hentries]
  exact map_collect (fun _ _ => date_of_parseHoliday) hvs

/-- **The dates of what is fetched.** -/
theorem dates_of_fetchHolidays {run : HolidaySync} {vs : List HolidayValues}
    (h : fetchHolidays run = .ok vs) : vs.map HolidayValues.date = qldDates run := by
  induction run generalizing vs with
  | nil =>
    cases h
    rfl
  | cons p run ih =>
    obtain ⟨year, outcome⟩ := p
    cases outcome with
    | httpError => cases h
    | notJson => cases h
    | json payload =>
      obtain ⟨rows, hrows, h⟩ := bind_eq_ok_iff.1 h
      obtain ⟨allRows, hall, h⟩ := bind_eq_ok_iff.1 h
      obtain rfl := pure_eq_ok_iff.1 h
      rw [List.map_append, ih hall, dates_of_parseHolidays (mapError_eq_ok_iff.1 hrows)]
      rfl

theorem yearReadable_iff (payload : Value) :
    (∃ vs, parseHolidays payload = .ok vs ∧ ∀ v ∈ vs, NameStorable v.name) ↔
      (YearOutcome.json payload).Readable := by
  constructor
  · rintro ⟨vs, hvs, hnames⟩
    obtain ⟨entries, hentries, hvs⟩ := bind_eq_ok_iff.1 hvs
    refine ⟨payload, entries, rfl, hentries, ?_⟩
    intro entry hentry
    rw [← entryReadable_iff]
    exact (forall_mem_collect_iff hvs).1 hnames entry hentry
  · rintro ⟨_, entries, hp, hentries, hread⟩
    cases hp
    rw [parseHolidays_eq hentries]
    have hok : ∃ vs, collect parseHoliday entries = .ok vs := by
      rw [collect_isOk_iff]
      intro entry hentry
      obtain ⟨r, hr, -⟩ := (entryReadable_iff entry).2 (hread entry hentry)
      exact ⟨r, hr⟩
    obtain ⟨vs, hvs⟩ := hok
    refine ⟨vs, hvs, (forall_mem_collect_iff hvs).2 ?_⟩
    intro entry hentry
    exact (entryReadable_iff entry).2 (hread entry hentry)

/-- **When everything can be fetched and has a name that can be stored.** -/
theorem fetchHolidays_readable_iff (run : HolidaySync) :
    (∃ vs, fetchHolidays run = .ok vs ∧ ∀ v ∈ vs, NameStorable v.name) ↔
      ∀ p ∈ run, p.2.Readable := by
  induction run with
  | nil => simp [fetchHolidays]
  | cons p run ih =>
    obtain ⟨year, outcome⟩ := p
    rw [List.forall_mem_cons, ← ih]
    cases outcome with
    | httpError => simp [fetchHolidays, YearOutcome.Readable]
    | notJson => simp [fetchHolidays, YearOutcome.Readable]
    | json payload =>
      rw [← yearReadable_iff]
      constructor
      · rintro ⟨_, h, hnames⟩
        obtain ⟨rows, hrows, h⟩ := bind_eq_ok_iff.1 h
        obtain ⟨allRows, hall, h⟩ := bind_eq_ok_iff.1 h
        obtain rfl := pure_eq_ok_iff.1 h
        rw [List.forall_mem_append] at hnames
        exact ⟨⟨rows, mapError_eq_ok_iff.1 hrows, hnames.1⟩, allRows, hall, hnames.2⟩
      · rintro ⟨⟨rows, hrows, hnames⟩, allRows, hall, hallNames⟩
        refine ⟨rows ++ allRows, ?_, List.forall_mem_append.2 ⟨hnames, hallNames⟩⟩
        rw [fetchHolidays, hrows, hall]
        rfl

/-- The rows of some values, dated as these are. -/
theorem collect_row_iff (vs : List HolidayValues) :
    (∃ rows, collect HolidayValues.row vs = .ok rows) ↔ ∀ v ∈ vs, NameStorable v.name := by
  simp only [collect_isOk_iff, row_isOk_iff]

theorem dates_of_rows {vs : List HolidayValues} {rows : List PublicHoliday}
    (h : collect HolidayValues.row vs = .ok rows) :
    rows.map PublicHoliday.date = vs.map HolidayValues.date := by
  rw [map_collect (fun _ _ => date_of_row) h, List.filterMap_eq_map']

/-- **What a sync commits**: one statement with the rows of everything fetched. -/
theorem syncQldHolidays_eq_ok_iff (db db' : Db) (run : HolidaySync) (n : ℕ) :
    syncQldHolidays db run = .ok (db', n) ↔
      ∃ vs rows, fetchHolidays run = .ok vs ∧ collect HolidayValues.row vs = .ok rows ∧
        4 * rows.length ≤ 32767 ∧ (rows.map PublicHoliday.date).Nodup ∧ n = vs.length ∧
        db' = { db with publicHolidays := db.publicHolidays.putAll rows } := by
  unfold syncQldHolidays
  rw [bind_eq_ok_iff]
  refine exists_congr fun vs => ?_
  rw [exists_and_left]
  refine and_congr_right fun _ => ?_
  cases vs with
  | nil =>
    constructor
    · intro h
      cases h
      exact ⟨[], rfl, by decide, by simp, rfl, rfl⟩
    · rintro ⟨rows, hrows, -, -, rfl, rfl⟩
      obtain rfl : [] = rows := Except.ok.inj hrows
      rfl
  | cons v vs =>
    simp only [List.isEmpty_cons, Bool.false_eq_true, if_false, bind_eq_ok_iff, pure_eq_ok_iff,
      Prod.mk.injEq, upsertHolidays]
    constructor
    · rintro ⟨db₁, ⟨rows, hrows, h⟩, rfl, rfl⟩
      split at h
      · rename_i hlen
        split at h
        · rename_i table htable
          obtain rfl := pure_eq_ok_iff.1 h
          unfold Table.upsert at htable
          split at htable
          · rename_i hnd
            cases htable
            exact ⟨rows, hrows, hlen, hnd, rfl, rfl⟩
          · cases htable
        · cases h
      · cases h
    · rintro ⟨rows, hrows, hlen, hnd, rfl, rfl⟩
      refine ⟨_, ⟨rows, hrows, ?_⟩, rfl, rfl⟩
      rw [if_pos hlen, db.publicHolidays.upsert_eq_some hnd]
      rfl

/-- **When a sync commits.** -/
theorem syncQldHolidays_isOk_iff (db : Db) (run : HolidaySync) :
    (∃ p, syncQldHolidays db run = .ok p) ↔
      (∀ p ∈ run, p.2.Readable) ∧ (qldDates run).Nodup ∧ 4 * (qldDates run).length ≤ 32767 := by
  constructor
  · rintro ⟨⟨db', n⟩, h⟩
    obtain ⟨vs, rows, hvs, hrows, hlen, hnd, -, -⟩ := (syncQldHolidays_eq_ok_iff ..).1 h
    have hdates := (dates_of_rows hrows).trans (dates_of_fetchHolidays hvs)
    refine ⟨?_, hdates ▸ hnd, ?_⟩
    · exact (fetchHolidays_readable_iff run).1 ⟨vs, hvs, (collect_row_iff vs).1 ⟨rows, hrows⟩⟩
    · rwa [← hdates, List.length_map]
  · rintro ⟨hread, hnd, hlen⟩
    obtain ⟨vs, hvs, hnames⟩ := (fetchHolidays_readable_iff run).2 hread
    obtain ⟨rows, hrows⟩ := (collect_row_iff vs).2 hnames
    have hdates := (dates_of_rows hrows).trans (dates_of_fetchHolidays hvs)
    rw [← hdates] at hnd hlen
    rw [List.length_map] at hlen
    exact ⟨_, (syncQldHolidays_eq_ok_iff ..).2 ⟨vs, rows, hvs, hrows, hlen, hnd, rfl, rfl⟩⟩

/-! ## When a sync mirrors its responses -/

/-- The rows on a date. -/
def holidayRows (db : Db) (d : Date) : List (Row PublicHoliday) :=
  db.publicHolidays.rows.filter fun r => PublicHoliday.upsert.key r.data = d

/-- Every row of the years is on a date of a holiday that applies to Queensland. -/
def YearsStated (db : Db) (run : HolidaySync) : Prop :=
  ∀ r ∈ db.publicHolidays.rows, (r.data.date.year : ℤ) ∈ run.map Prod.fst →
    r.data.date ∈ qldDates run

/-- These dates have one row each, and the years have no other rows. -/
structure MirroredIn (db : Db) (run : HolidaySync) : Prop where
  stored : ∀ d ∈ qldDates run, (holidayRows db d).length = 1
  stated : YearsStated db run

/-- A sync commits, and mirrors its responses. -/
def Mirrored (db : Db) (run : HolidaySync) : Prop :=
  ∃ db' n, syncQldHolidays db run = .ok (db', n) ∧ MirroredIn db' run

/-- A row on a date that is not proposed is not removed. -/
theorem exists_row_putAll (T : Table PublicHoliday.upsert) (rows : List PublicHoliday)
    {r : Row PublicHoliday} (hr : r ∈ T.rows) :
    ∃ r' ∈ (T.putAll rows).rows, r'.data.date = r.data.date := by
  have hlookup := T.lookup_id_putAll (T.lookup_eq_some_iff.2 ⟨hr, rfl⟩) rows
  obtain ⟨r', hr', -⟩ := Option.map_eq_some_iff.1 hlookup
  obtain ⟨hmem, hkey⟩ := (Table.lookup_eq_some_iff _).1 hr'
  exact ⟨r', hmem, hkey⟩

/-- What a committed sync mirrors depends on what was there. -/
theorem mirroredIn_iff {db db' : Db} {run : HolidaySync} {n : ℕ}
    (h : syncQldHolidays db run = .ok (db', n)) : MirroredIn db' run ↔ YearsStated db run := by
  obtain ⟨vs, rows, hvs, hrows, -, -, -, rfl⟩ := (syncQldHolidays_eq_ok_iff ..).1 h
  have hdates := (dates_of_rows hrows).trans (dates_of_fetchHolidays hvs)
  constructor
  · intro hm r hr hyear
    obtain ⟨r', hr', hdate⟩ := exists_row_putAll db.publicHolidays rows hr
    rw [← hdate] at hyear ⊢
    exact hm.stated r' hr' hyear
  · intro hstated
    constructor
    · intro d hd
      rw [← hdates] at hd
      obtain ⟨row, hrow, rfl⟩ := List.mem_map.1 hd
      obtain ⟨data, hdata⟩ :=
        Option.ne_none_iff_exists'.1 (db.publicHolidays.contents_putAll_ne_none hrow)
      exact Table.length_filter_key _ hdata
    · apply Table.forall_mem_putAll
      · exact hstated
      · intro _ _ row hrow _
        rw [← hdates]
        exact List.mem_map_of_mem hrow
      · intro r hr _ _ _ hyear
        exact hr hyear

/-- **When a sync mirrors its responses.** -/
theorem mirrored_iff (db : Db) (run : HolidaySync) :
    Mirrored db run ↔
      (∀ p ∈ run, p.2.Readable) ∧ (qldDates run).Nodup ∧ 4 * (qldDates run).length ≤ 32767 ∧
        YearsStated db run := by
  constructor
  · rintro ⟨db', n, h, hm⟩
    obtain ⟨hread, hnd, hlen⟩ := (syncQldHolidays_isOk_iff db run).1 ⟨_, h⟩
    exact ⟨hread, hnd, hlen, (mirroredIn_iff h).1 hm⟩
  · rintro ⟨hread, hnd, hlen, hstated⟩
    obtain ⟨⟨db', n⟩, h⟩ := (syncQldHolidays_isOk_iff db run).2 ⟨hread, hnd, hlen⟩
    exact ⟨db', n, h, (mirroredIn_iff h).2 hstated⟩

/-! ## Two responses that are not mirrored -/

/-- An entry with a date, for the counties of Queensland alone or for all. -/
def holidayEntry (date : String) (queensland : Bool) : Value :=
  .obj [("date", .str date), ("localName", .str "Holiday"),
    ("counties", if queensland then .arr [.str "AU-QLD"] else .null)]

/-- A national and a state holiday on one date. -/
def sharedDate : HolidaySync :=
  [(2026, .json (.arr [holidayEntry "2026-04-25" false, holidayEntry "2026-04-25" true]))]

/-- A holiday that was announced for one date. -/
def announced : HolidaySync := [(2026, .json (.arr [holidayEntry "2026-10-05" true]))]

/-- The same holiday, moved to another date. -/
def moved : HolidaySync := [(2026, .json (.arr [holidayEntry "2026-10-12" true]))]

/-- A national and a state holiday on one date make the sync raise, and a holiday that was
moved leaves a row on the date it was moved from. -/
theorem sharedAndMoved_notMirrored :
    ¬ Mirrored Db.empty sharedDate ∧
      ∃ db n, syncQldHolidays Db.empty announced = .ok (db, n) ∧ ¬ Mirrored db moved := by
  constructor
  · rintro ⟨db, n, h, -⟩
    have hnd := ((syncQldHolidays_isOk_iff ..).1 ⟨_, h⟩).2.1
    revert hnd
    decide
  · refine ⟨_, _, rfl, ?_⟩
    rintro ⟨db, n, h, hm⟩
    have hstated := (mirroredIn_iff h).1 hm
    revert hstated
    unfold YearsStated
    decide

end DelayPredictor
