import DelayPredictor.Weather

/-!
# Weather stations and their failures

When one station's failure stays with that station.

* `fetchedRows_isOk_iff` — **when a run does not raise**: every document it got
  is digestible, which says level by level what the parser copes with.
* `stationsIsolated_iff` — the stations are isolated from one another in exactly
  those runs.  The loop catches transport errors and nothing else, and all rows
  are collected before the one transaction.
-/

namespace DelayPredictor

open Batches Keyed PyJson PyNumber PyTime Raising Stats

/-! ## What the parser copes with -/

/-- A cell the conversion does not raise at: any value but an integer beyond the
doubles. -/
def CellDigestible : Value → Prop
  | .int n => |(n : ℚ)| < doubleLimit
  | _ => True

/-- A time cell that is a string, empty, or too short to be sliced. -/
def TimeDigestible : Value → Prop
  | .str _ => True
  | .arr items => items.length < 14
  | .obj members => (Value.keys members).length < 14
  | v => v.truthy = false

/-- The cells of an entry that are converted to numbers. -/
def numberCells : List String := ["air_temp", "rain_trace", "rel_hum", "wind_spd_kmh"]

/-- The string starts with something `strptime` takes for a time. -/
def StartsWithTime (value : Value) : Prop :=
  ∃ s, value = .str s ∧ 14 ≤ s.toList.length ∧ strptimeYmdHMS (s.toList.take 14) ≠ none

/-- An entry is an object with a digestible time and, if it gets as far as its
numbers, digestible numbers. -/
def EntryDigestible : Value → Prop
  | .obj members =>
    TimeDigestible (Value.lookup "aifstime_utc" members) ∧
      (StartsWithTime (Value.lookup "aifstime_utc" members) →
        ∀ key ∈ numberCells, CellDigestible (Value.lookup key members))
  | _ => False

/-- The data are a list of digestible entries, or empty. -/
def DataDigestible : Value → Prop
  | .arr items => ∀ entry ∈ items, EntryDigestible entry
  | v => v.truthy = false

/-- The observations are an object with digestible data, or empty. -/
def ObservationsDigestible : Value → Prop
  | .obj members => DataDigestible (Value.lookup "data" members)
  | v => v.truthy = false

/-- The document is an object with digestible observations. -/
def PayloadDigestible : Value → Prop
  | .obj members => ObservationsDigestible (Value.lookup "observations" members)
  | _ => False

/-- A transport error, or a digestible document. -/
def StationOutcome.Digestible : StationOutcome → Prop
  | .httpError => True
  | .notJson => False
  | .json payload => PayloadDigestible payload

theorem parseFloat_isOk_iff (value : Value) :
    (∃ x, parseFloat value = .ok x) ↔ CellDigestible value := by
  cases value with
  | int n => exact ite_isOk_iff
  | _ => exact ⟨fun _ => trivial, fun _ => ⟨_, rfl⟩⟩

theorem parseAifstimeUtc_isOk_iff (value : Value) :
    (∃ t, parseAifstimeUtc value = .ok t) ↔ TimeDigestible value := by
  cases value with
  | str s =>
    refine ⟨fun _ => trivial, fun _ => ?_⟩
    unfold parseAifstimeUtc
    split
    · dsimp only
      split
      · exact ⟨_, rfl⟩
      · exact ⟨_, rfl⟩
    · exact ⟨_, rfl⟩
  | arr items =>
    cases items with
    | nil => exact ⟨fun _ => by simp [TimeDigestible], fun _ => ⟨none, rfl⟩⟩
    | cons item items => exact ite_isOk_iff
  | obj members =>
    cases members with
    | nil => exact ⟨fun _ => by simp [TimeDigestible, Value.keys], fun _ => ⟨none, rfl⟩⟩
    | cons m members => exact ite_isOk_iff
  -- A number is measured when it is truthy, which raises.
  | _ => exact ite_isOk_iff_not.trans (by rw [Bool.not_eq_true]; rfl)

theorem parseAifstimeUtc_str (s : String) :
    parseAifstimeUtc (.str s) =
      .ok (if s.toList.length < 14 then none else strptimeYmdHMS (s.toList.take 14)) := by
  unfold parseAifstimeUtc
  by_cases hs : s = ""
  · subst hs
    rfl
  · have htruthy : (Value.str s).truthy = true := by simp [Value.truthy, hs]
    rw [if_pos htruthy]
    dsimp only
    split <;> rfl

/-- No value but a string is read as a time. -/
theorem eq_str_of_parseAifstimeUtc {value : Value} {t : Instant}
    (h : parseAifstimeUtc value = .ok (some t)) : ∃ s, value = .str s := by
  unfold parseAifstimeUtc at h
  split at h
  · cases value with
    | str s => exact ⟨s, rfl⟩
    | arr items =>
      dsimp only at h
      split at h <;> cases h
    | obj members =>
      dsimp only at h
      split at h <;> cases h
    | _ => cases h
  · cases h

/-- An entry gets as far as its numbers when its time starts with one. -/
theorem parseAifstimeUtc_eq_some_iff {value : Value} :
    (∃ t, parseAifstimeUtc value = .ok (some t)) ↔ StartsWithTime value := by
  refine ⟨?_, ?_⟩
  · rintro ⟨t, h⟩
    obtain ⟨s, rfl⟩ := eq_str_of_parseAifstimeUtc h
    rw [parseAifstimeUtc_str, Except.ok.injEq] at h
    split at h
    · cases h
    · rename_i hlen
      exact ⟨s, rfl, by omega, by rw [h]; simp⟩
  · rintro ⟨s, rfl, hlen, hread⟩
    obtain ⟨t, ht⟩ := Option.ne_none_iff_exists'.1 hread
    exact ⟨t, by rw [parseAifstimeUtc_str, if_neg (by omega), ht]⟩

/-- The cells of a raw reading. -/
def RawReading.cells (raw : RawReading) : List Value :=
  [raw.airTemp, raw.rainTrace, raw.relHum, raw.windSpdKmh]

theorem RawReading.convert_isOk_iff (raw : RawReading) :
    (∃ o, raw.convert = .ok o) ↔ ∀ cell ∈ raw.cells, CellDigestible cell := by
  unfold RawReading.cells
  rw [List.forall_mem_cons, List.forall_mem_cons, List.forall_mem_cons, List.forall_mem_cons,
    ← parseFloat_isOk_iff, ← parseFloat_isOk_iff, ← parseFloat_isOk_iff, ← parseFloat_isOk_iff]
  simp only [RawReading.convert, bind_eq_ok_iff, pure_eq_ok_iff]
  refine ⟨?_, ?_⟩
  · rintro ⟨o, a, ha, b, hb, c, hc, d, hd, -⟩
    exact ⟨⟨a, ha⟩, ⟨b, hb⟩, ⟨c, hc⟩, ⟨d, hd⟩, by simp⟩
  · rintro ⟨⟨a, ha⟩, ⟨b, hb⟩, ⟨c, hc⟩, ⟨d, hd⟩, -⟩
    exact ⟨_, a, ha, b, hb, c, hc, d, hd, rfl⟩

theorem parseEntry_isOk_iff (stationId : String) (entry : Value) :
    (∃ r, parseEntry stationId entry = .ok r) ↔ EntryDigestible entry := by
  cases entry with
  | obj members =>
    show _ ↔ TimeDigestible _ ∧ (StartsWithTime _ → _)
    rw [← parseAifstimeUtc_isOk_iff, ← parseAifstimeUtc_eq_some_iff]
    simp only [parseEntry, rawReading_obj, bind_eq_ok_iff]
    cases parseAifstimeUtc (Value.lookup "aifstime_utc" members) with
    | error e => simp [Except.map]
    | ok time =>
      cases time with
      | none => simp [Except.map, pure_eq_ok_iff]
      | some t =>
        have hcells : (∃ o, (rawReadingAt stationId members t).convert = .ok o) ↔
            ∀ key ∈ numberCells, CellDigestible (Value.lookup key members) := by
          have hmap : (rawReadingAt stationId members t).cells =
              numberCells.map fun key => Value.lookup key members := rfl
          rw [RawReading.convert_isOk_iff, hmap, List.forall_mem_map]
        rw [← hcells]
        refine ⟨?_, ?_⟩
        · rintro ⟨r, raw, hraw, hr⟩
          obtain rfl := Except.ok.inj hraw
          obtain ⟨o, ho, -⟩ := bind_eq_ok_iff.1 hr
          exact ⟨⟨some t, rfl⟩, fun _ => ⟨o, ho⟩⟩
        · rintro ⟨-, h⟩
          obtain ⟨o, ho⟩ := h ⟨t, rfl⟩
          exact ⟨some o, _, rfl, bind_eq_ok_iff.2 ⟨o, ho, rfl⟩⟩
  | _ =>
    refine ⟨?_, ?_⟩
    · rintro ⟨r, h⟩
      cases h
    · intro h
      cases h

/-! ## When a run does not raise -/

/-- Elements that are no objects raise, so there must be none. -/
theorem collect_strings_isOk_iff (stationId : String) (strings : List String) :
    (∃ rows, collect (parseEntry stationId) (strings.map .str) = .ok rows) ↔ strings = [] := by
  rw [collect_isOk_iff]
  simp only [parseEntry_isOk_iff, List.forall_mem_map]
  exact (List.eq_nil_iff_forall_not_mem).symm

/-- The data of a document: falsy ones read as none. -/
theorem loopData_isOk_iff (stationId : String) (data : Value) :
    (∃ rows, ((if data.truthy then iterate data else pure []) >>=
      collect (parseEntry stationId)) = .ok rows) ↔ DataDigestible data := by
  by_cases htruthy : data.truthy = true
  · rw [if_pos htruthy]
    cases data with
    | arr items =>
      show (∃ rows, collect (parseEntry stationId) items = .ok rows) ↔ _
      rw [collect_isOk_iff]
      simp only [parseEntry_isOk_iff]
      rfl
    | str s =>
      have hne : s.toList ≠ [] := by simpa [Value.truthy] using htruthy
      have hmap : (s.toList.map fun c => Value.str (String.ofList [c])) =
          (s.toList.map fun c => String.ofList [c]).map .str := by rw [List.map_map]; rfl
      show (∃ rows, collect (parseEntry stationId) (s.toList.map _) = .ok rows) ↔ _
      rw [hmap, collect_strings_isOk_iff, List.map_eq_nil_iff]
      exact ⟨fun h => absurd h hne, fun h => absurd htruthy (by rw [h]; decide)⟩
    | obj members =>
      have hne : Value.keys members ≠ [] := by
        intro h
        have hnil : members.map Prod.fst = [] := (List.dedup_eq_nil _).1 h
        simp [List.map_eq_nil_iff.1 hnil, Value.truthy] at htruthy
      show (∃ rows, collect (parseEntry stationId) ((Value.keys members).map .str) = .ok rows) ↔ _
      rw [collect_strings_isOk_iff]
      exact ⟨fun h => absurd h hne, fun h => absurd htruthy (by rw [h]; decide)⟩
    | _ =>
      refine ⟨?_, ?_⟩
      · rintro ⟨rows, h⟩
        cases h
      · intro h
        exact absurd htruthy (by rw [h]; decide)
  · rw [if_neg htruthy]
    refine ⟨fun _ => ?_, fun _ => ⟨[], rfl⟩⟩
    rw [Bool.not_eq_true] at htruthy
    cases data with
    | arr items =>
      have hnil : items = [] := by simpa [Value.truthy] using htruthy
      simp [DataDigestible, hnil]
    | _ => exact htruthy

theorem parseObservations_isOk_iff (payload : Value) (stationId : String) :
    (∃ rows, parseObservations payload stationId = .ok rows) ↔ PayloadDigestible payload := by
  cases payload with
  | obj members =>
    show _ ↔ ObservationsDigestible (Value.lookup "observations" members)
    have hstep : parseObservations (.obj members) stationId = (dictGet
        (if (Value.lookup "observations" members).truthy then Value.lookup "observations" members
          else .obj []) "data" >>= fun data =>
            ((if data.truthy then iterate data else pure []) >>=
              collect (parseEntry stationId))) := by
      show ((dictGet _ "data" >>= _) >>= _) = _
      rw [bind_assoc]
    rw [hstep]
    generalize Value.lookup "observations" members = observations
    by_cases htruthy : observations.truthy = true
    · rw [if_pos htruthy]
      cases observations with
      | obj ms => exact loopData_isOk_iff stationId (Value.lookup "data" ms)
      | _ =>
        refine ⟨?_, ?_⟩
        · rintro ⟨rows, h⟩
          cases h
        · intro h
          exact absurd htruthy (by rw [h]; decide)
    · rw [if_neg htruthy]
      refine ⟨fun _ => ?_, fun _ => ⟨[], rfl⟩⟩
      rw [Bool.not_eq_true] at htruthy
      cases observations with
      | obj ms =>
        have hnil : ms = [] := by simpa [Value.truthy] using htruthy
        rw [hnil]
        rfl
      | _ => exact htruthy
  | _ =>
    refine ⟨?_, ?_⟩
    · rintro ⟨rows, h⟩
      cases h
    · intro h
      cases h

/-- **When a run does not raise**: every outcome is digestible. -/
theorem fetchedRows_isOk_iff (run : WeatherRun) :
    (∃ rows, fetchedRows run = .ok rows) ↔ ∀ x ∈ run, x.2.Digestible := by
  induction run with
  | nil => simp [fetchedRows, loopStations]
  | cons x run ih =>
    obtain ⟨stationId, outcome⟩ := x
    rw [List.forall_mem_cons, ← ih]
    cases outcome with
    | httpError => exact ⟨fun h => ⟨trivial, h⟩, fun h => h.2⟩
    | notJson =>
      refine ⟨?_, ?_⟩
      · rintro ⟨rows, h⟩
        cases h
      · rintro ⟨h, -⟩
        cases h
    | json payload =>
      show _ ↔ PayloadDigestible payload ∧ _
      rw [← parseObservations_isOk_iff payload stationId]
      simp only [fetchedRows, loopStations, bind_eq_ok_iff, pure_eq_ok_iff]
      refine ⟨?_, ?_⟩
      · rintro ⟨-, stationRows, hstation, rows, hrows, -⟩
        exact ⟨⟨stationRows, hstation⟩, rows, hrows⟩
      · rintro ⟨⟨stationRows, hstation⟩, rows, hrows⟩
        exact ⟨_, stationRows, hstation, rows, hrows, rfl⟩

/-! ## Isolation -/

/-- The entries of a well-shaped document: an object whose observations are an
object whose data are a list. -/
def dataEntries : Value → List Value
  | .obj members =>
    match Value.lookup "observations" members with
    | .obj observations =>
      match Value.lookup "data" observations with
      | .arr items => items
      | _ => []
    | _ => []
  | _ => []

/-- The time an entry states: fourteen digits at the start of its `aifstime_utc`. -/
def statedTime : Value → Option Instant
  | .obj members =>
    match Value.lookup "aifstime_utc" members with
    | .str s => fourteenDigits (s.toList.take 14)
    | _ => none
  | _ => none

/-- The run goes through, and every entry of a well-shaped document that states a
time has its one row. -/
def StationsIsolated (db : Db) (run : WeatherRun) : Prop :=
  ∃ db', ingestWeather db run = .ok db' ∧
    ∀ stationId payload, (stationId, StationOutcome.json payload) ∈ run →
      ∀ entry ∈ dataEntries payload, ∀ t, statedTime entry = some t →
        (readingsOf db' (stationId, t)).length = 1

/-- A document with an entry is as deep as it has to be. -/
theorem dataEntries_ne_nil {payload entry : Value} (h : entry ∈ dataEntries payload) :
    ∃ members observations, payload = .obj members ∧
      Value.lookup "observations" members = .obj observations ∧
      Value.lookup "data" observations = .arr (dataEntries payload) := by
  cases payload with
  | obj members =>
    unfold dataEntries at h ⊢
    cases hobs : Value.lookup "observations" members with
    | obj observations =>
      simp only [hobs] at h ⊢
      cases hdata : Value.lookup "data" observations with
      | arr items => exact ⟨members, observations, rfl, hobs, hdata⟩
      | _ => simp [hdata] at h
    | _ => simp [hobs] at h
  | _ => cases h

/-- What the loop over a well-shaped document meets. -/
theorem payloadEntries_of_mem {payload entry : Value} (h : entry ∈ dataEntries payload) :
    payloadEntries payload = .ok (dataEntries payload) := by
  obtain ⟨members, observations, hpayload, hobs, hdata⟩ := dataEntries_ne_nil h
  have hobs' : (Value.obj observations).truthy = true := by
    cases observations with
    | nil => cases hdata
    | cons m ms => rfl
  have hdata' : (Value.arr (dataEntries payload)).truthy = true := by
    cases hitems : dataEntries payload with
    | nil => rw [hitems] at h; cases h
    | cons i is => rfl
  have hget : dictGet payload "observations" = .ok (.obj observations) := by
    rw [hpayload, dictGet, hobs]
  have hget' : dictGet (.obj observations) "data" = .ok (.arr (dataEntries payload)) := by
    rw [dictGet, hdata]
  show (dictGet payload "observations" >>= fun observations =>
    dictGet (if observations.truthy then observations else .obj []) "data" >>= fun data =>
      if data.truthy then iterate data else pure []) = _
  refine bind_eq_ok_iff.2 ⟨_, hget, bind_eq_ok_iff.2 ⟨.arr (dataEntries payload), ?_, ?_⟩⟩
  · rw [if_pos hobs', hget']
  · rw [if_pos hdata']
    rfl

theorem parseAifstimeUtc_of_statedTime {members : List (String × Value)} {t : Instant}
    (h : statedTime (.obj members) = some t) :
    parseAifstimeUtc (Value.lookup "aifstime_utc" members) = .ok (some t) := by
  unfold statedTime at h
  cases hs : Value.lookup "aifstime_utc" members with
  | str s =>
    simp only [hs] at h
    have hlen := fourteenDigits_length h
    rw [List.length_take] at hlen
    rw [parseAifstimeUtc_str, if_neg (by omega), strptimeYmdHMS_of_timestamp h]
  | _ => simp [hs] at h

/-- An entry that states a time and goes through has its row. -/
theorem parseEntry_of_statedTime {stationId : String} {entry : Value} {t : Instant}
    {r : Option WeatherObservation} (ht : statedTime entry = some t)
    (h : parseEntry stationId entry = .ok r) :
    ∃ o, r = some o ∧ WeatherObservation.upsert.key o = (stationId, t) := by
  cases entry with
  | obj members =>
    simp only [parseEntry, rawReading_obj, parseAifstimeUtc_of_statedTime ht] at h
    obtain ⟨o, ho, hr⟩ := bind_eq_ok_iff.1
      (show (rawReadingAt stationId members t).convert >>= _ = _ from h)
    refine ⟨o, (pure_eq_ok_iff.1 hr).symm, ?_⟩
    simp only [RawReading.convert, bind_eq_ok_iff, pure_eq_ok_iff] at ho
    obtain ⟨_, -, _, -, _, -, _, -, rfl⟩ := ho
    rfl
  | _ => cases ht

theorem mem_loopStations {α : Type} {body : String → Value → Except WeatherError (Option α)}
    {run : WeatherRun} {rows : List α} (h : loopStations body run = .ok rows) {stationId : String}
    {payload : Value} (hx : (stationId, StationOutcome.json payload) ∈ run) :
    ∃ stationRows, loopPayload body payload stationId = .ok stationRows ∧
      ∀ o ∈ stationRows, o ∈ rows := by
  induction run generalizing rows with
  | nil => cases hx
  | cons x run ih =>
    obtain ⟨id, outcome⟩ := x
    cases outcome with
    | httpError =>
      rcases List.mem_cons.1 hx with hx | hx
      · cases hx
      · exact ih h hx
    | notJson => cases h
    | json p =>
      simp only [loopStations, bind_eq_ok_iff, pure_eq_ok_iff] at h
      obtain ⟨stationRows, hstation, rest, hrest, rfl⟩ := h
      rcases List.mem_cons.1 hx with hx | hx
      · cases hx
        exact ⟨stationRows, hstation, fun o ho => List.mem_append.2 (.inl ho)⟩
      · obtain ⟨sr, hsr, hmem⟩ := ih hrest hx
        exact ⟨sr, hsr, fun o ho => List.mem_append.2 (.inr (hmem o ho))⟩

/-- Every entry that states a time is among the rows of a run that goes through. -/
theorem fetchedRows_of_statedTime {run : WeatherRun} {rows : List WeatherObservation}
    (h : fetchedRows run = .ok rows) {stationId : String} {payload : Value}
    (hx : (stationId, StationOutcome.json payload) ∈ run) {entry : Value}
    (hentry : entry ∈ dataEntries payload) {t : Instant} (ht : statedTime entry = some t) :
    ∃ o ∈ rows, WeatherObservation.upsert.key o = (stationId, t) := by
  obtain ⟨stationRows, hstation, hmem⟩ := mem_loopStations h hx
  unfold loopPayload at hstation
  rw [payloadEntries_of_mem hentry] at hstation
  obtain ⟨r, hr, hrows⟩ := mem_collect hstation hentry
  obtain ⟨o, rfl, hkey⟩ := parseEntry_of_statedTime ht hr
  exact ⟨o, hmem o (hrows o rfl), hkey⟩

/-- **When the stations are isolated from one another**: when every station ends
in a transport error or a digestible document. -/
theorem stationsIsolated_iff (db : Db) (run : WeatherRun) :
    StationsIsolated db run ↔ ∀ x ∈ run, x.2.Digestible := by
  rw [← fetchedRows_isOk_iff]
  refine ⟨?_, ?_⟩
  · rintro ⟨db', h, -⟩
    obtain ⟨rows, hrows, -⟩ := bind_eq_ok_iff.1 h
    exact ⟨rows, hrows⟩
  · rintro ⟨rows, hrows⟩
    refine ⟨db.insertWeather 500 rows, bind_eq_ok_iff.2 ⟨rows, hrows, rfl⟩, ?_⟩
    intro stationId payload hx entry hentry t ht
    obtain ⟨o, ho, hkey⟩ := fetchedRows_of_statedTime hrows hx hentry ht
    obtain ⟨d, hd⟩ := Option.ne_none_iff_exists'.1
      (db.weatherObservations.contents_putAll_ne_none ho)
    rw [insertWeather_eq (by decide), ← hkey]
    exact Table.length_filter_key _ hd

/-- A station that answers with a maintenance page, before one that has data. -/
def maintenanceRun : WeatherRun :=
  [("94576", .notJson),
    ("40913", .json (.obj [("observations", .obj [("data", .arr [
      .obj [("aifstime_utc", .str "20260513013000"), ("air_temp", .float (.fin 21))]])])]))]

/-- The whole run raises, and the second station's rows are lost with it. -/
theorem maintenancePage_loses_run : ¬ ∀ db run, StationsIsolated db run := by
  intro h
  obtain ⟨db', hok, -⟩ := h Db.empty maintenanceRun
  cases hok

end DelayPredictor
