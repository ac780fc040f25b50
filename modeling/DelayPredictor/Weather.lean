import DelayPredictor.Lib.Batches
import DelayPredictor.Lib.PyJson
import DelayPredictor.Lib.PyNumber
import DelayPredictor.Lib.Runs
import DelayPredictor.Ingest

/-!
# Weather ingest

`app/services/bom_weather.py`: what a run of `ingest_weather` does to the
database.

* `StationOutcome` — what fetching a station ends in, its retries included.
* `parseFloat`, `parseAifstimeUtc`, `parseObservations` — the parser, and what it
  raises at values it does not expect.  Its loops take their body as a parameter,
  so that `rawReading` can be followed through them as well.
* `ingestWeather`, `pollWeather` — a run, and the same run as the database sees
  it.  All rows are collected before the transaction.
* `weather_accumulates` — **what any sequence of runs leaves in the table**: one
  row for each reading, the first one processed, never altered; the size of the
  chunks does not matter.

A station's id is one that the address of its document can be built from.
-/

namespace DelayPredictor

open Batches Keyed PyJson PyNumber PyTime Raising Runs Stats

/-! ## The parser -/

/-- What makes a run raise. -/
inductive WeatherError where
  /-- `.get` on something that is not an object. -/
  | attributeError
  /-- `len`, a loop or a slice over something that has none. -/
  | typeError
  /-- `float` of an integer beyond the doubles. -/
  | overflowError
  /-- The body is not JSON. -/
  | jsonDecodeError
  deriving DecidableEq, Repr

/-- `value.get(key)`. -/
def dictGet (value : Value) (key : String) : Except WeatherError Value :=
  match value with
  | .obj members => .ok (Value.lookup key members)
  | _ => .error .attributeError

/-- The elements a loop over a value meets. -/
def iterate : Value → Except WeatherError (List Value)
  | .arr items => .ok items
  | .str s => .ok (s.toList.map fun c => .str (String.ofList [c]))
  | .obj members => .ok ((Value.keys members).map .str)
  | _ => .error .typeError

/-- `_parse_aifstime_utc`. -/
def parseAifstimeUtc (value : Value) : Except WeatherError (Option Instant) :=
  if value.truthy then
    match value with
    | .str s =>
      if s.toList.length < 14 then .ok none else .ok (strptimeYmdHMS (s.toList.take 14))
    -- A list or an object that is long enough is sliced, and then refused.
    | .arr items => if items.length < 14 then .ok none else .error .typeError
    | .obj members => if (Value.keys members).length < 14 then .ok none else .error .typeError
    | _ => .error .typeError
  else .ok none

/-- `_parse_float`. -/
def parseFloat : Value → Except WeatherError (Option XFloat)
  | .null => .ok none
  | .str s => .ok (if s = "-" ∨ s = "" then none else pyFloat s)
  | .bool b => .ok (some (.fin (if b then 1 else 0)))
  | .int n =>
    if |(n : ℚ)| < doubleLimit then .ok (some (.fin (roundToDouble n)))
    else .error .overflowError
  | .float x => .ok (some x)
  | .arr _ => .ok none
  | .obj _ => .ok none

/-- An entry that states a time, with the cells its numbers are converted from. -/
structure RawReading where
  stationId : String
  observedAt : Instant
  airTemp : Value
  rainTrace : Value
  relHum : Value
  windSpdKmh : Value

/-- The entry's time and cells; none when it states no time. -/
def rawReading (stationId : String) (entry : Value) : Except WeatherError (Option RawReading) := do
  match ← parseAifstimeUtc (← dictGet entry "aifstime_utc") with
  | none => return none
  | some observedAt =>
    return some {
      stationId
      observedAt
      airTemp := ← dictGet entry "air_temp"
      rainTrace := ← dictGet entry "rain_trace"
      relHum := ← dictGet entry "rel_hum"
      windSpdKmh := ← dictGet entry "wind_spd_kmh" }

/-- The row of an entry that states a time. -/
def RawReading.convert (raw : RawReading) : Except WeatherError WeatherObservation := do
  let airTempC ← parseFloat raw.airTemp
  let rainfallMm ← parseFloat raw.rainTrace
  let humidityPct ← parseFloat raw.relHum
  let windSpeedKmh ← parseFloat raw.windSpdKmh
  return {
    stationId := raw.stationId
    observedAt := raw.observedAt
    airTempC
    rainfallMm
    humidityPct
    windSpeedKmh
    source := some "bom_IDQ60901" }

/-- The body of the loop over a station's entries. -/
def parseEntry (stationId : String) (entry : Value) :
    Except WeatherError (Option WeatherObservation) := do
  match ← rawReading stationId entry with
  | none => return none
  | some raw => return some (← raw.convert)

/-- `(payload.get("observations") or {}).get("data") or []`, as the loop meets it. -/
def payloadEntries (payload : Value) : Except WeatherError (List Value) := do
  let observations ← dictGet payload "observations"
  let data ← dictGet (if observations.truthy then observations else .obj []) "data"
  if data.truthy then iterate data else return []

/-- What fetching a station ends in. -/
inductive StationOutcome where
  /-- `httpx.HTTPError`, after the retries. -/
  | httpError
  /-- A response whose body is one `response.json()` raises at. -/
  | notJson
  /-- A response, and what `response.json()` returned. -/
  | json (payload : Value)

/-- One run: the configured stations in order, each with its outcome. -/
abbrev WeatherRun := List (String × StationOutcome)

section Loops

variable {α : Type} (body : String → Value → Except WeatherError (Option α))

/-- The loop over the entries of a document. -/
def loopPayload (payload : Value) (stationId : String) : Except WeatherError (List α) := do
  collect (body stationId) (← payloadEntries payload)

/-- The loop over the stations; a transport error is logged and skipped. -/
def loopStations : WeatherRun → Except WeatherError (List α)
  | [] => .ok []
  | (_, .httpError) :: rest => loopStations rest
  | (_, .notJson) :: _ => .error .jsonDecodeError
  | (stationId, .json payload) :: rest => do
    let stationRows ← loopPayload body payload stationId
    let rows ← loopStations rest
    return stationRows ++ rows

end Loops

/-- `parse_observations`. -/
def parseObservations (payload : Value) (stationId : String) :
    Except WeatherError (List WeatherObservation) := loopPayload parseEntry payload stationId

/-! ## A run -/

/-- `all_rows`: the parsed observations of every station. -/
def fetchedRows (run : WeatherRun) : Except WeatherError (List WeatherObservation) :=
  loopStations parseEntry run

/-- The statements of a run, one for each chunk.  A statement that does nothing
on a conflict is never refused. -/
def Db.insertWeather (chunk : ℕ) (db : Db) (rows : List WeatherObservation) : Db :=
  { db with
    weatherObservations :=
      (chunks chunk rows).foldl (fun table slice => table.putAll slice) db.weatherObservations }

/-- `ingest_weather`, with the given size of its chunks. -/
def ingestWeatherBy (chunk : ℕ) (db : Db) (run : WeatherRun) : Except WeatherError Db := do
  return db.insertWeather chunk (← fetchedRows run)

/-- `ingest_weather`. -/
def ingestWeather (db : Db) (run : WeatherRun) : Except WeatherError Db :=
  ingestWeatherBy 500 db run

/-- A run as the database sees it, with the given size of its chunks. -/
def pollWeatherBy (chunk : ℕ) (db : Db) (run : WeatherRun) : Db :=
  match ingestWeatherBy chunk db run with
  | .ok db' => db'
  | .error _ => db

/-- A run as the database sees it. -/
def pollWeather (db : Db) (run : WeatherRun) : Db := pollWeatherBy 500 db run

/-! ## What a run does -/

/-- The raw reading of an entry whose time is read as `observedAt`. -/
def rawReadingAt (stationId : String) (members : List (String × Value)) (observedAt : Instant) :
    RawReading where
  stationId
  observedAt
  airTemp := Value.lookup "air_temp" members
  rainTrace := Value.lookup "rain_trace" members
  relHum := Value.lookup "rel_hum" members
  windSpdKmh := Value.lookup "wind_spd_kmh" members

/-- Only the time of an object can raise before its numbers are converted. -/
theorem rawReading_obj (stationId : String) (members : List (String × Value)) :
    rawReading stationId (.obj members) =
      (parseAifstimeUtc (Value.lookup "aifstime_utc" members)).map
        (Option.map (rawReadingAt stationId members)) := by
  show (parseAifstimeUtc (Value.lookup "aifstime_utc" members) >>= _) = _
  cases parseAifstimeUtc (Value.lookup "aifstime_utc" members) with
  | error e => rfl
  | ok time => cases time <;> rfl

/-- The readings a run processes, in order: none when it raises. -/
def processedReadings (run : WeatherRun) : List WeatherObservation :=
  match fetchedRows run with
  | .ok rows => rows
  | .error _ => []

theorem insertWeather_eq {chunk : ℕ} (hchunk : 0 < chunk) (db : Db)
    (rows : List WeatherObservation) :
    db.insertWeather chunk rows =
      { db with weatherObservations := db.weatherObservations.putAll rows } := by
  unfold Db.insertWeather Table.putAll
  rw [foldl_chunks hchunk]

/-- **A run inserts the readings it processes**, whatever the size of its chunks. -/
theorem pollWeatherBy_eq {chunk : ℕ} (hchunk : 0 < chunk) (db : Db) (run : WeatherRun) :
    pollWeatherBy chunk db run =
      { db with
        weatherObservations := db.weatherObservations.putAll (processedReadings run) } := by
  unfold pollWeatherBy ingestWeatherBy processedReadings
  cases fetchedRows run with
  | error e => rfl
  | ok rows => exact insertWeather_eq hchunk db rows

theorem pollWeather_eq (db : Db) (run : WeatherRun) :
    pollWeather db run =
      { db with
        weatherObservations := db.weatherObservations.putAll (processedReadings run) } :=
  pollWeatherBy_eq (by decide) db run

/-- **Runs insert the readings they process**, one run after another. -/
theorem replay_pollWeather (db : Db) (runs : List WeatherRun) :
    replay pollWeather db runs =
      { db with
        weatherObservations :=
          db.weatherObservations.putAll (runs.flatMap processedReadings) } := by
  refine replay_history
    (P := fun l d => d = { db with
      weatherObservations := db.weatherObservations.putAll (l.flatMap processedReadings) })
    rfl ?_ runs
  intro l run ih
  rw [pollWeather_eq, ih, List.flatMap_append, Table.putAll_append]
  simp

theorem weatherObservation_keepsOld : WeatherObservation.upsert.KeepsOld := fun _ _ => rfl

/-- The rows with the station and the time of a key. -/
def readingsOf (db : Db) (k : String × Instant) : List (Row WeatherObservation) :=
  db.weatherObservations.rows.filter fun r => WeatherObservation.upsert.key r.data = k

/-- **What any sequence of runs leaves in the table**, from any state. -/
theorem weather_accumulates (db : Db) (runs : List WeatherRun) :
    let after := replay pollWeather db runs
    let processed := runs.flatMap processedReadings
    (∀ k, after.weatherObservations.contents k =
        (db.weatherObservations.contents k).or
          (processed.find? fun o => WeatherObservation.upsert.key o = k)) ∧
      (∀ o ∈ processed, (readingsOf after (WeatherObservation.upsert.key o)).length = 1) ∧
      (∀ later, after.weatherObservations.rows <+:
        (replay pollWeather db (runs ++ later)).weatherObservations.rows) ∧
      ∀ chunk, 0 < chunk → replay (pollWeatherBy chunk) db runs = after := by
  intro after processed
  have hafter : after = _ := replay_pollWeather db runs
  refine ⟨?_, ?_, ?_, ?_⟩
  · intro k
    rw [hafter]
    exact Table.contents_putAll_of_keepsOld _ weatherObservation_keepsOld _ k
  · intro o ho
    have hne := db.weatherObservations.contents_putAll_ne_none ho
    obtain ⟨d, hd⟩ := Option.ne_none_iff_exists'.1 hne
    rw [hafter]
    exact Table.length_filter_key _ hd
  · intro later
    rw [hafter, replay_pollWeather, List.flatMap_append, Table.putAll_append]
    exact Table.prefix_putAll _ weatherObservation_keepsOld _
  · intro chunk hchunk
    have hstep : pollWeatherBy chunk = pollWeather := by
      funext d run
      rw [pollWeatherBy_eq hchunk, pollWeather_eq]
    rw [hstep]

end DelayPredictor
