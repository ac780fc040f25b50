import DelayPredictor.Lib.PyNumber
import DelayPredictor.Vehicles

/-!
# Listing the vehicles in a bounding box

The `bbox` parameter of `list_latest_vehicle_positions` (`app/api/routes/vehicles.py`).

* `Envelope.parse` — the text split at its commas and the numbers unpacked;
  `clip` — the condition made of it.
* `parse_eq_some_iff` — **what text names a box**.
* `answers_clip_iff` — **what a listing holds**: the newest position of a vehicle
  where it is on the route and in the box, and never an older one that was.
-/

namespace DelayPredictor

open Newest PyNumber Stats

/-! ## The text of a box -/

/-- The arguments of `ST_MakeEnvelope`. -/
structure Envelope where
  minLon : XFloat
  minLat : XFloat
  maxLon : XFloat
  maxLat : XFloat
  deriving DecidableEq, Repr

/-- The unpacking of `float(x) for x in bbox.split(",")`. -/
def Envelope.parse (bbox : String) : Option Envelope :=
  match bbox.toList.splitOn ',' with
  | [minLon, minLat, maxLon, maxLat] => do
    let minLon ← pyFloat (String.ofList minLon)
    let minLat ← pyFloat (String.ofList minLat)
    let maxLon ← pyFloat (String.ofList maxLon)
    let maxLat ← pyFloat (String.ofList maxLat)
    some ⟨minLon, minLat, maxLon, maxLat⟩
  -- Too few or too many values to unpack are a `ValueError` too.
  | _ => none

/-- The text is four numbers with commas between them. -/
def Names (bbox : String) (box : Envelope) : Prop :=
  ∃ minLon minLat maxLon maxLat : String,
    bbox = ",".intercalate [minLon, minLat, maxLon, maxLat] ∧
      pyFloat minLon = some box.minLon ∧ pyFloat minLat = some box.minLat ∧
      pyFloat maxLon = some box.maxLon ∧ pyFloat maxLat = some box.maxLat

theorem comma_not_mem {s : String} {x : XFloat} (h : pyFloat s = some x) : ',' ∉ s.toList := by
  intro hc
  rw [isForeign_comma.pyFloat_eq_none hc] at h
  cases h

theorem intercalate_splitOn_comma (s : String) :
    ",".intercalate ((s.toList.splitOn ',').map String.ofList) = s := by
  rw [← String.toList_inj, String.toList_intercalate, List.map_map]
  have hid : String.toList ∘ String.ofList = id := funext fun _ => String.toList_ofList
  rw [hid, List.map_id]
  exact List.intercalate_splitOn ','

theorem splitOn_comma_intercalate {parts : List String} (hne : parts ≠ [])
    (hparts : ∀ part ∈ parts, ',' ∉ part.toList) :
    (",".intercalate parts).toList.splitOn ',' = parts.map String.toList := by
  rw [String.toList_intercalate]
  refine List.splitOn_intercalate ',' ?_ (by simpa using hne)
  simpa using hparts

/-- **What text names a box**: four numbers with commas between them.  No number has a
comma in it, so there is one way to read a text. -/
theorem parse_eq_some_iff {bbox : String} {box : Envelope} :
    Envelope.parse bbox = some box ↔ Names bbox box := by
  constructor
  · intro h
    unfold Envelope.parse at h
    split at h
    · rename_i minLon minLat maxLon maxLat hsplit
      simp only [Option.bind_eq_bind, Option.bind_eq_some_iff, Option.some.injEq] at h
      obtain ⟨_, hminLon, _, hminLat, _, hmaxLon, _, hmaxLat, rfl⟩ := h
      have htext := intercalate_splitOn_comma bbox
      rw [hsplit] at htext
      exact ⟨_, _, _, _, htext.symm, hminLon, hminLat, hmaxLon, hmaxLat⟩
    · cases h
  · rintro ⟨minLon, minLat, maxLon, maxLat, rfl, hminLon, hminLat, hmaxLon, hmaxLat⟩
    have hsplit : (",".intercalate [minLon, minLat, maxLon, maxLat]).toList.splitOn ',' =
        [minLon.toList, minLat.toList, maxLon.toList, maxLat.toList] := by
      refine splitOn_comma_intercalate (by simp) ?_
      simp [comma_not_mem hminLon, comma_not_mem hminLat, comma_not_mem hmaxLon,
        comma_not_mem hmaxLat]
    rw [Envelope.parse, hsplit]
    simp [hminLon, hminLat, hmaxLon, hmaxLat]

example : Envelope.parse "-93.4,44.8,-93.1" = none := by decide

/-! ## The listing -/

section Listing

-- Whether the point at a longitude and a latitude meets the envelope: `ST_Intersects`.
variable (intersects : XFloat → XFloat → Envelope → Bool)

/-- The condition a bounding box puts on a row. -/
def clip (bbox : String) : Option (VehiclePosition → Bool) :=
  (Envelope.parse bbox).map fun envelope r => intersects r.lon r.lat envelope

/-- What a row of the table must be to be listed. -/
structure Listed (rows : List VehiclePosition) (q : VehicleQuery) (r : VehiclePosition) :
    Prop where
  newest : r ∈ newestOf r.vehicleId rows
  onRoute : ∀ routeId ∈ q.routeId, routeId ≠ "" → r.routeId = some routeId
  inBox : ∀ bbox ∈ q.bbox, bbox ≠ "" →
    ∃ envelope, Names bbox envelope ∧ intersects r.lon r.lat envelope = true

/-- A refused box and an empty listing answer alike. -/
theorem answers_iff_getD {clip : String → Option (VehiclePosition → Bool)}
    {rows : List VehiclePosition} {q : VehicleQuery} {out : List VehiclePosition} :
    Answers clip rows q out ↔ ∃ l : List VehiclePosition,
      l.Perm ((selectPositions clip rows q).getD []) ∧ out = l.take q.limit := by
  unfold Answers
  cases selectPositions clip rows q with
  | none => simp
  | some selected => rfl

open Classical in
/-- The condition on the route. -/
theorem filter_onRoute (latest : List VehiclePosition) (routeId : Option String) :
    (match routeId with
      | none => latest
      | some routeId =>
        if routeId = "" then latest else latest.filter fun r => r.routeId = some routeId) =
      latest.filter fun r => ∀ id ∈ routeId, id ≠ "" → r.routeId = some id := by
  cases routeId with
  | none => simp
  | some routeId =>
    by_cases hempty : routeId = ""
    · simp [hempty]
    · simp [hempty]

open Classical in
/-- The condition on the box: the rows it keeps, none when the text names no box. -/
theorem filter_inBox (onRoute : List VehiclePosition) (bbox : Option String) :
    (match bbox with
      | none => some onRoute
      | some bbox =>
        if bbox = "" then some onRoute
        else (clip intersects bbox).map fun inside => onRoute.filter inside).getD [] =
      onRoute.filter fun r => ∀ text ∈ bbox, text ≠ "" →
        ∃ envelope, Names text envelope ∧ intersects r.lon r.lat envelope = true := by
  cases bbox with
  | none => simp
  | some bbox =>
    by_cases hempty : bbox = ""
    · simp [hempty]
    · cases hparse : Envelope.parse bbox with
      | none => simp [hempty, clip, hparse, ← parse_eq_some_iff]
      | some envelope => simp [hempty, clip, hparse, ← parse_eq_some_iff]

open Classical in
theorem selectPositions_clip (rows : List VehiclePosition) (q : VehicleQuery) :
    (selectPositions (clip intersects) rows q).getD [] =
      rows.filter fun r => Listed intersects rows q r := by
  refine (filter_inBox intersects _ q.bbox).trans ?_
  refine (congrArg _ (filter_onRoute (latestPositions rows) q.routeId)).trans ?_
  rw [latestPositions_eq, List.filter_filter, List.filter_filter]
  refine List.filter_congr fun r _ => ?_
  rw [Bool.eq_iff_iff, Bool.and_eq_true, Bool.and_eq_true, decide_eq_true_iff,
    decide_eq_true_iff, decide_eq_true_iff, decide_eq_true_iff]
  constructor
  · rintro ⟨⟨hinBox, honRoute⟩, hnewest⟩
    exact ⟨hnewest, honRoute, hinBox⟩
  · rintro ⟨hnewest, honRoute, hinBox⟩
    exact ⟨⟨hinBox, honRoute⟩, hnewest⟩

open Classical in
/-- **What a listing holds**: as many rows as the limit allows, in any order, of those that
are newest for their vehicle and are on the route and in the box.  A vehicle that has
left the box is not listed where it was; a text that names no box lists nothing. -/
theorem answers_clip_iff (rows : List VehiclePosition) (q : VehicleQuery)
    (out : List VehiclePosition) :
    Answers (clip intersects) rows q out ↔
      ∃ l : List VehiclePosition, l.Perm (rows.filter fun r => Listed intersects rows q r) ∧
        out = l.take q.limit := by
  rw [answers_iff_getD, selectPositions_clip]

end Listing

end DelayPredictor
