import DelayPredictor.Lib.Like
import DelayPredictor.Lib.Paging
import DelayPredictor.Lib.Query
import DelayPredictor.StaticSchema

/-!
# Listing and searching stops

`list_stops` and `nearby_stops` (`app/api/routes/stops.py`): a fuzzy match on the name or the
code of a stop, a page at a time, ordered by name; and the stops around a point.

* `CaseFold.ilike` — `ILIKE` over the case folding of the database.  `asciiFold` and
  `binaryCollation` are the folding and the order of the locale `C`.
* `StopListing.selects` — the `WHERE` clause; `ListStops` — what a call may return.
* `stopSearch_iff` — **when a search finds the stops that contain its term**: exactly when
  no character of it is `%`, `_` or `\`.
* `stopPages_iff` — **when a client that pages through the answer sees every stop exactly
  once**: exactly when no name is on both sides of a page boundary.
* `nearbyStops_iff` — **what `nearby_stops` answers**: as many stops within the radius as
  there may be, nearest first, and none left out that is nearer than one of them.
-/

namespace DelayPredictor

open Keyed Like Query Stats

/-! ## The statement -/

/-- How the database folds case, character by character.  The characters of a pattern that
have a meaning stand apart. -/
structure CaseFold where
  lower : Char → Char
  lower_lower : ∀ c, lower (lower c) = lower c
  lower_eq_iff : ∀ c d, IsMeta d → (lower c = d ↔ c = d)

namespace CaseFold

variable (fold : CaseFold)

/-- A text in lower case. -/
def lowered (text : String) : List Char := text.toList.map fold.lower

/-- `text ILIKE pattern`. -/
def ilike (pattern text : String) : Bool := like (fold.lowered pattern) (fold.lowered text)

/-- The text contains the term, whatever their case. -/
def Contains (term text : String) : Prop := fold.lowered term <:+: fold.lowered text

end CaseFold

/-- The folding of the locale `C`, of letters within ASCII. -/
def asciiFold : CaseFold where
  lower := Char.toLower
  lower_lower := Char.toLower_toLower_eq_toLower
  lower_eq_iff := by
    intro c d hd
    have hletter : ¬ d.isUpper ∧ ¬ d.isLower := by
      rcases hd with rfl | rfl | rfl <;> decide
    by_cases hc : c.isUpper
    · have hlower : c.toLower.isLower := by
        simp [Char.isLower_toLower_eq_isAlpha, Char.isAlpha, hc]
      constructor
      · rintro rfl
        exact absurd hlower hletter.2
      · rintro rfl
        exact absurd hc hletter.1
    · rw [Char.toLower_eq_of_not_isUpper hc]

/-- The order of the database on texts. -/
structure Collation where
  le : String → String → Prop
  [decidable : DecidableRel le]
  total : ∀ a b, le a b ∨ le b a
  trans : ∀ a b c, le a b → le b c → le a c
  /-- A collation tells any two texts apart. -/
  antisymm : ∀ a b, le a b → le b a → a = b

/-- The order of the locale `C`, of the characters' codes. -/
def binaryCollation : Collation where
  le a b := a ≤ b
  total := String.le_total
  trans _ _ _ := String.le_trans
  antisymm _ _ := String.le_antisymm

instance (collation : Collation) : DecidableRel collation.le := collation.decidable

instance (collation : Collation) : Std.Total collation.le := ⟨collation.total⟩

instance (collation : Collation) : IsTrans String collation.le := ⟨collation.trans⟩

/-- The parameters of a call. -/
structure StopListing where
  q : Option String
  limit : ℕ
  offset : ℕ
  /-- `Query(ge=1, le=500)`. -/
  limit_range : 1 ≤ limit ∧ limit ≤ 500
  /-- The database takes no term with a NUL; a call with one raises. -/
  q_fits : q.all textFits = true

/-- The `WHERE` clause.  A code that is null is like nothing. -/
def StopListing.selects (fold : CaseFold) (listing : StopListing) (stop : Stop) : Bool :=
  match listing.q with
  | none => true
  | some q =>
    if q = "" then true
    else
      let pattern := "%" ++ q ++ "%"
      fold.ilike pattern stop.name || stop.code.any (fold.ilike pattern)

/-- `ORDER BY stops.name`. -/
def ByName (collation : Collation) (a b : Stop) : Prop := collation.le a.name b.name

instance (collation : Collation) : DecidableRel (ByName collation) :=
  fun a b => inferInstanceAs (Decidable (collation.le a.name b.name))

instance (collation : Collation) : Std.Total (ByName collation) :=
  ⟨fun a b => collation.total a.name b.name⟩

instance (collation : Collation) : IsTrans Stop (ByName collation) :=
  ⟨fun a b c => collation.trans a.name b.name c.name⟩

/-- The stops that the `WHERE` clause keeps. -/
def StopListing.selected (fold : CaseFold) (T : StaticTables) (listing : StopListing) :
    List Stop :=
  T.stops.data.filter (listing.selects fold)

/-- The rows a call may return. -/
def ListStops (fold : CaseFold) (collation : Collation) (T : StaticTables)
    (listing : StopListing) (rows : List Stop) : Prop :=
  Page (ByName collation) (listing.selected fold T) listing.limit listing.offset rows

/-! ## Searching -/

section Search

variable (fold : CaseFold)

/-- The pattern of a search term. -/
theorem lowered_pattern (q : String) :
    fold.lowered ("%" ++ q ++ "%") = wrapped (fold.lowered q) := by
  have hpercent : fold.lower '%' = '%' := (fold.lower_eq_iff '%' '%' (.inl rfl)).2 rfl
  simp [CaseFold.lowered, wrapped, hpercent]

/-- The pattern of a search term can always be read. -/
theorem exists_tokens_pattern (q : String) :
    ∃ p, tokens (fold.lowered ("%" ++ q ++ "%")) = some p := by
  rw [lowered_pattern]
  exact exists_tokens_wrapped _

/-- Folding the case gives no character a meaning, and takes none away. -/
theorem isMeta_lower (c : Char) : IsMeta (fold.lower c) ↔ IsMeta c := by
  unfold IsMeta
  rw [fold.lower_eq_iff c '%' (.inl rfl), fold.lower_eq_iff c '_' (.inr (.inl rfl)),
    fold.lower_eq_iff c '\\' (.inr (.inr rfl))]

theorem forall_lowered_iff (q : String) :
    (∀ c ∈ fold.lowered q, ¬ IsMeta c) ↔ ∀ c ∈ q.toList, ¬ IsMeta c := by
  simp [CaseFold.lowered, isMeta_lower]

/-- A stop that only has a name. -/
def Stop.named (name : String) : Stop where
  stopId := name
  code := none
  name
  description := none
  lat := .fin 0
  lon := .fin 0
  locationType := none
  parentStation := none
  platformCode := none

/-- What a search for a term selects. -/
theorem selects_some {listing : StopListing} {q : String} (hlisting : listing.q = some q)
    (stop : Stop) : listing.selects fold stop = true ↔
      q = "" ∨ like (wrapped (fold.lowered q)) (fold.lowered stop.name) = true ∨
        ∃ code ∈ stop.code, like (wrapped (fold.lowered q)) (fold.lowered code) = true := by
  by_cases hq : q = ""
  · simp [StopListing.selects, hlisting, hq]
  · cases hcode : stop.code with
    | none => simp [StopListing.selects, hlisting, hq, hcode, CaseFold.ilike, lowered_pattern]
    | some code => simp [StopListing.selects, hlisting, hq, hcode, CaseFold.ilike, lowered_pattern]

/-- **When a search finds the stops that contain its term** in their name or code. -/
theorem stopSearch_iff {listing : StopListing} {q : String} (hlisting : listing.q = some q) :
    (∀ stop : Stop, listing.selects fold stop = true ↔
        fold.Contains q stop.name ∨ ∃ code ∈ stop.code, fold.Contains q code) ↔
      ∀ c ∈ q.toList, ¬ IsMeta c := by
  rw [← forall_lowered_iff fold]
  constructor
  · intro h
    -- The texts in lower case are the names of stops.
    have hfiller : fold.lower 'x' ≠ '_' := by
      rw [Ne, fold.lower_eq_iff 'x' '_' (.inr (.inl rfl))]
      decide
    have hlower : ∀ c ∈ fold.lowered q, fold.lower c = c := by
      intro c hc
      obtain ⟨d, -, rfl⟩ := List.mem_map.1 hc
      exact fold.lower_lower d
    refine (searches_iff hfiller ?_ hlower).1 ?_
    · exact fold.lower_lower 'x'
    · intro text htext
      have hlowered : fold.lowered (String.ofList text) = text := by
        rw [CaseFold.lowered, String.toList_ofList, List.map_congr_left htext, List.map_id']
      have hstop := h (Stop.named (String.ofList text))
      rw [selects_some fold hlisting] at hstop
      simp only [CaseFold.Contains, Stop.named, hlowered, reduceCtorEq, Option.mem_def, false_and,
        exists_false, or_false] at hstop
      by_cases hq : q = ""
      · subst hq
        simp [CaseFold.lowered, like_wrapped_iff]
      · simpa [hq] using hstop
  · intro h stop
    rw [selects_some fold hlisting]
    simp only [CaseFold.Contains, like_wrapped_iff h]
    by_cases hq : q = ""
    · subst hq
      simp [CaseFold.lowered]
    · simp [hq]

/-- A search, a few stops at a time. -/
def searchFor (q : String) (hq : textFits q = true) : StopListing where
  q := some q
  limit := 50
  offset := 0
  limit_range := by decide
  q_fits := hq

/-- A search for `King` finds the stops that contain it; one for `50%` finds others too. -/
theorem stopSearch_terms :
    (∀ stop : Stop, (searchFor "King" (by decide)).selects asciiFold stop = true ↔
      asciiFold.Contains "King" stop.name ∨ ∃ code ∈ stop.code, asciiFold.Contains "King" code) ∧
    ¬ ∀ stop : Stop, (searchFor "50%" (by decide)).selects asciiFold stop = true ↔
      asciiFold.Contains "50%" stop.name ∨ ∃ code ∈ stop.code, asciiFold.Contains "50%" code := by
  refine ⟨(stopSearch_iff asciiFold rfl).2 (by simp [IsMeta]), fun h => ?_⟩
  have hplain := (stopSearch_iff asciiFold rfl).1 h
  simp [IsMeta] at hplain

end Search

/-! ## Paging -/

section Paging

variable (fold : CaseFold) (collation : Collation) (T : StaticTables) (listing : StopListing)

theorem selected_nodup : (listing.selected fold T).Nodup :=
  (List.Nodup.of_map _ T.stops.data_keys_nodup).filter _

/-- The names of the stops in order, whatever the order of stops with one name. -/
theorem map_name_insertionSort (stops : List Stop) :
    (stops.insertionSort (ByName collation)).map Stop.name =
      (stops.map Stop.name).insertionSort collation.le := by
  refine List.Perm.eq_of_pairwise (fun a b _ _ => collation.antisymm a b) ?_
    (List.pairwise_insertionSort collation.le _) ?_
  · rw [List.pairwise_map]
    exact List.pairwise_insertionSort (ByName collation) stops
  · exact ((List.perm_insertionSort _ stops).map _).trans (List.perm_insertionSort _ _).symm

/-- A tie is one of two stops with one name. -/
theorem noTieAt_iff (stops : List Stop) (boundary : ℕ) :
    NoTieAt (ByName collation) stops boundary ↔
      ∀ name ∈ ((stops.map Stop.name).insertionSort collation.le).take boundary,
        name ∉ ((stops.map Stop.name).insertionSort collation.le).drop boundary := by
  rw [← map_name_insertionSort, ← List.map_take, ← List.map_drop]
  constructor
  · rintro h _ hbefore hafter
    obtain ⟨a, ha, rfl⟩ := List.mem_map.1 hbefore
    obtain ⟨b, hb, heq⟩ := List.mem_map.1 hafter
    refine h a ha b hb ?_
    rw [ByName, heq]
    exact (collation.total a.name a.name).elim id id
  · intro h a ha b hb hle
    have hle' : ByName collation a b := by
      have hsorted := List.pairwise_insertionSort (ByName collation) stops
      rw [← List.take_append_drop boundary (stops.insertionSort _), List.pairwise_append] at hsorted
      exact hsorted.2.2 a ha b hb
    have hname : b.name = a.name := collation.antisymm _ _ hle hle'
    exact h a.name (List.mem_map_of_mem ha) (hname ▸ List.mem_map_of_mem hb)

/-- **When a client that pages through the stops sees each of them exactly once.** -/
theorem stopPages_iff :
    (∀ pages : ℕ → List Stop,
        (∀ i, ListStops fold collation T { listing with offset := i * listing.limit } (pages i)) →
        ∀ n, (listing.selected fold T).length ≤ n * listing.limit →
          ((List.range n).flatMap pages).Perm (listing.selected fold T)) ↔
      ∀ i, ∀ name ∈ (((listing.selected fold T).map Stop.name).insertionSort collation.le).take
          (i * listing.limit),
        name ∉ (((listing.selected fold T).map Stop.name).insertionSort collation.le).drop
          (i * listing.limit) := by
  simp only [← noTieAt_iff]
  exact pages_perm_iff (selected_nodup fold T listing) listing.limit_range.1

end Paging

/-- Four stops, two of which share a name. -/
def fourStops : StaticTables where
  agencies := Table.empty
  routes := Table.empty
  stops := Table.empty.putAll
    [Stop.named "Valley", { Stop.named "Central" with stopId := "C2" }, Stop.named "Central",
      Stop.named "Roma"]
  trips := Table.empty
  calendar := Table.empty
  calendarDates := Table.empty
  stopTimes := Table.empty

/-- All stops, `limit` at a time. -/
def allStops (limit : ℕ) (h : 1 ≤ limit ∧ limit ≤ 500) : StopListing where
  q := none
  limit
  offset := 0
  limit_range := h
  q_fits := rfl

/-- Pages of two are safe; with pages of one, the two stops of one name are on either side of
a boundary, and one of them may be on both pages. -/
theorem stopPages_fourStops :
    (∀ pages : ℕ → List Stop,
        (∀ i, ListStops asciiFold binaryCollation fourStops
          { allStops 2 (by decide) with offset := i * 2 } (pages i)) →
        ∀ n, ((allStops 2 (by decide)).selected asciiFold fourStops).length ≤ n * 2 →
          ((List.range n).flatMap pages).Perm
            ((allStops 2 (by decide)).selected asciiFold fourStops)) ∧
    ¬ ∀ pages : ℕ → List Stop,
        (∀ i, ListStops asciiFold binaryCollation fourStops
          { allStops 1 (by decide) with offset := i * 1 } (pages i)) →
        ∀ n, ((allStops 1 (by decide)).selected asciiFold fourStops).length ≤ n * 1 →
          ((List.range n).flatMap pages).Perm
            ((allStops 1 (by decide)).selected asciiFold fourStops) := by
  have hnames : ∀ limit h, ((((allStops limit h).selected asciiFold fourStops).map
      Stop.name).insertionSort binaryCollation.le) = ["Central", "Central", "Roma", "Valley"] := by
    intro limit h
    show ((fourStops.stops.data.filter fun _ => true).map Stop.name).insertionSort
      binaryCollation.le = _
    decide
  refine ⟨(stopPages_iff asciiFold binaryCollation fourStops (allStops 2 (by decide))).2 ?_, ?_⟩
  · intro i
    rw [hnames]
    show ∀ name ∈ List.take (i * 2) _, name ∉ List.drop (i * 2) _
    match i with
    | 0 => decide
    | 1 => decide
    | i + 2 =>
      intro name _
      rw [List.drop_of_length_le (by simp; omega)]
      exact List.not_mem_nil
  · intro h
    have hboundary :=
      (stopPages_iff asciiFold binaryCollation fourStops (allStops 1 (by decide))).1 h 1
    rw [hnames] at hboundary
    revert hboundary
    decide

/-! ## Around a point -/

/-- `ST_DWithin` and `ST_Distance`, between the point of a request and the location of a stop,
which is the point of its coordinates. -/
structure Geography where
  dwithin : (lat lon : ℚ) → (stopLat stopLon : XFloat) → (radiusM : ℕ) → Bool
  distance : (lat lon : ℚ) → (stopLat stopLon : XFloat) → ℚ

/-- The parameters of `nearby_stops`, within the bounds of its `Query(ge=…, le=…)` or not. -/
structure NearbyQuery where
  lat : ℚ
  lon : ℚ
  radiusM : ℕ
  limit : ℕ

/-- `StopNearbyOut`. -/
structure StopNearbyOut extends Stop where
  distanceM : ℚ

section Nearby

variable (geography : Geography) (q : NearbyQuery) (T : StaticTables)

/-- The `distance_m` of a stop. -/
def NearbyQuery.distanceM (stop : Stop) : ℚ :=
  geography.distance q.lat q.lon stop.lat stop.lon

/-- The `WHERE` clause. -/
def NearbyQuery.selects (stop : Stop) : Bool :=
  geography.dwithin q.lat q.lon stop.lat stop.lon q.radiusM

/-- `ORDER BY distance_m`. -/
def NearestFirst (a b : Stop) : Prop := q.distanceM geography a ≤ q.distanceM geography b

instance : DecidableRel (NearestFirst geography q) :=
  fun _ _ => inferInstanceAs (Decidable (_ ≤ _))

instance : Std.Total (NearestFirst geography q) :=
  ⟨fun a b => le_total (q.distanceM geography a) (q.distanceM geography b)⟩

instance : IsTrans Stop (NearestFirst geography q) := ⟨fun _ _ _ hab hbc => le_trans hab hbc⟩

/-- The stops within the radius. -/
def NearbyQuery.within : List Stop := T.stops.data.filter (q.selects geography)

/-- What a call may return. -/
def NearbyStops (out : List StopNearbyOut) : Prop :=
  ∃ stops, Query.Answers (NearestFirst geography q) q.limit (q.within geography T) stops ∧
    out = stops.map fun stop => { stop with distanceM := q.distanceM geography stop }

/-- **What `nearby_stops` answers.** -/
theorem nearbyStops_iff (out : List StopNearbyOut) :
    NearbyStops geography q T out ↔
      (∀ o ∈ out, o.toStop ∈ q.within geography T ∧
        o.distanceM = q.distanceM geography o.toStop) ∧
      (out.map StopNearbyOut.toStop).Nodup ∧
      out.Pairwise (fun a b => a.distanceM ≤ b.distanceM) ∧
      out.length = min q.limit (q.within geography T).length ∧
      ∀ stop ∈ q.within geography T, stop ∉ out.map StopNearbyOut.toStop →
        ∀ o ∈ out, o.distanceM ≤ q.distanceM geography stop := by
  have hnodup : (q.within geography T).Nodup :=
    (List.Nodup.of_map _ T.stops.data_keys_nodup).filter _
  unfold NearbyStops
  simp only [answers_iff hnodup]
  constructor
  · rintro ⟨stops, ⟨hsorted, hstops, hsub, hlen, hout⟩, rfl⟩
    have hmap : (stops.map fun stop => (⟨stop, q.distanceM geography stop⟩ : StopNearbyOut)).map
        StopNearbyOut.toStop = stops := by
      rw [List.map_map]
      exact List.map_id stops
    refine ⟨?_, by rwa [hmap], by rwa [List.pairwise_map], by simpa using hlen, ?_⟩
    · intro o ho
      obtain ⟨stop, hstop, rfl⟩ := List.mem_map.1 ho
      exact ⟨hsub hstop, rfl⟩
    · rw [hmap]
      intro stop hwithin hleft o ho
      obtain ⟨listed, hlisted, rfl⟩ := List.mem_map.1 ho
      exact hout stop hwithin hleft listed hlisted
  · rintro ⟨hmem, hstops, hsorted, hlen, hout⟩
    refine ⟨out.map StopNearbyOut.toStop, ⟨?_, hstops, ?_, by simpa using hlen, ?_⟩, ?_⟩
    · rw [List.pairwise_map]
      refine hsorted.imp_of_mem fun ha hb hab => ?_
      rwa [(hmem _ ha).2, (hmem _ hb).2] at hab
    · intro stop hstop
      obtain ⟨o, ho, rfl⟩ := List.mem_map.1 hstop
      exact (hmem o ho).1
    · intro stop hwithin hleft listed hlisted
      obtain ⟨o, ho, rfl⟩ := List.mem_map.1 hlisted
      have hdistance := hout stop hwithin hleft o ho
      rwa [(hmem o ho).2] at hdistance
    · rw [List.map_map]
      calc out = out.map id := (List.map_id out).symm
        _ = out.map _ := List.map_congr_left fun o ho => ?_
      show o = ⟨o.toStop, q.distanceM geography o.toStop⟩
      rw [← (hmem o ho).2]

end Nearby

end DelayPredictor
