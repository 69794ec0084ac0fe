import FlightPulse.Analytics.NullSafety
import FlightPulse.Collector.Normalizer
import FlightPulse.Lib.Rounding

/-!
# From a state vector to the staging view

The same fields are written by position, under the keys of an event, in a model
and under the keys of a query. A well-typed state vector comes through with each
field where it belongs.
-/

open Lib Lib.Python Lib.Pydantic Lib.Postgres

namespace FlightPulse.Analytics

open Collector Ingestion Worker

/-! ## The whole way -/

def validated {α : Type} : Validated α → Option α
  | .ok a => some a
  | .invalid _ => none

/-- The row of one state vector, as the columns of the table read it. -/
def encoded (env : Env) (host : Host) (collectorId : PyStr) (draw : Draw) (now : Timestamptz) (state : List PyVal) :
    Option DbRow := do
  let event ← host.normalizeStateVector collectorId draw state
  let e ← validated (TelemetryEvent.modelValidate env.lax event)
  let row ← eventToRow (normalizeEvent e)
  env.bindRow now row

/-! ## What the positions say -/

/-- A field by its index; what is missing at the end is `None`. -/
def fieldAt (state : List PyVal) (i : ℕ) : PyVal := state[i]?.getD .none

def asStr : PyVal → Option PyStr
  | .str s => some s
  | _ => none

def asInt : PyVal → Option ℤ
  | .int n => some n
  | _ => none

/-- A finite number, whether it was written as an integer or not. -/
def asNum : PyVal → Option ℚ
  | .int n => some n
  | .float (.finite q) => some q
  | _ => none

def asBool : PyVal → Option Bool
  | .bool b => some b
  | _ => none

def measuredIndices : List ℕ := [5, 6, 7, 13, 9, 10, 11]

/-- The indexes and types of the API documentation. -/
structure WellTyped (pg : Server) (state : List PyVal) : Prop where
  icao24 : ∃ s, fieldAt state 0 = .str s ∧ s ≠ [] ∧ plain s
  texts : ∀ i ∈ [1, 2], fieldAt state i = .none ∨ ∃ s, fieldAt state i = .str s ∧ plain s
  epochs : ∀ i ∈ [3, 4], fieldAt state i = .none ∨
    ∃ n, fieldAt state i = .int n ∧ Server.inInt8 n ∧ (pg.toTimestamp n).isSome
  numbers : ∀ i ∈ measuredIndices, fieldAt state i = .none ∨ (asNum (fieldAt state i)).isSome
  onGround : fieldAt state 8 = .none ∨ ∃ b, fieldAt state 8 = .bool b

def space : CodePoint := ofChar ' '

def nonBlank (s : PyStr) : Option Text := if s = [] then none else encodeText s

/-- Each column is the field of its index. -/
structure Decoded (pg : Server) (state : List PyVal) (s : StgRow) : Prop where
  icao24 : ∃ raw t, fieldAt state 0 = .str raw ∧ encodeText raw = some t ∧ s.icao24 = pg.lower t.trim
  callsign : s.callsign = (asStr (fieldAt state 1)).bind fun raw => nonBlank (strip raw)
  originCountry : s.originCountry =
    (asStr (fieldAt state 2)).bind fun raw => nonBlank (trimBy (fun c => c = space) raw)
  timePositionAt : s.timePositionAt = (asInt (fieldAt state 3)).bind pg.toTimestamp
  lastContactAt : s.lastContactAt = (asInt (fieldAt state 4)).bind pg.toTimestamp
  measurements : [s.longitude, s.latitude, s.baroAltitudeM, s.geoAltitudeM, s.velocityMps, s.trueTrackDeg,
    s.verticalRateMps] = measuredIndices.map fun i => (asNum (fieldAt state i)).map .finite
  onGround : s.onGround =
    match asBool (fieldAt state 8), asNum (fieldAt state 7) with
    | some b, _ => some b
    | none, some altitude => some (altitude ≤ 0)
    | none, none => none

/-! ## The event -/

theorem get?_zip {keys : List PyStr} (hnodup : keys.Nodup) (state : List PyVal) {i : ℕ} (hi : i < keys.length) :
    PyVal.get? keys[i] (keys.zip state) = state[i]? := by
  induction keys generalizing state i with
  | nil => simp at hi
  | cons key keys ih =>
    rw [List.nodup_cons] at hnodup
    cases state with
    | nil => rfl
    | cons v state =>
      cases i with
      | zero => simp [PyVal.get?]
      | succ i =>
        have hi' : i < keys.length := by simpa using hi
        have hne : key ≠ keys[i] := fun h => hnodup.1 (h ▸ List.getElem_mem hi')
        rw [List.zip_cons_cons, List.getElem_cons_succ, PyVal.get?, if_neg hne, ih hnodup.2 state hi',
          List.getElem?_cons_succ]

theorem stateVectorFields_nodup : stateVectorFields.Nodup := by decide

theorem field_zip (state : List PyVal) {i : ℕ} (hi : i < stateVectorFields.length) :
    (PyVal.get? stateVectorFields[i] (stateVectorFields.zip state)).getD .none = fieldAt state i := by
  rw [get?_zip stateVectorFields_nodup state hi]
  rfl

/-- What `normalize_state_vector` makes of the callsign. -/
def strippedCallsign (v : PyVal) : Option PyStr := (asStr v).bind fun s => if s = [] then none else some (strip s)

theorem cleanCallsign_typed {v : PyVal} (h : v = .none ∨ ∃ s, v = .str s ∧ plain s) :
    cleanCallsign v = some (dumpOption .str (strippedCallsign v)) := by
  rcases h with rfl | ⟨s, rfl, -⟩
  · rfl
  · unfold cleanCallsign strippedCallsign asStr truthy
    by_cases hs : s = []
    · simp [hs, dumpOption]
    · simp [hs, dumpOption]

/-- The event of a well-typed state vector. -/
def vectorEvent (collectorId : PyStr) (draw : Draw) (ingestionId : PyStr) (icao24 : PyStr) (state : List PyVal) :
    TelemetryEvent where
  source := str "opensky"
  icao24 := icao24
  callsign := strippedCallsign (fieldAt state 1)
  originCountry := asStr (fieldAt state 2)
  timePosition := asInt (fieldAt state 3)
  lastContact := asInt (fieldAt state 4)
  longitude := (asNum (fieldAt state 5)).map .finite
  latitude := (asNum (fieldAt state 6)).map .finite
  baroAltitudeM := (asNum (fieldAt state 7)).map .finite
  geoAltitudeM := (asNum (fieldAt state 13)).map .finite
  velocityMps := (asNum (fieldAt state 9)).map .finite
  trueTrackDeg := (asNum (fieldAt state 10)).map .finite
  verticalRateMps := (asNum (fieldAt state 11)).map .finite
  onGround := asBool (fieldAt state 8)
  ingestedAt := draw.now
  ingestionId := ingestionId
  collectorId := some collectorId

/-- The same, as `normalize_state_vector` writes it. -/
def vectorDict (collectorId : PyStr) (draw : Draw) (ingestionId : PyStr) (state : List PyVal) :
    List (PyStr × PyVal) :=
  [ (str "source", .str (str "opensky")),
    (str "icao24", fieldAt state 0),
    (str "callsign", dumpOption .str (strippedCallsign (fieldAt state 1))),
    (str "origin_country", fieldAt state 2),
    (str "time_position", fieldAt state 3),
    (str "last_contact", fieldAt state 4),
    (str "longitude", fieldAt state 5),
    (str "latitude", fieldAt state 6),
    (str "baro_altitude_m", fieldAt state 7),
    (str "geo_altitude_m", fieldAt state 13),
    (str "velocity_mps", fieldAt state 9),
    (str "true_track_deg", fieldAt state 10),
    (str "vertical_rate_mps", fieldAt state 11),
    (str "on_ground", fieldAt state 8),
    (str "ingested_at", .str draw.now),
    (str "ingestion_id", .str ingestionId),
    (str "collector_id", .str collectorId) ]

section

variable {pg : Server} {env : Env} {host : Host} {collectorId : PyStr} {draw : Draw} {state : List PyVal}

theorem normalizeStateVector_typed (h : WellTyped pg state) {ingestionId : PyStr}
    (hid : host.computeIngestionId draw (str "opensky") (fieldAt state 0) (fieldAt state 4) = some ingestionId) :
    host.normalizeStateVector collectorId draw state =
      some (.dict (vectorDict collectorId draw ingestionId state)) := by
  have hget : ∀ i (hi : i < stateVectorFields.length), (PyVal.get? stateVectorFields[i]
      (stateVectorFields.zip state)).getD .none = fieldAt state i := fun i hi => field_zip state hi
  have h0 : getOrNone "icao24" (stateVectorFields.zip state) = fieldAt state 0 := hget 0 (by decide)
  have h1 : getOrNone "callsign" (stateVectorFields.zip state) = fieldAt state 1 := hget 1 (by decide)
  have h2 : getOrNone "origin_country" (stateVectorFields.zip state) = fieldAt state 2 := hget 2 (by decide)
  have h3 : getOrNone "time_position" (stateVectorFields.zip state) = fieldAt state 3 := hget 3 (by decide)
  have h4 : getOrNone "last_contact" (stateVectorFields.zip state) = fieldAt state 4 := hget 4 (by decide)
  have h5 : getOrNone "longitude" (stateVectorFields.zip state) = fieldAt state 5 := hget 5 (by decide)
  have h6 : getOrNone "latitude" (stateVectorFields.zip state) = fieldAt state 6 := hget 6 (by decide)
  have h7 : getOrNone "baro_altitude" (stateVectorFields.zip state) = fieldAt state 7 := hget 7 (by decide)
  have h8 : getOrNone "on_ground" (stateVectorFields.zip state) = fieldAt state 8 := hget 8 (by decide)
  have h9 : getOrNone "velocity" (stateVectorFields.zip state) = fieldAt state 9 := hget 9 (by decide)
  have h10 : getOrNone "true_track" (stateVectorFields.zip state) = fieldAt state 10 := hget 10 (by decide)
  have h11 : getOrNone "vertical_rate" (stateVectorFields.zip state) = fieldAt state 11 := hget 11 (by decide)
  have h13 : getOrNone "geo_altitude" (stateVectorFields.zip state) = fieldAt state 13 := hget 13 (by decide)
  unfold Host.normalizeStateVector vectorDict
  simp only [h0, h1, h2, h3, h4, h5, h6, h7, h8, h9, h10, h11, h13, cleanCallsign_typed (h.texts 1 (by simp)), hid,
    Option.bind_eq_bind, Option.bind_some]

theorem optional_str {v : PyVal} (h : v = .none ∨ ∃ s, v = .str s ∧ plain s) :
    optional validateStr v = .ok (asStr v) := by
  rcases h with rfl | ⟨s, rfl, -⟩ <;> rfl

theorem optional_int {v : PyVal} (h : v = .none ∨ ∃ n, v = .int n ∧ Server.inInt8 n ∧ (pg.toTimestamp n).isSome) :
    optional (validateInt env.lax) v = .ok (asInt v) := by
  rcases h with rfl | ⟨n, rfl, -, -⟩ <;> rfl

theorem optional_num {v : PyVal} (h : v = .none ∨ (asNum v).isSome)
    (hint : ∀ n, v = .int n → env.lax.toFloat (.int n) = .ok (.finite n)) :
    optional (validateFloat env.lax) v = .ok ((asNum v).map .finite) := by
  rcases h with rfl | h
  · rfl
  · cases v with
    | int n =>
      unfold Pydantic.optional validateFloat
      simp only [hint n rfl, converted, Validated.map, asNum, Option.map_some]
    | float x =>
      cases x with
      | finite q => rfl
      | nan => cases h
      | inf => cases h
      | negInf => cases h
    | none => cases h
    | bool b => cases h
    | str s => cases h
    | list items => cases h
    | dict items => cases h

theorem optional_bool {v : PyVal} (h : v = .none ∨ ∃ b, v = .bool b) :
    optional (validateBool env.lax) v = .ok (asBool v) := by
  rcases h with rfl | ⟨b, rfl⟩ <;> rfl

theorem modelValidate_vectorDict (h : WellTyped pg state)
    (hint : ∀ i ∈ measuredIndices, ∀ n, fieldAt state i = .int n → env.lax.toFloat (.int n) = .ok (.finite n))
    {icao24 : PyStr} (hicao : fieldAt state 0 = .str icao24) (ingestionId : PyStr) :
    TelemetryEvent.modelValidate env.lax (.dict (vectorDict collectorId draw ingestionId state)) =
      .ok (vectorEvent collectorId draw ingestionId icao24 state) := by
  have hnum : ∀ i ∈ measuredIndices, optional (validateFloat env.lax) (fieldAt state i) =
      .ok ((asNum (fieldAt state i)).map .finite) :=
    fun i hi => optional_num (h.numbers i hi) (hint i hi)
  unfold measuredIndices at hnum
  simp only [List.forall_mem_cons] at hnum
  obtain ⟨h5, h6, h7, h13, h9, h10, h11, -⟩ := hnum
  have h2 : optional validateStr (fieldAt state 2) = .ok (asStr (fieldAt state 2)) :=
    optional_str (h.texts 2 (by simp))
  have h3 : optional (validateInt env.lax) (fieldAt state 3) = .ok (asInt (fieldAt state 3)) :=
    optional_int (h.epochs 3 (by simp))
  have h4 : optional (validateInt env.lax) (fieldAt state 4) = .ok (asInt (fieldAt state 4)) :=
    optional_int (h.epochs 4 (by simp))
  have h8 : optional (validateBool env.lax) (fieldAt state 8) = .ok (asBool (fieldAt state 8)) :=
    optional_bool h.onGround
  have hcollector : optional validateStr (.str collectorId) = .ok (some collectorId) := rfl
  unfold TelemetryEvent.modelValidate validateModel TelemetryEvent.fields vectorDict vectorEvent
  simp [optionalField, defaulted, required, PyVal.get?, str_inj, validateStr, hicao, optional_validateStr, h2, h3, h4,
    h5, h6, h7, h8, h9, h10, h11, h13, hcollector, Validated.map]

/-! ## The row -/

theorem hasRepr_of_inInt8 {n : ℤ} (h : Server.inInt8 n) : hasRepr n := by
  unfold Server.inInt8 at h
  simp only [Bool.and_eq_true, decide_eq_true_eq] at h
  have habs : n.natAbs < 10 ^ 20 := by omega
  unfold hasRepr
  exact decide_eq_true (habs.trans_le (Nat.pow_le_pow_right (by decide) (by decide)))

theorem plain_append {s t : PyStr} : plain (s ++ t) ↔ plain s ∧ plain t := by
  unfold plain
  rw [List.all_append, Bool.and_eq_true]

theorem plain_intStr (n : ℤ) : plain (intStr n) := by
  have hnat : ∀ m, plain (natStr m) := by
    intro m
    unfold plain
    rw [List.all_eq_true]
    intro c hc
    have := mem_natStr hc
    unfold isHigh isLow
    simp only [Bool.and_eq_true, Bool.not_eq_true', Bool.and_eq_false_iff, decide_eq_false_iff_not,
      decide_eq_true_eq]
    omega
  cases n with
  | ofNat n => exact hnat n
  | negSucc n => exact (plain_append (s := [ofChar '-'])).mpr ⟨by decide, hnat (n + 1)⟩

theorem plain_trimBy {p : CodePoint → Bool} {s : PyStr} (h : plain s) : plain (trimBy p s) := by
  unfold plain at h ⊢
  rw [List.all_eq_true] at h ⊢
  exact fun c hc => h c (mem_of_mem_trimBy hc)

theorem ingestionId_typed (host : Host) (draw : Draw) (h : WellTyped pg state) : ∃ u : Uuid,
    host.computeIngestionId draw (str "opensky") (fieldAt state 0) (fieldAt state 4) = some (uuidStr u) := by
  obtain ⟨icao24, hicao, -, hplain⟩ := h.icao24
  rcases h.epochs 4 (by simp) with hnone | ⟨n, hn, hrange, -⟩
  · rw [hnone]
    exact ⟨draw.uuid4, rfl⟩
  · have hname : plain (observationName (str "opensky") icao24 n) := by
      unfold observationName
      simp only [plain_append, hplain, plain_intStr, and_true]
      decide
    obtain ⟨chars, hchars⟩ := Option.isSome_iff_exists.mp (toChar_of_plain hname)
    refine ⟨host.uuid5 chars, ?_⟩
    rw [hicao, hn]
    unfold Host.computeIngestionId Host.hashed
    simp only [identity_observation _ _ (hasRepr_of_inInt8 hrange), hchars, Option.bind_eq_bind, Option.bind_some]

theorem asStr_plain (h : WellTyped pg state) {i : ℕ} (hi : i ∈ [1, 2]) {s : PyStr}
    (hs : asStr (fieldAt state i) = some s) : plain s := by
  rcases h.texts i hi with hnone | ⟨s', hs', hplain⟩
  · rw [hnone] at hs
    cases hs
  · rw [hs'] at hs
    exact Option.some.inj hs ▸ hplain

theorem strippedCallsign_plain (h : WellTyped pg state) {s : PyStr}
    (hs : strippedCallsign (fieldAt state 1) = some s) : plain s := by
  obtain ⟨raw, hraw, hs⟩ := Option.bind_eq_some_iff.mp hs
  split at hs
  · cases hs
  · rw [← Option.some.inj hs]
    exact plain_trimBy (asStr_plain h (by simp) hraw)

theorem asInt_inRange (h : WellTyped pg state) {i : ℕ} (hi : i ∈ [3, 4]) : InRange pg (asInt (fieldAt state i)) := by
  intro n hn
  rcases h.epochs i hi with hnone | ⟨m, hm, hrange⟩
  · rw [hnone] at hn
    cases hn
  · rw [hm] at hn
    exact Option.some.inj hn ▸ hrange

theorem measurements_vectorEvent (ingestionId icao24 : PyStr) : measurements
    (vectorEvent collectorId draw ingestionId icao24 state) =
      measuredIndices.map fun i => (asNum (fieldAt state i)).map .finite := rfl

theorem vectorEvent_bindable (h : WellTyped pg state) {icao24 : PyStr} (hicao : plain icao24) {u : Uuid}
    (hnow : (env.parseTimestamptz draw.now).isSome) (hcollector : plain collectorId) :
    BindableEvent env (vectorEvent collectorId draw (uuidStr u) icao24 state) where
  ingestionId := by
    unfold vectorEvent
    rw [parseUuid_uuidStr]
    rfl
  ingestedAt := hnow
  source := show plain (str "opensky") by decide
  icao24 := hicao
  collectorId := fun s hs => Option.some.inj hs ▸ hcollector
  callsign := fun s hs => paired_of_plain (strippedCallsign_plain h hs)
  originCountry := fun s hs => paired_of_plain (asStr_plain h (by simp) hs)
  timePosition := fun n hn => hasRepr_of_inInt8 (asInt_inRange h (by simp) n hn).1
  lastContact := fun n hn => hasRepr_of_inInt8 (asInt_inRange h (by simp) n hn).1
  measurements := by
    intro x hx
    rw [measurements_vectorEvent] at hx
    obtain ⟨i, -, hi⟩ := List.mem_map.mp hx
    obtain ⟨q, -, hq⟩ := Option.map_eq_some_iff.mp hi
    exact ⟨q, hq.symm⟩

/-! ## The columns -/

/-- `on_ground` as the worker stores it. -/
def groundOf (e : TelemetryEvent) : Option Bool :=
  match e.onGround, e.baroAltitudeM with
  | none, some altitude => some (notPositive altitude)
  | ground, _ => ground

theorem normalizeEvent_eq (e : TelemetryEvent) : normalizeEvent e = { e with onGround := groundOf e } := by
  obtain ⟨_, _, _, _, _, _, _, _, baro, _, _, _, _, ground, _, _, _⟩ := e
  cases ground <;> cases baro <;> rfl

theorem nullIfEmpty_trim {s : PyStr} {t : Text} (h : encodeText s = some t) :
    nullIfEmpty (some t.trim) = nonBlank (trimBy (fun c => c = space) s) := by
  have hs := encodeText_eq_some.mp h
  have hspace : ∀ c : Char, (ofChar c = space) = (c = ' ') := by
    intro c
    exact propext ⟨fun hc => ofChar_injective hc, fun hc => hc ▸ rfl⟩
  have htrim : trimBy (fun c => c = space) s = t.trim.chars.map ofChar := by
    rw [hs, trimBy_map]
    simp only [hspace]
    rfl
  have hcode : encodeText (t.trim.chars.map ofChar) = some t.trim := encodeText_eq_some.mpr rfl
  rw [htrim]
  unfold nullIfEmpty nonBlank
  rw [hcode]
  simp only [List.map_eq_nil_iff]

/-- The space is one of the characters that Python strips. -/
theorem trim_strip (s : PyStr) : trimBy (fun c => c = space) (strip s) = strip s := by
  apply trimBy_trimBy
  intro c hc
  rw [of_decide_eq_true hc]
  decide

theorem cleanedText_value {x : Option PyStr} {j : Jsonb} (h : jsonOf (dumpOption .str x) = some j)
    (hx : ∀ s, x = some s → plain s) :
    cleanedText pg (some j) = x.bind fun s => nonBlank (trimBy (fun c => c = space) s) := by
  unfold cleanedText
  rw [text_value h hx]
  cases x with
  | none => rfl
  | some s =>
    obtain ⟨t, ht⟩ := Option.isSome_iff_exists.mp (encodeText_isSome.mpr (hx s rfl))
    rw [Option.bind_some, ht, Option.map_some, nullIfEmpty_trim ht, Option.bind_some]

theorem callsign_column (v : PyVal) :
    ((strippedCallsign v).bind fun s => nonBlank (trimBy (fun c => c = space) s)) =
      (asStr v).bind fun raw => nonBlank (strip raw) := by
  unfold strippedCallsign
  cases asStr v with
  | none => rfl
  | some raw =>
    by_cases hraw : raw = []
    · subst hraw
      rfl
    · simp only [Option.bind_some, hraw, if_false, trim_strip]

theorem ground_column (ingestionId icao24 : PyStr) :
    groundOf (vectorEvent collectorId draw ingestionId icao24 state) =
      match asBool (fieldAt state 8), asNum (fieldAt state 7) with
      | some b, _ => some b
      | none, some altitude => some (altitude ≤ 0)
      | none, none => none := by
  unfold groundOf vectorEvent
  dsimp only
  cases asBool (fieldAt state 8) <;> cases asNum (fieldAt state 7) <;> rfl

/-- The event as the worker stores it. -/
def storedEvent (collectorId : PyStr) (draw : Draw) (ingestionId icao24 : PyStr) (state : List PyVal) :
    TelemetryEvent :=
  { vectorEvent collectorId draw ingestionId icao24 state with
    onGround := groundOf (vectorEvent collectorId draw ingestionId icao24 state) }

section

variable {ingestionId icao24 : PyStr} {now : Timestamptz} {row : Row} {r : DbRow}
  (hrow : eventToRow (storedEvent collectorId draw ingestionId icao24 state) = some row)
  (hr : BoundAs env now row r)
  (hdouble : ∀ i ∈ measuredIndices, ∀ q, asNum (fieldAt state i) = some q → pg.toDouble q = some (.finite q))

include hrow hr hdouble

theorem casts_typed (h : WellTyped pg state) : Casts pg (sourceRow r) := by
  refine (casts_iff hrow hr fun q hq => ?_).mpr ⟨asInt_inRange h (by simp), asInt_inRange h (by simp)⟩
  have hmem : some (.finite q) ∈ measurements (vectorEvent collectorId draw ingestionId icao24 state) := hq
  rw [measurements_vectorEvent] at hmem
  obtain ⟨i, hi, heq⟩ := List.mem_map.mp hmem
  obtain ⟨q', hnum, heq'⟩ := Option.map_eq_some_iff.mp heq
  obtain rfl : q' = q := PyFloat.finite.inj heq'
  rw [hdouble i hi q' hnum]
  rfl

theorem measured_column {k : String} {i : ℕ} (hi : i ∈ measuredIndices)
    (hmem : (k, dumpOption .float ((asNum (fieldAt state i)).map .finite)) ∈
      eventFields.zip (dumpedValues (storedEvent collectorId draw ingestionId icao24 state)))
    (hk : nulFree k.toList) :
    pg.double ((sourceRow r).payload.get (.lit k hk)) = some ((asNum (fieldAt state i)).map .finite) := by
  obtain ⟨j, hj, hget⟩ := stored_get hrow hr hmem hk
  rw [hget, double_value hj]
  intro q hq
  obtain ⟨q', hnum, heq⟩ := Option.map_eq_some_iff.mp hq
  obtain rfl : q' = q := PyFloat.finite.inj heq
  exact hdouble i hi q' hnum

theorem measured_columns : measurementKeys.map (fun k => pg.double ((sourceRow r).payload.get k)) =
    (measuredIndices.map fun i => (asNum (fieldAt state i)).map .finite).map some := by
  have hcolumn : ∀ (k : String) (i : ℕ), i ∈ measuredIndices →
      (k, dumpOption .float ((asNum (fieldAt state i)).map .finite)) ∈
        eventFields.zip (dumpedValues (storedEvent collectorId draw ingestionId icao24 state)) →
      ∀ hk, pg.double ((sourceRow r).payload.get (.lit k hk)) = some ((asNum (fieldAt state i)).map .finite) :=
    fun k i hi hmem hk => measured_column hrow hr hdouble hi hmem hk
  unfold measurementKeys measuredIndices
  simp only [List.map_cons, List.map_nil, List.cons.injEq, and_true]
  refine ⟨?_, ?_, ?_, ?_, ?_, ?_, ?_⟩
  · exact hcolumn _ 5 (by decide) (by simp [eventFields, dumpedValues, storedEvent, vectorEvent]) _
  · exact hcolumn _ 6 (by decide) (by simp [eventFields, dumpedValues, storedEvent, vectorEvent]) _
  · exact hcolumn _ 7 (by decide) (by simp [eventFields, dumpedValues, storedEvent, vectorEvent]) _
  · exact hcolumn _ 13 (by decide) (by simp [eventFields, dumpedValues, storedEvent, vectorEvent]) _
  · exact hcolumn _ 9 (by decide) (by simp [eventFields, dumpedValues, storedEvent, vectorEvent]) _
  · exact hcolumn _ 10 (by decide) (by simp [eventFields, dumpedValues, storedEvent, vectorEvent]) _
  · exact hcolumn _ 11 (by decide) (by simp [eventFields, dumpedValues, storedEvent, vectorEvent]) _

theorem decoded_of_stored (h : WellTyped pg state) (hicao : fieldAt state 0 = .str icao24) :
    ∃ s, stgRow pg (sourceRow r) = some s ∧ Decoded pg state s := by
  obtain ⟨s, hs⟩ := Option.isSome_iff_exists.mp (stgRow_isSome.mpr (casts_typed hrow hr hdouble h))
  obtain ⟨-, -, hsicao, hscall, hsorigin, hstime, hscontact, hsmeasured, hsground, -⟩ := stgRow_spec hs
  refine ⟨s, hs, ?_, ?_, ?_, ?_, ?_, ?_, ?_⟩
  · refine ⟨icao24, (sourceRow r).icao24, hicao, ?_, hsicao⟩
    have hcode := hr.icao24
    rw [(eventToRow_texts hrow).2] at hcode
    exact hcode
  · obtain ⟨j, hj, hget⟩ := stored_get hrow hr (k := "callsign")
      (v := dumpOption .str (strippedCallsign (fieldAt state 1)))
      (by simp [eventFields, dumpedValues, storedEvent, vectorEvent]) (by decide)
    rw [hscall, hget, cleanedText_value hj fun _ => strippedCallsign_plain h, callsign_column]
  · obtain ⟨j, hj, hget⟩ := stored_get hrow hr (k := "origin_country")
      (v := dumpOption .str (asStr (fieldAt state 2)))
      (by simp [eventFields, dumpedValues, storedEvent, vectorEvent]) (by decide)
    rw [hsorigin, hget, cleanedText_value hj fun _ => asStr_plain h (by simp)]
  · obtain ⟨j, hj, hget⟩ := stored_get hrow hr (k := "time_position")
      (v := dumpOption .int (asInt (fieldAt state 3)))
      (by simp [eventFields, dumpedValues, storedEvent, vectorEvent]) (by decide)
    rw [hget, epoch_value hj (asInt_inRange h (by simp)), Option.some.injEq] at hstime
    exact hstime.symm
  · obtain ⟨j, hj, hget⟩ := stored_get hrow hr (k := "last_contact")
      (v := dumpOption .int (asInt (fieldAt state 4)))
      (by simp [eventFields, dumpedValues, storedEvent, vectorEvent]) (by decide)
    rw [hget, epoch_value hj (asInt_inRange h (by simp)), Option.some.injEq] at hscontact
    exact hscontact.symm
  · rw [measured_columns hrow hr hdouble] at hsmeasured
    exact (List.map_injective_iff.mpr (Option.some_injective _) hsmeasured).symm
  · obtain ⟨j, hj, hget⟩ := stored_get hrow hr (k := "on_ground")
      (v := dumpOption .bool (groundOf (vectorEvent collectorId draw ingestionId icao24 state)))
      (by simp [eventFields, dumpedValues, storedEvent]) (by decide)
    rw [hget, boolean_json hj, Option.some.injEq] at hsground
    rw [← hsground, ground_column]

end

/-- Every well-typed state vector is accepted, and the view has each of its fields in the column of that field. -/
theorem staging_decodes (pg : Server) (env : Env) (host : Host) (collectorId : PyStr) (draw : Draw)
    (now : Timestamptz) (state : List PyVal) (h : WellTyped pg state)
    (hint : ∀ i ∈ measuredIndices, ∀ n, fieldAt state i = .int n → env.lax.toFloat (.int n) = .ok (.finite n))
    (hdouble : ∀ i ∈ measuredIndices, ∀ q, asNum (fieldAt state i) = some q → pg.toDouble q = some (.finite q))
    (hnow : (env.parseTimestamptz draw.now).isSome) (hcollector : plain collectorId) :
    ∃ r s, encoded env host collectorId draw now state = some r ∧ stgRow pg (sourceRow r) = some s ∧
      Decoded pg state s := by
  obtain ⟨icao24, hicao, -, hplain⟩ := h.icao24
  obtain ⟨u, hid⟩ := ingestionId_typed host draw h
  obtain ⟨row, hrow, hbound⟩ := (bindable_iff now).mpr
    (bindableEvent_normalize (vectorEvent_bindable h hplain (u := u) hnow hcollector))
  obtain ⟨r, hr⟩ := Option.isSome_iff_exists.mp hbound
  obtain ⟨s, hs, hdecoded⟩ := decoded_of_stored (normalizeEvent_eq _ ▸ hrow) (bindRow_spec hr) hdouble h hicao
  refine ⟨r, s, ?_, hs, hdecoded⟩
  unfold encoded
  simp only [normalizeStateVector_typed h hid, modelValidate_vectorDict h hint hicao, validated, hrow, hr,
    Option.bind_eq_bind, Option.bind_some]

end

/-- Integers are taken for floats too. -/
def numericEnv : Env :=
  { sampleEnv with
    lax :=
      { Lax.strict with
        toFloat := fun
          | .int n => .ok (.finite n)
          | _ => .error .floatType } }

/-- Nine fields: upper case, blanks around the texts, and an altitude below zero without `on_ground`. -/
def sampleState : List PyVal :=
  [.str (str "4B1814 "), .str (str " SWR12\n"), .str (str "   "), .none, .int 1787738400, .float (.finite (17 / 2)),
    .int 47, .float (.finite (-1 / 4)), .none]

theorem sampleState_typed : WellTyped sampleServer sampleState where
  icao24 := ⟨_, rfl, by decide, by decide⟩
  texts := by
    simp only [List.forall_mem_cons]
    exact ⟨.inr ⟨_, rfl, by decide⟩, .inr ⟨_, rfl, by decide⟩, by simp⟩
  epochs := by
    simp only [List.forall_mem_cons]
    exact ⟨.inl rfl, .inr ⟨1787738400, rfl, by decide, rfl⟩, by simp⟩
  numbers := by
    unfold measuredIndices
    simp only [List.forall_mem_cons]
    exact ⟨.inr rfl, .inr rfl, .inr rfl, .inl rfl, .inl rfl, .inl rfl, .inl rfl, by simp⟩
  onGround := .inl rfl

theorem staging_decodes_sample : ∃ r s,
    encoded numericEnv sampleHost (str "collector-1") ⟨str "2026-08-26T10:00:00Z", sampleUuid⟩ (.at 0) sampleState =
      some r ∧ stgRow sampleServer (sourceRow r) = some s ∧ Decoded sampleServer sampleState s :=
  staging_decodes sampleServer numericEnv sampleHost (str "collector-1") ⟨str "2026-08-26T10:00:00Z", sampleUuid⟩
    (.at 0) sampleState sampleState_typed (fun _ _ _ _ => rfl) (fun _ _ _ _ => rfl) (by decide +kernel) (by decide)

/-! ## A number that is no float -/

/-- `float()` of an integer and the input of `double precision`: the nearest binary64 number. -/
def roundingEnv : Env :=
  { sampleEnv with
    lax :=
      { Lax.strict with
        toFloat := fun
          | .int n => .ok (.finite (Rounding.binary64 n))
          | _ => .error .floatType } }

def roundingServer : Server := { sampleServer with toDouble := fun q => some (.finite (Rounding.binary64 q)) }

/-- Its longitude is the first integer that no float is. -/
def oddState : List PyVal := [.str (str "4b1814"), .none, .none, .none, .none, .int (2 ^ 53 + 1)]

theorem oddState_typed : WellTyped roundingServer oddState where
  icao24 := ⟨_, rfl, by decide, by decide⟩
  texts := by
    simp only [List.forall_mem_cons]
    exact ⟨.inl rfl, .inl rfl, by simp⟩
  epochs := by
    simp only [List.forall_mem_cons]
    exact ⟨.inl rfl, .inl rfl, by simp⟩
  numbers := by
    unfold measuredIndices
    simp only [List.forall_mem_cons]
    exact ⟨.inr rfl, .inl rfl, .inl rfl, .inl rfl, .inl rfl, .inl rfl, .inl rfl, by simp⟩
  onGround := .inl rfl

theorem staging_rounds_longitude : WellTyped roundingServer oddState ∧
    ¬ ∃ r s, encoded roundingEnv sampleHost (str "collector-1") ⟨str "2026-08-26T10:00:00Z", sampleUuid⟩ (.at 0)
      oddState = some r ∧ stgRow roundingServer (sourceRow r) = some s ∧ Decoded roundingServer oddState s := by
  refine ⟨oddState_typed, ?_⟩
  rintro ⟨r, s, hr, hs, hdecoded⟩
  have hstored : ((encoded roundingEnv sampleHost (str "collector-1") ⟨str "2026-08-26T10:00:00Z", sampleUuid⟩ (.at 0)
      oddState).bind fun r => (stgRow roundingServer (sourceRow r)).map StgRow.longitude) =
      some (some (.finite (2 ^ 53))) := by
    decide +kernel
  rw [hr, Option.bind_some, hs, Option.map_some, Option.some.injEq] at hstored
  have hfield : s.longitude = some (.finite (2 ^ 53 + 1)) := by
    have hcolumns := (List.cons.inj hdecoded.measurements).1
    rw [hcolumns]
    decide +kernel
  rw [hstored] at hfield
  revert hfield
  decide +kernel

end FlightPulse.Analytics
