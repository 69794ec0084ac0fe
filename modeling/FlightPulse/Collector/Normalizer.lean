import FlightPulse.Lib.Postgres
import FlightPulse.Lib.Strings

/-!
# From state vectors to events (`collector/normalizer.py`)

OpenSky answers with one array of positional fields for each aircraft. An event
gets its `ingestion_id` from the text of its source, `icao24` and `last_contact`.
-/

open Lib.Python Lib.Postgres

namespace FlightPulse.Collector

def stateVectorFields : List PyStr :=
  ["icao24", "callsign", "origin_country", "time_position", "last_contact", "longitude", "latitude",
    "baro_altitude", "on_ground", "velocity", "true_track", "vertical_rate", "sensors", "geo_altitude", "squawk",
    "spi", "position_source"].map str

/-- What the collector relies on outside of its source. -/
structure Host where
  /-- `repr` of a float or of a container. -/
  repr : PyVal → Option PyStr
  /-- `uuid.uuid5(_INGESTION_ID_NAMESPACE, name)`. -/
  uuid5 : List Char → Uuid

/-- The clock and `uuid.uuid4()`, as one state vector meets them. -/
structure Draw where
  now : PyStr
  uuid4 : Uuid

/-! ## One state vector -/

/-- Only a string can be stripped. -/
def cleanCallsign (raw : PyVal) : Option PyVal :=
  if truthy raw then
    match raw with
    | .str s => some (.str (strip s))
    | _ => none
  else some .none

namespace Host

variable (host : Host)

/-- The parts as one f-string, with a colon between them. -/
def identity (parts : List PyVal) : Option PyStr :=
  (parts.mapM (strOf host.repr)).map (List.intercalate (str ":"))

/-- The name goes to `uuid5` in UTF-8, so it must not have a surrogate. -/
def hashed (parts : List PyVal) : Option PyStr := do
  let name ← host.identity parts
  let chars ← name.mapM toChar?
  some (uuidStr (host.uuid5 chars))

def computeIngestionId (draw : Draw) (source : PyStr) (icao24 lastContact : PyVal) : Option PyStr :=
  match lastContact with
  | .none => some (uuidStr draw.uuid4)
  | _ => host.hashed [.str source, icao24, lastContact]

end Host

/-- `d.get(key)`, with `None` for a key that is not there. -/
def getOrNone (key : String) (d : List (PyStr × PyVal)) : PyVal := (PyVal.get? (str key) d).getD .none

namespace Host

variable (host : Host) (collectorId : PyStr)

def normalizeStateVector (draw : Draw) (state : List PyVal) : Option PyVal := do
  let fields := stateVectorFields.zip state
  let source := str "opensky"
  let icao24 := getOrNone "icao24" fields
  let lastContact := getOrNone "last_contact" fields
  let callsign ← cleanCallsign (getOrNone "callsign" fields)
  let ingestionId ← host.computeIngestionId draw source icao24 lastContact
  some <| .dict
    [ (str "source", .str source),
      (str "icao24", icao24),
      (str "callsign", callsign),
      (str "origin_country", getOrNone "origin_country" fields),
      (str "time_position", getOrNone "time_position" fields),
      (str "last_contact", lastContact),
      (str "longitude", getOrNone "longitude" fields),
      (str "latitude", getOrNone "latitude" fields),
      (str "baro_altitude_m", getOrNone "baro_altitude" fields),
      (str "geo_altitude_m", getOrNone "geo_altitude" fields),
      (str "velocity_mps", getOrNone "velocity" fields),
      (str "true_track_deg", getOrNone "true_track" fields),
      (str "vertical_rate_mps", getOrNone "vertical_rate" fields),
      (str "on_ground", getOrNone "on_ground" fields),
      (str "ingested_at", .str draw.now),
      (str "ingestion_id", .str ingestionId),
      (str "collector_id", .str collectorId) ]

end Host

/-! ## A whole response -/

/-- What `for x in v` goes through; `none` is a TypeError. -/
def iterate : PyVal → Option (List PyVal)
  | .list items => some items
  | .str s => some (s.map fun c => .str [c])
  | .dict items => some (items.map fun p => .str p.1)
  | _ => none

/-- `v[0]`; the keys of a JSON object are strings, so there it is a KeyError. -/
def first : PyVal → Option PyVal
  | .list items => items.head?
  | .str s => s.head?.map fun c => .str [c]
  | _ => none

namespace Host

variable (host : Host) (collectorId : PyStr) (draws : ℕ → Draw)

/-- The loop of `normalize_batch` from state `i` on. -/
def normalizeStates : ℕ → List PyVal → Option (List PyVal)
  | _, [] => some []
  | i, state :: states =>
    if truthy state then do
      let icao24 ← first state
      if truthy icao24 then do
        let items ← iterate state
        let event ← host.normalizeStateVector collectorId (draws i) items
        let events ← normalizeStates (i + 1) states
        some (event :: events)
      else normalizeStates (i + 1) states
    else normalizeStates (i + 1) states

def normalizeBatch (openskyResponse : PyVal) : Option (List PyVal) :=
  match openskyResponse with
  | .dict response =>
    let states := getOrNone "states" response
    if truthy states then (iterate states).bind (host.normalizeStates collectorId draws 0) else some []
  | _ => none

end Host

/-! ## What an event says -/

variable {host : Host} {collectorId : PyStr}

/-- The text that the id of an observation is hashed from. -/
def observationName (source icao24 : PyStr) (lastContact : ℤ) : PyStr :=
  source ++ str ":" ++ icao24 ++ str ":" ++ intStr lastContact

theorem identity_observation (source icao24 : PyStr) {n : ℤ} (hn : hasRepr n) :
    host.identity [.str source, .str icao24, .int n] = some (observationName source icao24 n) := by
  unfold Host.identity observationName
  simp only [List.mapM_cons, List.mapM_nil, strOf, hn, if_true, Option.pure_def, Option.bind_eq_bind,
    Option.bind_some, Option.map_some, List.intercalate, List.intersperse, List.flatten_cons, List.flatten_nil,
    List.append_nil, List.append_assoc]

/-- Text that a column accepts can be hashed. -/
theorem toChar_of_plain {s : PyStr} (h : plain s) : (s.mapM toChar?).isSome := by
  rw [mapM_isSome]
  unfold plain at h
  intro c hc
  have hall := List.all_eq_true.mp h c hc
  simp only [Bool.and_eq_true, Bool.not_eq_true'] at hall
  unfold toChar?
  simp [hall.1.2, hall.2]

theorem exists_state_of_mem {draws : ℕ → Draw} {i : ℕ} {states events : List PyVal}
    (h : host.normalizeStates collectorId draws i states = some events) {event : PyVal} (he : event ∈ events) :
    ∃ state ∈ states, ∃ draw items, (∃ icao24, first state = some icao24 ∧ truthy icao24) ∧
      iterate state = some items ∧ host.normalizeStateVector collectorId draw items = some event := by
  fun_induction Host.normalizeStates host collectorId draws i states generalizing events with
  | case1 =>
    cases h
    cases he
  | case2 i state states hstate ih =>
    simp only [Option.bind_eq_bind, Option.bind_eq_some_iff] at h
    obtain ⟨icao24, hfirst, h⟩ := h
    split at h
    · next htruthy =>
      simp only [Option.bind_eq_some_iff, Option.some.injEq] at h
      obtain ⟨items, hitems, e, hevent, events', hevents, rfl⟩ := h
      rcases List.mem_cons.mp he with rfl | he
      · exact ⟨state, List.mem_cons_self, draws i, items, ⟨icao24, hfirst, htruthy⟩, hitems, hevent⟩
      · obtain ⟨s, hs, hrest⟩ := ih hevents he
        exact ⟨s, List.mem_cons_of_mem _ hs, hrest⟩
    · obtain ⟨s, hs, hrest⟩ := ih h he
      exact ⟨s, List.mem_cons_of_mem _ hs, hrest⟩
  | case3 i state states hstate ih =>
    obtain ⟨s, hs, hrest⟩ := ih h he
    exact ⟨s, List.mem_cons_of_mem _ hs, hrest⟩

/-! ## A sample -/

def sampleUuid : Uuid := ⟨List.replicate 32 0, rfl⟩

def sampleHost : Host := ⟨fun _ => none, fun _ => sampleUuid⟩

end FlightPulse.Collector
