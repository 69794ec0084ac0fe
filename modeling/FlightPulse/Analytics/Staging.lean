import FlightPulse.Lib.Casts
import FlightPulse.Worker.Persistence

/-!
# The staging view (`staging/stg_opensky_states.sql`)

One row of `raw_telemetry`, with the measurements of its payload in columns. A
query over the view fails as a whole when a cast of one row does.
-/

open Lib Lib.Python Lib.Postgres

namespace FlightPulse.Analytics

open Worker

/-- A row of `raw_telemetry`. `processed_at` was added later, so it may be null. -/
structure SourceRow where
  ingestionId : Uuid
  source : Text
  icao24 : Text
  collectorId : Option Text
  payload : Jsonb
  receivedAt : Timestamptz
  ingestedAt : Timestamptz
  processedAt : Option Timestamptz

/-- A row as the worker stores it. -/
def sourceRow (r : DbRow) : SourceRow where
  ingestionId := r.ingestionId
  source := r.source
  icao24 := r.icao24
  collectorId := r.collectorId
  payload := r.payload
  receivedAt := r.receivedAt
  ingestedAt := r.ingestedAt
  processedAt := some r.processedAt

structure StgRow where
  ingestionId : Uuid
  source : Text
  icao24 : Text
  collectorId : Option Text
  callsign : Option Text
  originCountry : Option Text
  timePositionAt : Option Timestamptz
  lastContactAt : Option Timestamptz
  longitude : Option Double
  latitude : Option Double
  baroAltitudeM : Option Double
  geoAltitudeM : Option Double
  velocityMps : Option Double
  trueTrackDeg : Option Double
  verticalRateMps : Option Double
  onGround : Option Bool
  receivedAt : Timestamptz
  ingestedAt : Timestamptz
  processedAt : Option Timestamptz

variable (pg : Server)

/-- `lower(trim(icao24_raw))`. -/
def stagedIcao24 (icao24Raw : Text) : Text := pg.lower icao24Raw.trim

/-- `nullif(trim(payload ->> 'key'), '')`. -/
def cleanedText (j : Option Jsonb) : Option Text := nullIfEmpty ((pg.text j).map Text.trim)

def stgRow (r : SourceRow) : Option StgRow := do
  let timePositionAt ← pg.epoch (r.payload.get (.lit "time_position"))
  let lastContactAt ← pg.epoch (r.payload.get (.lit "last_contact"))
  let longitude ← pg.double (r.payload.get (.lit "longitude"))
  let latitude ← pg.double (r.payload.get (.lit "latitude"))
  let baroAltitudeM ← pg.double (r.payload.get (.lit "baro_altitude_m"))
  let geoAltitudeM ← pg.double (r.payload.get (.lit "geo_altitude_m"))
  let velocityMps ← pg.double (r.payload.get (.lit "velocity_mps"))
  let trueTrackDeg ← pg.double (r.payload.get (.lit "true_track_deg"))
  let verticalRateMps ← pg.double (r.payload.get (.lit "vertical_rate_mps"))
  let onGround ← pg.boolean (r.payload.get (.lit "on_ground"))
  some
    { ingestionId := r.ingestionId
      source := r.source
      icao24 := stagedIcao24 pg r.icao24
      collectorId := r.collectorId
      callsign := cleanedText pg (r.payload.get (.lit "callsign"))
      originCountry := cleanedText pg (r.payload.get (.lit "origin_country"))
      timePositionAt := timePositionAt
      lastContactAt := lastContactAt
      longitude := longitude
      latitude := latitude
      baroAltitudeM := baroAltitudeM
      geoAltitudeM := geoAltitudeM
      velocityMps := velocityMps
      trueTrackDeg := trueTrackDeg
      verticalRateMps := verticalRateMps
      onGround := onGround
      receivedAt := r.receivedAt
      ingestedAt := r.ingestedAt
      processedAt := r.processedAt }

/-- Both coordinates of the row are there. -/
def hasPosition (r : SourceRow) : Bool :=
  match pg.double (r.payload.get (.lit "latitude")), pg.double (r.payload.get (.lit "longitude")) with
  | some latitude, some longitude => latitude.isSome && longitude.isSome
  | _, _ => false

/-- The view, over the whole table. -/
def stgOpenskyStates (rawTelemetry : List SourceRow) : Option (List StgRow) := rawTelemetry.mapM (stgRow pg)

/-! ## When the view can be read -/

def measurementKeys : List Text :=
  [.lit "longitude", .lit "latitude", .lit "baro_altitude_m", .lit "geo_altitude_m", .lit "velocity_mps",
    .lit "true_track_deg", .lit "vertical_rate_mps"]

/-- Every cast of the row has a value. -/
structure Casts (r : SourceRow) : Prop where
  timePosition : (pg.epoch (r.payload.get (.lit "time_position"))).isSome
  lastContact : (pg.epoch (r.payload.get (.lit "last_contact"))).isSome
  measurements : ∀ k ∈ measurementKeys, (pg.double (r.payload.get k)).isSome
  onGround : (pg.boolean (r.payload.get (.lit "on_ground"))).isSome

variable {pg}

theorem stgRow_spec {r : SourceRow} {s : StgRow} (h : stgRow pg r = some s) :
    s.ingestionId = r.ingestionId ∧ s.source = r.source ∧ s.icao24 = stagedIcao24 pg r.icao24 ∧
      s.callsign = cleanedText pg (r.payload.get (.lit "callsign")) ∧
      s.originCountry = cleanedText pg (r.payload.get (.lit "origin_country")) ∧
      pg.epoch (r.payload.get (.lit "time_position")) = some s.timePositionAt ∧
      pg.epoch (r.payload.get (.lit "last_contact")) = some s.lastContactAt ∧
      measurementKeys.map (fun k => pg.double (r.payload.get k)) =
        [s.longitude, s.latitude, s.baroAltitudeM, s.geoAltitudeM, s.velocityMps, s.trueTrackDeg,
          s.verticalRateMps].map some ∧
      pg.boolean (r.payload.get (.lit "on_ground")) = some s.onGround ∧ s.processedAt = r.processedAt := by
  unfold stgRow at h
  simp only [Option.bind_eq_bind, Option.bind_eq_some_iff, Option.some.injEq] at h
  obtain ⟨_, h1, _, h2, _, h3, _, h4, _, h5, _, h6, _, h7, _, h8, _, h9, _, h10, rfl⟩ := h
  refine ⟨rfl, rfl, rfl, rfl, rfl, h1, h2, ?_, h10, rfl⟩
  unfold measurementKeys
  simp only [List.map_cons, List.map_nil, h3, h4, h5, h6, h7, h8, h9]

theorem stgRow_measured {r : SourceRow} {s : StgRow} (h : stgRow pg r = some s) :
    pg.double (r.payload.get (.lit "longitude")) = some s.longitude ∧
      pg.double (r.payload.get (.lit "latitude")) = some s.latitude ∧
      pg.double (r.payload.get (.lit "baro_altitude_m")) = some s.baroAltitudeM ∧
      pg.double (r.payload.get (.lit "geo_altitude_m")) = some s.geoAltitudeM ∧
      pg.double (r.payload.get (.lit "velocity_mps")) = some s.velocityMps := by
  obtain ⟨-, -, -, -, -, -, -, hmeasured, -⟩ := stgRow_spec h
  unfold measurementKeys at hmeasured
  simp only [List.map_cons, List.cons.injEq] at hmeasured
  obtain ⟨hlongitude, hlatitude, hbaro, hgeo, hvelocity, -⟩ := hmeasured
  exact ⟨hlongitude, hlatitude, hbaro, hgeo, hvelocity⟩

theorem stgRow_isSome {r : SourceRow} : (stgRow pg r).isSome ↔ Casts pg r := by
  constructor
  · intro h
    obtain ⟨s, hs⟩ := Option.isSome_iff_exists.mp h
    obtain ⟨-, -, -, -, -, htime, hcontact, hmeasured, hground, -⟩ := stgRow_spec hs
    refine ⟨by rw [htime]; rfl, by rw [hcontact]; rfl, fun k hk => ?_, by rw [hground]; rfl⟩
    have hmem : pg.double (r.payload.get k) ∈ measurementKeys.map fun k => pg.double (r.payload.get k) :=
      List.mem_map_of_mem hk
    rw [hmeasured] at hmem
    obtain ⟨x, -, hx⟩ := List.mem_map.mp hmem
    rw [← hx]
    rfl
  · intro h
    have hmeasured := h.measurements
    unfold measurementKeys at hmeasured
    simp only [List.forall_mem_cons, Option.isSome_iff_exists] at hmeasured
    obtain ⟨⟨_, h3⟩, ⟨_, h4⟩, ⟨_, h5⟩, ⟨_, h6⟩, ⟨_, h7⟩, ⟨_, h8⟩, ⟨_, h9⟩, -⟩ := hmeasured
    obtain ⟨_, h1⟩ := Option.isSome_iff_exists.mp h.timePosition
    obtain ⟨_, h2⟩ := Option.isSome_iff_exists.mp h.lastContact
    obtain ⟨_, h10⟩ := Option.isSome_iff_exists.mp h.onGround
    unfold stgRow
    simp only [h1, h2, h3, h4, h5, h6, h7, h8, h9, h10, Option.bind_eq_bind, Option.bind_some, Option.isSome_some]

theorem view_isSome {rawTelemetry : List SourceRow} :
    (stgOpenskyStates pg rawTelemetry).isSome ↔ ∀ r ∈ rawTelemetry, Casts pg r := by
  unfold stgOpenskyStates
  simp only [mapM_isSome, stgRow_isSome]

end FlightPulse.Analytics
