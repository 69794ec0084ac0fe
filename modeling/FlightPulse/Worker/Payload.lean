import FlightPulse.Worker.Admissible

/-!
# The payload column

`payload` is the dumped event as jsonb. A field of the event is found there under
its own name.
-/

open Lib Lib.Python Lib.Pydantic Lib.Postgres

namespace FlightPulse.Worker

open Ingestion

variable {env : Env} {now : Timestamptz} {e : TelemetryEvent} {row : Row} {r : DbRow}

def eventFields : List String :=
  ["source", "icao24", "callsign", "origin_country", "time_position", "last_contact", "longitude", "latitude",
    "baro_altitude_m", "geo_altitude_m", "velocity_mps", "true_track_deg", "vertical_rate_mps", "on_ground",
    "ingested_at", "ingestion_id", "collector_id"]

def dumpedValues (e : TelemetryEvent) : List PyVal :=
  [.str e.source, .str e.icao24, dumpOption .str e.callsign, dumpOption .str e.originCountry,
    dumpOption .int e.timePosition, dumpOption .int e.lastContact, dumpOption .float e.longitude,
    dumpOption .float e.latitude, dumpOption .float e.baroAltitudeM, dumpOption .float e.geoAltitudeM,
    dumpOption .float e.velocityMps, dumpOption .float e.trueTrackDeg, dumpOption .float e.verticalRateMps,
    dumpOption .bool e.onGround, .str e.ingestedAt, .str e.ingestionId, dumpOption .str e.collectorId]

theorem modelDump_eq (e : TelemetryEvent) :
    e.modelDump = .dict ((eventFields.map str).zip (dumpedValues e)) := rfl

theorem eventToRow_texts (h : eventToRow e = some row) : row.source = e.source ∧ row.icao24 = e.icao24 := by
  obtain ⟨payload, -, rfl⟩ := Option.map_eq_some_iff.mp h
  exact ⟨rfl, rfl⟩

theorem payload_field (hrow : eventToRow e = some row) (hr : BoundAs env now row r) :
    ∃ js, r.payload = .obj js ∧ ∀ k v, (k, v) ∈ eventFields.zip (dumpedValues e) →
      ∀ h, ∃ t j, dumps v = some t ∧ jsonbIn t = some j ∧ field (.lit k h) js = some j := by
  obtain ⟨payload, hdumps, rfl⟩ := Option.map_eq_some_iff.mp hrow
  have hjson := hr.payload
  rw [modelDump_eq, dumps] at hdumps
  obtain ⟨ts, hts, rfl⟩ := Option.map_eq_some_iff.mp hdumps
  rw [jsonbIn] at hjson
  obtain ⟨js, hjs, hpayload⟩ := Option.map_eq_some_iff.mp hjson
  have hkeys : ((eventFields.map str).zip (dumpedValues e)).map Prod.fst = eventFields.map str := rfl
  have hplain : ∀ p ∈ (eventFields.map str).zip (dumpedValues e), plain p.1 := by
    have hall : ∀ k ∈ eventFields.map str, plain k = true := by decide
    intro p hp
    apply hall
    rw [← hkeys]
    exact List.mem_map_of_mem hp
  have hnodup : (((eventFields.map str).zip (dumpedValues e)).map Prod.fst).Nodup := by
    rw [hkeys]
    decide
  refine ⟨js, hpayload.symm, fun k v hmem h => field_of_dumped hts hjs hplain hnodup (encodeText_str k h) ?_⟩
  rw [List.zip_map_left]
  exact List.mem_map.mpr ⟨(k, v), hmem, rfl⟩

end FlightPulse.Worker
