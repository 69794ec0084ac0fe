import FlightPulse.Lib.Pydantic

/-!
# The telemetry schema

The models that the ingestion service validates a request body against and
that the worker validates a job's payload against.
-/

open Lib.Python Lib.Pydantic

namespace FlightPulse.Ingestion

structure TelemetryEvent where
  source : PyStr
  icao24 : PyStr
  callsign : Option PyStr
  originCountry : Option PyStr
  timePosition : Option ℤ
  lastContact : Option ℤ
  longitude : Option PyFloat
  latitude : Option PyFloat
  baroAltitudeM : Option PyFloat
  geoAltitudeM : Option PyFloat
  velocityMps : Option PyFloat
  trueTrackDeg : Option PyFloat
  verticalRateMps : Option PyFloat
  onGround : Option Bool
  ingestedAt : PyStr
  ingestionId : PyStr
  collectorId : Option PyStr
deriving DecidableEq

structure TelemetryBatch where
  events : List TelemetryEvent
deriving DecidableEq

structure IngestResponse where
  status : PyStr
  accepted : ℕ
  ingestionIds : List PyStr
deriving DecidableEq

structure ExtractionLogEntry where
  requestId : PyStr
  source : PyStr
  collectorId : Option PyStr
  collectorVersion : Option PyStr
  requestScope : Option PyStr
  extractionStartedAt : PyStr
  extractionCompletedAt : Option PyStr
  sourceObservationTime : Option ℤ
  recordCount : Option ℤ
  success : Bool
  errorMessage : Option PyStr
deriving DecidableEq

/-! ## `model_validate` -/

def optionalField {α : Type} (name : PyStr) (validate : PyVal → Validated α) (data : List (PyStr × PyVal)) :
    Validated (Option α) :=
  defaulted name none (optional validate) data

def TelemetryEvent.fields (lax : Lax) (data : List (PyStr × PyVal)) : Validated TelemetryEvent :=
  ((defaulted (str "source") (str "opensky") validateStr data).map TelemetryEvent.mk)
    |>.ap (required (str "icao24") validateStr data)
    |>.ap (optionalField (str "callsign") validateStr data)
    |>.ap (optionalField (str "origin_country") validateStr data)
    |>.ap (optionalField (str "time_position") (validateInt lax) data)
    |>.ap (optionalField (str "last_contact") (validateInt lax) data)
    |>.ap (optionalField (str "longitude") (validateFloat lax) data)
    |>.ap (optionalField (str "latitude") (validateFloat lax) data)
    |>.ap (optionalField (str "baro_altitude_m") (validateFloat lax) data)
    |>.ap (optionalField (str "geo_altitude_m") (validateFloat lax) data)
    |>.ap (optionalField (str "velocity_mps") (validateFloat lax) data)
    |>.ap (optionalField (str "true_track_deg") (validateFloat lax) data)
    |>.ap (optionalField (str "vertical_rate_mps") (validateFloat lax) data)
    |>.ap (optionalField (str "on_ground") (validateBool lax) data)
    |>.ap (required (str "ingested_at") validateStr data)
    |>.ap (required (str "ingestion_id") validateStr data)
    |>.ap (optionalField (str "collector_id") validateStr data)

def TelemetryEvent.modelValidate (lax : Lax) : PyVal → Validated TelemetryEvent :=
  validateModel (TelemetryEvent.fields lax)

def TelemetryBatch.modelValidate (lax : Lax) : PyVal → Validated TelemetryBatch :=
  validateModel fun data =>
    (required (str "events") (validateList (TelemetryEvent.modelValidate lax)) data).map TelemetryBatch.mk

def ExtractionLogEntry.fields (lax : Lax) (data : List (PyStr × PyVal)) : Validated ExtractionLogEntry :=
  ((required (str "request_id") validateStr data).map ExtractionLogEntry.mk)
    |>.ap (defaulted (str "source") (str "opensky") validateStr data)
    |>.ap (optionalField (str "collector_id") validateStr data)
    |>.ap (optionalField (str "collector_version") validateStr data)
    |>.ap (optionalField (str "request_scope") validateStr data)
    |>.ap (required (str "extraction_started_at") validateStr data)
    |>.ap (optionalField (str "extraction_completed_at") validateStr data)
    |>.ap (optionalField (str "source_observation_time") (validateInt lax) data)
    |>.ap (optionalField (str "record_count") (validateInt lax) data)
    |>.ap (required (str "success") (validateBool lax) data)
    |>.ap (optionalField (str "error_message") validateStr data)

def ExtractionLogEntry.modelValidate (lax : Lax) : PyVal → Validated ExtractionLogEntry :=
  validateModel (ExtractionLogEntry.fields lax)

theorem TelemetryEvent.fields_spec {lax : Lax} {data : List (PyStr × PyVal)} {e : TelemetryEvent}
    (h : TelemetryEvent.fields lax data = .ok e) :
    defaulted (str "source") (str "opensky") validateStr data = .ok e.source ∧
      required (str "icao24") validateStr data = .ok e.icao24 ∧
      optionalField (str "last_contact") (validateInt lax) data = .ok e.lastContact ∧
      required (str "ingestion_id") validateStr data = .ok e.ingestionId := by
  unfold TelemetryEvent.fields at h
  obtain ⟨_, _, h, -, _⟩ := Validated.ap_eq_ok.mp h
  obtain ⟨_, _, h, hingestionId, _⟩ := Validated.ap_eq_ok.mp h
  obtain ⟨_, _, h, -, _⟩ := Validated.ap_eq_ok.mp h
  obtain ⟨_, _, h, -, _⟩ := Validated.ap_eq_ok.mp h
  obtain ⟨_, _, h, -, _⟩ := Validated.ap_eq_ok.mp h
  obtain ⟨_, _, h, -, _⟩ := Validated.ap_eq_ok.mp h
  obtain ⟨_, _, h, -, _⟩ := Validated.ap_eq_ok.mp h
  obtain ⟨_, _, h, -, _⟩ := Validated.ap_eq_ok.mp h
  obtain ⟨_, _, h, -, _⟩ := Validated.ap_eq_ok.mp h
  obtain ⟨_, _, h, -, _⟩ := Validated.ap_eq_ok.mp h
  obtain ⟨_, _, h, -, _⟩ := Validated.ap_eq_ok.mp h
  obtain ⟨_, _, h, hcontact, _⟩ := Validated.ap_eq_ok.mp h
  obtain ⟨_, _, h, -, _⟩ := Validated.ap_eq_ok.mp h
  obtain ⟨_, _, h, -, _⟩ := Validated.ap_eq_ok.mp h
  obtain ⟨_, _, h, -, _⟩ := Validated.ap_eq_ok.mp h
  obtain ⟨_, _, h, hicao24, _⟩ := Validated.ap_eq_ok.mp h
  obtain ⟨_, hsource, _⟩ := Validated.map_eq_ok.mp h
  subst_vars
  exact ⟨hsource, hicao24, hcontact, hingestionId⟩

/-! ## `model_dump` -/

def TelemetryEvent.modelDump (e : TelemetryEvent) : PyVal :=
  .dict
    [ (str "source", .str e.source),
      (str "icao24", .str e.icao24),
      (str "callsign", dumpOption .str e.callsign),
      (str "origin_country", dumpOption .str e.originCountry),
      (str "time_position", dumpOption .int e.timePosition),
      (str "last_contact", dumpOption .int e.lastContact),
      (str "longitude", dumpOption .float e.longitude),
      (str "latitude", dumpOption .float e.latitude),
      (str "baro_altitude_m", dumpOption .float e.baroAltitudeM),
      (str "geo_altitude_m", dumpOption .float e.geoAltitudeM),
      (str "velocity_mps", dumpOption .float e.velocityMps),
      (str "true_track_deg", dumpOption .float e.trueTrackDeg),
      (str "vertical_rate_mps", dumpOption .float e.verticalRateMps),
      (str "on_ground", dumpOption .bool e.onGround),
      (str "ingested_at", .str e.ingestedAt),
      (str "ingestion_id", .str e.ingestionId),
      (str "collector_id", dumpOption .str e.collectorId) ]

def TelemetryBatch.modelDump (b : TelemetryBatch) : PyVal :=
  .dict [(str "events", .list (b.events.map TelemetryEvent.modelDump))]

def ExtractionLogEntry.modelDump (e : ExtractionLogEntry) : PyVal :=
  .dict
    [ (str "request_id", .str e.requestId),
      (str "source", .str e.source),
      (str "collector_id", dumpOption .str e.collectorId),
      (str "collector_version", dumpOption .str e.collectorVersion),
      (str "request_scope", dumpOption .str e.requestScope),
      (str "extraction_started_at", .str e.extractionStartedAt),
      (str "extraction_completed_at", dumpOption .str e.extractionCompletedAt),
      (str "source_observation_time", dumpOption .int e.sourceObservationTime),
      (str "record_count", dumpOption .int e.recordCount),
      (str "success", .bool e.success),
      (str "error_message", dumpOption .str e.errorMessage) ]

/-! ## What is dumped validates again -/

theorem TelemetryEvent.modelValidate_modelDump (lax : Lax) (e : TelemetryEvent) :
    TelemetryEvent.modelValidate lax e.modelDump = .ok e := by
  simp [TelemetryEvent.modelValidate, TelemetryEvent.modelDump, validateModel, TelemetryEvent.fields,
    optionalField, defaulted, required, PyVal.get?, str_inj, validateStr, optional_validateStr,
    optional_validateInt, optional_validateFloat, optional_validateBool, Validated.map]

theorem TelemetryBatch.modelValidate_modelDump (lax : Lax) (b : TelemetryBatch) :
    TelemetryBatch.modelValidate lax b.modelDump = .ok b := by
  simp [TelemetryBatch.modelValidate, TelemetryBatch.modelDump, validateModel, required, PyVal.get?,
    validateList, validateItems_map (TelemetryEvent.modelValidate_modelDump lax), Validated.map]

theorem TelemetryBatch.modelDump_injective : Function.Injective TelemetryBatch.modelDump := by
  intro b b' h
  have hb := TelemetryBatch.modelValidate_modelDump .strict b
  rw [h, TelemetryBatch.modelValidate_modelDump, Validated.ok.injEq] at hb
  exact hb.symm

theorem ExtractionLogEntry.modelValidate_modelDump (lax : Lax) (e : ExtractionLogEntry) :
    ExtractionLogEntry.modelValidate lax e.modelDump = .ok e := by
  simp [ExtractionLogEntry.modelValidate, ExtractionLogEntry.modelDump, validateModel,
    ExtractionLogEntry.fields, optionalField, defaulted, required, PyVal.get?, str_inj, validateStr,
    validateBool, optional_validateStr, optional_validateInt, Validated.map]

end FlightPulse.Ingestion
