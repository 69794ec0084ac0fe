import FlightPulse.Worker.Persistence

/-!
# The job functions (`worker/processor.py`)

One attempt of a job: what it does to the tables and to the dead letter list, and
how it ends.
-/

open Lib Lib.Python Lib.Pydantic Lib.Postgres Lib.Psycopg

namespace FlightPulse.Worker

open Ingestion

structure Settings where
  maxJobAttempts : ℕ
  retryBackoffBaseSeconds : ℚ
  retryBackoffMaxSeconds : ℚ

def Settings.default : Settings where
  maxJobAttempts := 5
  retryBackoffBaseSeconds := 2
  retryBackoffMaxSeconds := 60

/-- `none` is the `OverflowError` of `2 ** 1024`: the float that it is multiplied with makes it one. -/
def Settings.computeBackoffSeconds (settings : Settings) (attempt : ℕ) : Option ℚ :=
  if attempt - 1 < 1024 then
    some (min (settings.retryBackoffBaseSeconds * 2 ^ (attempt - 1)) settings.retryBackoffMaxSeconds)
  else none

theorem computeBackoffSeconds_isSome {settings : Settings} {attempt : ℕ} :
    (settings.computeBackoffSeconds attempt).isSome ↔ attempt ≤ 1024 := by
  unfold Settings.computeBackoffSeconds
  split
  · exact iff_of_true rfl (by omega)
  · exact iff_of_false (by simp) (by omega)

/-! ## Business rules -/

/-- `x <= 0`; a comparison with NaN is false. -/
def notPositive : PyFloat → Bool
  | .finite q => q ≤ 0
  | .negInf => true
  | .inf | .nan => false

def normalizeEvent (event : TelemetryEvent) : TelemetryEvent :=
  match event.onGround, event.baroAltitudeM with
  | none, some altitude => { event with onGround := some (notPositive altitude) }
  | _, _ => event

/-- The key that `_dedupe_events` compares. -/
def dedupeKey (event : TelemetryEvent) : PyStr × Option ℤ × PyStr :=
  (event.icao24, event.lastContact, event.source)

/-- The loop of `_dedupe_events`, with the keys it has seen. -/
def dedupeFrom (seen : List (PyStr × Option ℤ × PyStr)) : List TelemetryEvent → List TelemetryEvent
  | [] => []
  | event :: events =>
    if dedupeKey event ∈ seen then dedupeFrom seen events
    else event :: dedupeFrom (dedupeKey event :: seen) events

def dedupeEvents (events : List TelemetryEvent) : List TelemetryEvent := dedupeFrom [] events

/-- The events of a batch that are handed to `persist_batch`. -/
def processed (batch : TelemetryBatch) : List TelemetryEvent :=
  dedupeEvents (batch.events.map normalizeEvent)

theorem mem_of_mem_dedupeFrom {seen : List (PyStr × Option ℤ × PyStr)} {events : List TelemetryEvent}
    {event : TelemetryEvent} (h : event ∈ dedupeFrom seen events) : event ∈ events := by
  fun_induction dedupeFrom seen events with
  | case1 => exact h
  | case2 seen e events _ ih => exact List.mem_cons_of_mem _ (ih h)
  | case3 seen e events _ ih =>
    rcases List.mem_cons.mp h with rfl | h
    · exact List.mem_cons_self
    · exact List.mem_cons_of_mem _ (ih h)

theorem mem_of_mem_processed {batch : TelemetryBatch} {event : TelemetryEvent}
    (h : event ∈ processed batch) : ∃ e ∈ batch.events, event = normalizeEvent e := by
  obtain ⟨e, he, heq⟩ := List.mem_map.mp (mem_of_mem_dedupeFrom h)
  exact ⟨e, he, heq.symm⟩

/-! ## Jobs -/

structure World where
  rawTelemetry : RawTelemetry
  extractionLog : ExtractionLog
  deadLetter : List JsonText

/-- What one attempt meets with. -/
structure Attempt where
  now : Timestamptz
  time : PyFloat
  fault : Option Fault
  redisFault : Option RedisFault

inductive JobEnd where
  | completed (accepted newlyInserted : ℕ)
  | logged (requestId : PyStr)
  | deadLettered
  /-- `raise Retry(defer=delay)`. -/
  | retry (delay : ℚ)
  | failed (exn : Exn)

namespace Env

variable (env : Env) (settings : Settings)

/-- The branch of both jobs for a payload that does not validate. -/
def deadLetterJob (a : Attempt) (payload : PyVal) (errors : List ErrorDetail) (w : World) : World × JobEnd :=
  let r := writeToDeadLetter a.redisFault payload (env.describe errors) a.time w.deadLetter
  ({ w with deadLetter := r.1 },
    match r.2 with
    | .ok _ => .deadLettered
    | .error exn => .failed exn)

/-- The exception of a persist function: only a connection failure is retried, and only as long as
its delay can be computed. -/
def persistFailed (attempt : ℕ) : PersistError → JobEnd
  | .persistenceUnavailable =>
    match settings.computeBackoffSeconds attempt with
    | some delay => .retry delay
    | none => .failed .otherError
  | .escaping exn => .failed exn

def processTelemetryBatch (attempt : ℕ) (a : Attempt) (payload : PyVal) (w : World) : World × JobEnd :=
  match TelemetryBatch.modelValidate env.lax payload with
  | .invalid errors => env.deadLetterJob a payload errors w
  | .ok batch =>
    let r := env.persistBatch a.now a.fault (processed batch) w.rawTelemetry
    ({ w with rawTelemetry := r.1 },
      match r.2 with
      | .ok newlyInserted => .completed (processed batch).length newlyInserted
      | .error e => persistFailed settings attempt e)

def processExtractionLog (attempt : ℕ) (a : Attempt) (payload : PyVal) (w : World) : World × JobEnd :=
  match ExtractionLogEntry.modelValidate env.lax payload with
  | .invalid errors => env.deadLetterJob a payload errors w
  | .ok entry =>
    let r := env.persistExtractionLog a.now a.fault entry w.extractionLog
    ({ w with extractionLog := r.1 },
      match r.2 with
      | .ok _ => .logged entry.requestId
      | .error e => persistFailed settings attempt e)

end Env

/-! ## A sample -/

def sampleEnv : Env where
  lax := .strict
  describe := fun _ => []
  timestamptzIn := fun t => if t.chars = "2026-08-26T10:00:00Z".toList then some (.at 841053600000000) else none
  toTimestamp := fun n => some (.at ((n - 946684800) * 1000000))
  indexEntryFits := fun icao24 _ => icao24.chars.length ≤ 600

def sampleEvent (ingestionId : PyStr) : TelemetryEvent where
  source := str "opensky"
  icao24 := str "4b1814"
  callsign := none
  originCountry := none
  timePosition := none
  lastContact := none
  longitude := none
  latitude := none
  baroAltitudeM := none
  geoAltitudeM := none
  velocityMps := none
  trueTrackDeg := none
  verticalRateMps := none
  onGround := none
  ingestedAt := str "2026-08-26T10:00:00Z"
  ingestionId := ingestionId
  collectorId := none

def sampleId : PyStr := str "6ba7b810-9dad-11d1-80b4-00c04fd430c8"

def emptyWorld : World := ⟨⟨[], List.nodup_nil⟩, ⟨[], List.nodup_nil⟩, []⟩

end FlightPulse.Worker
