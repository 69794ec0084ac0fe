import FlightPulse.Analytics.Activity
import FlightPulse.Lib.Sql

/-!
# The dimension and the marts (`models/marts`)

Aggregates over the fact table, by aircraft, by cell of a grid and by hour.
-/

open Lib Lib.Sql Lib.Python Lib.Postgres

namespace FlightPulse.Analytics

open Worker

def floatLe (x y : PyFloat) : Bool := !floatLt y x

def countStatus (status : ActivityStatus) (rows : List ActivityRow) : ℕ :=
  rows.countP fun r => r.aircraftActivityStatus = status

variable (pg : Server)

/-! ## `dim_aircraft` -/

structure DimAircraft where
  icao24 : Text
  latestCallsign : Option Text
  latestOriginCountry : Option Text
  firstSeenAt : Option Timestamptz
  lastSeenAt : Option Timestamptz
  observationCount : ℕ
  sourceCount : ℕ

/-- `last_contact_at desc nulls last`. -/
def latestFirst (a b : ActivityRow) : Bool :=
  match a.lastContactAt, b.lastContactAt with
  | _, none => true
  | none, some _ => false
  | some x, some y => timestamptzLe y x

/-- The first row of each aircraft. Sorting by `icao24` before only puts its rows side by side. -/
def mostRecent (activity : List ActivityRow) : List ActivityRow :=
  distinctOn (·.icao24) (fun a b => latestFirst a b = true) activity

def dimAircraft (activity : List ActivityRow) : List DimAircraft :=
  let aggregated := groupBy (·.icao24) activity
  (leftJoin (fun a m => a.1 = m.icao24) aggregated (mostRecent activity)).map fun p =>
    { icao24 := p.1.1
      latestCallsign := p.2.bind (·.callsign)
      latestOriginCountry := p.2.bind (·.originCountry)
      firstSeenAt := minimum timestamptzLe (p.1.2.map (·.lastContactAt))
      lastSeenAt := maximum timestamptzLe (p.1.2.map (·.lastContactAt))
      observationCount := p.1.2.length
      sourceCount := countDistinct (p.1.2.map fun r => some r.source) }

/-! ## `mart_aircraft_activity` -/

abbrev Bucket := Option Date × Option ℤ

def bucket (r : ActivityRow) : Bucket := (r.observationDate, r.observationHour)

structure AircraftActivity where
  icao24 : Text
  observationDate : Option Date
  observationHour : Option ℤ
  observationCount : ℕ
  mostFrequentCallsign : Option Text
  avgAltitudeKm : Option Numeric
  minAltitudeKm : Option Numeric
  maxAltitudeKm : Option Numeric
  avgVelocityKmh : Option Numeric
  minVelocityKmh : Option Numeric
  maxVelocityKmh : Option Numeric
  climbingCount : ℕ
  descendingCount : ℕ
  levelFlightCount : ℕ
  onGroundCount : ℕ
  windowFirstSeenAt : Option Timestamptz
  windowLastSeenAt : Option Timestamptz
  latestCallsign : Option Text
  latestOriginCountry : Option Text

def martAircraftActivity (fact : List ActivityRow) (dim : List DimAircraft) : List AircraftActivity :=
  let aggregated := groupBy (fun r => (r.icao24, bucket r)) fact
  (leftJoin (fun a d => a.1.1 = d.icao24) aggregated dim).map fun p =>
    let g := p.1.2
    { icao24 := p.1.1.1
      observationDate := p.1.1.2.1
      observationHour := p.1.1.2.2
      observationCount := g.length
      mostFrequentCallsign := aggregate pg.mode (g.map (·.callsign))
      avgAltitudeKm := aggregate pg.avg (g.map (·.altitudeKm))
      minAltitudeKm := minimum floatLe (g.map (·.altitudeKm))
      maxAltitudeKm := maximum floatLe (g.map (·.altitudeKm))
      avgVelocityKmh := aggregate pg.avg (g.map (·.velocityKmh))
      minVelocityKmh := minimum floatLe (g.map (·.velocityKmh))
      maxVelocityKmh := maximum floatLe (g.map (·.velocityKmh))
      climbingCount := countStatus .climbing g
      descendingCount := countStatus .descending g
      levelFlightCount := countStatus .levelFlight g
      onGroundCount := countStatus .onGround g
      windowFirstSeenAt := minimum timestamptzLe (g.map (·.lastContactAt))
      windowLastSeenAt := maximum timestamptzLe (g.map (·.lastContactAt))
      latestCallsign := p.2.bind (·.latestCallsign)
      latestOriginCountry := p.2.bind (·.latestOriginCountry) }

/-! ## `mart_airspace_activity` -/

structure AirspaceActivity where
  latGrid : ℤ
  lonGrid : ℤ
  observationDate : Option Date
  observationHour : Option ℤ
  observationCount : ℕ
  distinctAircraftCount : ℕ
  avgAltitudeKm : Option Numeric
  avgVelocityKmh : Option Numeric
  climbingCount : ℕ
  descendingCount : ℕ
  levelFlightCount : ℕ
  latGridCenter : Numeric
  lonGridCenter : Numeric

structure GriddedRow where
  latGrid : ℤ
  lonGrid : ℤ
  row : ActivityRow

/-- The cell of a row; a row without a position has none. -/
def cellOf (r : ActivityRow) : Option (Option (ℤ × ℤ)) :=
  match r.latitude, r.longitude with
  | some latitude, some longitude =>
    match floorInt latitude, floorInt longitude with
    | some latGrid, some lonGrid => some (some (latGrid, lonGrid))
    | _, _ => none
  | _, _ => some none

/-- `where latitude is not null and longitude is not null`, and the cell of what is left. -/
def gridded : List ActivityRow → Option (List GriddedRow)
  | [] => some []
  | r :: rs =>
    match cellOf r with
    | none => none
    | some none => gridded rs
    | some (some cell) => (gridded rs).map fun gs => ⟨cell.1, cell.2, r⟩ :: gs

def martAirspaceActivity (fact : List ActivityRow) : Option (List AirspaceActivity) :=
  (gridded fact).map fun cells =>
    (groupBy (fun c => ((c.latGrid, c.lonGrid), bucket c.row)) cells).map fun group =>
      let g := group.2.map GriddedRow.row
      { latGrid := group.1.1.1
        lonGrid := group.1.1.2
        observationDate := group.1.2.1
        observationHour := group.1.2.2
        observationCount := g.length
        distinctAircraftCount := countDistinct (g.map fun r => some r.icao24)
        avgAltitudeKm := aggregate pg.avg (g.map (·.altitudeKm))
        avgVelocityKmh := aggregate pg.avg (g.map (·.velocityKmh))
        climbingCount := countStatus .climbing g
        descendingCount := countStatus .descending g
        levelFlightCount := countStatus .levelFlight g
        latGridCenter := .finite (group.1.1.1 + 1 / 2)
        lonGridCenter := .finite (group.1.1.2 + 1 / 2) }

/-! ## `mart_telemetry_quality` -/

structure FactQuality where
  bucket : Bucket
  totalObservations : ℕ
  missingCallsignCount : ℕ
  missingOriginCountryCount : ℕ
  missingPositionCount : ℕ
  invalidLatitudeCount : ℕ
  invalidLongitudeCount : ℕ
  invalidVelocityCount : ℕ
  avgTelemetryAgeSeconds : Option Numeric
  maxTelemetryAgeSeconds : Option Numeric
  p50TelemetryAgeSeconds : Option Double
  p95TelemetryAgeSeconds : Option Double

/-- `x < -bound or x > bound`, for a value that is there. -/
def outside (bound : ℚ) : Option Double → Bool
  | none => false
  | some x => floatLt x (.finite (-bound)) || floatLt (.finite bound) x

def negative : Option Numeric → Bool
  | none => false
  | some x => floatLt x (.finite 0)

def factQuality (fact : List ActivityRow) : List FactQuality :=
  (groupBy bucket fact).map fun group =>
    let g := group.2
    let ages := g.map (·.telemetryAgeSeconds)
    { bucket := group.1
      totalObservations := g.length
      missingCallsignCount := g.countP fun r => r.callsign.isNone
      missingOriginCountryCount := g.countP fun r => r.originCountry.isNone
      missingPositionCount := g.countP fun r => r.latitude.isNone || r.longitude.isNone
      invalidLatitudeCount := g.countP fun r => outside 90 r.latitude
      invalidLongitudeCount := g.countP fun r => outside 180 r.longitude
      invalidVelocityCount := g.countP fun r => negative r.velocityKmh
      avgTelemetryAgeSeconds := aggregate pg.avg ages
      maxTelemetryAgeSeconds := maximum floatLe ages
      p50TelemetryAgeSeconds := aggregate (pg.percentileCont (1 / 2)) ages
      p95TelemetryAgeSeconds := aggregate (pg.percentileCont (95 / 100)) ages }

structure DuplicateCheck where
  bucket : Bucket
  rowCount : ℕ
  distinctObservationCount : ℕ

/-- `icao24 || '|' || last_contact_at::text`. -/
def observationText (r : ActivityRow) : Option Text :=
  r.lastContactAt.map fun t => (r.icao24.append (.lit "|")).append (pg.timestamptzOut t)

def duplicateCheck (fact : List ActivityRow) : List DuplicateCheck :=
  (groupBy bucket fact).map fun group =>
    { bucket := group.1
      rowCount := group.2.length
      distinctObservationCount := countDistinct (group.2.map (observationText pg)) }

structure ExtractionQuality where
  bucket : Bucket
  extractionCycles : ℕ
  failedExtractionCycles : ℕ
  extractionReportedRecordCount : Option ℤ
  avgExtractionDurationSeconds : Option Numeric

/-- `extract(epoch from (extraction_completed_at - extraction_started_at))`. -/
def extractionDuration (l : LogRow) : Option (Option Numeric) :=
  elapsed l.extractionCompletedAt (some l.extractionStartedAt)

def logBucket (l : LogRow) : Bucket := (some (pg.date l.extractionStartedAt), pg.hour l.extractionStartedAt)

def extractionQuality (extractionLog : List LogRow) : Option (List ExtractionQuality) :=
  (groupBy (logBucket pg) extractionLog).mapM fun group =>
    (group.2.mapM extractionDuration).map fun durations =>
      { bucket := group.1
        extractionCycles := group.2.length
        failedExtractionCycles := group.2.countP fun l => !l.success
        extractionReportedRecordCount := aggregate List.sum (group.2.map (·.recordCount))
        avgExtractionDurationSeconds := aggregate pg.avg durations }

structure TelemetryQuality where
  observationDate : Option Date
  observationHour : Option ℤ
  totalObservations : Option ℕ
  missingCallsignCount : Option ℕ
  missingOriginCountryCount : Option ℕ
  missingPositionCount : Option ℕ
  invalidLatitudeCount : Option ℕ
  invalidLongitudeCount : Option ℕ
  invalidVelocityCount : Option ℕ
  retryDuplicateCount : Option ℤ
  avgTelemetryAgeSeconds : Option Numeric
  maxTelemetryAgeSeconds : Option Numeric
  p50TelemetryAgeSeconds : Option Double
  p95TelemetryAgeSeconds : Option Double
  extractionCycles : Option ℕ
  failedExtractionCycles : Option ℕ
  extractionReportedRecordCount : Option ℤ
  avgExtractionDurationSeconds : Option Numeric

/-- `a.observation_date = b.observation_date and a.observation_hour = b.observation_hour`. -/
def sameBucket (a b : Bucket) : Bool := nullEq a.1 b.1 && nullEq a.2 b.2

/-- The join on the bucket of a row that may itself be null. -/
def matchesCheck (p : Option FactQuality × Option ExtractionQuality) (dc : DuplicateCheck) : Bool :=
  match p.1 with
  | none => false
  | some fq => sameBucket fq.bucket dc.bucket

def qualityRow (p : (Option FactQuality × Option ExtractionQuality) × Option DuplicateCheck) : TelemetryQuality :=
  let fq := p.1.1
  let eq := p.1.2
  { observationDate := (fq.bind (·.bucket.1)).or (eq.bind (·.bucket.1))
    observationHour := (fq.bind (·.bucket.2)).or (eq.bind (·.bucket.2))
    totalObservations := fq.map (·.totalObservations)
    missingCallsignCount := fq.map (·.missingCallsignCount)
    missingOriginCountryCount := fq.map (·.missingOriginCountryCount)
    missingPositionCount := fq.map (·.missingPositionCount)
    invalidLatitudeCount := fq.map (·.invalidLatitudeCount)
    invalidLongitudeCount := fq.map (·.invalidLongitudeCount)
    invalidVelocityCount := fq.map (·.invalidVelocityCount)
    retryDuplicateCount := p.2.map fun dc => (dc.rowCount : ℤ) - dc.distinctObservationCount
    avgTelemetryAgeSeconds := fq.bind (·.avgTelemetryAgeSeconds)
    maxTelemetryAgeSeconds := fq.bind (·.maxTelemetryAgeSeconds)
    p50TelemetryAgeSeconds := fq.bind (·.p50TelemetryAgeSeconds)
    p95TelemetryAgeSeconds := fq.bind (·.p95TelemetryAgeSeconds)
    extractionCycles := eq.map (·.extractionCycles)
    failedExtractionCycles := eq.map (·.failedExtractionCycles)
    extractionReportedRecordCount := eq.bind (·.extractionReportedRecordCount)
    avgExtractionDurationSeconds := eq.bind (·.avgExtractionDurationSeconds) }

def martTelemetryQuality (fact : List ActivityRow) (extractionLog : List LogRow) : Option (List TelemetryQuality) :=
  (extractionQuality pg extractionLog).map fun eqs =>
    let joined := fullJoin (fun fq eq => sameBucket fq.bucket eq.bucket) (factQuality pg fact) eqs
    (leftJoin matchesCheck joined (duplicateCheck pg fact)).map qualityRow

/-! ## All tables -/

structure Marts where
  dim : List DimAircraft
  fact : List ActivityRow
  aircraft : List AircraftActivity
  airspace : List AirspaceActivity
  quality : List TelemetryQuality

/-- `dbt run`, when every model is built. -/
def buildMarts (rawTelemetry : List SourceRow) (extractionLog : List LogRow) : Option Marts := do
  let activity ← intAircraftActivity pg rawTelemetry
  let fact ← factAircraftState pg rawTelemetry
  let dim := dimAircraft activity
  let airspace ← martAirspaceActivity pg fact
  let quality ← martTelemetryQuality pg fact extractionLog
  some ⟨dim, fact, martAircraftActivity pg fact dim, airspace, quality⟩

end FlightPulse.Analytics
