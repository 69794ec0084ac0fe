import FlightPulse.Analytics.Grain
import FlightPulse.Lib.DataTest

/-!
# The data tests (`models/**/_*.yml`, `tests/*.sql`)

`dbt run` builds its tables with several threads, so each sees its own state of the two
tables that the worker writes, and the tests see a later one. What the schema and the
models make true cannot fail; five tests say something about the data.
-/

open Lib Lib.Sql Lib.DataTest Lib.Python Lib.Postgres Lib.Run
open scoped List

namespace FlightPulse.Analytics

open Ingestion Worker

/-! ## A run and its tests -/

/-- What one query sees of the two tables, with their unique indexes. -/
structure Snapshot where
  telemetry : List SourceRow
  log : List LogRow
  ids_nodup : (telemetry.map SourceRow.ingestionId).Nodup
  requests_nodup : (log.map LogRow.requestId).Nodup

/-- The two tables as the worker keeps them. -/
def Snapshot.of (rawTelemetry : RawTelemetry) (extractionLog : ExtractionLog) : Snapshot where
  telemetry := rawTelemetry.rows.map sourceRow
  log := extractionLog.rows
  ids_nodup := by
    rw [List.map_map]
    exact rawTelemetry.nodup
  requests_nodup := extractionLog.nodup

variable (pg : Server)

/-- `dbt run`: the dimension and the facts do not wait for each other, the marts come after them. -/
def dbtRun (forDim forFact forQuality : Snapshot) : Option Marts := do
  let activity ← intAircraftActivity pg forDim.telemetry
  let fact ← factAircraftState pg forFact.telemetry
  let dim := dimAircraft activity
  let airspace ← martAirspaceActivity pg fact
  let quality ← martTelemetryQuality pg fact forQuality.log
  some ⟨dim, fact, martAircraftActivity pg fact dim, airspace, quality⟩

/-- The two views over what a test sees. -/
structure Views where
  staged : List StgRow
  activity : List ActivityRow

def views (s : Snapshot) : Option Views := do
  let staged ← stgOpenskyStates pg s.telemetry
  let activity ← staged.mapM (activityRow pg)
  some ⟨staged, activity⟩

def VerticalRateCategory.text : VerticalRateCategory → Text
  | .unknown => .lit "unknown" (Eq.refl true)
  | .climbing => .lit "climbing" (Eq.refl true)
  | .descending => .lit "descending" (Eq.refl true)
  | .stable => .lit "stable" (Eq.refl true)

def ActivityStatus.text : ActivityStatus → Text
  | .onGround => .lit "on_ground" (Eq.refl true)
  | .unknown => .lit "unknown" (Eq.refl true)
  | .airborneUnknownRate => .lit "airborne_unknown_rate" (Eq.refl true)
  | .climbing => .lit "climbing" (Eq.refl true)
  | .descending => .lit "descending" (Eq.refl true)
  | .levelFlight => .lit "level_flight" (Eq.refl true)

/-! ## The singular tests -/

/-- `tests/assert_non_negative_telemetry_age.sql`. -/
def negativeAge (a : ActivityRow) : Bool := negative a.telemetryAgeSeconds

/-- `tests/assert_valid_coordinates.sql`. -/
def invalidCoordinates (s : StgRow) : Bool := outside 90 s.latitude || outside 180 s.longitude

/-- `icao24 ~ '^[0-9a-f]{6}$'`. -/
def isIcao24 (t : Text) : Bool :=
  t.chars.length = 6 && t.chars.all fun c => ('0' ≤ c && c ≤ '9') || ('a' ≤ c && c ≤ 'f')

/-- `tests/assert_valid_icao24.sql`. -/
def invalidIcao24 (s : StgRow) : Bool := !isIcao24 s.icao24

/-! ## The suite -/

inductive TestId where
  | uniqueRawTelemetryIngestionId
  | notNullRawTelemetryIngestionId
  | notNullRawTelemetryIcao24
  | notNullRawTelemetryPayload
  | uniqueExtractionLogRequestId
  | notNullExtractionLogRequestId
  | notNullExtractionLogSource
  | notNullExtractionLogExtractionStartedAt
  | notNullExtractionLogSuccess
  | uniqueStgOpenskyStatesIngestionId
  | notNullStgOpenskyStatesIngestionId
  | notNullStgOpenskyStatesIcao24
  | acceptedValuesStgOpenskyStatesOnGround
  | uniqueIntAircraftActivityIngestionId
  | notNullIntAircraftActivityIngestionId
  | notNullIntAircraftActivityIcao24
  | acceptedValuesIntAircraftActivityVerticalRateCategory
  | acceptedValuesIntAircraftActivityAircraftActivityStatus
  | uniqueDimAircraftIcao24
  | notNullDimAircraftIcao24
  | uniqueFactAircraftStateIngestionId
  | notNullFactAircraftStateIngestionId
  | notNullFactAircraftStateIcao24
  | relationshipsFactAircraftStateIcao24
  | notNullMartAircraftActivityIcao24
  | notNullMartAircraftActivityObservationCount
  | notNullMartAirspaceActivityLatGrid
  | notNullMartAirspaceActivityLonGrid
  | notNullMartAirspaceActivityDistinctAircraftCount
  | notNullMartTelemetryQualityObservationDate
  | assertNonNegativeTelemetryAge
  | assertValidCoordinates
  | assertValidIcao24
deriving DecidableEq

namespace TestId

/-- In the order of the files. -/
def all : List TestId :=
  [uniqueRawTelemetryIngestionId, notNullRawTelemetryIngestionId, notNullRawTelemetryIcao24,
    notNullRawTelemetryPayload, uniqueExtractionLogRequestId, notNullExtractionLogRequestId,
    notNullExtractionLogSource, notNullExtractionLogExtractionStartedAt, notNullExtractionLogSuccess,
    uniqueStgOpenskyStatesIngestionId, notNullStgOpenskyStatesIngestionId, notNullStgOpenskyStatesIcao24,
    acceptedValuesStgOpenskyStatesOnGround, uniqueIntAircraftActivityIngestionId,
    notNullIntAircraftActivityIngestionId, notNullIntAircraftActivityIcao24,
    acceptedValuesIntAircraftActivityVerticalRateCategory,
    acceptedValuesIntAircraftActivityAircraftActivityStatus, uniqueDimAircraftIcao24, notNullDimAircraftIcao24,
    uniqueFactAircraftStateIngestionId, notNullFactAircraftStateIngestionId, notNullFactAircraftStateIcao24,
    relationshipsFactAircraftStateIcao24, notNullMartAircraftActivityIcao24,
    notNullMartAircraftActivityObservationCount, notNullMartAirspaceActivityLatGrid,
    notNullMartAirspaceActivityLonGrid, notNullMartAirspaceActivityDistinctAircraftCount,
    notNullMartTelemetryQualityObservationDate, assertNonNegativeTelemetryAge, assertValidCoordinates,
    assertValidIcao24]

theorem mem_all (t : TestId) : t ∈ all := by
  cases t <;> decide

def severity : TestId → Severity
  | acceptedValuesStgOpenskyStatesOnGround => .warn
  | assertNonNegativeTelemetryAge => .warn
  | _ => .error

variable (dbt : GenericTests) (m : Marts) (s : Snapshot) (v : Views)

def failures : TestId → ℕ
  | uniqueRawTelemetryIngestionId => dbt.unique (s.telemetry.map fun r => some r.ingestionId)
  | notNullRawTelemetryIngestionId => dbt.notNull (s.telemetry.map fun r => some r.ingestionId)
  | notNullRawTelemetryIcao24 => dbt.notNull (s.telemetry.map fun r => some r.icao24)
  | notNullRawTelemetryPayload => dbt.notNull (s.telemetry.map fun r => some r.payload)
  | uniqueExtractionLogRequestId => dbt.unique (s.log.map fun l => some l.requestId)
  | notNullExtractionLogRequestId => dbt.notNull (s.log.map fun l => some l.requestId)
  | notNullExtractionLogSource => dbt.notNull (s.log.map fun l => some l.source)
  | notNullExtractionLogExtractionStartedAt => dbt.notNull (s.log.map fun l => some l.extractionStartedAt)
  | notNullExtractionLogSuccess => dbt.notNull (s.log.map fun l => some l.success)
  | uniqueStgOpenskyStatesIngestionId => dbt.unique (v.staged.map fun r => some r.ingestionId)
  | notNullStgOpenskyStatesIngestionId => dbt.notNull (v.staged.map fun r => some r.ingestionId)
  | notNullStgOpenskyStatesIcao24 => dbt.notNull (v.staged.map fun r => some r.icao24)
  -- `where: "on_ground is not null"`
  | acceptedValuesStgOpenskyStatesOnGround =>
    dbt.acceptedValues [true, false] ((v.staged.filter fun r => r.onGround.isSome).map fun r => r.onGround)
  | uniqueIntAircraftActivityIngestionId => dbt.unique (v.activity.map fun a => some a.ingestionId)
  | notNullIntAircraftActivityIngestionId => dbt.notNull (v.activity.map fun a => some a.ingestionId)
  | notNullIntAircraftActivityIcao24 => dbt.notNull (v.activity.map fun a => some a.icao24)
  | acceptedValuesIntAircraftActivityVerticalRateCategory =>
    dbt.acceptedValues
      [.lit "climbing" (Eq.refl true), .lit "descending" (Eq.refl true), .lit "stable" (Eq.refl true),
        .lit "unknown" (Eq.refl true)]
      (v.activity.map fun a => some a.verticalRateCategory.text)
  | acceptedValuesIntAircraftActivityAircraftActivityStatus =>
    dbt.acceptedValues
      [.lit "on_ground" (Eq.refl true), .lit "climbing" (Eq.refl true), .lit "descending" (Eq.refl true),
        .lit "level_flight" (Eq.refl true), .lit "airborne_unknown_rate" (Eq.refl true),
        .lit "unknown" (Eq.refl true)]
      (v.activity.map fun a => some a.aircraftActivityStatus.text)
  | uniqueDimAircraftIcao24 => dbt.unique (m.dim.map fun d => some d.icao24)
  | notNullDimAircraftIcao24 => dbt.notNull (m.dim.map fun d => some d.icao24)
  | uniqueFactAircraftStateIngestionId => dbt.unique (m.fact.map fun a => some a.ingestionId)
  | notNullFactAircraftStateIngestionId => dbt.notNull (m.fact.map fun a => some a.ingestionId)
  | notNullFactAircraftStateIcao24 => dbt.notNull (m.fact.map fun a => some a.icao24)
  | relationshipsFactAircraftStateIcao24 =>
    dbt.relationships (m.dim.map fun d => some d.icao24) (m.fact.map fun a => some a.icao24)
  | notNullMartAircraftActivityIcao24 => dbt.notNull (m.aircraft.map fun g => some g.icao24)
  | notNullMartAircraftActivityObservationCount => dbt.notNull (m.aircraft.map fun g => some g.observationCount)
  | notNullMartAirspaceActivityLatGrid => dbt.notNull (m.airspace.map fun g => some g.latGrid)
  | notNullMartAirspaceActivityLonGrid => dbt.notNull (m.airspace.map fun g => some g.lonGrid)
  | notNullMartAirspaceActivityDistinctAircraftCount =>
    dbt.notNull (m.airspace.map fun g => some g.distinctAircraftCount)
  | notNullMartTelemetryQualityObservationDate => dbt.notNull (m.quality.map fun q => q.observationDate)
  | assertNonNegativeTelemetryAge => v.activity.countP negativeAge
  | assertValidCoordinates => v.staged.countP invalidCoordinates
  | assertValidIcao24 => v.staged.countP invalidIcao24

def status (t : TestId) : Status := DataTest.status t.severity (t.failures dbt m s v)

end TestId

/-! ## What can fail -/

/-- The row was processed before its last contact. -/
def ProcessedEarly (r : SourceRow) : Prop :=
  ∃ processed contact, r.processedAt = some processed ∧
    pg.epoch (r.payload.get (.lit "last_contact" (Eq.refl true))) = some (some contact) ∧
    ¬ timestamptzLe contact processed

def OutOfBounds (r : SourceRow) : Prop :=
  ∃ latitude longitude, pg.double (r.payload.get (.lit "latitude" (Eq.refl true))) = some latitude ∧
    pg.double (r.payload.get (.lit "longitude" (Eq.refl true))) = some longitude ∧
    (outside 90 latitude ∨ outside 180 longitude)

/-- What the five tests find in the rows that they and the run have read. -/
def Violated (forDim forFact now : Snapshot) : TestId → Prop
  | .notNullMartTelemetryQualityObservationDate =>
    ∃ r ∈ forFact.telemetry, pg.epoch (r.payload.get (.lit "last_contact" (Eq.refl true))) = some none
  | .relationshipsFactAircraftStateIcao24 =>
    ∃ r ∈ forFact.telemetry, ∀ r' ∈ forDim.telemetry, stagedIcao24 pg r'.icao24 ≠ stagedIcao24 pg r.icao24
  | .assertNonNegativeTelemetryAge => ∃ r ∈ now.telemetry, ProcessedEarly pg r
  | .assertValidCoordinates => ∃ r ∈ now.telemetry, OutOfBounds pg r
  | .assertValidIcao24 => ∃ r ∈ now.telemetry, ¬ isIcao24 (stagedIcao24 pg r.icao24)
  | _ => False

/-! ## The rows behind the tables -/

section

variable {pg} {forDim forFact forQuality now : Snapshot} {m : Marts} {v : Views}

theorem views_spec (h : views pg now = some v) :
    now.telemetry.mapM (stgRow pg) = some v.staged ∧ now.telemetry.mapM (factRow pg) = some v.activity := by
  unfold views at h
  simp only [Option.bind_eq_bind, Option.bind_eq_some_iff, Option.some.injEq] at h
  obtain ⟨staged, hstaged, activity, hactivity, rfl⟩ := h
  refine ⟨hstaged, ?_⟩
  rw [← factAircraftState_eq]
  exact Option.bind_eq_some_iff.mpr ⟨staged, hstaged, hactivity⟩

theorem dbtRun_spec (h : dbtRun pg forDim forFact forQuality = some m) :
    (∃ activity, forDim.telemetry.mapM (factRow pg) = some activity ∧ m.dim = dimAircraft activity) ∧
      forFact.telemetry.mapM (factRow pg) = some m.fact ∧
      martTelemetryQuality pg m.fact forQuality.log = some m.quality := by
  unfold dbtRun at h
  simp only [Option.bind_eq_bind, Option.bind_eq_some_iff, Option.some.injEq] at h
  obtain ⟨activity, hactivity, fact, hfact, -, -, quality, hquality, rfl⟩ := h
  refine ⟨⟨activity, ?_, rfl⟩, ?_, hquality⟩
  · rw [← factAircraftState_eq]
    exact hactivity
  · rw [← factAircraftState_eq]
    exact hfact

/-! ## What the schema and the models make true -/

theorem staged_ids_nodup (h : views pg now = some v) : (v.staged.map fun r => r.ingestionId).Nodup := by
  rw [map_of_mapM (views_spec h).1 fun r _ row hrow => (stgRow_spec hrow).1]
  exact now.ids_nodup

theorem rows_ids_nodup {s : Snapshot} {rows : List ActivityRow} (h : s.telemetry.mapM (factRow pg) = some rows) :
    (rows.map fun a => a.ingestionId).Nodup := by
  rw [map_of_mapM h fun r _ a ha => (factRow_spec ha).1]
  exact s.ids_nodup

theorem dim_icao24_nodup (h : dbtRun pg forDim forFact forQuality = some m) : (m.dim.map fun d => d.icao24).Nodup := by
  obtain ⟨⟨activity, -, hdim⟩, -, -⟩ := dbtRun_spec h
  rw [hdim, dim_icao24]
  exact List.nodup_dedup _

theorem mem_verticalRateCategory (c : VerticalRateCategory) :
    c.text ∈ [Text.lit "climbing", .lit "descending", .lit "stable", .lit "unknown"] := by
  cases c <;> decide

theorem mem_activityStatus (c : ActivityStatus) :
    c.text ∈ [Text.lit "on_ground", .lit "climbing", .lit "descending", .lit "level_flight",
      .lit "airborne_unknown_rate", .lit "unknown"] := by
  cases c <;> decide

/-! ## What depends on the data -/

theorem telemetryAge_spec {row : StgRow} {a : ActivityRow} (h : activityRow pg row = some a) :
    elapsed row.processedAt row.lastContactAt = some a.telemetryAgeSeconds := by
  unfold activityRow at h
  simp only [Option.bind_eq_bind, Option.bind_eq_some_iff, Option.some.injEq] at h
  obtain ⟨_, -, _, -, _, hage, rfl⟩ := h
  exact hage

theorem negative_elapsed {p c : Timestamptz} {age : Option Numeric} (h : elapsed (some p) (some c) = some age) :
    negative age = true ↔ ¬ timestamptzLe c p := by
  unfold elapsed at h
  obtain ⟨seconds, hseconds, rfl⟩ := Option.map_eq_some_iff.mp h
  unfold secondsBetween at hseconds
  split at hseconds
  · next a b =>
    split at hseconds
    · cases hseconds
      simp only [negative, floatLt, timestamptzLe, decide_eq_true_eq, not_le]
      rw [div_lt_iff₀ (by norm_num), zero_mul]
      norm_cast
      omega
    · cases hseconds
  · cases hseconds

theorem relationships_iff (dbt : GenericTests) (h : dbtRun pg forDim forFact forQuality = some m) :
    dbt.relationships (m.dim.map fun d => some d.icao24) (m.fact.map fun a => some a.icao24) = 0 ↔
      ¬ Violated pg forDim forFact now .relationshipsFactAircraftStateIcao24 := by
  obtain ⟨⟨activity, hactivity, hdim⟩, hfact, -⟩ := dbtRun_spec h
  have hicao : ∀ {s : Snapshot} {rows : List ActivityRow}, s.telemetry.mapM (factRow pg) = some rows →
      rows.map (fun a => a.icao24) = s.telemetry.map fun r => stagedIcao24 pg r.icao24 :=
    fun hrows => map_of_mapM hrows fun r _ a ha => (factRow_spec ha).2.1
  have hdims : ∀ x, (∃ d ∈ m.dim, d.icao24 = x) ↔ ∃ r ∈ forDim.telemetry, stagedIcao24 pg r.icao24 = x := by
    intro x
    rw [← List.mem_map, ← List.mem_map, hdim, dim_icao24, List.mem_dedup, hicao hactivity]
  have hfacts : ∀ P : Text → Prop,
      (∀ a ∈ m.fact, P a.icao24) ↔ ∀ r ∈ forFact.telemetry, P (stagedIcao24 pg r.icao24) := by
    intro P
    rw [← List.forall_mem_map (P := P), hicao hfact, List.forall_mem_map]
  rw [relationships_map, hfacts fun x => ∃ d ∈ m.dim, d.icao24 = x]
  simp only [hdims, Violated, not_exists, not_and, not_forall, not_not, exists_prop]

theorem observationDate_iff (dbt : GenericTests) (h : dbtRun pg forDim forFact forQuality = some m) :
    dbt.notNull (m.quality.map fun q => q.observationDate) = 0 ↔
      ¬ Violated pg forDim forFact now .notNullMartTelemetryQualityObservationDate := by
  obtain ⟨-, hfact, hquality⟩ := dbtRun_spec h
  rw [dbt.notNull_eq_zero, List.forall_mem_map]
  simp only [Violated, not_exists, not_and]
  constructor
  · intro hnotNull r hr hnone
    obtain ⟨a, ha, hra⟩ := exists_of_mem_mapM hfact hr
    obtain ⟨q, hq, -, hbucket⟩ := fact_shown hquality ha
    have hsome := hnotNull q hq
    have hdate : q.observationDate = (rawBucket pg r).1 := by
      rw [← bucket_of_raw hra, ← hbucket]
      rfl
    rw [hdate, rawBucket, hnone] at hsome
    cases hsome
  · intro hheard q hq
    obtain ⟨eqs, p, heqs, hp, rfl⟩ := exists_joined hquality hq
    have hdate : ∀ {b : Bucket}, b = (qualityRow p).bucket → (qualityRow p).observationDate = b.1 := by
      rintro b rfl
      rfl
    rcases bucket_origin heqs (side_of_joined heqs hp) with ⟨a, ha, hbucket⟩ | ⟨l, -, hbucket⟩
    · obtain ⟨r, hr, hra⟩ := exists_of_mem_result hfact ha
      rw [hdate hbucket, bucket_of_raw hra, rawBucket]
      obtain ⟨-, -, -, -, -, hcontact⟩ := factRow_spec hra
      cases hlast : a.lastContactAt with
      | none => exact absurd (hcontact.trans (congrArg some hlast)) (hheard r hr)
      | some t => simp [hcontact, hlast]
    · rw [hdate hbucket]
      rfl

theorem negativeAge_iff {r : SourceRow} {a : ActivityRow} (h : factRow pg r = some a) :
    negativeAge a = true ↔ ProcessedEarly pg r := by
  obtain ⟨row, hrow, ha⟩ := Option.bind_eq_some_iff.mp h
  obtain ⟨-, -, -, -, -, -, hcontact, -, -, hprocessed⟩ := stgRow_spec hrow
  have hage := telemetryAge_spec ha
  unfold negativeAge ProcessedEarly
  rw [← hprocessed, hcontact]
  cases hp : row.processedAt with
  | none =>
    have hnone : a.telemetryAgeSeconds = none := by simpa [hp, elapsed, eq_comm] using hage
    simp [hnone, negative]
  | some processed =>
    cases hc : row.lastContactAt with
    | none =>
      have hnone : a.telemetryAgeSeconds = none := by simpa [hp, hc, elapsed, eq_comm] using hage
      simp [hnone, negative]
    | some contact =>
      rw [hp, hc] at hage
      rw [negative_elapsed hage]
      simp

theorem invalidCoordinates_iff {r : SourceRow} {row : StgRow} (h : stgRow pg r = some row) :
    invalidCoordinates row = true ↔ OutOfBounds pg r := by
  obtain ⟨hlongitude, hlatitude, -⟩ := stgRow_measured h
  unfold invalidCoordinates OutOfBounds
  rw [hlongitude, hlatitude, Bool.or_eq_true]
  simp

theorem invalidIcao24_iff {r : SourceRow} {row : StgRow} (h : stgRow pg r = some row) :
    invalidIcao24 row = true ↔ ¬ isIcao24 (stagedIcao24 pg r.icao24) := by
  obtain ⟨-, -, hicao, -⟩ := stgRow_spec h
  unfold invalidIcao24
  rw [hicao]
  simp

theorem singular_iff {ρ : Type} {f : SourceRow → Option ρ} {rows : List ρ} {bad : ρ → Bool} {P : SourceRow → Prop}
    (h : now.telemetry.mapM f = some rows) (hbad : ∀ r row, f r = some row → (bad row = true ↔ P r)) :
    rows.countP bad = 0 ↔ ¬ ∃ r ∈ now.telemetry, P r := by
  rw [List.countP_eq_zero, forall_of_mapM (P := fun r => ¬ P r) h fun r _ row hrow => not_congr (hbad r row hrow)]
  simp

/-! ## The suite as a whole -/

theorem failures_eq_zero (dbt : GenericTests) (hrun : dbtRun pg forDim forFact forQuality = some m)
    (hviews : views pg now = some v) (t : TestId) :
    t.failures dbt m now v = 0 ↔ ¬ Violated pg forDim forFact now t := by
  obtain ⟨hstaged, hactivity⟩ := views_spec hviews
  obtain ⟨-, hfact, -⟩ := dbtRun_spec hrun
  -- Most columns are never null, in the schema or in what a model makes of it.
  cases t <;> try exact iff_of_true notNull_map not_false
  case uniqueRawTelemetryIngestionId => exact iff_of_true (unique_map.mpr now.ids_nodup) not_false
  case uniqueExtractionLogRequestId => exact iff_of_true (unique_map.mpr now.requests_nodup) not_false
  case uniqueStgOpenskyStatesIngestionId =>
    exact iff_of_true (unique_map.mpr (staged_ids_nodup hviews)) not_false
  case acceptedValuesStgOpenskyStatesOnGround =>
    exact iff_of_true (dbt.acceptedValues_eq_zero.mpr fun b _ => by cases b <;> decide) not_false
  case uniqueIntAircraftActivityIngestionId =>
    exact iff_of_true (unique_map.mpr (rows_ids_nodup hactivity)) not_false
  case acceptedValuesIntAircraftActivityVerticalRateCategory =>
    exact iff_of_true (acceptedValues_map.mpr fun a _ => mem_verticalRateCategory _) not_false
  case acceptedValuesIntAircraftActivityAircraftActivityStatus =>
    exact iff_of_true (acceptedValues_map.mpr fun a _ => mem_activityStatus _) not_false
  case uniqueDimAircraftIcao24 => exact iff_of_true (unique_map.mpr (dim_icao24_nodup hrun)) not_false
  case uniqueFactAircraftStateIngestionId =>
    exact iff_of_true (unique_map.mpr (rows_ids_nodup hfact)) not_false
  case relationshipsFactAircraftStateIcao24 => exact relationships_iff dbt hrun
  case notNullMartTelemetryQualityObservationDate => exact observationDate_iff dbt hrun
  case assertNonNegativeTelemetryAge => exact singular_iff hactivity fun _ _ => negativeAge_iff
  case assertValidCoordinates => exact singular_iff hstaged fun _ _ => invalidCoordinates_iff
  case assertValidIcao24 => exact singular_iff hstaged fun _ _ => invalidIcao24_iff

/-- Whatever the worker has written and in whatever order the models were built, a test of the suite passes
exactly if it is none of the five whose rows are there. -/
theorem data_test_passes_iff (dbt : GenericTests) (hrun : dbtRun pg forDim forFact forQuality = some m)
    (hviews : views pg now = some v) (t : TestId) :
    t.status dbt m now v = .pass ↔ ¬ Violated pg forDim forFact now t := by
  rw [TestId.status, status_eq_pass]
  exact failures_eq_zero dbt hrun hviews t

end

/-! ## An aircraft that was not heard -/

/-- The tables over one event and one poll. -/
def SnapshotOf (e : TelemetryEvent) (s : Snapshot) : Prop :=
  ∃ table, exec (storeBatch sampleEnv) emptyTable [⟨heardAt, none, [e]⟩] = some table ∧
    s = .of table ⟨[heardLog], List.nodup_singleton _⟩

/-- The contacts of the rows that the tables are built from. -/
def contactsOf (s : Snapshot) : List (Option (Option Timestamptz)) :=
  s.telemetry.map fun r => writtenServer.epoch (r.payload.get (.lit "last_contact" (Eq.refl true)))

theorem snapshotOf_computed (e : TelemetryEvent) (contacts : List (Option (Option Timestamptz)))
    (h : ((exec (storeBatch sampleEnv) emptyTable [⟨heardAt, none, [e]⟩]).bind fun table =>
      let s := Snapshot.of table ⟨[heardLog], List.nodup_singleton _⟩
      (dbtRun writtenServer s s s).bind fun _ => (views writtenServer s).map fun _ => contactsOf s) = some contacts) :
    ∃ s m v, SnapshotOf e s ∧ dbtRun writtenServer s s s = some m ∧ views writtenServer s = some v ∧
      contactsOf s = contacts := by
  obtain ⟨table, htable, h⟩ := Option.bind_eq_some_iff.mp h
  obtain ⟨m, hm, h⟩ := Option.bind_eq_some_iff.mp h
  obtain ⟨v, hv, h⟩ := Option.map_eq_some_iff.mp h
  exact ⟨_, m, v, ⟨table, htable, rfl⟩, hm, hv, h⟩

/-- An event without a `last_contact` fails the test of the mart, and the foreign key holds. -/
theorem data_test_passes_iff_silent : ∃ s m v, SnapshotOf (sampleEvent sampleId) s ∧
    dbtRun writtenServer s s s = some m ∧ views writtenServer s = some v ∧
    TestId.status byQuery m s v .relationshipsFactAircraftStateIcao24 = .pass ∧
    TestId.status byQuery m s v .notNullMartTelemetryQualityObservationDate ≠ .pass := by
  obtain ⟨s, m, v, hs, hm, hv, hcontacts⟩ := snapshotOf_computed (sampleEvent sampleId) [some none] (by decide +kernel)
  refine ⟨s, m, v, hs, hm, hv, (data_test_passes_iff byQuery hm hv _).mpr ?_, fun hpass => ?_⟩
  · rintro ⟨r, hr, hnone⟩
    exact hnone r hr rfl
  · have hmem : some none ∈ contactsOf s := by
      rw [hcontacts]
      exact List.mem_cons_self
    obtain ⟨r, hr, hnone⟩ := List.mem_map.mp hmem
    exact (data_test_passes_iff byQuery hm hv _).mp hpass ⟨r, hr, hnone⟩

end FlightPulse.Analytics
