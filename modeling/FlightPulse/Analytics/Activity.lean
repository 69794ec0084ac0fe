import FlightPulse.Analytics.Staging

/-!
# The activity of an aircraft (`intermediate/int_aircraft_activity.sql`)

One row for each row of the staging view, with the fields that are derived from it.
The fact table has the same columns (`marts/core/fact_aircraft_state.sql`).
-/

open Lib Lib.Python Lib.Postgres

namespace FlightPulse.Analytics

inductive VerticalRateCategory where
  | unknown
  | climbing
  | descending
  | stable
deriving DecidableEq

inductive ActivityStatus where
  | onGround
  | unknown
  | airborneUnknownRate
  | climbing
  | descending
  | levelFlight
deriving DecidableEq

structure ActivityRow extends StgRow where
  altitudeKm : Option Numeric
  velocityKmh : Option Numeric
  verticalRateCategory : VerticalRateCategory
  aircraftActivityStatus : ActivityStatus
  observationDate : Option Date
  observationHour : Option ℤ
  telemetryAgeSeconds : Option Numeric

/-! ## Derived fields -/

/-- A function of a column: null for a null. -/
def nullable {α β : Type} (f : α → Option β) : Option α → Option (Option β)
  | none => some none
  | some a => (f a).map some

def verticalRateCategory : Option Double → VerticalRateCategory
  | none => .unknown
  | some rate =>
    if floatLt (.finite 1) rate then .climbing
    else if floatLt rate (.finite (-1)) then .descending
    else .stable

def aircraftActivityStatus : Option Bool → Option Double → ActivityStatus
  | some true, _ => .onGround
  | none, _ => .unknown
  | some false, none => .airborneUnknownRate
  | some false, some rate =>
    if floatLt (.finite 1) rate then .climbing
    else if floatLt rate (.finite (-1)) then .descending
    else .levelFlight

section

variable (pg : Server)

/-- `round((x / 1000.0)::numeric, 3)`. -/
def kilometres (x : Double) : Option Numeric := do
  let divisor ← pg.toDouble 1000
  let quotient ← pg.float8Div x divisor
  some (roundNumeric 3 (pg.toNumeric quotient))

/-- `round((x * 3.6)::numeric, 2)`. -/
def kilometresPerHour (x : Double) : Option Numeric := do
  let factor ← pg.toDouble (36 / 10)
  let product ← pg.float8Mul x factor
  some (roundNumeric 2 (pg.toNumeric product))

/-- `extract(epoch from (a - b))`. -/
def elapsed : Option Timestamptz → Option Timestamptz → Option (Option Numeric)
  | some a, some b => (secondsBetween a b).map some
  | _, _ => some none

def activityRow (s : StgRow) : Option ActivityRow := do
  let altitudeKm ← nullable (kilometres pg) (s.geoAltitudeM.or s.baroAltitudeM)
  let velocityKmh ← nullable (kilometresPerHour pg) s.velocityMps
  let telemetryAgeSeconds ← elapsed s.processedAt s.lastContactAt
  some
    { s with
      altitudeKm := altitudeKm
      velocityKmh := velocityKmh
      verticalRateCategory := verticalRateCategory s.verticalRateMps
      aircraftActivityStatus := aircraftActivityStatus s.onGround s.verticalRateMps
      observationDate := s.lastContactAt.map pg.date
      observationHour := s.lastContactAt.bind pg.hour
      telemetryAgeSeconds := telemetryAgeSeconds }

def intAircraftActivity (rawTelemetry : List SourceRow) : Option (List ActivityRow) := do
  let staged ← stgOpenskyStates pg rawTelemetry
  staged.mapM (activityRow pg)

/-- The fact table has every column of `int_aircraft_activity` and no others. -/
def factAircraftState (rawTelemetry : List SourceRow) : Option (List ActivityRow) :=
  intAircraftActivity pg rawTelemetry

end

/-! ## One row in, one row out -/

/-- Both steps for one row. -/
def factRow (pg : Server) (r : SourceRow) : Option ActivityRow := (stgRow pg r).bind (activityRow pg)

theorem factAircraftState_eq (pg : Server) (rawTelemetry : List SourceRow) :
    factAircraftState pg rawTelemetry = rawTelemetry.mapM (factRow pg) := by
  unfold factAircraftState intAircraftActivity stgOpenskyStates
  exact mapM_bind _ _ _

variable {pg : Server}

theorem activityRow_spec {s : StgRow} {a : ActivityRow} (h : activityRow pg s = some a) :
    a.toStgRow = s ∧ a.observationDate = s.lastContactAt.map pg.date ∧
      a.observationHour = s.lastContactAt.bind pg.hour ∧
      nullable (kilometresPerHour pg) s.velocityMps = some a.velocityKmh := by
  unfold activityRow at h
  simp only [Option.bind_eq_bind, Option.bind_eq_some_iff, Option.some.injEq] at h
  obtain ⟨_, -, _, hvelocity, _, -, rfl⟩ := h
  exact ⟨rfl, rfl, rfl, hvelocity⟩

/-- Every derived field of the row has a value. -/
structure Derives (pg : Server) (s : StgRow) : Prop where
  altitude : (nullable (kilometres pg) (s.geoAltitudeM.or s.baroAltitudeM)).isSome
  velocity : (nullable (kilometresPerHour pg) s.velocityMps).isSome
  age : (elapsed s.processedAt s.lastContactAt).isSome

theorem activityRow_isSome {s : StgRow} : (activityRow pg s).isSome ↔ Derives pg s := by
  constructor
  · intro h
    obtain ⟨a, ha⟩ := Option.isSome_iff_exists.mp h
    unfold activityRow at ha
    simp only [Option.bind_eq_bind, Option.bind_eq_some_iff, Option.some.injEq] at ha
    obtain ⟨_, haltitude, _, hvelocity, _, hage, -⟩ := ha
    exact ⟨by rw [haltitude]; rfl, by rw [hvelocity]; rfl, by rw [hage]; rfl⟩
  · intro h
    obtain ⟨_, haltitude⟩ := Option.isSome_iff_exists.mp h.altitude
    obtain ⟨_, hvelocity⟩ := Option.isSome_iff_exists.mp h.velocity
    obtain ⟨_, hage⟩ := Option.isSome_iff_exists.mp h.age
    unfold activityRow
    simp only [haltitude, hvelocity, hage, Option.bind_eq_bind, Option.bind_some, Option.isSome_some]

end FlightPulse.Analytics
