import FlightPulse.Analytics.Grain

/-!
# What the counters of the quality mart count (`marts/mart_telemetry_quality.sql`)

Five of the six counters test the values of the payload. The one of the velocities
tests `velocity_kmh`, and a velocity just below zero has been rounded to zero there.
-/

open Lib Lib.Sql Lib.Python Lib.Pydantic Lib.Postgres Lib.Run
open scoped List

namespace FlightPulse.Analytics

open Ingestion Worker

/-! ## Defects of a payload -/

def absent : Option Jsonb → Bool
  | none | some .null => true
  | _ => false

/-- Null, or only spaces. -/
def blank : Option Jsonb → Bool
  | none | some .null => true
  | some (.str t) => t.chars.all (· = ' ')
  | _ => false

def beyond (bound : ℚ) : Option Jsonb → Bool
  | some (.num q _) => q < -bound || bound < q
  | _ => false

def belowZero : Option Jsonb → Bool
  | some (.num q _) => q < 0
  | _ => false

def countIn (pg : Server) (rows : List DbRow) (b : Bucket) (defect : Jsonb → Bool) : ℕ :=
  rows.countP fun r => rawBucket pg (sourceRow r) = b && defect r.payload

structure CountsDefects (pg : Server) (rows : List DbRow) (q : TelemetryQuality) : Prop where
  missingCallsign : q.missingCallsignCount =
    some (countIn pg rows q.bucket fun p => blank (p.get (.lit "callsign" (Eq.refl true))))
  missingOriginCountry : q.missingOriginCountryCount =
    some (countIn pg rows q.bucket fun p => blank (p.get (.lit "origin_country" (Eq.refl true))))
  missingPosition : q.missingPositionCount =
    some (countIn pg rows q.bucket fun p =>
      absent (p.get (.lit "latitude" (Eq.refl true))) || absent (p.get (.lit "longitude" (Eq.refl true))))
  invalidLatitude : q.invalidLatitudeCount =
    some (countIn pg rows q.bucket fun p => beyond 90 (p.get (.lit "latitude" (Eq.refl true))))
  invalidLongitude : q.invalidLongitudeCount =
    some (countIn pg rows q.bucket fun p => beyond 180 (p.get (.lit "longitude" (Eq.refl true))))
  invalidVelocity : q.invalidVelocityCount =
    some (countIn pg rows q.bucket fun p => belowZero (p.get (.lit "velocity_mps" (Eq.refl true))))

/-- Every bucket with a payload has a row, and the row of every such bucket has the right counters. -/
structure DefectsCounted (pg : Server) (rows : List DbRow) (quality : List TelemetryQuality) : Prop where
  shown : ∀ r ∈ rows, ∃ q ∈ quality, q.totalObservations.isSome ∧ q.bucket = rawBucket pg (sourceRow r)
  counted : ∀ q ∈ quality, q.totalObservations.isSome → CountsDefects pg rows q

/-- The measurements are exact rationals. -/
structure Exact (pg : Server) : Prop where
  toDouble : ∀ q, pg.toDouble q = some (.finite q)
  float8Mul : ∀ p q, pg.float8Mul (.finite p) (.finite q) = some (.finite (p * q))
  toNumeric : ∀ q, pg.toNumeric (.finite q) = .finite q

/-- So little below zero that the kilometres per hour are rounded to zero. -/
def slightlyBelowZero : Option Jsonb → Bool
  | some (.num q _) => -1 / 720 < q && q < 0
  | _ => false

variable {pg : Server}

/-! ## Derived values -/

theorem roundHalfAway_neg {q : ℚ} : roundHalfAway q < 0 ↔ q ≤ -1 / 2 := by
  unfold roundHalfAway
  split
  · next hq =>
    refine iff_of_false ?_ (by linarith)
    rw [not_lt]
    exact Int.floor_nonneg.mpr (by linarith)
  · next hq =>
    have hint : ∀ z : ℤ, z < 0 ↔ z ≤ -1 := by omega
    rw [hint, Int.ceil_le]
    push_cast
    constructor <;> intro h <;> linarith

/-- `velocity_kmh < 0` in metres per second. -/
theorem negative_velocity (hexact : Exact pg) (v : ℚ) :
    (kilometresPerHour pg (.finite v)).map (fun x => negative (some x)) = some (decide (v ≤ -1 / 720)) := by
  unfold kilometresPerHour
  simp only [hexact.toDouble, hexact.float8Mul, hexact.toNumeric, Option.bind_eq_bind, Option.bind_some,
    Option.map_some, Option.some.injEq]
  have hround : ((roundHalfAway (v * (36 / 10) * 10 ^ 2) : ℚ) / 10 ^ 2 < 0) ↔ v ≤ -1 / 720 := by
    rw [div_lt_iff₀ (by norm_num), zero_mul, Int.cast_lt_zero, roundHalfAway_neg]
    constructor <;> intro h <;> linarith
  simp only [negative, roundNumeric, floatLt, hround]

theorem cleanedText_isNone {j : Jsonb} (h : j = .null ∨ ∃ t, j = .str t) :
    (cleanedText pg (some j)).isNone = blank (some j) := by
  rcases h with rfl | ⟨t, rfl⟩
  · rfl
  · have htrim : (Text.trim t).chars = [] ↔ ∀ c ∈ t.chars, (decide (c = ' ')) = true := trimBy_eq_nil
    unfold cleanedText
    simp only [Server.text, Option.map_some, nullIfEmpty, blank]
    by_cases hall : ∀ c ∈ t.chars, decide (c = ' ') = true
    · rw [if_pos (htrim.mpr hall), List.all_eq_true.mpr hall]
      rfl
    · rw [if_neg (fun h => hall (htrim.mp h)), Bool.eq_false_iff.mpr fun h => hall (List.all_eq_true.mp h)]
      rfl

/-! ## The fields of a stored payload -/

variable {env : Env} {now : Timestamptz} {e : TelemetryEvent} {row : Row} {r : DbRow} {a : ActivityRow}

theorem jsonOf_str {x : Option PyStr} {j : Jsonb} (h : jsonOf (dumpOption .str x) = some j) :
    j = .null ∨ ∃ t, j = .str t := by
  cases x with
  | none => exact .inl (Option.some.inj h).symm
  | some s =>
    unfold jsonOf dumpOption at h
    rw [dumps, Option.bind_some, jsonbIn] at h
    obtain ⟨t, -, rfl⟩ := Option.map_eq_some_iff.mp h
    exact .inr ⟨t, rfl⟩

theorem stored_measurement (hexact : Exact pg) (hrow : eventToRow e = some row) (hr : env.admitRow now row = some r)
    {k : String} {x : Option PyFloat} (hmem : (k, dumpOption .float x) ∈ eventFields.zip (dumpedValues e))
    (h : nulFree k.toList) :
    (r.payload.get (.lit k h) = some .null ∧ pg.double (r.payload.get (.lit k h)) = some none) ∨
      ∃ q, r.payload.get (.lit k h) = some (.num q (writtenWithFraction q)) ∧
        pg.double (r.payload.get (.lit k h)) = some (some (.finite q)) := by
  obtain ⟨j, hj, hget⟩ := stored_get hrow (admitRow_spec hr) hmem h
  have hget' : r.payload.get (.lit k h) = some j := hget
  rw [hget']
  rcases jsonOf_float hj with ⟨-, rfl⟩ | ⟨q, -, rfl⟩
  · exact .inl ⟨rfl, rfl⟩
  · refine .inr ⟨q, rfl, ?_⟩
    rw [double_num, hexact.toDouble]
    rfl

theorem stored_text (hrow : eventToRow e = some row) (hr : env.admitRow now row = some r)
    {k : String} {x : Option PyStr} (hmem : (k, dumpOption .str x) ∈ eventFields.zip (dumpedValues e))
    (h : nulFree k.toList) :
    (cleanedText pg (r.payload.get (.lit k h))).isNone = blank (r.payload.get (.lit k h)) := by
  obtain ⟨j, hj, hget⟩ := stored_get hrow (admitRow_spec hr) hmem h
  have hget' : r.payload.get (.lit k h) = some j := hget
  rw [hget']
  exact cleanedText_isNone (jsonOf_str hj)

/-! ## The row of a stored payload -/

/-- What the fact table makes of a measurement. -/
structure Keeps (j : Option Jsonb) (x : Option Double) : Prop where
  null : x.isNone = absent j
  range : ∀ bound, outside bound x = beyond bound j

theorem keeps_measurement (hexact : Exact pg) (hrow : eventToRow e = some row)
    (hr : env.admitRow now row = some r) {k : String} {x : Option PyFloat}
    (hmem : (k, dumpOption .float x) ∈ eventFields.zip (dumpedValues e)) (h : nulFree k.toList)
    {y : Option Double} (hy : pg.double (r.payload.get (.lit k h)) = some y) : Keeps (r.payload.get (.lit k h)) y := by
  rcases stored_measurement hexact hrow hr hmem h with ⟨hget, hdouble⟩ | ⟨q, hget, hdouble⟩
  · obtain rfl := Option.some.inj (hy.symm.trans hdouble)
    rw [hget]
    exact ⟨rfl, fun _ => rfl⟩
  · obtain rfl := Option.some.inj (hy.symm.trans hdouble)
    rw [hget]
    exact ⟨rfl, fun _ => rfl⟩

/-- The velocities that count are those that are not rounded to zero. -/
theorem counted_velocity (hexact : Exact pg) (hrow : eventToRow e = some row)
    (hr : env.admitRow now row = some r) (ha : factRow pg (sourceRow r) = some a) :
    negative a.velocityKmh = (belowZero (r.payload.get (.lit "velocity_mps")) &&
      !slightlyBelowZero (r.payload.get (.lit "velocity_mps"))) := by
  obtain ⟨s, hs, hactivity⟩ := Option.bind_eq_some_iff.mp ha
  obtain ⟨-, -, -, hkmh⟩ := activityRow_spec hactivity
  obtain ⟨-, -, -, -, hvelocity⟩ := stgRow_measured hs
  have hvelocity' : pg.double (r.payload.get (.lit "velocity_mps")) = some s.velocityMps := hvelocity
  rcases stored_measurement hexact hrow hr (k := "velocity_mps") (x := e.velocityMps)
    (by simp [eventFields, dumpedValues]) (by decide) with ⟨hget, hdouble⟩ | ⟨v, hget, hdouble⟩
  · rw [← Option.some.inj (hdouble.symm.trans hvelocity')] at hkmh
    rw [hget, ← Option.some.inj hkmh]
    rfl
  · rw [← Option.some.inj (hdouble.symm.trans hvelocity')] at hkmh
    obtain ⟨x, hx, hxa⟩ := Option.map_eq_some_iff.mp hkmh
    have hnegative := negative_velocity hexact v
    rw [hx, Option.map_some, hxa, Option.some.injEq] at hnegative
    rw [hnegative, hget]
    unfold belowZero slightlyBelowZero
    by_cases hv : v ≤ -1 / 720
    · have hneg : v < 0 := by linarith
      simp [hv, hneg, not_lt.mpr hv]
    · by_cases hneg : v < 0 <;> simp [hv, hneg, not_le.mp hv]

/-! ## Counters -/

variable {fact : List ActivityRow} {extractionLog : List LogRow} {quality : List TelemetryQuality} {rows : List DbRow}

/-- Every stored row comes from an event. -/
def FromEvents (env : Env) (rows : List DbRow) : Prop :=
  ∀ r ∈ rows, ∃ now e row, eventToRow e = some row ∧ env.admitRow now row = some r

theorem count_payloads (hfact : (rows.map sourceRow).mapM (factRow pg) = some fact) {p : ActivityRow → Bool}
    {defect : Jsonb → Bool} (hp : ∀ r ∈ rows, ∀ a, factRow pg (sourceRow r) = some a → p a = defect r.payload)
    (b : Bucket) : (rowsOf fact b).countP p = countIn pg rows b defect := by
  have hsource : rows.mapM (fun r => factRow pg (sourceRow r)) = some fact := by
    rwa [List.mapM_map] at hfact
  unfold rowsOf countIn
  rw [List.countP_filter]
  apply countP_of_mapM hsource
  intro r hr a ha
  rw [hp r hr a ha, bucket_of_raw ha, Bool.and_comm]

theorem mem_factQuality_counts {fq : FactQuality} (h : fq ∈ factQuality pg fact) :
    fq.missingCallsignCount = (rowsOf fact fq.bucket).countP (fun a => a.callsign.isNone) ∧
      fq.missingOriginCountryCount = (rowsOf fact fq.bucket).countP (fun a => a.originCountry.isNone) ∧
      fq.missingPositionCount = (rowsOf fact fq.bucket).countP (fun a => a.latitude.isNone || a.longitude.isNone) ∧
      fq.invalidLatitudeCount = (rowsOf fact fq.bucket).countP (fun a => outside 90 a.latitude) ∧
      fq.invalidLongitudeCount = (rowsOf fact fq.bucket).countP (fun a => outside 180 a.longitude) ∧
      fq.invalidVelocityCount = (rowsOf fact fq.bucket).countP (fun a => negative a.velocityKmh) := by
  unfold factQuality groupBy at h
  rw [List.map_map] at h
  obtain ⟨b, -, rfl⟩ := List.mem_map.mp h
  exact ⟨rfl, rfl, rfl, rfl, rfl, rfl⟩

def roundedToZero (p : Jsonb) : Bool := slightlyBelowZero (p.get (.lit "velocity_mps" (Eq.refl true)))

/-- What the counter misses is exactly what was rounded to zero. -/
theorem countIn_belowZero (pg : Server) (rows : List DbRow) (b : Bucket) :
    countIn pg rows b (fun p => belowZero (p.get (.lit "velocity_mps")) && !roundedToZero p) +
      countIn pg rows b roundedToZero = countIn pg rows b fun p => belowZero (p.get (.lit "velocity_mps")) := by
  have hbelow : ∀ p : Jsonb, roundedToZero p = true → belowZero (p.get (.lit "velocity_mps")) = true := by
    intro p hp
    unfold roundedToZero slightlyBelowZero at hp
    split at hp
    · next q hq =>
      rw [hq]
      exact (Bool.and_eq_true_iff.mp hp).2
    · cases hp
  have hsplit := countP_and_not_add
    (p := fun r : DbRow => rawBucket pg (sourceRow r) = b && belowZero (r.payload.get (.lit "velocity_mps")))
    (q := fun r => rawBucket pg (sourceRow r) = b && roundedToZero r.payload) ?_ rows
  · unfold countIn
    rw [← hsplit]
    congr 1
    apply List.countP_congr
    intro r _
    cases decide (rawBucket pg (sourceRow r) = b) <;> simp
  · intro r hr
    obtain ⟨hb, hslow⟩ := Bool.and_eq_true_iff.mp hr
    exact Bool.and_eq_true_iff.mpr ⟨hb, hbelow _ hslow⟩

theorem counters_of_side {p : (Option FactQuality × Option ExtractionQuality) × Option DuplicateCheck}
    {fq : FactQuality} (hfq : p.1.1 = some fq) :
    (qualityRow p).missingCallsignCount = some fq.missingCallsignCount ∧
      (qualityRow p).missingOriginCountryCount = some fq.missingOriginCountryCount ∧
      (qualityRow p).missingPositionCount = some fq.missingPositionCount ∧
      (qualityRow p).invalidLatitudeCount = some fq.invalidLatitudeCount ∧
      (qualityRow p).invalidLongitudeCount = some fq.invalidLongitudeCount ∧
      (qualityRow p).invalidVelocityCount = some fq.invalidVelocityCount := by
  unfold qualityRow
  simp only [hfq, Option.map_some, and_self]

theorem counters_of_payloads (hexact : Exact pg) (hrows : FromEvents env rows)
    (hfact : (rows.map sourceRow).mapM (factRow pg) = some fact) {fq : FactQuality} (hfq : fq ∈ factQuality pg fact) :
    fq.missingCallsignCount = countIn pg rows fq.bucket (fun p => blank (p.get (.lit "callsign"))) ∧
      fq.missingOriginCountryCount = countIn pg rows fq.bucket (fun p => blank (p.get (.lit "origin_country"))) ∧
      fq.missingPositionCount = countIn pg rows fq.bucket
        (fun p => absent (p.get (.lit "latitude")) || absent (p.get (.lit "longitude"))) ∧
      fq.invalidLatitudeCount = countIn pg rows fq.bucket (fun p => beyond 90 (p.get (.lit "latitude"))) ∧
      fq.invalidLongitudeCount = countIn pg rows fq.bucket (fun p => beyond 180 (p.get (.lit "longitude"))) ∧
      fq.invalidVelocityCount = countIn pg rows fq.bucket
        (fun p => belowZero (p.get (.lit "velocity_mps")) && !roundedToZero p) := by
  obtain ⟨hcallsign, hcountry, hposition, hlatitude, hlongitude, hvelocity⟩ := mem_factQuality_counts hfq
  have htexts : ∀ r ∈ rows, ∀ a, factRow pg (sourceRow r) = some a →
      a.callsign.isNone = blank (r.payload.get (.lit "callsign")) ∧
        a.originCountry.isNone = blank (r.payload.get (.lit "origin_country")) := by
    intro r hr a ha
    obtain ⟨now, e, row, hrow, hadmit⟩ := hrows r hr
    obtain ⟨s, hs, hactivity⟩ := Option.bind_eq_some_iff.mp ha
    obtain ⟨rfl, -⟩ := activityRow_spec hactivity
    obtain ⟨-, -, -, hcallsign, hcountry, -⟩ := stgRow_spec hs
    rw [hcallsign, hcountry]
    exact ⟨stored_text hrow hadmit (x := e.callsign) (by simp [eventFields, dumpedValues]) _,
      stored_text hrow hadmit (x := e.originCountry) (by simp [eventFields, dumpedValues]) _⟩
  have hplaces : ∀ r ∈ rows, ∀ a, factRow pg (sourceRow r) = some a →
      Keeps (r.payload.get (.lit "latitude")) a.latitude ∧ Keeps (r.payload.get (.lit "longitude")) a.longitude := by
    intro r hr a ha
    obtain ⟨now, e, row, hrow, hadmit⟩ := hrows r hr
    obtain ⟨-, -, hlatitude, hlongitude, -⟩ := factRow_spec ha
    exact ⟨keeps_measurement hexact hrow hadmit (x := e.latitude) (by simp [eventFields, dumpedValues]) _ hlatitude,
      keeps_measurement hexact hrow hadmit (x := e.longitude) (by simp [eventFields, dumpedValues]) _ hlongitude⟩
  refine ⟨?_, ?_, ?_, ?_, ?_, ?_⟩
  · rw [hcallsign]
    exact count_payloads hfact (fun r hr a ha => (htexts r hr a ha).1) _
  · rw [hcountry]
    exact count_payloads hfact (fun r hr a ha => (htexts r hr a ha).2) _
  · rw [hposition]
    refine count_payloads hfact (fun r hr a ha => ?_) _
    rw [(hplaces r hr a ha).1.null, (hplaces r hr a ha).2.null]
  · rw [hlatitude]
    exact count_payloads hfact (fun r hr a ha => (hplaces r hr a ha).1.range 90) _
  · rw [hlongitude]
    exact count_payloads hfact (fun r hr a ha => (hplaces r hr a ha).2.range 180) _
  · rw [hvelocity]
    refine count_payloads hfact (fun r hr a ha => ?_) _
    obtain ⟨now, e, row, hrow, hadmit⟩ := hrows r hr
    exact counted_velocity hexact hrow hadmit ha

theorem countsDefects_iff (hexact : Exact pg) (hrows : FromEvents env rows)
    (hfact : (rows.map sourceRow).mapM (factRow pg) = some fact)
    (hquality : martTelemetryQuality pg fact extractionLog = some quality) {q : TelemetryQuality} (hq : q ∈ quality)
    (htotal : q.totalObservations.isSome) : CountsDefects pg rows q ↔ countIn pg rows q.bucket roundedToZero = 0 := by
  obtain ⟨eqs, p, heqs, hp, rfl⟩ := exists_joined hquality hq
  obtain ⟨fq, hmem, hfq, hbucket⟩ := fact_side heqs hp htotal
  obtain ⟨hcallsign, hcountry, hposition, hlatitude, hlongitude, hvelocity⟩ :=
    counters_of_payloads hexact hrows hfact hmem
  obtain ⟨hcallsign', hcountry', hposition', hlatitude', hlongitude', hvelocity'⟩ := counters_of_side hfq
  have hsplit := countIn_belowZero pg rows fq.bucket
  rw [hbucket]
  constructor
  · intro h
    have hright := Option.some.inj (hvelocity'.symm.trans h.invalidVelocity)
    rw [hbucket, hvelocity] at hright
    omega
  · intro h
    rw [h, Nat.add_zero] at hsplit
    constructor <;> rw [hbucket]
    case missingCallsign => rw [hcallsign', hcallsign]
    case missingOriginCountry => rw [hcountry', hcountry]
    case missingPosition => rw [hposition', hposition]
    case invalidLatitude => rw [hlatitude', hlatitude]
    case invalidLongitude => rw [hlongitude', hlongitude]
    case invalidVelocity => rw [hvelocity', hvelocity, hsplit]

theorem shown_payloads (hfact : (rows.map sourceRow).mapM (factRow pg) = some fact)
    (hquality : martTelemetryQuality pg fact extractionLog = some quality) (hr : r ∈ rows) :
    ∃ q ∈ quality, q.totalObservations.isSome ∧ q.bucket = rawBucket pg (sourceRow r) := by
  obtain ⟨a, ha, hfactRow⟩ := exists_of_mem_mapM hfact (List.mem_map_of_mem hr)
  rw [← bucket_of_raw hfactRow]
  exact fact_shown hquality ha

theorem defectsCounted_iff (hexact : Exact pg) (hrows : FromEvents env rows)
    (hfact : (rows.map sourceRow).mapM (factRow pg) = some fact)
    (hquality : martTelemetryQuality pg fact extractionLog = some quality) :
    DefectsCounted pg rows quality ↔ ∀ r ∈ rows, roundedToZero r.payload = false := by
  constructor
  · intro h r hr
    obtain ⟨q, hq, htotal, hbucket⟩ := shown_payloads hfact hquality hr
    have hzero := (countsDefects_iff hexact hrows hfact hquality hq htotal).mp (h.counted q hq htotal)
    have hnot := List.countP_eq_zero.mp hzero r hr
    simpa [hbucket] using hnot
  · intro h
    refine ⟨fun r hr => shown_payloads hfact hquality hr, fun q hq htotal => ?_⟩
    rw [countsDefects_iff hexact hrows hfact hquality hq htotal]
    apply List.countP_eq_zero.mpr
    intro r hr
    simp [h r hr]

theorem fromEvents_of_stored {stores : List Store} {table : RawTelemetry}
    (hexec : exec (storeBatch env) emptyTable stores = some table) : FromEvents env table.rows := by
  intro r hr
  obtain ⟨s, -, e, -, row, hrow, hadmit⟩ := mem_stored hexec r hr
  exact ⟨s.now, e, row, hrow, hadmit⟩

/-- The counters are right exactly when no stored velocity is so little below zero. -/
theorem defects_counted_iff (hexact : Exact pg) {stores : List Store} {table : RawTelemetry}
    (hexec : exec (storeBatch env) emptyTable stores = some table)
    (hfact : factAircraftState pg (table.rows.map sourceRow) = some fact)
    (hquality : martTelemetryQuality pg fact extractionLog = some quality) :
    DefectsCounted pg table.rows quality ↔
      ∀ r ∈ table.rows, slightlyBelowZero (r.payload.get (.lit "velocity_mps" (Eq.refl true))) = false := by
  rw [factAircraftState_eq] at hfact
  exact defectsCounted_iff hexact (fromEvents_of_stored hexec) hfact hquality

/-! ## One event -/

/-- Exact on finite values. -/
def exactServer : Server :=
  { writtenServer with
    float8Mul := fun x y =>
      match x, y with
      | .finite p, .finite q => some (.finite (p * q))
      | _, _ => none }

theorem exactServer_exact : Exact exactServer := ⟨fun _ => rfl, fun _ _ => rfl, fun _ => rfl⟩

def movingEvent (velocityMps : ℚ) : TelemetryEvent :=
  { contactEvent 1787738400 with velocityMps := some (.finite velocityMps) }

/-- The mart over a table of one event and an empty log. -/
def MovingMart (velocityMps : ℚ) (table : RawTelemetry) (fact : List ActivityRow) (quality : List TelemetryQuality) :
    Prop :=
  exec (storeBatch sampleEnv) emptyTable [⟨heardAt, none, [movingEvent velocityMps]⟩] = some table ∧
    factAircraftState exactServer (table.rows.map sourceRow) = some fact ∧
      martTelemetryQuality exactServer fact [] = some quality

theorem movingMart_computed (v : ℚ) (slow : List Bool)
    (h : ((exec (storeBatch sampleEnv) emptyTable [⟨heardAt, none, [movingEvent v]⟩]).bind fun table =>
      (factAircraftState exactServer (table.rows.map sourceRow)).bind fun fact =>
        (martTelemetryQuality exactServer fact []).map fun _ => table.rows.map fun r => roundedToZero r.payload) =
          some slow) :
    ∃ table fact quality, MovingMart v table fact quality ∧
      table.rows.map (fun r => roundedToZero r.payload) = slow := by
  obtain ⟨table, hexec, h⟩ := Option.bind_eq_some_iff.mp h
  obtain ⟨fact, hfact, h⟩ := Option.bind_eq_some_iff.mp h
  obtain ⟨quality, hquality, h⟩ := Option.map_eq_some_iff.mp h
  exact ⟨table, fact, quality, ⟨hexec, hfact, hquality⟩, h⟩

theorem reversing_counted : ∃ table fact quality, MovingMart (-3) table fact quality ∧
    DefectsCounted exactServer table.rows quality := by
  obtain ⟨table, fact, quality, hmart, hslow⟩ := movingMart_computed (-3) [false] (by decide +kernel)
  obtain ⟨hexec, hfact, hquality⟩ := hmart
  refine ⟨table, fact, quality, ⟨hexec, hfact, hquality⟩, ?_⟩
  refine (defects_counted_iff exactServer_exact hexec hfact hquality).mpr fun r hr => ?_
  obtain ⟨r', hrows, hnot⟩ := List.map_eq_singleton_iff.mp hslow
  rw [hrows] at hr
  obtain rfl := List.mem_singleton.mp hr
  exact hnot

/-- An accepted and stored velocity of a millimetre per second below zero is not counted. -/
theorem slow_reversing_not_counted :
    TelemetryEvent.modelValidate sampleEnv.lax (movingEvent (-1 / 1000)).modelDump = .ok (movingEvent (-1 / 1000)) ∧
      ∃ table fact quality, MovingMart (-1 / 1000) table fact quality ∧
        ¬ DefectsCounted exactServer table.rows quality := by
  obtain ⟨table, fact, quality, hmart, hslow⟩ := movingMart_computed (-1 / 1000) [true] (by decide +kernel)
  obtain ⟨hexec, hfact, hquality⟩ := hmart
  refine ⟨TelemetryEvent.modelValidate_modelDump _ _, table, fact, quality, ⟨hexec, hfact, hquality⟩, ?_⟩
  rw [factAircraftState_eq] at hfact
  rw [defectsCounted_iff exactServer_exact (fromEvents_of_stored hexec) hfact hquality]
  intro hnone
  obtain ⟨r, hrows, hslow⟩ := List.map_eq_singleton_iff.mp hslow
  have hnot := hnone r (by rw [hrows]; exact List.mem_singleton_self r)
  rw [hslow] at hnot
  cases hnot

end FlightPulse.Analytics
