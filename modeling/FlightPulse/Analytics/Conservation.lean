import FlightPulse.Analytics.Marts
import FlightPulse.Analytics.NullSafety

/-!
# No observation is lost between the tables

Every count of a mart adds up to the rows it counts, whatever is null. What can keep
the tables from being built is one row with an expression that has no value.
-/

open Lib Lib.Sql Lib.Python Lib.Pydantic Lib.Postgres
open scoped List

namespace FlightPulse.Analytics

open Ingestion Worker

variable {pg : Server} {rawTelemetry : List SourceRow} {extractionLog : List LogRow} {fact : List ActivityRow}

/-! ## Rows that are kept one by one -/

theorem factRow_spec {r : SourceRow} {a : ActivityRow} (h : factRow pg r = some a) :
    a.ingestionId = r.ingestionId ∧ a.icao24 = stagedIcao24 pg r.icao24 ∧
      pg.double (r.payload.get (.lit "latitude")) = some a.latitude ∧
      pg.double (r.payload.get (.lit "longitude")) = some a.longitude ∧
      a.source = r.source ∧ pg.epoch (r.payload.get (.lit "last_contact")) = some a.lastContactAt := by
  obtain ⟨s, hs, ha⟩ := Option.bind_eq_some_iff.mp h
  obtain ⟨rfl, -⟩ := activityRow_spec ha
  obtain ⟨hid, hsource, hicao, -, -, -, hcontact, -⟩ := stgRow_spec hs
  obtain ⟨hlongitude, hlatitude, -⟩ := stgRow_measured hs
  exact ⟨hid, hicao, hlatitude, hlongitude, hsource, hcontact⟩

/-- The bucket of a raw row, from the `last_contact` of its payload. -/
def rawBucket (pg : Server) (r : SourceRow) : Bucket :=
  let lastContactAt := (pg.epoch (r.payload.get (.lit "last_contact" (Eq.refl true)))).join
  (lastContactAt.map pg.date, lastContactAt.bind pg.hour)

theorem bucket_of_raw {r : SourceRow} {a : ActivityRow} (h : factRow pg r = some a) : bucket a = rawBucket pg r := by
  obtain ⟨s, hs, ha⟩ := Option.bind_eq_some_iff.mp h
  obtain ⟨-, hdate, hhour, -⟩ := activityRow_spec ha
  obtain ⟨-, -, -, -, -, -, hcontact, -⟩ := stgRow_spec hs
  unfold bucket rawBucket
  rw [hdate, hhour, hcontact]
  rfl

theorem buckets_of_raw (h : rawTelemetry.mapM (factRow pg) = some fact) :
    fact.map bucket = rawTelemetry.map (rawBucket pg) :=
  map_of_mapM h fun _ _ _ ha => bucket_of_raw ha

/-! ## `dim_aircraft` -/

theorem dim_joined (activity : List ActivityRow) :
    (leftJoin (fun a m => a.1 = m.icao24) (groupBy (·.icao24) activity) (mostRecent activity)).map Prod.fst =
      groupBy (·.icao24) activity := by
  apply leftJoin_on_key Prod.fst fun m : ActivityRow => m.icao24
  unfold mostRecent
  rw [distinctOn_keys]
  exact List.nodup_dedup _

theorem dim_icao24 (activity : List ActivityRow) :
    (dimAircraft activity).map (·.icao24) = (activity.map (·.icao24)).dedup := by
  rw [← groupBy_keys, ← dim_joined activity]
  unfold dimAircraft
  simp only [List.map_map]
  rfl

theorem dim_counts (activity : List ActivityRow) :
    ((dimAircraft activity).map (·.observationCount)).sum = activity.length := by
  have hcounts : (dimAircraft activity).map (·.observationCount) =
      ((leftJoin (fun a m => a.1 = m.icao24) (groupBy (·.icao24) activity)
        (mostRecent activity)).map Prod.fst).map fun g => g.2.length := by
    unfold dimAircraft
    simp only [List.map_map]
    rfl
  rw [hcounts, dim_joined, sum_groupBy]

/-! ## `mart_aircraft_activity` -/

theorem aircraft_joined (fact activity : List ActivityRow) :
    (leftJoin (fun a d => a.1.1 = d.icao24) (groupBy (fun r => (r.icao24, bucket r)) fact)
      (dimAircraft activity)).map Prod.fst = groupBy (fun r => (r.icao24, bucket r)) fact := by
  apply leftJoin_on_key (fun g : (Text × Bucket) × List ActivityRow => g.1.1) fun d : DimAircraft => d.icao24
  rw [dim_icao24]
  exact List.nodup_dedup _

theorem aircraft_keys (fact activity : List ActivityRow) :
    (martAircraftActivity pg fact (dimAircraft activity)).map
        (fun m => (m.icao24, m.observationDate, m.observationHour)) =
      (fact.map fun r => (r.icao24, bucket r)).dedup := by
  rw [← groupBy_keys, ← aircraft_joined fact activity]
  unfold martAircraftActivity
  simp only [List.map_map]
  rfl

theorem aircraft_counts (fact activity : List ActivityRow) :
    ((martAircraftActivity pg fact (dimAircraft activity)).map (·.observationCount)).sum = fact.length := by
  have hcounts : (martAircraftActivity pg fact (dimAircraft activity)).map (·.observationCount) =
      ((leftJoin (fun a d => a.1.1 = d.icao24) (groupBy (fun r => (r.icao24, bucket r)) fact)
        (dimAircraft activity)).map Prod.fst).map fun g => g.2.length := by
    unfold martAircraftActivity
    simp only [List.map_map]
    rfl
  rw [hcounts, aircraft_joined, sum_groupBy]

/-! ## `mart_airspace_activity` -/

def positioned (r : ActivityRow) : Bool := r.latitude.isSome && r.longitude.isSome

theorem gridded_length {cells : List GriddedRow} (h : gridded fact = some cells) :
    cells.length = fact.countP positioned := by
  induction fact generalizing cells with
  | nil =>
    obtain rfl := Option.some.inj h
    rfl
  | cons r rs ih =>
    unfold gridded at h
    rw [List.countP_cons]
    split at h
    · cases h
    · next hcell =>
      have hnot : positioned r = false := by
        unfold cellOf at hcell
        unfold positioned
        split at hcell
        · split at hcell <;> cases hcell
        · next hnot => cases hlat : r.latitude <;> cases hlon : r.longitude <;> simp_all
      rw [ih h, hnot]
      rfl
    · next cell hcell =>
      have hpos : positioned r = true := by
        unfold cellOf at hcell
        unfold positioned
        split at hcell
        · next hlat hlon =>
          rw [hlat, hlon]
          rfl
        · cases hcell
      obtain ⟨gs, hgs, rfl⟩ := Option.map_eq_some_iff.mp h
      rw [List.length_cons, ih hgs, hpos]
      rfl

theorem airspace_counts {airspace : List AirspaceActivity} (h : martAirspaceActivity pg fact = some airspace) :
    (airspace.map (·.observationCount)).sum = fact.countP positioned := by
  obtain ⟨cells, hcells, rfl⟩ := Option.map_eq_some_iff.mp h
  rw [← gridded_length hcells, ← sum_groupBy fun c : GriddedRow => ((c.latGrid, c.lonGrid), bucket c.row)]
  simp only [List.map_map, Function.comp_def, List.length_map]

/-! ## `mart_telemetry_quality` -/

theorem sameBucket_eq {a b : Bucket} (h : sameBucket a b) : a = b := by
  unfold sameBucket at h
  rw [Bool.and_eq_true, nullEq_iff, nullEq_iff] at h
  obtain ⟨⟨d, hd, hd'⟩, hour, hh, hh'⟩ := h
  exact Prod.ext (hd.trans hd'.symm) (hh.trans hh'.symm)

theorem factQuality_buckets (fact : List ActivityRow) :
    (factQuality pg fact).map (·.bucket) = (fact.map bucket).dedup := by
  rw [← groupBy_keys]
  unfold factQuality
  simp only [List.map_map]
  rfl

theorem factQuality_counts (fact : List ActivityRow) :
    ((factQuality pg fact).map (·.totalObservations)).sum = fact.length := by
  rw [← sum_groupBy bucket fact]
  unfold factQuality
  simp only [List.map_map]
  rfl

theorem duplicateCheck_buckets (fact : List ActivityRow) :
    (duplicateCheck pg fact).map (·.bucket) = (fact.map bucket).dedup := by
  rw [← groupBy_keys]
  unfold duplicateCheck
  simp only [List.map_map]
  rfl

theorem extractionQuality_spec {eqs : List ExtractionQuality} (h : extractionQuality pg extractionLog = some eqs) :
    eqs.map (·.bucket) = (extractionLog.map (logBucket pg)).dedup ∧
      (eqs.map (·.extractionCycles)).sum = extractionLog.length := by
  have hrow : ∀ (g : Bucket × List LogRow) (eq : ExtractionQuality),
      (g.2.mapM extractionDuration).map (fun durations =>
        ({ bucket := g.1
           extractionCycles := g.2.length
           failedExtractionCycles := g.2.countP fun l => !l.success
           extractionReportedRecordCount := aggregate List.sum (g.2.map (·.recordCount))
           avgExtractionDurationSeconds := aggregate pg.avg durations } : ExtractionQuality)) = some eq →
        eq.bucket = g.1 ∧ eq.extractionCycles = g.2.length := by
    intro g eq hg
    obtain ⟨durations, -, rfl⟩ := Option.map_eq_some_iff.mp hg
    exact ⟨rfl, rfl⟩
  constructor
  · rw [← groupBy_keys, map_of_mapM (g := Prod.fst) h fun g _ eq hg => (hrow g eq hg).1]
  · rw [map_of_mapM (g := fun g => g.2.length) h fun g _ eq hg => (hrow g eq hg).2, sum_groupBy]

theorem extraction_matchesOne {eqs : List ExtractionQuality} (h : extractionQuality pg extractionLog = some eqs)
    (fqs : List FactQuality) :
    MatchesOne (fun (fq : FactQuality) (eq : ExtractionQuality) => sameBucket fq.bucket eq.bucket) fqs eqs := by
  apply matchesOne_of_nodup fun eq : ExtractionQuality => eq.bucket
  · rw [(extractionQuality_spec h).1]
    exact List.nodup_dedup _
  · exact fun fq _ eq _ eq' _ heq heq' => (sameBucket_eq heq).symm.trans (sameBucket_eq heq')

/-- The two sides of the outer join. -/
def qualitySides (fqs : List FactQuality) (eqs : List ExtractionQuality) :
    List (Option FactQuality × Option ExtractionQuality) :=
  fullJoin (fun fq eq => sameBucket fq.bucket eq.bucket) fqs eqs

/-- Neither join of the mart drops or multiplies a bucket, on either side. -/
theorem quality_joined {eqs : List ExtractionQuality} (h : extractionQuality pg extractionLog = some eqs)
    (fact : List ActivityRow) :
    (leftJoin matchesCheck (qualitySides (factQuality pg fact) eqs) (duplicateCheck pg fact)).map Prod.fst =
        qualitySides (factQuality pg fact) eqs ∧
      (qualitySides (factQuality pg fact) eqs).filterMap Prod.fst = factQuality pg fact ∧
      (qualitySides (factQuality pg fact) eqs).filterMap Prod.snd ~ eqs := by
  refine ⟨leftJoin_fst ?_, fullJoin_fst (extraction_matchesOne h _), fullJoin_snd ?_⟩
  · apply matchesOne_of_nodup fun dc : DuplicateCheck => dc.bucket
    · rw [duplicateCheck_buckets]
      exact List.nodup_dedup _
    · rintro ⟨fq, eq⟩ _ dc _ dc' _ hdc hdc'
      unfold matchesCheck at hdc hdc'
      cases fq with
      | none => cases hdc
      | some fq => exact (sameBucket_eq hdc).symm.trans (sameBucket_eq hdc')
  · apply matchesOne_of_nodup fun fq : FactQuality => fq.bucket
    · rw [factQuality_buckets]
      exact List.nodup_dedup _
    · exact fun eq _ fq _ fq' _ hfq hfq' => (sameBucket_eq hfq).trans (sameBucket_eq hfq').symm

/-- The bucket of a row of the mart, with `coalesce` over the two sides. -/
def TelemetryQuality.bucket (q : TelemetryQuality) : Bucket := (q.observationDate, q.observationHour)

section

variable {fqs : List FactQuality} {eqs : List ExtractionQuality} {dcs : List DuplicateCheck}

theorem sides_bucket {fq : FactQuality} {eq : ExtractionQuality} (h : (some fq, some eq) ∈ qualitySides fqs eqs) :
    fq.bucket = eq.bucket := by
  unfold qualitySides at h
  have hon := fullJoin_match h
  exact sameBucket_eq hon

theorem coalesced {p : (Option FactQuality × Option ExtractionQuality) × Option DuplicateCheck}
    (h : p.1 ∈ qualitySides fqs eqs) :
    (∀ fq, p.1.1 = some fq → (qualityRow p).bucket = fq.bucket) ∧
      ∀ eq, p.1.2 = some eq → (qualityRow p).bucket = eq.bucket := by
  obtain ⟨⟨fq, eq⟩, dc⟩ := p
  constructor
  · rintro fq' hfq
    obtain rfl : fq = some fq' := hfq
    cases eq with
    | none => simp [qualityRow, TelemetryQuality.bucket]
    | some eq => simp [qualityRow, TelemetryQuality.bucket, sides_bucket h]
  · rintro eq' heq
    obtain rfl : eq = some eq' := heq
    cases fq with
    | none => simp [qualityRow, TelemetryQuality.bucket]
    | some fq => simp [qualityRow, TelemetryQuality.bucket, sides_bucket h]

theorem quality_column {β : Type} (column : TelemetryQuality → Option β)
    (side : Option FactQuality × Option ExtractionQuality → Option β)
    (hfst : (leftJoin matchesCheck (qualitySides fqs eqs) dcs).map Prod.fst = qualitySides fqs eqs)
    (hside : ∀ p, p.1 ∈ qualitySides fqs eqs → column (qualityRow p) = side p.1) :
    ((leftJoin matchesCheck (qualitySides fqs eqs) dcs).map qualityRow).filterMap column =
      (qualitySides fqs eqs).filterMap side := by
  rw [List.filterMap_map]
  conv_rhs => rw [← hfst, List.filterMap_map]
  apply List.filterMap_congr
  intro p hp
  apply hside
  rw [← hfst]
  exact List.mem_map_of_mem hp

end

theorem exists_joined {quality : List TelemetryQuality}
    (h : martTelemetryQuality pg fact extractionLog = some quality) {q : TelemetryQuality} (hq : q ∈ quality) :
    ∃ eqs p, extractionQuality pg extractionLog = some eqs ∧
      p ∈ leftJoin matchesCheck (qualitySides (factQuality pg fact) eqs) (duplicateCheck pg fact) ∧
        qualityRow p = q := by
  obtain ⟨eqs, heqs, rfl⟩ := Option.map_eq_some_iff.mp h
  obtain ⟨p, hp, rfl⟩ := List.mem_map.mp hq
  exact ⟨eqs, p, heqs, hp, rfl⟩

theorem side_of_joined {eqs : List ExtractionQuality} (heqs : extractionQuality pg extractionLog = some eqs)
    {p : (Option FactQuality × Option ExtractionQuality) × Option DuplicateCheck}
    (hp : p ∈ leftJoin matchesCheck (qualitySides (factQuality pg fact) eqs) (duplicateCheck pg fact)) :
    p.1 ∈ qualitySides (factQuality pg fact) eqs := by
  rw [← (quality_joined heqs fact).1]
  exact List.mem_map_of_mem hp

theorem fact_side {eqs : List ExtractionQuality} (heqs : extractionQuality pg extractionLog = some eqs)
    {p : (Option FactQuality × Option ExtractionQuality) × Option DuplicateCheck}
    (hp : p ∈ leftJoin matchesCheck (qualitySides (factQuality pg fact) eqs) (duplicateCheck pg fact))
    (htotal : (qualityRow p).totalObservations.isSome) :
    ∃ fq ∈ factQuality pg fact, p.1.1 = some fq ∧ (qualityRow p).bucket = fq.bucket := by
  obtain ⟨-, hleft, -⟩ := quality_joined heqs fact
  obtain ⟨fq, hfq⟩ : ∃ fq, p.1.1 = some fq := Option.isSome_iff_exists.mp (by simpa [qualityRow] using htotal)
  have hside := side_of_joined heqs hp
  refine ⟨fq, ?_, hfq, (coalesced hside).1 fq hfq⟩
  rw [← hleft]
  exact List.mem_filterMap.mpr ⟨p.1, hside, hfq⟩

theorem quality_totals {quality : List TelemetryQuality}
    (h : martTelemetryQuality pg fact extractionLog = some quality) :
    (quality.filterMap (·.totalObservations)).sum = fact.length ∧
      (quality.filterMap (·.extractionCycles)).sum = extractionLog.length := by
  obtain ⟨eqs, heqs, rfl⟩ := Option.map_eq_some_iff.mp h
  obtain ⟨hfst, hleft, hright⟩ := quality_joined heqs fact
  constructor
  · have hcolumn := quality_column (·.totalObservations) (fun p => p.1.map (·.totalObservations)) hfst
      fun p _ => rfl
    rw [← List.map_filterMap, hleft] at hcolumn
    exact (congrArg List.sum hcolumn).trans (factQuality_counts fact)
  · have hcolumn := quality_column (·.extractionCycles) (fun p => p.2.map (·.extractionCycles)) hfst
      fun p _ => rfl
    rw [← List.map_filterMap] at hcolumn
    rw [← (extractionQuality_spec heqs).2, ← (hright.map _).sum_eq]
    exact congrArg List.sum hcolumn

theorem quality_buckets {quality : List TelemetryQuality}
    (h : martTelemetryQuality pg fact extractionLog = some quality) :
    quality.filterMap (fun q => q.totalObservations.map fun _ => q.bucket) = (fact.map bucket).dedup ∧
      quality.filterMap (fun q => q.extractionCycles.map fun _ => q.bucket) ~
        (extractionLog.map (logBucket pg)).dedup := by
  obtain ⟨eqs, heqs, rfl⟩ := Option.map_eq_some_iff.mp h
  obtain ⟨hfst, hleft, hright⟩ := quality_joined heqs fact
  constructor
  · have hcolumn := quality_column (fun q => q.totalObservations.map fun _ => q.bucket)
      (fun p => p.1.map (·.bucket)) hfst fun p hp => by
        have hbucket := (coalesced hp).1
        cases hfq : p.1.1 with
        | none => simp [qualityRow, hfq]
        | some fq => simpa [qualityRow, hfq] using hbucket fq hfq
    rw [← List.map_filterMap, hleft, factQuality_buckets] at hcolumn
    exact hcolumn
  · have hcolumn := quality_column (fun q => q.extractionCycles.map fun _ => q.bucket)
      (fun p => p.2.map (·.bucket)) hfst fun p hp => by
        have hbucket := (coalesced hp).2
        cases heq : p.1.2 with
        | none => simp [qualityRow, heq]
        | some eq => simpa [qualityRow, heq] using hbucket eq heq
    rw [← List.map_filterMap] at hcolumn
    rw [← (extractionQuality_spec heqs).1]
    exact (List.Perm.of_eq hcolumn).trans (hright.map _)

theorem exists_shown (column : TelemetryQuality → Option ℕ) {quality : List TelemetryQuality} {b : Bucket}
    (h : b ∈ quality.filterMap fun q => (column q).map fun _ => q.bucket) :
    ∃ q ∈ quality, (column q).isSome ∧ q.bucket = b := by
  obtain ⟨q, hq, hbucket⟩ := List.mem_filterMap.mp h
  obtain ⟨count, hcount, hbucket⟩ := Option.map_eq_some_iff.mp hbucket
  exact ⟨q, hq, by rw [hcount]; rfl, hbucket⟩

theorem fact_shown {quality : List TelemetryQuality} (h : martTelemetryQuality pg fact extractionLog = some quality)
    {a : ActivityRow} (ha : a ∈ fact) : ∃ q ∈ quality, q.totalObservations.isSome ∧ q.bucket = bucket a := by
  apply exists_shown (·.totalObservations)
  rw [(quality_buckets h).1, List.mem_dedup]
  exact List.mem_map_of_mem ha

theorem poll_shown {quality : List TelemetryQuality} (h : martTelemetryQuality pg fact extractionLog = some quality)
    {l : LogRow} (hl : l ∈ extractionLog) : ∃ q ∈ quality, q.extractionCycles.isSome ∧ q.bucket = logBucket pg l := by
  apply exists_shown (·.extractionCycles)
  rw [(quality_buckets h).2.mem_iff, List.mem_dedup]
  exact List.mem_map_of_mem hl

/-! ## When the tables can be built -/

/-- Every expression of the models has a value for the row. -/
structure Evaluates (pg : Server) (r : SourceRow) : Prop where
  casts : Casts pg r
  altitude : ∀ geo baro, pg.double (r.payload.get (.lit "geo_altitude_m")) = some geo →
    pg.double (r.payload.get (.lit "baro_altitude_m")) = some baro → (nullable (kilometres pg) (geo.or baro)).isSome
  velocity : ∀ v, pg.double (r.payload.get (.lit "velocity_mps")) = some v →
    (nullable (kilometresPerHour pg) v).isSome
  age : ∀ t, pg.epoch (r.payload.get (.lit "last_contact")) = some t → (elapsed r.processedAt t).isSome
  cell : ∀ latitude longitude, pg.double (r.payload.get (.lit "latitude")) = some (some latitude) →
    pg.double (r.payload.get (.lit "longitude")) = some (some longitude) →
      (floorInt latitude).isSome ∧ (floorInt longitude).isSome

theorem cellOf_isSome {a : ActivityRow} : (cellOf a).isSome ↔
    ∀ latitude longitude, a.latitude = some latitude → a.longitude = some longitude →
      (floorInt latitude).isSome ∧ (floorInt longitude).isSome := by
  unfold cellOf
  split
  · next latitude longitude hlat hlon =>
    rw [hlat, hlon]
    split
    · next hlatGrid hlonGrid => simp [hlatGrid, hlonGrid]
    · next hnone =>
      refine iff_of_false (by simp) fun h => ?_
      obtain ⟨hlatGrid, hlonGrid⟩ := h latitude longitude rfl rfl
      obtain ⟨x, hx⟩ := Option.isSome_iff_exists.mp hlatGrid
      obtain ⟨y, hy⟩ := Option.isSome_iff_exists.mp hlonGrid
      exact hnone x y hx hy
  · next hnone =>
    simp only [Option.isSome_some, true_iff]
    exact fun latitude longitude hlat hlon => absurd hlon (hnone latitude longitude hlat)

theorem evaluates_staged {r : SourceRow} {s : StgRow} (hs : stgRow pg r = some s) :
    Evaluates pg r ↔ Derives pg s ∧ ∀ latitude longitude, s.latitude = some latitude →
      s.longitude = some longitude → (floorInt latitude).isSome ∧ (floorInt longitude).isSome := by
  obtain ⟨-, -, -, -, -, -, hcontact, -, -, hprocessed⟩ := stgRow_spec hs
  obtain ⟨hlon, hlat, hbaro, hgeo, hvelocity⟩ := stgRow_measured hs
  constructor
  · intro h
    refine ⟨⟨h.altitude _ _ hgeo hbaro, h.velocity _ hvelocity, ?_⟩, ?_⟩
    · rw [hprocessed]
      exact h.age _ hcontact
    · intro latitude longitude hlatitude hlongitude
      apply h.cell latitude longitude
      · rw [hlat, hlatitude]
      · rw [hlon, hlongitude]
  · rintro ⟨hderives, hcell⟩
    refine ⟨stgRow_isSome.mp (by rw [hs]; rfl), ?_, ?_, ?_, ?_⟩
    · intro geo baro hgeo' hbaro'
      rw [Option.some.inj (hgeo'.symm.trans hgeo), Option.some.inj (hbaro'.symm.trans hbaro)]
      exact hderives.altitude
    · intro v hv
      rw [Option.some.inj (hv.symm.trans hvelocity)]
      exact hderives.velocity
    · intro t ht
      rw [Option.some.inj (ht.symm.trans hcontact), ← hprocessed]
      exact hderives.age
    · intro latitude longitude hlatitude hlongitude
      apply hcell latitude longitude
      · exact Option.some.inj (hlat.symm.trans hlatitude)
      · exact Option.some.inj (hlon.symm.trans hlongitude)

theorem evaluates_iff {r : SourceRow} : Evaluates pg r ↔ ∃ a, factRow pg r = some a ∧ (cellOf a).isSome := by
  constructor
  · intro h
    obtain ⟨s, hs⟩ := Option.isSome_iff_exists.mp (stgRow_isSome.mpr h.casts)
    obtain ⟨hderives, hcell⟩ := (evaluates_staged hs).mp h
    obtain ⟨a, ha⟩ := Option.isSome_iff_exists.mp (activityRow_isSome.mpr hderives)
    refine ⟨a, Option.bind_eq_some_iff.mpr ⟨s, hs, ha⟩, ?_⟩
    rw [cellOf_isSome, (activityRow_spec ha).1]
    exact hcell
  · rintro ⟨a, hfact, hcell⟩
    obtain ⟨s, hs, ha⟩ := Option.bind_eq_some_iff.mp hfact
    rw [cellOf_isSome, (activityRow_spec ha).1] at hcell
    exact (evaluates_staged hs).mpr ⟨activityRow_isSome.mp (by rw [ha]; rfl), hcell⟩

theorem gridded_isSome : (gridded fact).isSome ↔ ∀ a ∈ fact, (cellOf a).isSome := by
  induction fact with
  | nil => simp [gridded]
  | cons a as ih =>
    unfold gridded
    rw [List.forall_mem_cons, ← ih]
    split
    · next hcell => simp [hcell]
    · next hcell => simp [hcell]
    · next cell hcell => simp [hcell]

theorem extractionQuality_isSome :
    (extractionQuality pg extractionLog).isSome ↔ ∀ l ∈ extractionLog, (extractionDuration l).isSome := by
  unfold extractionQuality
  simp only [mapM_isSome, Option.isSome_map]
  constructor
  · intro h l hl
    obtain ⟨g, hg, hlg⟩ := exists_group (logBucket pg) hl
    exact h g hg l hlg
  · intro h g hg l hl
    exact h l ((mem_group (logBucket pg) hg).mp hl).1

theorem buildMarts_isSome : (buildMarts pg rawTelemetry extractionLog).isSome ↔
    (∀ r ∈ rawTelemetry, Evaluates pg r) ∧ ∀ l ∈ extractionLog, (extractionDuration l).isSome := by
  have hmarts : (buildMarts pg rawTelemetry extractionLog).isSome ↔
      (∃ fact, factAircraftState pg rawTelemetry = some fact ∧ (gridded fact).isSome) ∧
        (extractionQuality pg extractionLog).isSome := by
    have hsame : intAircraftActivity pg rawTelemetry = factAircraftState pg rawTelemetry := rfl
    unfold buildMarts
    rw [hsame]
    cases hfact : factAircraftState pg rawTelemetry with
    | none => simp
    | some fact =>
      unfold martAirspaceActivity martTelemetryQuality
      cases hgridded : gridded fact <;> cases hlog : extractionQuality pg extractionLog <;> simp [hgridded]
  rw [hmarts, extractionQuality_isSome, factAircraftState_eq]
  refine and_congr_left fun _ => ?_
  constructor
  · rintro ⟨fact, hfact, hcells⟩ r hr
    rw [gridded_isSome] at hcells
    obtain ⟨a, ha, har⟩ := exists_of_mem_mapM hfact hr
    exact evaluates_iff.mpr ⟨a, har, hcells a ha⟩
  · intro h
    have hsome : (rawTelemetry.mapM (factRow pg)).isSome := by
      rw [mapM_isSome]
      intro r hr
      obtain ⟨a, ha, -⟩ := evaluates_iff.mp (h r hr)
      rw [ha]
      rfl
    obtain ⟨fact, hfact⟩ := Option.isSome_iff_exists.mp hsome
    refine ⟨fact, hfact, gridded_isSome.mpr fun a ha => ?_⟩
    obtain ⟨r, hr, har⟩ := exists_of_mem_result hfact ha
    obtain ⟨a', ha', hcell⟩ := evaluates_iff.mp (h r hr)
    rwa [Option.some.inj (har.symm.trans ha')]

/-! ## Every count adds up -/

/-- What the tables owe to the rows that they were built from. -/
structure Conserves (pg : Server) (rawTelemetry : List SourceRow) (extractionLog : List LogRow) (m : Marts) :
    Prop where
  factIds : m.fact.map (·.ingestionId) = rawTelemetry.map (·.ingestionId)
  dimKeys : m.dim.map (·.icao24) = (rawTelemetry.map fun r => stagedIcao24 pg r.icao24).dedup
  dimMatches : ∀ a ∈ m.fact, m.dim.countP (fun d => d.icao24 = a.icao24) = 1
  dimCounts : (m.dim.map (·.observationCount)).sum = rawTelemetry.length
  aircraftGroups : m.aircraft.map (fun g => (g.icao24, g.observationDate, g.observationHour)) =
    (m.fact.map fun a => (a.icao24, bucket a)).dedup
  aircraftCounts : (m.aircraft.map (·.observationCount)).sum = rawTelemetry.length
  airspaceCounts : (m.airspace.map (·.observationCount)).sum = rawTelemetry.countP (hasPosition pg)
  qualityGroups : m.quality.filterMap (fun q => q.totalObservations.map fun _ => q.bucket) =
    (m.fact.map bucket).dedup
  qualityCounts : (m.quality.filterMap (·.totalObservations)).sum = rawTelemetry.length
  cycleGroups : m.quality.filterMap (fun q => q.extractionCycles.map fun _ => q.bucket) ~
    (extractionLog.map (logBucket pg)).dedup
  cycleCounts : (m.quality.filterMap (·.extractionCycles)).sum = extractionLog.length

theorem positioned_count (h : rawTelemetry.mapM (factRow pg) = some fact) :
    fact.countP positioned = rawTelemetry.countP (hasPosition pg) := by
  apply countP_of_mapM h
  intro r _ a ha
  obtain ⟨-, -, hlatitude, hlongitude, -⟩ := factRow_spec ha
  unfold positioned hasPosition
  rw [hlatitude, hlongitude]

theorem conserves_of_built {m : Marts} (h : buildMarts pg rawTelemetry extractionLog = some m) :
    Conserves pg rawTelemetry extractionLog m := by
  unfold buildMarts at h
  simp only [Option.bind_eq_bind, Option.bind_eq_some_iff, Option.some.injEq] at h
  obtain ⟨activity, hactivity, fact, hfact, airspace, hairspace, quality, hquality, rfl⟩ := h
  obtain rfl : activity = fact := Option.some.inj (hactivity.symm.trans hfact)
  rw [factAircraftState_eq] at hfact
  have hids := map_of_mapM (h := fun a : ActivityRow => a.ingestionId) (g := fun r : SourceRow => r.ingestionId)
    hfact fun r _ a ha => (factRow_spec ha).1
  have hicao := map_of_mapM (h := fun a : ActivityRow => a.icao24)
    (g := fun r : SourceRow => stagedIcao24 pg r.icao24) hfact fun r _ a ha => (factRow_spec ha).2.1
  have hlength : activity.length = rawTelemetry.length := by
    simpa using congrArg List.length hids
  refine
    { factIds := hids
      dimKeys := by rw [dim_icao24, hicao]
      dimMatches := fun a ha => ?_
      dimCounts := by rw [dim_counts, hlength]
      aircraftGroups := aircraft_keys _ _
      aircraftCounts := by rw [aircraft_counts, hlength]
      airspaceCounts := by rw [airspace_counts hairspace, positioned_count hfact]
      qualityGroups := (quality_buckets hquality).1
      qualityCounts := by rw [(quality_totals hquality).1, hlength]
      cycleGroups := (quality_buckets hquality).2
      cycleCounts := (quality_totals hquality).2 }
  have hone : ((dimAircraft activity).map (·.icao24)).count a.icao24 = 1 := by
    rw [dim_icao24]
    apply List.count_eq_one_of_mem (List.nodup_dedup _)
    exact List.mem_dedup.mpr (List.mem_map_of_mem ha)
  rw [List.count, List.countP_map] at hone
  simpa [Function.comp_def, beq_eq_decide] using hone

/-- Nothing but an expression over one row keeps the counts from adding up. -/
theorem marts_conserve_iff (pg : Server) (rawTelemetry : List SourceRow) (extractionLog : List LogRow) :
    (∃ m, buildMarts pg rawTelemetry extractionLog = some m ∧ Conserves pg rawTelemetry extractionLog m) ↔
      (∀ r ∈ rawTelemetry, Evaluates pg r) ∧ ∀ l ∈ extractionLog, (extractionDuration l).isSome := by
  rw [← buildMarts_isSome, Option.isSome_iff_exists]
  constructor
  · rintro ⟨m, hm, -⟩
    exact ⟨m, hm⟩
  · rintro ⟨m, hm⟩
    exact ⟨m, hm, conserves_of_built hm⟩

/-- One accepted event with a `last_contact` above `bigint`, and there are no tables to add up. -/
theorem far_contact_unbalances : ∃ row r,
    TelemetryEvent.modelValidate sampleEnv.lax (contactEvent (2 ^ 63)).modelDump = .ok (contactEvent (2 ^ 63)) ∧
      eventToRow (contactEvent (2 ^ 63)) = some row ∧ sampleEnv.admitRow (.at 841053600000000) row = some r ∧
      ¬ ∃ m, buildMarts sampleServer [sourceRow r] [] = some m ∧ Conserves sampleServer [sourceRow r] [] m := by
  obtain ⟨row, r, hrow, hr⟩ := contactEvent_stored (n := 2 ^ 63) (by decide +kernel)
  refine ⟨row, r, TelemetryEvent.modelValidate_modelDump _ _, hrow, hr, ?_⟩
  rintro ⟨m, hm, -⟩
  have hbuilt : (buildMarts sampleServer [sourceRow r] []).isSome := by
    rw [hm]
    rfl
  exact far_contact_not_cast hrow hr ((buildMarts_isSome.mp hbuilt).1 _ List.mem_cons_self).casts

end FlightPulse.Analytics
