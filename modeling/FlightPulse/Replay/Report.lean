import Mathlib.Data.Prod.Lex
import FlightPulse.Analytics.Grain
import FlightPulse.Lib.Rounding

/-!
# The quality section of the report (`replay/report.py`)

The report reads the row that its query puts first. Where nothing was heard in the
latest hour, or an observation has no time, this is a row without counters or without
an hour.
-/

open Lib Lib.Sql Lib.Python Lib.Postgres Lib.Rounding Lib.Run
open scoped List

namespace FlightPulse.Replay

open Analytics Ingestion Worker

/-! ## The query -/

/-- What the connection leads to. -/
inductive Database where
  | unreachable
  | noMart
  | mart (rows : List TelemetryQuality)

/-- `observation_date DESC, observation_hour DESC`; nulls come first then. -/
def sortKey (b : Bucket) : WithTop (WithBot (WithTop ℤ)) ×ₗ WithTop ℤ :=
  toLex (nullsLargest (b.1.map Date.rank), nullsLargest b.2)

/-- `loads` says which dates psycopg can turn into a `datetime.date`; another one is an error. -/
def fetchTelemetryQuality (loads : Date → Bool) : Database → Option (Option TelemetryQuality)
  | .unreachable | .noMart => some none
  | .mart rows =>
    match (orderByDesc (fun q : TelemetryQuality => sortKey q.bucket) rows).head? with
    | none => some none
    | some row => if row.observationDate.all loads then some (some row) else none

/-! ## What is printed -/

structure QualitySection where
  observationDate : Option Date
  observationHour : Option ℤ
  totalObservations : Option ℕ
  avgFreshness : Option Numeric
  p50Freshness : Option Double
  p95Freshness : Option Double
  maxFreshness : Option Numeric
  retryDuplicateCount : Option ℤ
  invalidRate : ℚ
  failedExtractionCycles : Option ℕ
  extractionCycles : Option ℕ

/-- A null is `None`, and `none` is the TypeError of a sum with it. -/
def invalidRate (quality : TelemetryQuality) : Option ℚ := do
  let latitude ← quality.invalidLatitudeCount
  let longitude ← quality.invalidLongitudeCount
  let velocity ← quality.invalidVelocityCount
  let invalidTotal := latitude + longitude + velocity
  match quality.totalObservations with
  | none | some 0 => some 0
  | some total => some (toDigits 3 (binary64 (100 * invalidTotal / total)))

/-- The lines of `print_report` under this heading; without a row there are none. -/
def qualitySection : Option TelemetryQuality → Option (Option QualitySection)
  | none => some none
  | some quality => do
    let rate ← invalidRate quality
    some <| some
      { observationDate := quality.observationDate
        observationHour := quality.observationHour
        totalObservations := quality.totalObservations
        avgFreshness := quality.avgTelemetryAgeSeconds
        p50Freshness := quality.p50TelemetryAgeSeconds
        p95Freshness := quality.p95TelemetryAgeSeconds
        maxFreshness := quality.maxTelemetryAgeSeconds
        retryDuplicateCount := quality.retryDuplicateCount
        invalidRate := rate
        failedExtractionCycles := quality.failedExtractionCycles
        extractionCycles := quality.extractionCycles }

/-! ## The latest hour -/

/-- Where an hour stands among the others. -/
def moment (d : Date) (h : ℤ) : WithBot (WithTop ℤ) ×ₗ ℤ := toLex (d.rank, h)

/-- The row has a date and an hour, and none has later ones. -/
def IsLatest (rows : List TelemetryQuality) (q : TelemetryQuality) : Prop :=
  ∃ d h, q.observationDate = some d ∧ q.observationHour = some h ∧
    ∀ q' ∈ rows, ∀ d' h', q'.observationDate = some d' → q'.observationHour = some h' → moment d' h' ≤ moment d h

/-- The row that is read is the latest one, and its section is printed. -/
def ReportsLatest (loads : Date → Bool) (rows : List TelemetryQuality) : Prop :=
  ∃ q ∈ rows, fetchTelemetryQuality loads (.mart rows) = some (some q) ∧ IsLatest rows q ∧
    ∃ s, qualitySection (some q) = some (some s)

/-- The bucket that is sorted first was observed, and has an hour and a date that can be loaded. -/
def LatestObserved (loads : Date → Bool) (observed polled : List Bucket) : Prop :=
  ∃ b ∈ observed, Full b ∧ b.1.all loads ∧ ∀ b' ∈ observed ++ polled, sortKey b' ≤ sortKey b

/-! ## The order -/

theorem sortKey_injective : Function.Injective sortKey := by
  rintro ⟨d, h⟩ ⟨d', h'⟩ hkey
  obtain ⟨hdate, hhour⟩ := Prod.mk.inj (toLex.injective hkey)
  exact Prod.ext (Option.map_injective Date.rank_injective (nullsLargest_injective hdate))
    (nullsLargest_injective hhour)

theorem sortKey_full {d d' : Date} {h h' : ℤ} :
    sortKey (some d', some h') ≤ sortKey (some d, some h) ↔ moment d' h' ≤ moment d h := by
  unfold sortKey moment
  rw [Prod.Lex.le_iff, Prod.Lex.le_iff]
  simp [nullsLargest]

/-! ## The rows of the mart -/

variable {pg : Server} {fact : List ActivityRow} {extractionLog : List LogRow} {quality : List TelemetryQuality}
  {q : TelemetryQuality} {loads : Date → Bool}

theorem bucket_of_row (h : martTelemetryQuality pg fact extractionLog = some quality) (hq : q ∈ quality) :
    q.bucket ∈ fact.map bucket ++ extractionLog.map (logBucket pg) := by
  obtain ⟨eqs, p, heqs, hp, rfl⟩ := exists_joined h hq
  rw [List.mem_append, List.mem_map, List.mem_map]
  exact bucket_origin heqs (side_of_joined heqs hp)

theorem row_of_bucket (h : martTelemetryQuality pg fact extractionLog = some quality) {b : Bucket}
    (hb : b ∈ fact.map bucket ++ extractionLog.map (logBucket pg)) : ∃ q ∈ quality, q.bucket = b := by
  rcases List.mem_append.mp hb with hb | hb
  · obtain ⟨a, ha, rfl⟩ := List.mem_map.mp hb
    obtain ⟨q, hq, -, hbucket⟩ := fact_shown h ha
    exact ⟨q, hq, hbucket⟩
  · obtain ⟨l, hl, rfl⟩ := List.mem_map.mp hb
    obtain ⟨q, hq, -, hbucket⟩ := poll_shown h hl
    exact ⟨q, hq, hbucket⟩

theorem section_isSome (h : martTelemetryQuality pg fact extractionLog = some quality) (hq : q ∈ quality) :
    (∃ s, qualitySection (some q) = some (some s)) ↔ q.totalObservations.isSome := by
  obtain ⟨eqs, ⟨⟨fq, eq⟩, dc⟩, -, -, rfl⟩ := exists_joined h hq
  cases fq with
  | none => simp [qualitySection, invalidRate, qualityRow]
  | some fq =>
    refine iff_of_true ?_ (by simp [qualityRow])
    have hrate : ∃ rate, invalidRate (qualityRow ((some fq, eq), dc)) = some rate := by
      unfold invalidRate qualityRow
      simp only [Option.map_some, Option.bind_eq_bind, Option.bind_some]
      split <;> exact ⟨_, rfl⟩
    obtain ⟨rate, hrate⟩ := hrate
    rw [qualitySection, hrate]
    exact ⟨_, rfl⟩

theorem observed_of_total (h : martTelemetryQuality pg fact extractionLog = some quality) (hq : q ∈ quality)
    (htotal : q.totalObservations.isSome) : q.bucket ∈ fact.map bucket := by
  obtain ⟨eqs, p, heqs, hp, rfl⟩ := exists_joined h hq
  obtain ⟨fq, hmem, -, hbucket⟩ := fact_side heqs hp htotal
  rw [hbucket]
  exact List.mem_map.mpr (mem_factQuality hmem)

theorem total_of_full (h : martTelemetryQuality pg fact extractionLog = some quality) (hq : q ∈ quality)
    (hfull : Full q.bucket) (hobserved : q.bucket ∈ fact.map bucket) : q.totalObservations.isSome := by
  obtain ⟨eqs, p, heqs, hp, rfl⟩ := exists_joined h hq
  have hside := side_of_joined heqs hp
  rcases mem_fullJoin hside with ⟨fq, -, hfq⟩ | ⟨eq, -, heq⟩
  · simp [qualityRow, hfq]
  · -- The join would have found the bucket of the observation.
    have hkey : (qualityRow p).bucket ∈ (factQuality pg fact).map (·.bucket) := by
      rw [factQuality_buckets, List.mem_dedup]
      exact hobserved
    obtain ⟨fq, hmem, hfq⟩ := List.mem_map.mp hkey
    have heqBucket := (coalesced hside).2 eq (by rw [heq])
    rw [heq] at hside
    have hnot : sameBucket fq.bucket eq.bucket = false := fullJoin_unmatched hside hmem
    rw [hfq, ← heqBucket, sameBucket_self hfull] at hnot
    cases hnot

/-! ## What is read -/

theorem fetch_spec {rows : List TelemetryQuality}
    (h : fetchTelemetryQuality loads (.mart rows) = some (some q)) :
    q ∈ rows ∧ (∀ q' ∈ rows, sortKey q'.bucket ≤ sortKey q.bucket) ∧ q.observationDate.all loads := by
  rw [fetchTelemetryQuality] at h
  split at h
  · cases h
  · next row hrow =>
    split at h
    · next hloads =>
      obtain rfl := Option.some.inj (Option.some.inj h)
      obtain ⟨hmem, hfirst⟩ := head_orderByDesc hrow
      exact ⟨hmem, hfirst, hloads⟩
    · cases h

theorem fetch_of_first {rows : List TelemetryQuality} (hne : rows ≠ [])
    (hloads : ∀ q ∈ rows, (∀ q' ∈ rows, sortKey q'.bucket ≤ sortKey q.bucket) → q.observationDate.all loads) :
    ∃ q, fetchTelemetryQuality loads (.mart rows) = some (some q) := by
  obtain ⟨row, hrow⟩ := exists_head_orderByDesc (fun q : TelemetryQuality => sortKey q.bucket) hne
  obtain ⟨hmem, hfirst⟩ := head_orderByDesc hrow
  refine ⟨row, ?_⟩
  rw [fetchTelemetryQuality, hrow]
  exact if_pos (hloads row hmem hfirst)

theorem isLatest_of_first {rows : List TelemetryQuality} (hfull : Full q.bucket)
    (hfirst : ∀ q' ∈ rows, sortKey q'.bucket ≤ sortKey q.bucket) : IsLatest rows q := by
  obtain ⟨d, hd⟩ := Option.isSome_iff_exists.mp hfull.1
  obtain ⟨h, hh⟩ := Option.isSome_iff_exists.mp hfull.2
  refine ⟨d, h, hd, hh, fun q' hq' d' h' hd' hh' => ?_⟩
  have hbucket : q.bucket = (some d, some h) := Prod.ext hd hh
  have hbucket' : q'.bucket = (some d', some h') := Prod.ext hd' hh'
  have hle := hfirst q' hq'
  rw [hbucket, hbucket'] at hle
  exact sortKey_full.mp hle

theorem latestObserved_of_reports (h : martTelemetryQuality pg fact extractionLog = some quality)
    (hreports : ReportsLatest loads quality) :
    LatestObserved loads (fact.map bucket) (extractionLog.map (logBucket pg)) := by
  obtain ⟨q, hq, hfetch, ⟨d, hour, hd, hhour, -⟩, hsection⟩ := hreports
  obtain ⟨-, hfirst, hloads⟩ := fetch_spec hfetch
  refine ⟨q.bucket, observed_of_total h hq ((section_isSome h hq).mp hsection), ?_, hloads, fun b hb => ?_⟩
  · exact ⟨by rw [TelemetryQuality.bucket, hd]; rfl, by rw [TelemetryQuality.bucket, hhour]; rfl⟩
  · obtain ⟨q', hq', rfl⟩ := row_of_bucket h hb
    exact hfirst q' hq'

theorem reports_of_latestObserved (h : martTelemetryQuality pg fact extractionLog = some quality)
    (hlatest : LatestObserved loads (fact.map bucket) (extractionLog.map (logBucket pg)))
    {rows : List TelemetryQuality} (hrows : rows ~ quality) : ReportsLatest loads rows := by
  obtain ⟨b, hb, hfull, hloads, hle⟩ := hlatest
  obtain ⟨shown, hshown, hbucket⟩ := row_of_bucket h (List.mem_append_left _ hb)
  rw [← hrows.mem_iff] at hshown
  -- Whatever row is sorted first has this bucket.
  have hfirst : ∀ q ∈ rows, (∀ q' ∈ rows, sortKey q'.bucket ≤ sortKey q.bucket) → q.bucket = b := by
    intro q hq hq'
    apply sortKey_injective
    apply le_antisymm (hle _ (bucket_of_row h (hrows.mem_iff.mp hq)))
    rw [← hbucket]
    exact hq' shown hshown
  have hloaded : ∀ q ∈ rows, (∀ q' ∈ rows, sortKey q'.bucket ≤ sortKey q.bucket) → q.observationDate.all loads := by
    intro q hq hq'
    have heq := congrArg Prod.fst (hfirst q hq hq')
    rw [← heq] at hloads
    exact hloads
  obtain ⟨q, hfetch⟩ := fetch_of_first (List.ne_nil_of_mem hshown) hloaded
  obtain ⟨hq, hq', -⟩ := fetch_spec hfetch
  obtain rfl := hfirst q hq hq'
  have hmem := hrows.mem_iff.mp hq
  exact ⟨q, hq, hfetch, isLatest_of_first hfull hq', (section_isSome h hmem).mpr (total_of_full h hmem hfull hb)⟩

theorem mart_of_built {rawTelemetry : List SourceRow} {marts : Marts}
    (h : buildMarts pg rawTelemetry extractionLog = some marts) :
    marts.fact.map bucket = rawTelemetry.map (rawBucket pg) ∧
      martTelemetryQuality pg marts.fact extractionLog = some marts.quality := by
  unfold buildMarts at h
  simp only [Option.bind_eq_bind, Option.bind_eq_some_iff, Option.some.injEq] at h
  obtain ⟨-, -, fact, hfact, -, -, quality, hquality, rfl⟩ := h
  rw [factAircraftState_eq] at hfact
  exact ⟨buckets_of_raw hfact, hquality⟩

/-- However the rows of the mart lie, the latest one is reported exactly when the bucket that is sorted first
was observed. -/
theorem reports_latest_iff (loads : Date → Bool) {rawTelemetry : List SourceRow} {marts : Marts}
    (h : buildMarts pg rawTelemetry extractionLog = some marts) :
    (∀ rows, rows ~ marts.quality → ReportsLatest loads rows) ↔
      LatestObserved loads (rawTelemetry.map (rawBucket pg)) (extractionLog.map (logBucket pg)) := by
  obtain ⟨hbuckets, hquality⟩ := mart_of_built h
  rw [← hbuckets]
  exact ⟨fun hreports => latestObserved_of_reports hquality (hreports _ (List.Perm.refl _)),
    fun hlatest _ hrows => reports_of_latestObserved hquality hlatest hrows⟩

/-! ## An hour that heard nothing -/

/-- The years 1 to 9999, in days from the first of the year 2000. -/
def pythonDate : Date → Bool
  | .day n => -730119 ≤ n && n ≤ 2921939
  | _ => false

/-- A poll of the hour after that failed. -/
def outageLog : LogRow :=
  { heardLog with
    requestId := upperId
    extractionStartedAt := .at 841057200000000
    extractionCompletedAt := some (.at 841057201000000)
    recordCount := none
    success := false
    errorMessage := some (.lit "HTTP 502")
    loggedAt := .at 841057201000000 }

/-- The tables over one event and a log. -/
def TablesOf (e : TelemetryEvent) (extractionLog : List LogRow) (marts : Marts) : Prop :=
  ∃ table, exec (storeBatch sampleEnv) emptyTable [⟨heardAt, none, [e]⟩] = some table ∧
    buildMarts writtenServer (table.rows.map sourceRow) extractionLog = some marts

/-- The buckets of the facts, that of the row that is read, and whether its section can be printed. -/
structure Reported where
  observed : List Bucket
  read : Option (Option Bucket)
  printed : Bool
deriving DecidableEq

def reportOf (marts : Marts) : Reported :=
  let fetched := fetchTelemetryQuality pythonDate (.mart marts.quality)
  { observed := marts.fact.map bucket
    read := fetched.map fun q => q.map TelemetryQuality.bucket
    printed := (fetched.bind qualitySection).isSome }

theorem tablesOf_computed (e : TelemetryEvent) (extractionLog : List LogRow) (report : Reported)
    (h : ((exec (storeBatch sampleEnv) emptyTable [⟨heardAt, none, [e]⟩]).bind fun table =>
      (buildMarts writtenServer (table.rows.map sourceRow) extractionLog).map reportOf) = some report) :
    ∃ marts, TablesOf e extractionLog marts ∧ reportOf marts = report := by
  obtain ⟨table, hexec, h⟩ := Option.bind_eq_some_iff.mp h
  obtain ⟨marts, hmarts, h⟩ := Option.map_eq_some_iff.mp h
  exact ⟨marts, ⟨table, hexec, hmarts⟩, h⟩

theorem heard_hour_reported : ∃ marts, TablesOf (contactEvent 1787738400) [heardLog] marts ∧
    ∀ rows, rows ~ marts.quality → ReportsLatest pythonDate rows := by
  obtain ⟨marts, htables, hreport⟩ := tablesOf_computed (contactEvent 1787738400) [heardLog]
    ⟨[(some (.day 9734), some 10)], some (some (some (.day 9734), some 10)), true⟩ (by decide +kernel)
  refine ⟨marts, htables, ?_⟩
  obtain ⟨table, -, hmarts⟩ := htables
  have hfacts : marts.fact.map bucket = [(some (.day 9734), some 10)] := congrArg Reported.observed hreport
  have hpolled : [heardLog].map (logBucket writtenServer) = [(some (.day 9734), some 10)] := by decide +kernel
  refine (reports_latest_iff pythonDate hmarts).mpr ?_
  rw [← (mart_of_built hmarts).1, hfacts, hpolled]
  refine ⟨_, List.mem_singleton_self _, ⟨rfl, rfl⟩, by decide, fun b hb => ?_⟩
  obtain rfl : b = (some (.day 9734), some 10) := by simpa using hb
  exact le_rfl

/-- The row of the hour that only has a failed poll is read, and the sum of its counters raises. -/
theorem outage_hour_raises : ∃ marts, TablesOf (contactEvent 1787738400) [heardLog, outageLog] marts ∧
    reportOf marts = ⟨[(some (.day 9734), some 10)], some (some (some (.day 9734), some 11)), false⟩ ∧
      ¬ ∀ rows, rows ~ marts.quality → ReportsLatest pythonDate rows := by
  obtain ⟨marts, htables, hreport⟩ := tablesOf_computed (contactEvent 1787738400) [heardLog, outageLog]
    ⟨[(some (.day 9734), some 10)], some (some (some (.day 9734), some 11)), false⟩ (by decide +kernel)
  refine ⟨marts, htables, hreport, fun hreports => ?_⟩
  obtain ⟨q, -, hfetch, -, s, hsection⟩ := hreports marts.quality (List.Perm.refl _)
  have hnot : ((fetchTelemetryQuality pythonDate (.mart marts.quality)).bind qualitySection).isSome = false :=
    congrArg Reported.printed hreport
  rw [hfetch, Option.bind_some, hsection] at hnot
  cases hnot

end FlightPulse.Replay
