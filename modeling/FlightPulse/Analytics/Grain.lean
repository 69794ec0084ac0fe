import Mathlib.Logic.Equiv.Nat
import FlightPulse.Analytics.Observations

/-!
# The grain of the quality mart (`marts/mart_telemetry_quality.sql`)

`GROUP BY` puts all nulls in one group, and the joins after it compare buckets with
`=`, for which a null is equal to nothing.
-/

open Lib Lib.Sql Lib.Python Lib.Pydantic Lib.Postgres Lib.Run
open scoped List

namespace FlightPulse.Analytics

open Ingestion Worker

/-! ## The declared grain -/

/-- `(icao24, last_contact_at)`, each counted once. -/
def distinctPairs (rows : List ActivityRow) : ℕ := (rows.map fun a => (a.icao24, a.lastContactAt)).dedup.length

def rowsOf (fact : List ActivityRow) (b : Bucket) : List ActivityRow := fact.filter fun a => bucket a = b

structure HasGrain (fact : List ActivityRow) (quality : List TelemetryQuality) : Prop where
  notNull : ∀ q ∈ quality, q.observationDate.isSome ∧ q.observationHour.isSome
  unique : (quality.map TelemetryQuality.bucket).Nodup
  retries : ∀ q ∈ quality, q.totalObservations.isSome →
    q.retryDuplicateCount = some ((rowsOf fact q.bucket).length - distinctPairs (rowsOf fact q.bucket) : ℤ)

/-- What the text of a `timestamptz` is: another one for another time, and without a bar. -/
structure WritesTimes (pg : Server) : Prop where
  injective : Function.Injective pg.timestamptzOut
  noBar : ∀ t, '|' ∉ (pg.timestamptzOut t).chars

variable {pg : Server} {fact : List ActivityRow} {extractionLog : List LogRow} {quality : List TelemetryQuality}

/-! ## Texts for pairs -/

def pairText (pg : Server) (p : Text × Timestamptz) : Text :=
  (p.1.append (.lit "|" (Eq.refl true))).append (pg.timestamptzOut p.2)

theorem pairText_injective (htimes : WritesTimes pg) : Function.Injective (pairText pg) := by
  rintro ⟨icao24, t⟩ ⟨icao24', t'⟩ h
  have hchars : icao24.chars ++ '|' :: (pg.timestamptzOut t).chars =
      icao24'.chars ++ '|' :: (pg.timestamptzOut t').chars := by
    simpa [pairText, Text.append, Text.lit] using congrArg Text.chars h
  obtain ⟨hicao24, ht⟩ := append_sep_inj_right (htimes.noBar t) (htimes.noBar t') hchars
  have htext : ∀ {u v : Text}, u.chars = v.chars → u = v := by
    rintro ⟨_, _⟩ ⟨_, _⟩ rfl
    rfl
  rw [htext hicao24, htimes.injective (htext ht)]

theorem exists_pairs {rows : List ActivityRow} (hrows : ∀ a ∈ rows, a.lastContactAt.isSome) :
    ∃ pairs : List (Text × Timestamptz),
      rows.map (fun a => (a.icao24, a.lastContactAt)) = pairs.map fun p => (p.1, some p.2) := by
  induction rows with
  | nil => exact ⟨[], rfl⟩
  | cons a rows ih =>
    rw [List.forall_mem_cons] at hrows
    obtain ⟨t, ht⟩ := Option.isSome_iff_exists.mp hrows.1
    obtain ⟨pairs, hpairs⟩ := ih hrows.2
    exact ⟨(a.icao24, t) :: pairs, by rw [List.map_cons, List.map_cons, hpairs, ht]⟩

/-- Where no time is null, the texts are as many as the pairs. -/
theorem countDistinct_texts (htimes : WritesTimes pg) {rows : List ActivityRow}
    (hrows : ∀ a ∈ rows, a.lastContactAt.isSome) :
    countDistinct (rows.map (observationText pg)) = distinctPairs rows := by
  obtain ⟨pairs, hpairs⟩ := exists_pairs hrows
  have htexts : rows.map (observationText pg) = (pairs.map (pairText pg)).map some := by
    have hmap := congrArg (List.map fun p : Text × Option Timestamptz => p.2.map fun t => pairText pg (p.1, t)) hpairs
    rw [List.map_map, List.map_map] at hmap
    rw [List.map_map]
    exact hmap
  have hinjective : Function.Injective fun p : Text × Timestamptz => (p.1, some p.2) := by
    rintro ⟨icao24, t⟩ ⟨icao24', t'⟩ h
    simpa using h
  unfold countDistinct distinctPairs
  rw [htexts, hpairs, List.filterMap_map, Function.id_comp, List.filterMap_some,
    List.dedup_map_of_injective (pairText_injective htimes), List.dedup_map_of_injective hinjective,
    List.length_map, List.length_map]

/-! ## Buckets without nulls -/

def Full (b : Bucket) : Prop := b.1.isSome ∧ b.2.isSome

theorem sameBucket_self {b : Bucket} (h : Full b) : sameBucket b b := by
  obtain ⟨date, hdate⟩ := Option.isSome_iff_exists.mp h.1
  obtain ⟨hour, hhour⟩ := Option.isSome_iff_exists.mp h.2
  simp [sameBucket, nullEq, hdate, hhour]

theorem mem_factQuality {fq : FactQuality} (h : fq ∈ factQuality pg fact) : ∃ a ∈ fact, bucket a = fq.bucket :=
  exists_of_keys (factQuality_buckets fact) h

theorem mem_extractionQuality {eqs : List ExtractionQuality} (heqs : extractionQuality pg extractionLog = some eqs)
    {eq : ExtractionQuality} (h : eq ∈ eqs) : ∃ l ∈ extractionLog, logBucket pg l = eq.bucket :=
  exists_of_keys (extractionQuality_spec heqs).1 h

theorem mem_duplicateCheck {dc : DuplicateCheck} (h : dc ∈ duplicateCheck pg fact) :
    dc.rowCount = (rowsOf fact dc.bucket).length ∧
      dc.distinctObservationCount = countDistinct ((rowsOf fact dc.bucket).map (observationText pg)) := by
  unfold duplicateCheck groupBy at h
  rw [List.map_map] at h
  obtain ⟨b, -, rfl⟩ := List.mem_map.mp h
  exact ⟨rfl, rfl⟩

theorem full_of_notNull (h : martTelemetryQuality pg fact extractionLog = some quality)
    (hnotNull : ∀ q ∈ quality, q.observationDate.isSome ∧ q.observationHour.isSome) :
    (∀ a ∈ fact, Full (bucket a)) ∧ ∀ l ∈ extractionLog, Full (logBucket pg l) := by
  constructor
  · intro a ha
    obtain ⟨q, hq, -, hbucket⟩ := fact_shown h ha
    rw [← hbucket]
    exact hnotNull q hq
  · intro l hl
    obtain ⟨q, hq, -, hbucket⟩ := poll_shown h hl
    rw [← hbucket]
    exact hnotNull q hq

section

variable {eqs : List ExtractionQuality} {p : (Option FactQuality × Option ExtractionQuality) × Option DuplicateCheck}

theorem bucket_coalesce (h : p.1 ∈ qualitySides (factQuality pg fact) eqs) :
    some (qualityRow p).bucket = (p.1.1.map (·.bucket)).or (p.1.2.map (·.bucket)) := by
  rcases mem_fullJoin h with ⟨fq, -, hfq⟩ | ⟨eq, -, heq⟩
  · rw [(coalesced h).1 fq hfq, hfq]
    rfl
  · rw [(coalesced h).2 eq (by rw [heq]), heq]
    rfl

theorem bucket_origin (heqs : extractionQuality pg extractionLog = some eqs)
    (h : p.1 ∈ qualitySides (factQuality pg fact) eqs) :
    (∃ a ∈ fact, bucket a = (qualityRow p).bucket) ∨ ∃ l ∈ extractionLog, logBucket pg l = (qualityRow p).bucket := by
  have hcoalesce := bucket_coalesce h
  rcases mem_fullJoin h with ⟨fq, hmem, hfq⟩ | ⟨eq, hmem, heq⟩
  · rw [hfq, Option.map_some, Option.some_or, Option.some.injEq] at hcoalesce
    rw [hcoalesce]
    exact .inl (mem_factQuality hmem)
  · rw [heq, Option.map_none, Option.none_or, Option.map_some, Option.some.injEq] at hcoalesce
    rw [hcoalesce]
    exact .inr (mem_extractionQuality heqs hmem)

theorem notNull_of_full (heqs : extractionQuality pg extractionLog = some eqs) (hfact : ∀ a ∈ fact, Full (bucket a))
    (hlog : ∀ l ∈ extractionLog, Full (logBucket pg l)) (h : p.1 ∈ qualitySides (factQuality pg fact) eqs) :
    Full (qualityRow p).bucket := by
  rcases bucket_origin heqs h with ⟨a, ha, hbucket⟩ | ⟨l, hl, hbucket⟩
  · rw [← hbucket]
    exact hfact a ha
  · rw [← hbucket]
    exact hlog l hl

theorem unique_of_full (heqs : extractionQuality pg extractionLog = some eqs) (hfact : ∀ a ∈ fact, Full (bucket a)) :
    ((leftJoin matchesCheck (qualitySides (factQuality pg fact) eqs) (duplicateCheck pg fact)).map fun p =>
      (qualityRow p).bucket).Nodup := by
  obtain ⟨hfst, -, -⟩ := quality_joined heqs fact
  have hkeys : ((qualitySides (factQuality pg fact) eqs).map fun p =>
      (p.1.map (·.bucket)).or (p.2.map (·.bucket))).Nodup := by
    refine fullJoin_keys_nodup _ _ (extraction_matchesOne heqs _) ?_ ?_ fun fq hfq eq _ heq => ?_
    · rw [factQuality_buckets]
      exact List.nodup_dedup _
    · rw [(extractionQuality_spec heqs).1]
      exact List.nodup_dedup _
    · obtain ⟨a, ha, hbucket⟩ := mem_factQuality hfq
      rw [← heq, ← hbucket]
      exact sameBucket_self (hfact a ha)
  have hsome : (leftJoin matchesCheck (qualitySides (factQuality pg fact) eqs) (duplicateCheck pg fact)).map
      (fun p => some (qualityRow p).bucket) =
        (qualitySides (factQuality pg fact) eqs).map fun p => (p.1.map (·.bucket)).or (p.2.map (·.bucket)) := by
    conv_rhs => rw [← hfst, List.map_map]
    apply List.map_congr_left
    intro p hp
    apply bucket_coalesce
    rw [← hfst]
    exact List.mem_map_of_mem hp
  rw [← hsome] at hkeys
  exact List.Nodup.of_map some (by rwa [List.map_map])

theorem check_of_full (hfact : ∀ a ∈ fact, Full (bucket a)) {fq : FactQuality}
    (h : p ∈ leftJoin matchesCheck (qualitySides (factQuality pg fact) eqs) (duplicateCheck pg fact))
    (hfq : p.1.1 = some fq) (hmem : fq ∈ factQuality pg fact) :
    ∃ dc ∈ duplicateCheck pg fact, p.2 = some dc ∧ dc.bucket = fq.bucket := by
  obtain ⟨⟨side, eq⟩, odc⟩ := p
  obtain rfl : side = some fq := hfq
  cases odc with
  | none =>
    obtain ⟨a, ha, hbucket⟩ := mem_factQuality hmem
    have hkey : fq.bucket ∈ (duplicateCheck pg fact).map (·.bucket) := by
      rw [duplicateCheck_buckets, List.mem_dedup, ← hbucket]
      exact List.mem_map_of_mem ha
    obtain ⟨dc, hdc, heq⟩ := List.mem_map.mp hkey
    have hnot : sameBucket fq.bucket dc.bucket = false := leftJoin_none h hdc
    rw [heq, ← hbucket, sameBucket_self (hfact a ha)] at hnot
    cases hnot
  | some dc =>
    obtain ⟨hdc, hmatch⟩ := (leftJoin_match h).2 dc rfl
    exact ⟨dc, hdc, rfl, (sameBucket_eq hmatch).symm⟩

theorem retries_of_full (htimes : WritesTimes pg) (hcontact : ∀ a ∈ fact, Full (bucket a) → a.lastContactAt.isSome)
    (hfact : ∀ a ∈ fact, Full (bucket a)) {fq : FactQuality}
    (h : p ∈ leftJoin matchesCheck (qualitySides (factQuality pg fact) eqs) (duplicateCheck pg fact))
    (hfq : p.1.1 = some fq) (hmem : fq ∈ factQuality pg fact) :
    (qualityRow p).retryDuplicateCount =
      some ((rowsOf fact fq.bucket).length - distinctPairs (rowsOf fact fq.bucket) : ℤ) := by
  obtain ⟨dc, hdc, hcheck, hbucket⟩ := check_of_full hfact h hfq hmem
  obtain ⟨hrows, hdistinct⟩ := mem_duplicateCheck hdc
  have htexts : dc.distinctObservationCount = distinctPairs (rowsOf fact dc.bucket) := by
    rw [hdistinct]
    refine countDistinct_texts htimes fun a ha => ?_
    obtain ⟨ha, -⟩ := List.mem_filter.mp ha
    exact hcontact a ha (hfact a ha)
  rw [← hbucket, ← htexts, ← hrows]
  simp only [qualityRow, hcheck, Option.map_some]

end

theorem hasGrain_iff_full (htimes : WritesTimes pg)
    (hcontact : ∀ a ∈ fact, Full (bucket a) → a.lastContactAt.isSome)
    (h : martTelemetryQuality pg fact extractionLog = some quality) :
    HasGrain fact quality ↔ (∀ a ∈ fact, Full (bucket a)) ∧ ∀ l ∈ extractionLog, Full (logBucket pg l) := by
  refine ⟨fun hgrain => full_of_notNull h hgrain.notNull, ?_⟩
  rintro ⟨hfact, hlog⟩
  obtain ⟨eqs, heqs, rfl⟩ := Option.map_eq_some_iff.mp h
  constructor
  case notNull =>
    intro q hq
    obtain ⟨p, hp, rfl⟩ := List.mem_map.mp hq
    exact notNull_of_full heqs hfact hlog (side_of_joined heqs hp)
  case unique =>
    have hnodup := unique_of_full heqs hfact
    rwa [← Function.comp_def TelemetryQuality.bucket qualityRow, ← List.map_map] at hnodup
  case retries =>
    intro q hq htotal
    obtain ⟨p, hp, rfl⟩ := List.mem_map.mp hq
    obtain ⟨fq, hmem, hfq, hbucket⟩ := fact_side heqs hp htotal
    rw [hbucket]
    exact retries_of_full htimes hcontact hfact hp hfq hmem

/-! ## Stored rows -/

variable {env : Env} {now : Timestamptz} {e : TelemetryEvent} {row : Row} {r : DbRow} {a : ActivityRow}

/-- The payload of the row has a `last_contact`. -/
def Heard (r : DbRow) : Prop := ∃ n : ℤ, r.payload.get (.lit "last_contact" (Eq.refl true)) = some (.num n false)

/-- A time that an age could be computed from has a day and an hour. -/
theorem full_iff_contact (ha : factRow pg (sourceRow r) = some a) : Full (bucket a) ↔ a.lastContactAt.isSome := by
  obtain ⟨s, hs, hactivity⟩ := Option.bind_eq_some_iff.mp ha
  obtain ⟨hstaged, hdate, hhour, -⟩ := activityRow_spec hactivity
  obtain ⟨-, -, -, -, -, -, -, -, -, hprocessed⟩ := stgRow_spec hs
  have hage : (elapsed s.processedAt s.lastContactAt).isSome :=
    (activityRow_isSome.mp (by rw [hactivity]; rfl)).age
  have hcontact : a.lastContactAt = s.lastContactAt := by rw [hstaged]
  unfold Full bucket
  rw [hdate, hhour, hcontact]
  cases ht : s.lastContactAt with
  | none => simp
  | some t =>
    rw [hprocessed, ht] at hage
    cases t with
    | «at» us => simp [Server.hour]
    | infinity =>
      have hnone : elapsed (some r.processedAt) (some .infinity) = none := by cases r.processedAt <;> rfl
      rw [sourceRow, hnone] at hage
      cases hage
    | negInfinity =>
      have hnone : elapsed (some r.processedAt) (some .negInfinity) = none := by cases r.processedAt <;> rfl
      rw [sourceRow, hnone] at hage
      cases hage

theorem heard_iff (hrow : eventToRow e = some row) (hr : env.admitRow now row = some r) :
    Heard r ↔ e.lastContact.isSome := by
  obtain ⟨j, hj, hget⟩ := stored_get hrow (admitRow_spec hr) (k := "last_contact") (v := dumpOption .int e.lastContact)
    (by simp [eventFields, dumpedValues]) (by decide)
  have hjson : r.payload.get (.lit "last_contact") = some (jsonOption (fun n : ℤ => .num n false) e.lastContact) := by
    rw [← jsonOf_int hj]
    exact hget
  unfold Heard
  rw [hjson]
  cases e.lastContact <;> simp [jsonOption]

theorem contact_iff_heard (hrow : eventToRow e = some row) (hr : env.admitRow now row = some r)
    (ha : factRow pg (sourceRow r) = some a) : a.lastContactAt.isSome ↔ Heard r := by
  obtain ⟨j, hj, hget⟩ := stored_get hrow (admitRow_spec hr) (k := "last_contact") (v := dumpOption .int e.lastContact)
    (by simp [eventFields, dumpedValues]) (by decide)
  obtain ⟨-, -, -, -, -, hcontact⟩ := factRow_spec ha
  have hrange : InRange pg e.lastContact := by
    rw [← epoch_isSome hj, ← hget, hcontact]
    rfl
  rw [heard_iff hrow hr, fact_lastContact hrow hr ha]
  cases hn : e.lastContact with
  | none => rfl
  | some n => simp [(hrange n hn).2]

/-- The time has a day and an hour. -/
def IsFinite (t : Timestamptz) : Prop := ∃ us, t = .at us

theorem full_iff_finite (l : LogRow) : Full (logBucket pg l) ↔ IsFinite l.extractionStartedAt := by
  unfold Full logBucket IsFinite
  cases l.extractionStartedAt <;> simp [Server.hour]

/-- The mart has its grain exactly when every stored event has a `last_contact` and no poll has an infinite start. -/
theorem grain_iff (htimes : WritesTimes pg) {stores : List Store} {table : RawTelemetry}
    (hexec : exec (storeBatch env) emptyTable stores = some table)
    (hfact : factAircraftState pg (table.rows.map sourceRow) = some fact)
    (hquality : martTelemetryQuality pg fact extractionLog = some quality) :
    HasGrain fact quality ↔ (∀ r ∈ table.rows, Heard r) ∧ ∀ l ∈ extractionLog, IsFinite l.extractionStartedAt := by
  rw [factAircraftState_eq] at hfact
  have horigin : ∀ a ∈ fact, ∃ r ∈ table.rows, factRow pg (sourceRow r) = some a := by
    intro a ha
    obtain ⟨src, hsrc, hrow⟩ := exists_of_mem_result hfact ha
    obtain ⟨r, hr, rfl⟩ := List.mem_map.mp hsrc
    exact ⟨r, hr, hrow⟩
  have hheard : ∀ r ∈ table.rows, ∀ a, factRow pg (sourceRow r) = some a → (Full (bucket a) ↔ Heard r) := by
    intro r hr a ha
    obtain ⟨_, _, _, _, _, hrow, hadmit⟩ := mem_stored hexec r hr
    exact (full_iff_contact ha).trans (contact_iff_heard hrow hadmit ha)
  rw [hasGrain_iff_full htimes ?_ hquality]
  · refine and_congr ⟨fun hfull r hr => ?_, fun hall a ha => ?_⟩ (forall₂_congr fun l _ => full_iff_finite l)
    · obtain ⟨a, ha, hrow⟩ := exists_of_mem_mapM hfact (List.mem_map_of_mem hr)
      exact (hheard r hr a hrow).mp (hfull a ha)
    · obtain ⟨r, hr, hrow⟩ := horigin a ha
      exact (hheard r hr a hrow).mpr (hall r hr)
  · intro a ha hfull
    obtain ⟨r, -, hrow⟩ := horigin a ha
    exact (full_iff_contact hrow).mp hfull

/-! ## One event -/

def heardAt : Timestamptz := .at 841053600000000

def timeCode : Timestamptz → ℕ
  | .infinity => 0
  | .negInfinity => 1
  | .at us => Equiv.intEquivNat us + 2

/-- The text of the time of the sample, in UTC, and a text of its own for any other. -/
def writtenTime (t : Timestamptz) : Text :=
  if t = heardAt then .lit "2026-08-26 10:00:00+00"
  else
    ⟨List.replicate (timeCode t) '0', nulFree_iff.mpr fun c hc => by
      rw [List.eq_of_mem_replicate hc]
      decide⟩

theorem timeCode_injective : Function.Injective timeCode := by
  intro t t' h
  cases t <;> cases t' <;> simp [timeCode] at h ⊢
  exact h

def writtenServer : Server := { sampleServer with timestamptzOut := writtenTime }

theorem writtenServer_times : WritesTimes writtenServer := by
  have hother : ∀ {t}, t ≠ heardAt → (writtenTime t).chars = List.replicate (timeCode t) '0' := by
    intro t ht
    simp only [writtenTime, ht, if_false]
  have hsample : '2' ∈ (writtenTime heardAt).chars := by decide
  have hne : ∀ {t}, t ≠ heardAt → writtenTime heardAt ≠ writtenTime t := by
    intro t ht h
    rw [h, hother ht] at hsample
    exact absurd (List.eq_of_mem_replicate hsample) (by decide)
  constructor
  case injective =>
    intro t t' h
    by_cases ht : t = heardAt
    · by_contra hnot
      subst ht
      exact hne (Ne.symm hnot) h
    · by_cases ht' : t' = heardAt
      · subst ht'
        exact absurd h.symm (hne ht)
      · have hchars := congrArg Text.chars h
        have hlength := congrArg List.length ((hother ht).symm.trans (hchars.trans (hother ht')))
        rw [List.length_replicate, List.length_replicate] at hlength
        exact timeCode_injective hlength
  case noBar =>
    intro t hbar
    by_cases ht : t = heardAt
    · subst ht
      revert hbar
      decide
    · have hzero := List.eq_of_mem_replicate (hother ht ▸ hbar)
      revert hzero
      decide

def heardLog : LogRow where
  requestId := lowerId
  source := .lit "opensky"
  collectorId := none
  collectorVersion := none
  requestScope := none
  extractionStartedAt := heardAt
  extractionCompletedAt := some (.at 841053601000000)
  sourceObservationTime := none
  recordCount := some 1
  success := true
  errorMessage := none
  loggedAt := .at 841053601000000

/-- The mart over a table of one event and a log of one poll. -/
def MartOf (e : TelemetryEvent) (fact : List ActivityRow) (quality : List TelemetryQuality) : Prop :=
  ∃ table, exec (storeBatch sampleEnv) emptyTable [⟨heardAt, none, [e]⟩] = some table ∧
    factAircraftState writtenServer (table.rows.map sourceRow) = some fact ∧
      martTelemetryQuality writtenServer fact [heardLog] = some quality

/-- The columns of the grain and of the counts. -/
def grainOf (q : TelemetryQuality) : Option ℕ × Option Date × Option ℤ × Option ℤ :=
  (q.totalObservations, q.observationDate, q.observationHour, q.retryDuplicateCount)

theorem martOf_computed (e : TelemetryEvent) (columns : List (Option ℕ × Option Date × Option ℤ × Option ℤ))
    (h : ((exec (storeBatch sampleEnv) emptyTable [⟨heardAt, none, [e]⟩]).bind fun table =>
      (factAircraftState writtenServer (table.rows.map sourceRow)).bind fun fact =>
        (martTelemetryQuality writtenServer fact [heardLog]).map (List.map grainOf)) = some columns) :
    ∃ fact quality, MartOf e fact quality ∧ quality.map grainOf = columns := by
  obtain ⟨table, hexec, h⟩ := Option.bind_eq_some_iff.mp h
  obtain ⟨fact, hfact, h⟩ := Option.bind_eq_some_iff.mp h
  obtain ⟨quality, hquality, h⟩ := Option.map_eq_some_iff.mp h
  exact ⟨fact, quality, ⟨table, hexec, hfact, hquality⟩, h⟩

theorem heard_event_has_grain : ∃ fact quality, MartOf (contactEvent 1787738400) fact quality ∧
    quality.map grainOf = [(some 1, some (.day 9734), some 10, some 0)] ∧ HasGrain fact quality := by
  obtain ⟨fact, quality, hmart, hcolumns⟩ := martOf_computed (contactEvent 1787738400)
    [(some 1, some (.day 9734), some 10, some 0)] (by decide +kernel)
  refine ⟨fact, quality, hmart, hcolumns, ?_⟩
  obtain ⟨table, hexec, hfact, hquality⟩ := hmart
  refine (grain_iff writtenServer_times hexec hfact hquality).mpr ⟨fun r hr => ?_, fun l hl => ?_⟩
  · obtain ⟨s, hs, e, he, row, hrow, hadmit⟩ := mem_stored hexec r hr
    obtain rfl := List.mem_singleton.mp hs
    obtain rfl := List.mem_singleton.mp he
    exact (heard_iff hrow hadmit).mpr rfl
  · rw [List.mem_singleton.mp hl]
    exact ⟨_, rfl⟩

/-- An event without a `last_contact` is accepted, and counted in a row without a bucket. -/
theorem silent_event_no_grain :
    TelemetryEvent.modelValidate sampleEnv.lax (sampleEvent sampleId).modelDump = .ok (sampleEvent sampleId) ∧
      ∃ fact quality, MartOf (sampleEvent sampleId) fact quality ∧
        quality.map grainOf = [(some 1, none, none, none), (none, some (.day 9734), some 10, none)] ∧
          ¬ HasGrain fact quality := by
  obtain ⟨fact, quality, hmart, hcolumns⟩ := martOf_computed (sampleEvent sampleId)
    [(some 1, none, none, none), (none, some (.day 9734), some 10, none)] (by decide +kernel)
  refine ⟨TelemetryEvent.modelValidate_modelDump _ _, fact, quality, hmart, hcolumns, fun hgrain => ?_⟩
  have hmem : ((some 1, none, none, none) : Option ℕ × Option Date × Option ℤ × Option ℤ) ∈ quality.map grainOf := by
    rw [hcolumns]
    exact List.mem_cons_self
  obtain ⟨q, hq, hgrain'⟩ := List.mem_map.mp hmem
  have hdate : q.observationDate = none := (Prod.mk.inj (Prod.mk.inj hgrain').2).1
  have hsome := (hgrain.notNull q hq).1
  rw [hdate] at hsome
  cases hsome

end FlightPulse.Analytics
