import Mathlib.Data.List.Lex
import Mathlib.Data.List.Sort
import Mathlib.Order.Fin.Basic
import FlightPulse.Lib.Jsonb
import FlightPulse.Lib.Psycopg
import FlightPulse.Lib.UniqueTable
import FlightPulse.Ingestion.Schemas

/-!
# Persistence (`worker/persistence.py`)

The rows that are built from events and log entries, what the tables make of
them, and the transactions that insert them. Each of these fails in its own way.
-/

open Lib Lib.Python Lib.Pydantic Lib.Postgres Lib.Psycopg

namespace FlightPulse.Worker

open Ingestion

/-- What the worker relies on outside of its source. -/
structure Env where
  lax : Lax
  /-- `str(exc)` of a validation error. -/
  describe : List ErrorDetail → PyStr
  /-- The input function of `timestamptz`. -/
  timestamptzIn : Text → Option Timestamptz
  /-- `to_timestamp` of a number of seconds. -/
  toTimestamp : ℤ → Option Timestamptz
  /-- The entry of `idx_raw_telemetry_icao24_ingested_at` fits on a page of the index. -/
  indexEntryFits : Text → Timestamptz → Bool

/-! ## raw_telemetry -/

/-- The parameters of one row, in the order of `_INSERT_COLUMNS`. -/
structure Row where
  ingestionId : PyStr
  source : PyStr
  icao24 : PyStr
  collectorId : Option PyStr
  payload : JsonText
  ingestedAt : PyStr

/-- A stored row. The serial primary key is left out. -/
structure DbRow where
  ingestionId : Uuid
  source : Text
  icao24 : Text
  collectorId : Option Text
  payload : Jsonb
  receivedAt : Timestamptz
  ingestedAt : Timestamptz
  processedAt : Timestamptz

/-- `uq_raw_telemetry_ingestion_id`. -/
abbrev RawTelemetry := UniqueTable DbRow.ingestionId

def insertChunkSize : ℕ := 2000

def eventToRow (event : TelemetryEvent) : Option Row :=
  (dumps event.modelDump).map fun payload =>
    { ingestionId := event.ingestionId
      source := event.source
      icao24 := event.icao24
      collectorId := event.collectorId
      payload := payload
      ingestedAt := event.ingestedAt }

def parseUuid (s : PyStr) : Option Uuid := (encodeText s).bind uuidIn

def nullableText : Option PyStr → Option (Option Text)
  | none => some none
  | some s => (encodeText s).map some

namespace Env

variable (env : Env)

def parseTimestamptz (s : PyStr) : Option Timestamptz := (encodeText s).bind env.timestamptzIn

def nullableTimestamptz : Option PyStr → Option (Option Timestamptz)
  | none => some none
  | some s => (env.parseTimestamptz s).map some

/-- The row as the columns read it at time `now`, if every parameter is accepted. -/
def bindRow (now : Timestamptz) (row : Row) : Option DbRow :=
  match parseUuid row.ingestionId, encodeText row.source, encodeText row.icao24, nullableText row.collectorId,
    jsonbIn row.payload, env.parseTimestamptz row.ingestedAt with
  | some ingestionId, some source, some icao24, some collectorId, some payload, some ingestedAt =>
    some ⟨ingestionId, source, icao24, collectorId, payload, now, ingestedAt, now⟩
  | _, _, _, _, _, _ => none

/-- The row that the table stores: every parameter is accepted, and the index takes its entry. -/
def admitRow (now : Timestamptz) (row : Row) : Option DbRow :=
  (env.bindRow now row).filter fun r => env.indexEntryFits r.icao24 r.ingestedAt

end Env

/-- `rows.sort(key=lambda row: row[0])`. -/
def sortRows (rows : List Row) : List Row := rows.insertionSort fun a b => a.ingestionId ≤ b.ingestionId

/-- `INSERT INTO raw_telemetry ... ON CONFLICT (ingestion_id) DO NOTHING RETURNING ingestion_id`. -/
def insertStatement (rows : List DbRow) (table : RawTelemetry) : RawTelemetry × ℕ :=
  (table.insertRows rows, (table.returning rows).length)

/-! ## extraction_log -/

structure LogRow where
  requestId : Uuid
  source : Text
  collectorId : Option Text
  collectorVersion : Option Text
  requestScope : Option Text
  extractionStartedAt : Timestamptz
  extractionCompletedAt : Option Timestamptz
  sourceObservationTime : Option Timestamptz
  recordCount : Option ℤ
  success : Bool
  errorMessage : Option Text
  loggedAt : Timestamptz

abbrev ExtractionLog := UniqueTable LogRow.requestId

def nullableInteger : Option ℤ → Option (Option ℤ)
  | none => some none
  | some n => if -2 ^ 31 ≤ n ∧ n < 2 ^ 31 then some (some n) else none

def Env.nullableToTimestamp (env : Env) : Option ℤ → Option (Option Timestamptz)
  | none => some none
  | some n => (env.toTimestamp n).map some

def Env.admitLog (env : Env) (now : Timestamptz) (entry : ExtractionLogEntry) : Option LogRow := do
  let requestId ← parseUuid entry.requestId
  let source ← encodeText entry.source
  let collectorId ← nullableText entry.collectorId
  let collectorVersion ← nullableText entry.collectorVersion
  let requestScope ← nullableText entry.requestScope
  let extractionStartedAt ← env.parseTimestamptz entry.extractionStartedAt
  let extractionCompletedAt ← env.nullableTimestamptz entry.extractionCompletedAt
  let sourceObservationTime ← env.nullableToTimestamp entry.sourceObservationTime
  let recordCount ← nullableInteger entry.recordCount
  let errorMessage ← nullableText entry.errorMessage
  some ⟨requestId, source, collectorId, collectorVersion, requestScope, extractionStartedAt,
    extractionCompletedAt, sourceObservationTime, recordCount, entry.success, errorMessage, now⟩

/-- `INSERT INTO extraction_log ... ON CONFLICT (request_id) DO NOTHING`. -/
def insertLogStatement (row : LogRow) (table : ExtractionLog) : ExtractionLog × ℕ :=
  (table.insertRows [row], 0)

def Env.logStatement (env : Env) (now : Timestamptz) (entry : ExtractionLogEntry) : Statement ExtractionLog :=
  match env.admitLog now entry with
  | some row => .ok (insertLogStatement row)
  | none => .error .dataError

/-! ## The two functions -/

inductive PersistError where
  | persistenceUnavailable
  | escaping (exn : Exn)
deriving DecidableEq

/-- `except (psycopg.OperationalError, PoolTimeout, OSError)`. -/
def persistError (exn : Exn) : PersistError :=
  if exn.isConnection then .persistenceUnavailable else .escaping exn

def translated {τ α : Type*} (r : τ × Except Exn α) : τ × Except PersistError α :=
  (r.1, r.2.mapError persistError)

namespace Env

variable (env : Env)

/-- The INSERT of one chunk. Parameters are read before any row is inserted, and an index entry that is
too large is a `ProgramLimitExceeded`, which psycopg makes an `OperationalError`. -/
def chunkStatement (now : Timestamptz) (chunk : List Row) : Statement RawTelemetry :=
  match chunk.mapM (env.admitRow now) with
  | some rows => .ok (insertStatement rows)
  | none => .error (if (chunk.mapM (env.bindRow now)).isSome then .operationalError else .dataError)

/-- One INSERT for each chunk of the sorted rows. The server takes at most 65535 parameters for one, so a
`size` above 10922 is out of its reach where there are as many rows. -/
def insertStatementsIn (size : ℕ) (now : Timestamptz) (rows : List Row) : List (Statement RawTelemetry) :=
  (chunks size (sortRows rows)).map (env.chunkStatement now)

def insertStatements (now : Timestamptz) (rows : List Row) : List (Statement RawTelemetry) :=
  env.insertStatementsIn insertChunkSize now rows

/-- `persist_batch` for any `_INSERT_CHUNK_SIZE`. The rows are built outside of the `try`, so an error
there escapes. -/
def persistBatchIn (size : ℕ) (now : Timestamptz) (fault : Option Fault) (events : List TelemetryEvent)
    (table : RawTelemetry) : RawTelemetry × Except PersistError ℕ :=
  if events = [] then (table, .ok 0)
  else
    match events.mapM eventToRow with
    | none => (table, .error (.escaping .otherError))
    | some rows => translated (transact fault (env.insertStatementsIn size now rows) table)

def persistBatch (now : Timestamptz) (fault : Option Fault) (events : List TelemetryEvent)
    (table : RawTelemetry) : RawTelemetry × Except PersistError ℕ :=
  env.persistBatchIn insertChunkSize now fault events table

def persistExtractionLog (now : Timestamptz) (fault : Option Fault) (entry : ExtractionLogEntry)
    (table : ExtractionLog) : ExtractionLog × Except PersistError Unit :=
  let r := translated (transact fault [env.logStatement now entry] table)
  (r.1, r.2.map fun _ => ())

end Env

/-! ## Ids as text -/

theorem parseUuid_uuidStr (u : Uuid) : parseUuid (uuidStr u) = some u := by
  unfold parseUuid
  rw [encodeText_uuidStr]
  exact uuidIn_uuidChars u

theorem uuidStr_injective : Function.Injective uuidStr := by
  intro u v h
  rw [← Option.some.injEq, ← parseUuid_uuidStr u, h, parseUuid_uuidStr]

instance spelling_trans : IsTrans Row fun a b => a.ingestionId ≤ b.ingestionId := ⟨fun _ _ _ => le_trans⟩

instance spelling_total : Std.Total fun a b : Row => a.ingestionId ≤ b.ingestionId := ⟨fun _ _ => le_total _ _⟩

theorem pairwise_sortRows (rows : List Row) :
    (sortRows rows).Pairwise fun a b => a.ingestionId ≤ b.ingestionId :=
  List.pairwise_insertionSort _ rows

/-! ## The chunks of a batch together -/

variable {env : Env} {now : Timestamptz}

theorem mem_sortRows {rows : List Row} {row : Row} : row ∈ sortRows rows ↔ row ∈ rows :=
  (List.perm_insertionSort _ rows).mem_iff

theorem applyAll_chunks {chunked : List (List Row)} {stored : List DbRow}
    (h : chunked.flatten.mapM (env.admitRow now) = some stored) (table : RawTelemetry) (n : ℕ) :
    applyAll (chunked.map (env.chunkStatement now)) (table, n) =
      (table.insertRows stored, n + (table.returning stored).length) := by
  induction chunked generalizing stored table n with
  | nil =>
    obtain rfl : [] = stored := Option.some.inj h
    rfl
  | cons chunk rest ih =>
    rw [List.flatten_cons] at h
    obtain ⟨first, others, hfirst, hothers, rfl⟩ := mapM_append_eq_some h
    rw [List.map_cons, Env.chunkStatement, hfirst]
    refine (ih hothers (table.insertRows first) (n + (table.returning first).length)).trans ?_
    rw [UniqueTable.insertRows_append, UniqueTable.returning_append, List.length_append, Nat.add_assoc]

theorem chunkStatement_isOk {chunk : List Row} :
    (env.chunkStatement now chunk).isOk ↔ ∀ row ∈ chunk, (env.admitRow now row).isSome := by
  rw [← mapM_isSome]
  unfold Env.chunkStatement
  cases chunk.mapM (env.admitRow now) <;> simp [Except.toBool]

theorem insertStatementsIn_isOk {size : ℕ} (hsize : 0 < size) {rows : List Row} :
    (∀ stmt ∈ env.insertStatementsIn size now rows, stmt.isOk) ↔
      ∀ row ∈ rows, (env.admitRow now row).isSome := by
  have hflat := flatten_chunks size hsize (sortRows rows)
  unfold Env.insertStatementsIn
  simp only [List.forall_mem_map, chunkStatement_isOk]
  constructor
  · intro h row hrow
    rw [← mem_sortRows, ← hflat] at hrow
    obtain ⟨chunk, hchunk, hrow⟩ := List.mem_flatten.mp hrow
    exact h chunk hchunk row hrow
  · intro h chunk hchunk row hrow
    refine h row (mem_sortRows.mp ?_)
    rw [← hflat]
    exact List.mem_flatten.mpr ⟨chunk, hchunk, hrow⟩

theorem insertStatements_isOk {rows : List Row} :
    (∀ stmt ∈ env.insertStatements now rows, stmt.isOk) ↔ ∀ row ∈ rows, (env.admitRow now row).isSome :=
  insertStatementsIn_isOk (by decide)

theorem applyAll_insertStatementsIn {size : ℕ} (hsize : 0 < size) {rows : List Row} {stored : List DbRow}
    (h : (sortRows rows).mapM (env.admitRow now) = some stored) (table : RawTelemetry) :
    applyAll (env.insertStatementsIn size now rows) (table, 0) =
      (table.insertRows stored, (table.returning stored).length) := by
  rw [← flatten_chunks size hsize (sortRows rows)] at h
  simpa [Env.insertStatementsIn] using applyAll_chunks h table 0

theorem applyAll_insertStatements {rows : List Row} {stored : List DbRow}
    (h : (sortRows rows).mapM (env.admitRow now) = some stored) (table : RawTelemetry) :
    applyAll (env.insertStatements now rows) (table, 0) =
      (table.insertRows stored, (table.returning stored).length) :=
  applyAll_insertStatementsIn (by decide) h table

/-! ## What each function leaves behind -/

theorem persistError_eq_unavailable {exn : Exn} :
    persistError exn = .persistenceUnavailable ↔ exn.isConnection = true := by
  unfold persistError
  split <;> simp_all

/-- What the columns make of the parameters. -/
structure BoundAs (env : Env) (now : Timestamptz) (row : Row) (r : DbRow) : Prop where
  ingestionId : parseUuid row.ingestionId = some r.ingestionId
  source : encodeText row.source = some r.source
  icao24 : encodeText row.icao24 = some r.icao24
  collectorId : nullableText row.collectorId = some r.collectorId
  payload : jsonbIn row.payload = some r.payload
  ingestedAt : env.parseTimestamptz row.ingestedAt = some r.ingestedAt
  receivedAt : r.receivedAt = now
  processedAt : r.processedAt = now

theorem bindRow_spec {row : Row} {r : DbRow} (h : env.bindRow now row = some r) : BoundAs env now row r := by
  unfold Env.bindRow at h
  split at h
  · next hid hsource hicao24 hcollector hpayload hat =>
    cases h
    exact ⟨hid, hsource, hicao24, hcollector, hpayload, hat, rfl, rfl⟩
  · cases h

theorem admitRow_spec {row : Row} {r : DbRow} (h : env.admitRow now row = some r) : BoundAs env now row r :=
  bindRow_spec (Option.filter_eq_some_iff.mp h).1

theorem admitRow_ingestionId {row : Row} {r : DbRow} (h : env.admitRow now row = some r) :
    parseUuid row.ingestionId = some r.ingestionId :=
  (admitRow_spec h).ingestionId

theorem eventToRow_ingestionId {event : TelemetryEvent} {row : Row} (h : eventToRow event = some row) :
    row.ingestionId = event.ingestionId := by
  obtain ⟨payload, -, rfl⟩ := Option.map_eq_some_iff.mp h
  rfl

theorem persistBatch_nil (fault : Option Fault) (table : RawTelemetry) :
    env.persistBatch now fault [] table = (table, .ok 0) := rfl

theorem persistBatch_unbuildable {events : List TelemetryEvent} (h : events.mapM eventToRow = none)
    (fault : Option Fault) (table : RawTelemetry) :
    env.persistBatch now fault events table = (table, .error (.escaping .otherError)) := by
  have hne : events ≠ [] := by
    rintro rfl
    cases h
  simp [Env.persistBatch, Env.persistBatchIn, hne, h]

theorem persistBatch_of_rows {events : List TelemetryEvent} {rows : List Row} (hne : events ≠ [])
    (hrows : events.mapM eventToRow = some rows) (fault : Option Fault) (table : RawTelemetry) :
    env.persistBatch now fault events table = translated (transact fault (env.insertStatements now rows) table) := by
  unfold Env.persistBatch Env.persistBatchIn
  rw [if_neg hne, hrows]
  rfl

theorem persistBatch_commits {fault : Option Fault} {events : List TelemetryEvent} {rows : List Row}
    (hne : events ≠ []) (hrows : events.mapM eventToRow = some rows)
    (h : Commits fault (env.insertStatements now rows)) (table : RawTelemetry) :
    ∃ stored, (sortRows rows).mapM (env.admitRow now) = some stored ∧
      (env.persistBatch now fault events table).1 = table.insertRows stored ∧
      ((env.persistBatch now fault events table).2 = .ok (table.returning stored).length ∨
        ∃ f, fault = some f ∧ (env.persistBatch now fault events table).2 = .error (persistError f.exn)) := by
  have hsome : ((sortRows rows).mapM (env.admitRow now)).isSome := by
    rw [mapM_isSome]
    exact fun row hrow => insertStatements_isOk.mp h.1 row (mem_sortRows.mp hrow)
  obtain ⟨stored, hstored⟩ := Option.isSome_iff_exists.mp hsome
  obtain ⟨htable, hend⟩ := transact_commits h table
  rw [applyAll_insertStatements hstored] at htable hend
  rw [persistBatch_of_rows hne hrows]
  unfold translated
  refine ⟨stored, hstored, htable, ?_⟩
  rcases hend with hend | ⟨f, hf, hend⟩
  · exact .inl (by rw [hend]; rfl)
  · exact .inr ⟨f, hf, by rw [hend]; rfl⟩

theorem persistBatch_rolledBack {fault : Option Fault} {events : List TelemetryEvent} {rows : List Row}
    (hne : events ≠ []) (hrows : events.mapM eventToRow = some rows)
    (h : ¬ Commits fault (env.insertStatements now rows)) (table : RawTelemetry) :
    (env.persistBatch now fault events table).1 = table ∧
      ∃ e, (env.persistBatch now fault events table).2 = .error e ∧
        (e = .persistenceUnavailable ↔ Disconnects fault (env.insertStatements now rows)) := by
  obtain ⟨htable, exn, hend, hiff⟩ := transact_rolledBack h table
  rw [persistBatch_of_rows hne hrows]
  unfold translated
  exact ⟨htable, persistError exn, by rw [hend]; rfl, persistError_eq_unavailable.trans hiff⟩

theorem persistBatch_effect (now : Timestamptz) (fault : Option Fault) (events : List TelemetryEvent)
    (table : RawTelemetry) :
    (∃ rows stored, events.mapM eventToRow = some rows ∧ (sortRows rows).mapM (env.admitRow now) = some stored ∧
      (env.persistBatch now fault events table).1 = table.insertRows stored) ∨
    ((env.persistBatch now fault events table).1 = table ∧
      ∃ e, (env.persistBatch now fault events table).2 = .error e) := by
  by_cases hne : events = []
  · subst hne
    exact .inl ⟨[], [], rfl, rfl, rfl⟩
  cases hrows : events.mapM eventToRow with
  | none =>
    rw [persistBatch_unbuildable hrows]
    exact .inr ⟨rfl, _, rfl⟩
  | some rows =>
    by_cases hc : Commits fault (env.insertStatements now rows)
    · obtain ⟨stored, hstored, htable, -⟩ := persistBatch_commits hne hrows hc table
      exact .inl ⟨rows, stored, rfl, hstored, htable⟩
    · obtain ⟨htable, e, hend, -⟩ := persistBatch_rolledBack hne hrows hc table
      exact .inr ⟨htable, e, hend⟩

theorem mem_keys_of_commit {events : List TelemetryEvent} {rows : List Row} {stored : List DbRow}
    (hrows : events.mapM eventToRow = some rows) (hstored : (sortRows rows).mapM (env.admitRow now) = some stored)
    {event : TelemetryEvent} (he : event ∈ events) :
    ∃ u, parseUuid event.ingestionId = some u ∧ u ∈ stored.map DbRow.ingestionId := by
  obtain ⟨row, hrow, hevent⟩ := exists_of_mem_mapM hrows he
  obtain ⟨r, hr, hadmitted⟩ := exists_of_mem_mapM hstored (mem_sortRows.mpr hrow)
  refine ⟨r.ingestionId, ?_, List.mem_map.mpr ⟨r, hr, rfl⟩⟩
  rw [← eventToRow_ingestionId hevent]
  exact admitRow_ingestionId hadmitted

theorem admitLog_requestId {entry : ExtractionLogEntry} {row : LogRow} (h : env.admitLog now entry = some row) :
    parseUuid entry.requestId = some row.requestId := by
  unfold Env.admitLog at h
  obtain ⟨requestId, hid, h⟩ := Option.bind_eq_some_iff.mp h
  simp only [Option.bind_eq_bind, Option.bind_eq_some_iff] at h
  obtain ⟨_, _, _, _, _, _, _, _, _, _, _, _, _, _, _, _, _, _, hrow⟩ := h
  rw [hid, ← Option.some.inj hrow]

theorem persistExtractionLog_commits {fault : Option Fault} {entry : ExtractionLogEntry}
    (h : Commits fault [env.logStatement now entry]) (table : ExtractionLog) :
    ∃ row, env.admitLog now entry = some row ∧
      (env.persistExtractionLog now fault entry table).1 = table.insertRows [row] := by
  obtain ⟨htable, -⟩ := transact_commits h table
  have hok := h.1 _ (List.mem_singleton_self _)
  unfold Env.persistExtractionLog translated
  rw [htable]
  unfold Env.logStatement at hok ⊢
  cases hrow : env.admitLog now entry with
  | none =>
    rw [hrow] at hok
    cases hok
  | some row => exact ⟨row, rfl, rfl⟩

theorem persistExtractionLog_rolledBack {fault : Option Fault} {entry : ExtractionLogEntry}
    (h : ¬ Commits fault [env.logStatement now entry]) (table : ExtractionLog) :
    (env.persistExtractionLog now fault entry table).1 = table ∧
      ∃ e, (env.persistExtractionLog now fault entry table).2 = .error e ∧
        (e = .persistenceUnavailable ↔ Disconnects fault [env.logStatement now entry]) := by
  obtain ⟨htable, exn, hend, hiff⟩ := transact_rolledBack h table
  unfold Env.persistExtractionLog translated
  exact ⟨htable, persistError exn, by rw [hend]; rfl, persistError_eq_unavailable.trans hiff⟩

/-! ## The dead letter list -/

/-- The record that `write_to_dead_letter` pushes. -/
def deadLetterRecord (reason : PyStr) (deadLetteredAt : PyFloat) (payload : PyVal) : PyVal :=
  .dict [(str "reason", .str reason), (str "dead_lettered_at", .float deadLetteredAt), (str "batch", payload)]

/-- What `rpush` raised, and whether the list had got the record by then. -/
structure RedisFault where
  pushed : Bool
  exn : Exn

def writeToDeadLetter (fault : Option RedisFault) (payload : PyVal) (reason : PyStr) (now : PyFloat)
    (deadLetter : List JsonText) : List JsonText × Except Exn Unit :=
  match dumps (deadLetterRecord reason now payload), fault with
  | none, _ => (deadLetter, .error .otherError)
  | some text, none => (deadLetter ++ [text], .ok ())
  | some text, some f => (if f.pushed then deadLetter ++ [text] else deadLetter, .error f.exn)

theorem dumps_deadLetterRecord (reason : PyStr) (now : PyFloat) (payload : PyVal) :
    (dumps (deadLetterRecord reason now payload)).isSome ↔ (dumps payload).isSome := by
  simp only [deadLetterRecord, dumps, dumpsEntries]
  cases dumps payload <;> simp

theorem writeToDeadLetter_pushed {fault : Option RedisFault} {payload : PyVal} (hdumps : (dumps payload).isSome)
    (hpush : ∀ f, fault = some f → f.pushed) (reason : PyStr) (now : PyFloat) (deadLetter : List JsonText) :
    ∃ text, dumps (deadLetterRecord reason now payload) = some text ∧
      (writeToDeadLetter fault payload reason now deadLetter).1 = deadLetter ++ [text] := by
  obtain ⟨text, htext⟩ := Option.isSome_iff_exists.mp ((dumps_deadLetterRecord reason now payload).mpr hdumps)
  refine ⟨text, htext, ?_⟩
  cases fault with
  | none => simp [writeToDeadLetter, htext]
  | some f => simp [writeToDeadLetter, htext, hpush f rfl]

theorem writeToDeadLetter_refused {fault : Option RedisFault} {payload : PyVal}
    (h : ¬ ((dumps payload).isSome ∧ ∀ f, fault = some f → f.pushed)) (reason : PyStr) (now : PyFloat)
    (deadLetter : List JsonText) : (writeToDeadLetter fault payload reason now deadLetter).1 = deadLetter := by
  unfold writeToDeadLetter
  split
  · rfl
  · next text htext =>
    have hdumps : (dumps payload).isSome := by
      rw [← dumps_deadLetterRecord reason now payload, htext]
      rfl
    exact absurd ⟨hdumps, by simp⟩ h
  · next text f htext =>
    have hdumps : (dumps payload).isSome := by
      rw [← dumps_deadLetterRecord reason now payload, htext]
      rfl
    split
    · next hpushed => exact absurd ⟨hdumps, by simpa using hpushed⟩ h
    · rfl

end FlightPulse.Worker
