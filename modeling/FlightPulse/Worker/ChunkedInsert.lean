import FlightPulse.Lib.StableSort
import FlightPulse.Worker.Payload

/-!
# Sorted chunks against one row at a time

`persist_batch` sorts the rows by the text of their ids and sends them in chunks.
The rows that it adds and the number of them are those of one INSERT for each
event, but which of two rows with one id is kept is decided by the spelling.
-/

open Lib Lib.Python Lib.Pydantic Lib.Postgres Lib.Psycopg Lib.StableSort

namespace FlightPulse.Worker

open Ingestion

namespace Env

variable (env : Env)

/-- One INSERT for each event, in the order of the batch. -/
def persistOneByOne (now : Timestamptz) (events : List TelemetryEvent) (table : RawTelemetry) :
    RawTelemetry × Except PersistError ℕ :=
  match events.mapM eventToRow with
  | none => (table, .error (.escaping .otherError))
  | some rows =>
    translated (transact none (rows.map fun row => env.chunkStatement now [row]) table)

end Env

/-- The same row under every id, and the same count, if there is one. -/
def SameEffect (r r' : RawTelemetry × Except PersistError ℕ) : Prop :=
  (∀ u, r.1.lookup u = r'.1.lookup u) ∧ r.2.toOption = r'.2.toOption

def hasId (u : Uuid) (event : TelemetryEvent) : Bool := parseUuid event.ingestionId = some u

/-- Of the events that bring a new id, none is spelled less than the first. -/
def FirstSpelledLeast (table : RawTelemetry) (events : List TelemetryEvent) : Prop :=
  ∀ u, u ∉ table.keys → ∀ e, events.find? (hasId u) = some e →
    ∀ f ∈ events, hasId u f → e.ingestionId ≤ f.ingestionId

variable {env : Env} {now : Timestamptz}

/-! ## The stored rows -/

theorem find?_mapM {α β : Type*} {f : α → Option β} {p : α → Bool} {q : β → Bool}
    (hpq : ∀ a b, f a = some b → p a = q b) {xs : List α} {ys : List β} (h : xs.mapM f = some ys) :
    ys.find? q = (xs.find? p).bind f := by
  induction xs generalizing ys with
  | nil =>
    obtain rfl : [] = ys := Option.some.inj h
    rfl
  | cons x xs ih =>
    obtain ⟨y, ys', hy, hys, rfl⟩ := mapM_cons_eq_some.mp h
    rw [List.find?_cons, List.find?_cons, hpq x y hy]
    cases q y with
    | true => exact hy.symm
    | false => exact ih hys

def rowHasId (u : Uuid) (row : Row) : Bool := parseUuid row.ingestionId = some u

theorem rowHasId_eq {u : Uuid} {e : TelemetryEvent} {row : Row} (h : eventToRow e = some row) :
    hasId u e = rowHasId u row := by
  unfold hasId rowHasId
  rw [eventToRow_ingestionId h]

theorem find?_stored {rows : List Row} {stored : List DbRow} (h : rows.mapM (env.admitRow now) = some stored)
    (u : Uuid) : (stored.find? fun r => r.ingestionId = u) = (rows.find? (rowHasId u)).bind (env.admitRow now) := by
  refine find?_mapM (fun row r hr => ?_) h
  simp only [rowHasId, admitRow_ingestionId hr, Option.some.injEq]

theorem spelling_eq {e f : TelemetryEvent} {row row' : Row} {r : DbRow} (he : eventToRow e = some row)
    (hf : eventToRow f = some row') (hr : BoundAs env now row r) (hr' : BoundAs env now row' r) :
    e.ingestionId = f.ingestionId := by
  have hstored : ∀ {e : TelemetryEvent} {row : Row} (_ : eventToRow e = some row)
      (_ : BoundAs env now row r) (js : List (Text × Jsonb)), r.payload = .obj js →
      (field (.lit "ingestion_id") js) = (encodeText e.ingestionId).map Jsonb.str := by
    intro e row he hr js hjs
    obtain ⟨js', hjs', hfield⟩ := payload_field he hr
    obtain rfl : js' = js := Jsonb.obj.inj (hjs'.symm.trans hjs)
    obtain ⟨t, j, ht, hj, hfield⟩ := hfield "ingestion_id" (.str e.ingestionId) (by simp [eventFields, dumpedValues])
      (by decide)
    have hplain : plain e.ingestionId := by
      apply plain_of_parseUuid
      rw [← eventToRow_ingestionId he, hr.ingestionId]
      rfl
    rw [dumps, Option.some.injEq] at ht
    subst ht
    rw [jsonbIn, jsonString_utf16 hplain] at hj
    rw [hfield, hj]
  obtain ⟨js, hjs, -⟩ := payload_field he hr
  have hsame := (hstored he hr js hjs).symm.trans (hstored hf hr' js hjs)
  have hparsed := hr.ingestionId
  rw [eventToRow_ingestionId he] at hparsed
  obtain ⟨t, ht, -⟩ := Option.bind_eq_some_iff.mp hparsed
  rw [ht, Option.map_some] at hsame
  obtain ⟨t', ht', heq⟩ := Option.map_eq_some_iff.mp hsame.symm
  obtain rfl := Jsonb.str.inj heq
  exact encodeText_inj ht ht'

/-! ## Both ways of a batch -/

variable (now) in
theorem forall_storable_iff {events : List TelemetryEvent} {rows : List Row} (h : events.mapM eventToRow = some rows) :
    (∀ e ∈ events, StorableEvent env e) ↔ ∀ row ∈ rows, (env.admitRow now row).isSome := by
  simp only [← admissible_iff now]
  constructor
  · intro hall row hrow
    obtain ⟨e, he, heq⟩ := exists_of_mem_result h hrow
    obtain ⟨row', hrow', hadmitted⟩ := hall e he
    rw [heq, Option.some.injEq] at hrow'
    exact hrow' ▸ hadmitted
  · intro hall e he
    obtain ⟨row, hrow, heq⟩ := exists_of_mem_mapM h he
    exact ⟨row, heq, hall row hrow⟩

theorem persistBatchIn_stored {size : ℕ} (hsize : 0 < size) {events : List TelemetryEvent} {rows : List Row}
    {stored : List DbRow} (hrows : events.mapM eventToRow = some rows)
    (hstored : (sortRows rows).mapM (env.admitRow now) = some stored) (table : RawTelemetry) :
    env.persistBatchIn size now none events table = (table.insertRows stored, .ok (table.returning stored).length) := by
  unfold Env.persistBatchIn
  split
  · next hnil =>
    subst hnil
    obtain rfl : [] = rows := Option.some.inj hrows
    obtain rfl : [] = stored := Option.some.inj hstored
    rfl
  · have hsome : ∀ stmt ∈ env.insertStatementsIn size now rows, stmt.isOk := by
      rw [insertStatementsIn_isOk hsize]
      intro row hrow
      obtain ⟨r, -, hr⟩ := exists_of_mem_mapM hstored (mem_sortRows.mpr hrow)
      rw [hr]
      rfl
    simp only [hrows, translated]
    rw [transact_accepted hsome, applyAll_insertStatementsIn hsize hstored]
    rfl

theorem applyAll_each {rows : List Row} {stored : List DbRow} (h : rows.mapM (env.admitRow now) = some stored)
    (table : RawTelemetry) (n : ℕ) :
    applyAll (rows.map fun row => env.chunkStatement now [row]) (table, n) =
      (table.insertRows stored, n + (table.returning stored).length) := by
  rw [show rows = (rows.map fun row => [row]).flatten by simp [← List.flatMap_def]] at h
  rw [← applyAll_chunks h, List.map_map]
  rfl

theorem persistOneByOne_stored {events : List TelemetryEvent} {rows : List Row} {stored : List DbRow}
    (hrows : events.mapM eventToRow = some rows) (hstored : rows.mapM (env.admitRow now) = some stored)
    (table : RawTelemetry) :
    env.persistOneByOne now events table = (table.insertRows stored, .ok (table.returning stored).length) := by
  unfold Env.persistOneByOne translated
  simp only [hrows]
  rw [transact_accepted, applyAll_each hstored, Nat.zero_add]
  · rfl
  · simp only [List.forall_mem_map, chunkStatement_isOk, List.forall_mem_singleton]
    intro row hrow
    obtain ⟨r, -, hr⟩ := exists_of_mem_mapM hstored hrow
    rw [hr]
    rfl

theorem same_of_rejected {size : ℕ} (hsize : 0 < size) {events : List TelemetryEvent}
    (h : ¬ ∀ e ∈ events, StorableEvent env e) (table : RawTelemetry) :
    ∃ exn exn', env.persistBatchIn size now none events table = (table, .error exn) ∧
      env.persistOneByOne now events table = (table, .error exn') := by
  have hne : events ≠ [] := by
    rintro rfl
    exact h (by simp)
  unfold Env.persistBatchIn Env.persistOneByOne
  rw [if_neg hne]
  cases hrows : events.mapM eventToRow with
  | none => exact ⟨_, _, rfl, rfl⟩
  | some rows =>
    rw [forall_storable_iff now hrows] at h
    have hchunk : ¬ ∀ stmt ∈ env.insertStatementsIn size now rows, stmt.isOk := by
      rwa [insertStatementsIn_isOk hsize]
    have heach : ¬ ∀ stmt ∈ rows.map fun row => env.chunkStatement now [row], stmt.isOk := by
      simpa only [List.forall_mem_map, chunkStatement_isOk, List.forall_mem_singleton] using h
    obtain ⟨exn, hexn⟩ := transact_refused hchunk table
    obtain ⟨exn', hexn'⟩ := transact_refused heach table
    simp only [translated]
    rw [hexn, hexn']
    exact ⟨_, _, rfl, rfl⟩

theorem mem_ids_sorted {rows : List Row} {sorted stored : List DbRow}
    (hsorted : (sortRows rows).mapM (env.admitRow now) = some sorted)
    (hstored : rows.mapM (env.admitRow now) = some stored) (u : Uuid) :
    u ∈ sorted.map DbRow.ingestionId ↔ u ∈ stored.map DbRow.ingestionId := by
  simp only [List.mem_map]
  constructor
  · rintro ⟨r, hr, rfl⟩
    obtain ⟨row, hrow, hadmitted⟩ := exists_of_mem_result hsorted hr
    obtain ⟨r', hr', heq⟩ := exists_of_mem_mapM hstored (mem_sortRows.mp hrow)
    exact ⟨r', hr', by rw [Option.some.inj (hadmitted.symm.trans heq)]⟩
  · rintro ⟨r, hr, rfl⟩
    obtain ⟨row, hrow, hadmitted⟩ := exists_of_mem_result hstored hr
    obtain ⟨r', hr', heq⟩ := exists_of_mem_mapM hsorted (mem_sortRows.mpr hrow)
    exact ⟨r', hr', by rw [Option.some.inj (hadmitted.symm.trans heq)]⟩

/-! ## Which row is kept -/

/-- The sort puts a row of the least spelling first, of several the earliest. -/
def keptRow (u : Uuid) (rows : List Row) : Option Row :=
  leastMatch (fun a b => a.ingestionId ≤ b.ingestionId) (rowHasId u) rows

theorem find?_sortRows (u : Uuid) (rows : List Row) : (sortRows rows).find? (rowHasId u) = keptRow u rows :=
  find?_insertionSort rows

theorem first_row {events : List TelemetryEvent} {rows : List Row} (h : events.mapM eventToRow = some rows)
    (u : Uuid) : rows.find? (rowHasId u) = (events.find? (hasId u)).bind eventToRow :=
  find?_mapM (fun _ _ hrow => rowHasId_eq hrow) h

/-- The rows are the same under `u` exactly when the first one is spelled least. -/
theorem kept_iff {events : List TelemetryEvent} {rows : List Row} (hrows : events.mapM eventToRow = some rows)
    (hall : ∀ row ∈ rows, (env.admitRow now row).isSome) (u : Uuid) :
    (keptRow u rows).bind (env.admitRow now) = (rows.find? (rowHasId u)).bind (env.admitRow now) ↔
      ∀ e, events.find? (hasId u) = some e → ∀ f ∈ events, hasId u f → e.ingestionId ≤ f.ingestionId := by
  constructor
  · intro hsame e he f hf hu
    have hmem : e ∈ events := List.mem_of_find?_eq_some he
    obtain ⟨row, hrow, hrowOf⟩ := exists_of_mem_mapM hrows hmem
    obtain ⟨row', hrow', hrowOf'⟩ := exists_of_mem_mapM hrows hf
    rw [rowHasId_eq hrowOf'] at hu
    rw [first_row hrows, he, Option.bind_some, hrowOf, Option.bind_some] at hsame
    obtain ⟨r, hr⟩ := Option.isSome_iff_exists.mp (hall row hrow)
    rw [hr] at hsame
    obtain ⟨kept, hkept, hadmitted⟩ := Option.bind_eq_some_iff.mp hsame
    obtain ⟨g, -, hgrow⟩ := exists_of_mem_result hrows (leastMatch_mem hkept).1
    have hspelled : g.ingestionId = e.ingestionId :=
      spelling_eq hgrow hrowOf (admitRow_spec hadmitted) (admitRow_spec hr)
    have hle := leastMatch_le hkept hrow' hu
    rwa [eventToRow_ingestionId hgrow, eventToRow_ingestionId hrowOf', hspelled] at hle
  · intro hleast
    have hrow : keptRow u rows = rows.find? (rowHasId u) := by
      cases hfirst : rows.find? (rowHasId u) with
      | none =>
        unfold keptRow
        rw [leastMatch_eq_none]
        simpa using hfirst
      | some row =>
        rw [first_row hrows] at hfirst
        obtain ⟨e, he, hrowOf⟩ := Option.bind_eq_some_iff.mp hfirst
        refine leastMatch_of_first (by rw [first_row hrows, he, Option.bind_some, hrowOf]) fun row' hrow' hu => ?_
        obtain ⟨f, hf, hrowOf'⟩ := exists_of_mem_result hrows hrow'
        rw [← rowHasId_eq hrowOf'] at hu
        rw [eventToRow_ingestionId hrowOf, eventToRow_ingestionId hrowOf']
        exact hleast e he f hf hu
    rw [hrow]

theorem lookup_iff {events : List TelemetryEvent} {rows : List Row} {sorted stored : List DbRow}
    (hrows : events.mapM eventToRow = some rows) (hsorted : (sortRows rows).mapM (env.admitRow now) = some sorted)
    (hstored : rows.mapM (env.admitRow now) = some stored) (table : RawTelemetry) :
    (∀ u, (table.insertRows sorted).lookup u = (table.insertRows stored).lookup u) ↔
      FirstSpelledLeast table events := by
  have hall : ∀ row ∈ rows, (env.admitRow now row).isSome := by
    rw [← mapM_isSome, hstored]
    rfl
  have hkept := kept_iff hrows hall
  unfold FirstSpelledLeast
  refine forall_congr' fun u => ?_
  rw [UniqueTable.lookup_insertRows, UniqueTable.lookup_insertRows, find?_stored hsorted, find?_stored hstored,
    find?_sortRows, ← hkept u]
  cases hu : table.lookup u with
  | none =>
    have hnew : u ∉ table.keys := UniqueTable.lookup_eq_none.mp hu
    simp [hnew]
  | some r =>
    have hold : ¬ u ∉ table.keys := by
      rw [← UniqueTable.lookup_eq_none, hu]
      simp
    simp [hold]

variable (now) in
theorem rows_of_storable {events : List TelemetryEvent} (h : ∀ e ∈ events, StorableEvent env e) :
    ∃ rows sorted stored, events.mapM eventToRow = some rows ∧
      (sortRows rows).mapM (env.admitRow now) = some sorted ∧ rows.mapM (env.admitRow now) = some stored := by
  obtain ⟨rows, hrows⟩ : ∃ rows, events.mapM eventToRow = some rows := by
    rw [← Option.isSome_iff_exists, mapM_isSome]
    intro e he
    obtain ⟨row, hrow, -⟩ := (admissible_iff now).mpr (h e he)
    rw [hrow]
    rfl
  rw [forall_storable_iff now hrows] at h
  obtain ⟨stored, hstored⟩ := Option.isSome_iff_exists.mp (mapM_isSome.mpr h)
  obtain ⟨sorted, hsorted⟩ := Option.isSome_iff_exists.mp
    (mapM_isSome.mpr fun row hrow => h row (mem_sortRows.mp hrow))
  exact ⟨rows, sorted, stored, hrows, hsorted, hstored⟩

theorem same_ids_and_count {size : ℕ} (hsize : 0 < size) (events : List TelemetryEvent) (table : RawTelemetry) :
    (∀ u, u ∈ (env.persistBatchIn size now none events table).1.keys ↔
        u ∈ (env.persistOneByOne now events table).1.keys) ∧
      (env.persistBatchIn size now none events table).2.toOption =
        (env.persistOneByOne now events table).2.toOption := by
  by_cases h : ∀ e ∈ events, StorableEvent env e
  · obtain ⟨rows, sorted, stored, hrows, hsorted, hstored⟩ := rows_of_storable now h
    have hids := mem_ids_sorted hsorted hstored
    rw [persistBatchIn_stored hsize hrows hsorted, persistOneByOne_stored hrows hstored]
    refine ⟨fun u => ?_, ?_⟩
    · rw [UniqueTable.mem_keys_insertRows, UniqueTable.mem_keys_insertRows, hids]
    · simp only [UniqueTable.length_returning_congr table hids]
  · obtain ⟨exn, exn', hchunked, heach⟩ := same_of_rejected hsize h table
    rw [hchunked, heach]
    exact ⟨fun _ => Iff.rfl, rfl⟩

/-- The id of `sampleId` in capitals. -/
def upperSampleId : PyStr := str "6BA7B810-9DAD-11D1-80B4-00C04FD430C8"

/-- The spelling that a payload keeps. -/
def storedSpelling (r : DbRow) : Option Text :=
  match r.payload with
  | .obj js => (field (.lit "ingestion_id") js).bind fun j =>
    match j with
    | .str t => some t
    | _ => none
  | _ => none

end FlightPulse.Worker
