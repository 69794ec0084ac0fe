import FlightPulse.Replay.Player
import FlightPulse.Worker.Batching

/-!
# Restoring a table from its export

Rows are exported to a fixture, and the fixture is replayed with the ids that it
has. What comes back into a table is what was in the other one, up to the times of
arrival and up to the rows that the worker takes for duplicates within a batch.
-/

open Lib Lib.Python Lib.Pydantic Lib.Postgres Lib.Run
open scoped List

namespace FlightPulse.Replay

open Collector Ingestion Worker

/-! ## An event that is read back -/

/-- The event that a stored payload validates to. -/
def reloaded (e : TelemetryEvent) : TelemetryEvent :=
  { e with
    callsign := e.callsign.map rejoined
    originCountry := e.originCountry.map rejoined }

variable {env : Env} {e : TelemetryEvent} {row : Row} {r : DbRow} {now : Timestamptz}

@[simp] theorem dedupeKey_reloaded (e : TelemetryEvent) : dedupeKey (reloaded e) = dedupeKey e := rfl

@[simp] theorem ingestionId_reloaded (e : TelemetryEvent) : (reloaded e).ingestionId = e.ingestionId := rfl

theorem normalizeEvent_reloaded (h : normalizeEvent e = e) : normalizeEvent (reloaded e) = reloaded e := by
  obtain ⟨_, _, _, _, _, _, _, _, baro, _, _, _, _, ground, _, _, _⟩ := e
  cases ground with
  | some b => cases baro <;> rfl
  | none =>
    cases baro with
    | none => rfl
    | some x =>
      have hground := congrArg TelemetryEvent.onGround h
      cases hground

/-! ### Values -/

theorem reloads_none {t : JsonText} {v : PyVal} (ht : dumps .none = some t) (h : Reloads t v) : v = .none := by
  cases ht
  cases h
  rfl

theorem reloads_str {s : PyStr} {t : JsonText} {v : PyVal} (ht : dumps (.str s) = some t) (h : Reloads t v) :
    v = .str (rejoined s) := by
  cases ht
  cases h with
  | str hunits =>
    unfold rejoined
    rw [hunits]
    rfl

theorem reloads_int {n : ℤ} {t : JsonText} {v : PyVal} (ht : dumps (.int n) = some t) (h : Reloads t v) :
    v = .int n := by
  rw [dumps] at ht
  split at ht
  · cases ht
    cases h
    rfl
  · cases ht

theorem reloads_bool {b : Bool} {t : JsonText} {v : PyVal} (ht : dumps (.bool b) = some t) (h : Reloads t v) :
    v = .bool b := by
  cases ht
  cases h
  rfl

theorem reloads_float {x : PyFloat} {t : JsonText} {v : PyVal} (ht : dumps (.float x) = some t) (h : Reloads t v) :
    v = .float x ∨ ∃ n : ℤ, x = .finite n ∧ v = .int n := by
  cases ht
  cases h with
  | float q => exact .inl rfl
  | whole n => exact .inr ⟨n, rfl, rfl⟩

/-! ### Fields -/

/-- What the driver may load where this value was dumped. -/
def ReadsBack (v loaded : PyVal) : Prop := ∃ t, dumps v = some t ∧ Reloads t loaded

theorem readsBack_optional {α β : Type} {dump : α → PyVal} {validate : PyVal → Validated β} {f : α → β} {x : Option α}
    {loaded : PyVal} (h : ReadsBack (dumpOption dump x) loaded)
    (hsome : ∀ a, x = some a → ReadsBack (dump a) loaded → loaded ≠ .none ∧ validate loaded = .ok (f a)) :
    optional validate loaded = .ok (x.map f) := by
  cases x with
  | none =>
    obtain ⟨t, ht, hloads⟩ := h
    rw [reloads_none ht hloads]
    rfl
  | some a =>
    obtain ⟨hne, hvalid⟩ := hsome a rfl h
    unfold Pydantic.optional
    split
    · exact absurd rfl hne
    · rw [hvalid]
      rfl

theorem readsBack_str {x : Option PyStr} {loaded : PyVal} (h : ReadsBack (dumpOption .str x) loaded) :
    optional validateStr loaded = .ok (x.map rejoined) := by
  refine readsBack_optional h fun s _ hs => ?_
  obtain ⟨t, ht, hloads⟩ := hs
  rw [reloads_str ht hloads]
  exact ⟨by simp, rfl⟩

theorem readsBack_int {lax : Lax} {x : Option ℤ} {loaded : PyVal} (h : ReadsBack (dumpOption .int x) loaded) :
    optional (validateInt lax) loaded = .ok x := by
  have hsame : optional (validateInt lax) loaded = .ok (x.map id) :=
    readsBack_optional h fun n _ ⟨t, ht, hloads⟩ => by
      rw [reloads_int ht hloads]
      exact ⟨by simp, rfl⟩
  simpa using hsame

theorem readsBack_bool {lax : Lax} {x : Option Bool} {loaded : PyVal} (h : ReadsBack (dumpOption .bool x) loaded) :
    optional (validateBool lax) loaded = .ok x := by
  have hsame : optional (validateBool lax) loaded = .ok (x.map id) :=
    readsBack_optional h fun b _ ⟨t, ht, hloads⟩ => by
      rw [reloads_bool ht hloads]
      exact ⟨by simp, rfl⟩
  simpa using hsame

/-- An integer in the place of this float is converted to it. -/
def ConvertsBack (lax : Lax) (x : Option PyFloat) : Prop :=
  ∀ n : ℤ, x = some (.finite n) → lax.toFloat (.int n) = .ok (.finite n)

theorem readsBack_float {lax : Lax} {x : Option PyFloat} {loaded : PyVal}
    (h : ReadsBack (dumpOption .float x) loaded) (hlax : ConvertsBack lax x) :
    optional (validateFloat lax) loaded = .ok x := by
  have hsame : optional (validateFloat lax) loaded = .ok (x.map id) :=
    readsBack_optional h fun y hy ⟨t, ht, hloads⟩ => by
      rcases reloads_float ht hloads with rfl | ⟨n, rfl, rfl⟩
      · exact ⟨by simp, rfl⟩
      · refine ⟨by simp, ?_⟩
        change converted (.int n) (lax.toFloat (.int n)) = _
        rw [hlax n hy]
        rfl
  simpa using hsame

theorem readsBack_plain {s : PyStr} {loaded : PyVal} (h : ReadsBack (.str s) loaded) (hs : plain s) :
    validateStr loaded = .ok s := by
  obtain ⟨t, ht, hloads⟩ := h
  rw [reloads_str ht hloads, rejoined_of_plain hs]
  rfl

section

variable {α : Type} {data : List (PyStr × PyVal)} {name : PyStr} {v : PyVal} {a : α} {validate : PyVal → Validated α}

theorem required_of_get (hget : PyVal.get? name data = some v) (hv : validate v = .ok a) :
    required name validate data = .ok a := by
  unfold required
  rw [hget]
  simp only [hv, Validated.within_ok]

theorem defaulted_of_get (default : α) (hget : PyVal.get? name data = some v) (hv : validate v = .ok a) :
    defaulted name default validate data = .ok a := by
  unfold defaulted
  rw [hget]
  simp only [hv, Validated.within_ok]

theorem optionalField_of_get {x : Option α} (hget : PyVal.get? name data = some v)
    (hv : optional validate v = .ok x) : optionalField name validate data = .ok x :=
  defaulted_of_get none hget hv

end

/-- A stored event validates to itself, its surrogate pairs joined. -/
theorem modelValidate_reloaded {text : JsonText} {payload : PyVal} (htext : dumps e.modelDump = some text)
    (hloads : Reloads text payload) (hsource : plain e.source) (hicao24 : plain e.icao24)
    (hingestedAt : plain e.ingestedAt) (hingestionId : plain e.ingestionId)
    (hcollectorId : ∀ s, e.collectorId = some s → plain s)
    (hlax : ∀ x ∈ measurements e, ConvertsBack env.lax x) :
    TelemetryEvent.modelValidate env.lax payload = .ok (reloaded e) := by
  have hplain : ∀ p ∈ (eventFields.map str).zip (dumpedValues e), plain p.1 := by
    have hall : ∀ k ∈ eventFields.map str, plain k = true := by decide
    exact fun p hp => hall p.1 (List.of_mem_zip hp).1
  have hnodup : (((eventFields.map str).zip (dumpedValues e)).map Prod.fst).Nodup := by
    rw [show ((eventFields.map str).zip (dumpedValues e)).map Prod.fst = eventFields.map str from rfl]
    decide
  rw [modelDump_eq] at htext
  obtain ⟨data, rfl, hdata⟩ := reloads_dict htext hloads hplain hnodup
  have hfield : ∀ p ∈ (eventFields.map str).zip (dumpedValues e),
      ∃ v, PyVal.get? p.1 data = some v ∧ ReadsBack p.2 v := by
    rintro ⟨k, v⟩ hp
    obtain ⟨t, v', ht, hv', hget⟩ := hdata k v hp
    exact ⟨v', hget, t, ht, hv'⟩
  simp only [eventFields, dumpedValues, List.map_cons, List.map_nil, List.zip_cons_cons, List.zip_nil_right,
    List.forall_mem_cons] at hfield
  obtain ⟨⟨_, g1, h1⟩, ⟨_, g2, h2⟩, ⟨_, g3, h3⟩, ⟨_, g4, h4⟩, ⟨_, g5, h5⟩, ⟨_, g6, h6⟩, ⟨_, g7, h7⟩, ⟨_, g8, h8⟩,
    ⟨_, g9, h9⟩, ⟨_, g10, h10⟩, ⟨_, g11, h11⟩, ⟨_, g12, h12⟩, ⟨_, g13, h13⟩, ⟨_, g14, h14⟩, ⟨_, g15, h15⟩,
    ⟨_, g16, h16⟩, ⟨_, g17, h17⟩, -⟩ := hfield
  unfold measurements at hlax
  simp only [List.forall_mem_cons] at hlax
  obtain ⟨hlon, hlat, hbaro, hgeo, hvel, htrack, hrate, -⟩ := hlax
  have hcollector : e.collectorId.map rejoined = e.collectorId := by
    cases hc : e.collectorId with
    | none => rfl
    | some s => rw [Option.map_some, rejoined_of_plain (hcollectorId s hc)]
  change TelemetryEvent.fields env.lax data = .ok (reloaded e)
  unfold TelemetryEvent.fields
  rw [defaulted_of_get _ g1 (readsBack_plain h1 hsource), required_of_get g2 (readsBack_plain h2 hicao24),
    optionalField_of_get g3 (readsBack_str h3), optionalField_of_get g4 (readsBack_str h4),
    optionalField_of_get g5 (readsBack_int h5), optionalField_of_get g6 (readsBack_int h6),
    optionalField_of_get g7 (readsBack_float h7 hlon), optionalField_of_get g8 (readsBack_float h8 hlat),
    optionalField_of_get g9 (readsBack_float h9 hbaro), optionalField_of_get g10 (readsBack_float h10 hgeo),
    optionalField_of_get g11 (readsBack_float h11 hvel), optionalField_of_get g12 (readsBack_float h12 htrack),
    optionalField_of_get g13 (readsBack_float h13 hrate), optionalField_of_get g14 (readsBack_bool h14),
    required_of_get g15 (readsBack_plain h15 hingestedAt), required_of_get g16 (readsBack_plain h16 hingestionId),
    optionalField_of_get g17 (readsBack_str h17), hcollector]
  rfl

/-! ## The row that it is stored as again -/

theorem stored_dumpOption_rejoined (x : Option PyStr) :
    stored (dumpOption .str (x.map rejoined)) = stored (dumpOption .str x) := by
  cases x with
  | none => rfl
  | some s => exact stored_rejoined s

theorem stored_reloaded (e : TelemetryEvent) : stored (reloaded e).modelDump = stored e.modelDump := by
  unfold TelemetryEvent.modelDump
  rw [stored_dict, stored_dict]
  simp only [List.mapM_cons, storedEntry, reloaded, stored_dumpOption_rejoined]

theorem eventToRow_eq (e : TelemetryEvent) : eventToRow e =
    (dumps e.modelDump).map fun payload =>
      ⟨e.ingestionId, e.source, e.icao24, e.collectorId, payload, e.ingestedAt⟩ := rfl

/-- The columns that do not say when the row arrived. -/
structure SameObservation (r r' : DbRow) : Prop where
  ingestionId : r'.ingestionId = r.ingestionId
  source : r'.source = r.source
  icao24 : r'.icao24 = r.icao24
  collectorId : r'.collectorId = r.collectorId
  payload : r'.payload = r.payload
  ingestedAt : r'.ingestedAt = r.ingestedAt

theorem sameObservation_of_reloaded {now' : Timestamptz} {row' : Row} {r' : DbRow}
    (hrow : eventToRow e = some row) (hr : env.admitRow now row = some r)
    (hrow' : eventToRow (reloaded e) = some row') (hr' : env.admitRow now' row' = some r') :
    SameObservation r r' := by
  have hbound := admitRow_spec hr
  have hbound' := admitRow_spec hr'
  obtain ⟨text, htext, rfl⟩ := Option.map_eq_some_iff.mp (eventToRow_eq e ▸ hrow)
  obtain ⟨text', htext', rfl⟩ := Option.map_eq_some_iff.mp (eventToRow_eq (reloaded e) ▸ hrow')
  refine ⟨?_, ?_, ?_, ?_, ?_, ?_⟩
  · exact Option.some.inj (hbound'.ingestionId.symm.trans hbound.ingestionId)
  · exact Option.some.inj (hbound'.source.symm.trans hbound.source)
  · exact Option.some.inj (hbound'.icao24.symm.trans hbound.icao24)
  · exact Option.some.inj (hbound'.collectorId.symm.trans hbound.collectorId)
  · have hsame := stored_reloaded e
    unfold stored at hsame
    rw [htext, htext', Option.bind_some, Option.bind_some, hbound.payload, hbound'.payload] at hsame
    exact Option.some.inj hsame
  · exact Option.some.inj (hbound'.ingestedAt.symm.trans hbound.ingestedAt)

theorem storable_reloaded (h : StorableEvent env e) : StorableEvent env (reloaded e) := by
  have hpaired : ∀ x : Option PyStr, (∀ s, x = some s → paired s) → ∀ s, x.map rejoined = some s → paired s := by
    rintro x hx _ hs
    obtain ⟨s, hs', rfl⟩ := Option.map_eq_some_iff.mp hs
    obtain ⟨t, ht⟩ := Option.isSome_iff_exists.mp (jsonString_isSome s ▸ hx s hs')
    unfold rejoined
    rw [ht]
    exact paired_of_plain (plain_decodeText t)
  exact ⟨⟨h.ingestionId, h.ingestedAt, h.source, h.icao24, h.collectorId, hpaired _ h.callsign,
    hpaired _ h.originCountry, h.timePosition, h.lastContact, h.measurements⟩, h.indexEntry⟩

/-! ## Rows that are exported -/

/-- The row was written for the event, by a worker, and is exported as this line. -/
structure Exported {δ : Type} (env : Env) (e : TelemetryEvent) (r : DbRow) (line : FixtureRow δ) : Prop where
  normalized : normalizeEvent e = e
  written : ∃ row now, eventToRow e = some row ∧ env.admitRow now row = some r ∧ Reloads row.payload line.payload
  ingestionId : line.ingestionId = r.ingestionId
  source : line.source = decodeText r.source
  icao24 : line.icao24 = decodeText r.icao24
  collectorId : line.collectorId = r.collectorId.map decodeText

section

variable {δ : Type} {line : FixtureRow δ}

theorem storable_of_exported (h : Exported env e r line) : StorableEvent env e := by
  obtain ⟨row, now, hrow, hr, -⟩ := h.written
  exact (admissible_iff now).mp ⟨row, hrow, by rw [hr]; rfl⟩

theorem id_of_exported (h : Exported env e r line) : parseUuid e.ingestionId = some r.ingestionId := by
  obtain ⟨row, now, hrow, hr, -⟩ := h.written
  rw [← eventToRow_ingestionId hrow]
  exact admitRow_ingestionId hr

theorem validates_of_exported (h : Exported env e r line)
    (hlax : ∀ x ∈ measurements e, ConvertsBack env.lax x) :
    TelemetryEvent.modelValidate env.lax line.payload = .ok (reloaded e) := by
  have hstorable := storable_of_exported h
  obtain ⟨row, now, hrow, -, hloads⟩ := h.written
  obtain ⟨text, htext, rfl⟩ := Option.map_eq_some_iff.mp (eventToRow_eq e ▸ hrow)
  exact modelValidate_reloaded htext hloads hstorable.source hstorable.icao24
    (plain_of_parseTimestamptz hstorable.ingestedAt) (plain_of_parseUuid hstorable.ingestionId)
    hstorable.collectorId hlax

end

/-! ## The rows that the jobs add -/

/-- The row was admitted for an event that a batch with these values keeps. -/
def KeptIn (env : Env) (values : List PyVal) (r : DbRow) : Prop :=
  ∃ events, Parsed env values events ∧
    ∃ event ∈ processed ⟨events⟩, ∃ row now, eventToRow event = some row ∧ env.admitRow now row = some r

theorem job_adds (settings : Worker.Settings) (jobTry : ℕ) (a : Worker.Attempt) (values : List PyVal) (w : World) :
    ∃ added, (env.processTelemetryBatch settings jobTry a (batchPayload values) w).1.rawTelemetry.rows =
        w.rawTelemetry.rows ++ added ∧
      ∀ r ∈ added, KeptIn env values r := by
  unfold Env.processTelemetryBatch
  cases hvalid : TelemetryBatch.modelValidate env.lax (batchPayload values) with
  | invalid errors => exact ⟨[], (List.append_nil _).symm, by simp⟩
  | ok batch =>
    rcases @persistBatch_effect env a.now a.fault (processed batch) w.rawTelemetry with
      ⟨rows, admitted, hrows, hadmitted, hinsert⟩ | ⟨hsame, -⟩
    · refine ⟨w.rawTelemetry.returning admitted, by simp only [hinsert, UniqueTable.rows_insertRows], fun r hr => ?_⟩
      obtain ⟨row, hrow, hr'⟩ := exists_of_mem_result hadmitted (UniqueTable.mem_of_mem_returning hr)
      obtain ⟨event, hevent, hrow'⟩ := exists_of_mem_result hrows (mem_sortRows.mp hrow)
      exact ⟨batch.events, modelValidate_batchPayload.mp hvalid, event, hevent, row, a.now, hrow', hr'⟩
    · exact ⟨[], by simp only [hsame, List.append_nil], by simp⟩

theorem completes_adds {settings : Worker.Settings} {batches : List (List PyVal)} {w w' : World}
    (h : env.Completes settings batches w w') :
    ∃ added, w'.rawTelemetry.rows = w.rawTelemetry.rows ++ added ∧
      ∀ r ∈ added, ∃ values ∈ batches, KeptIn env values r := by
  obtain ⟨turns, s, hexec, -, rfl⟩ := h
  refine exec_invariant (I := fun s : Progress => ∃ added,
    s.world.rawTelemetry.rows = w.rawTelemetry.rows ++ added ∧
      ∀ r ∈ added, ∃ values ∈ batches, KeptIn env values r) ?_ ⟨[], (List.append_nil _).symm, by simp⟩ hexec
  rintro s t s' ⟨added, hrows, hadded⟩ hturn
  obtain ⟨values, hvalues, rfl⟩ := Option.map_eq_some_iff.mp hturn
  obtain ⟨more, hmore, hkept⟩ := @job_adds env settings t.jobTry t.meets values s.world
  refine ⟨added ++ more, by rw [hmore, hrows, List.append_assoc], fun r hr => ?_⟩
  rcases List.mem_append.mp hr with hr | hr
  · exact hadded r hr
  · exact ⟨values, List.mem_of_getElem? hvalues, hkept r hr⟩

/-! ## Export, replay, restore -/

/-- The batches that the ingestion service makes of a replay of the events. -/
def restoredBatches (batchSize : ℕ) (events : List TelemetryEvent) : List TelemetryBatch :=
  (chunks batchSize (events.map reloaded)).map TelemetryBatch.mk

/-- The jobs of batches, each with the payload that the ingestion service dumped. -/
def jobsOf (batches : List TelemetryBatch) : List (List PyVal) :=
  batches.map fun batch => batch.events.map TelemetryEvent.modelDump

theorem chunks_map {α β : Type*} (f : α → β) (size : ℕ) (xs : List α) :
    chunks size (xs.map f) = (chunks size xs).map (List.map f) := by
  unfold chunks
  simp [List.map_take, List.map_drop]

theorem parsed_dumped (env : Env) (events : List TelemetryEvent) :
    Parsed env (events.map TelemetryEvent.modelDump) events := by
  unfold Parsed
  rw [List.forall₂_map_left_iff, List.forall₂_same]
  exact fun e _ => TelemetryEvent.modelValidate_modelDump env.lax e

theorem parsed_jobs (env : Env) (batches : List TelemetryBatch) :
    List.Forall₂ (Parsed env) (jobsOf batches) (batches.map TelemetryBatch.events) := by
  unfold jobsOf
  rw [List.forall₂_map_right_iff, List.forall₂_map_left_iff, List.forall₂_same]
  exact fun batch _ => parsed_dumped env batch.events

theorem mem_chunk {α : Type*} {size : ℕ} {xs chunk : List α} (h : chunk ∈ chunks size xs) {x : α} (hx : x ∈ chunk) :
    x ∈ xs := by
  unfold chunks at h
  obtain ⟨i, -, rfl⟩ := List.mem_map.mp h
  exact List.mem_of_mem_drop (List.mem_of_mem_take hx)

section

variable {δ : Type} {exported : List (TelemetryEvent × DbRow × FixtureRow δ)} {batchSize : ℕ}

theorem mem_restored {batch : TelemetryBatch} (h : batch ∈ restoredBatches batchSize (exported.map Prod.fst))
    {event : TelemetryEvent} (hevent : event ∈ batch.events) : ∃ x ∈ exported, event = reloaded x.1 := by
  obtain ⟨chunk, hchunk, rfl⟩ := List.mem_map.mp h
  obtain ⟨e, he, rfl⟩ := List.mem_map.mp (mem_chunk hchunk hevent)
  obtain ⟨x, hx, rfl⟩ := List.mem_map.mp he
  exact ⟨x, hx, rfl⟩

theorem replay_accepted (hexported : ∀ x ∈ exported, Exported env x.1 x.2.1 x.2.2)
    (hlax : ∀ x ∈ exported, ∀ y ∈ measurements x.1, ConvertsBack env.lax y) :
    List.Forall₂ (fun values batch => TelemetryBatch.modelValidate env.lax (batchPayload values) = .ok batch)
      (chunks batchSize (exported.map fun x => x.2.2.payload)) (restoredBatches batchSize (exported.map Prod.fst)) := by
  unfold restoredBatches
  rw [List.map_map, chunks_map, chunks_map, List.forall₂_map_right_iff, List.forall₂_map_right_iff,
    List.forall₂_map_left_iff, List.forall₂_same]
  intro chunk hchunk
  refine modelValidate_batchPayload.mpr ?_
  unfold Parsed
  rw [List.forall₂_map_right_iff, List.forall₂_map_left_iff, List.forall₂_same]
  intro x hx
  have hmem := mem_chunk hchunk hx
  exact validates_of_exported (hexported x hmem) (hlax x hmem)

theorem storing_restored (hexported : ∀ x ∈ exported, Exported env x.1 x.2.1 x.2.2) :
    ∀ batch ∈ restoredBatches batchSize (exported.map Prod.fst), Storing env batch.events := by
  intro batch hbatch event hfirst
  obtain ⟨x, hx, rfl⟩ := mem_restored hbatch (mem_of_firstOfKey hfirst)
  exact storable_reloaded (storable_of_exported (hexported x hx))

theorem observation_of_kept (hexported : ∀ x ∈ exported, Exported env x.1 x.2.1 x.2.2) {values : List PyVal}
    (hvalues : values ∈ jobsOf (restoredBatches batchSize (exported.map Prod.fst))) {r' : DbRow}
    (hkept : KeptIn env values r') : ∃ x ∈ exported, SameObservation x.2.1 r' := by
  obtain ⟨batch, hbatch, rfl⟩ := List.mem_map.mp hvalues
  obtain ⟨events, hparsed, event, hevent, row', now', hrow', hr'⟩ := hkept
  obtain rfl := parsed_unique hparsed (parsed_dumped env batch.events)
  obtain ⟨e, he, rfl⟩ := mem_of_mem_processed hevent
  obtain ⟨x, hx, rfl⟩ := mem_restored hbatch he
  have hx' := hexported x hx
  rw [normalizeEvent_reloaded hx'.normalized] at hrow'
  obtain ⟨row, now, hrow, hr, -⟩ := hx'.written
  exact ⟨x, hx, sameObservation_of_reloaded hrow hr hrow' hr'⟩

theorem restored_ids {settings : Worker.Settings} {w w' : World}
    (h : env.Completes settings (jobsOf (restoredBatches batchSize (exported.map Prod.fst))) w w') (u : Uuid) :
    u ∈ w'.rawTelemetry.keys ↔ u ∈ w.rawTelemetry.keys ∨
      ∃ batch ∈ restoredBatches batchSize (exported.map Prod.fst), KeepsId batch.events u := by
  obtain ⟨parts, hparts, -, hids⟩ := completes_ids h
  have hsame : parts = (restoredBatches batchSize (exported.map Prod.fst)).map TelemetryBatch.events := by
    have hunique : Relator.RightUnique (Parsed env) := fun _ _ _ he he' => parsed_unique he he'
    exact List.right_unique_forall₂' hunique hparts (parsed_jobs env _)
  rw [hids, hsame]
  simp

/-- Where rows of one key have one id, every exported id is brought back. -/
theorem keepsId_restored (hexported : ∀ x ∈ exported, Exported env x.1 x.2.1 x.2.2) (hsize : 0 < batchSize)
    (hkeys : ∀ x ∈ exported, ∀ y ∈ exported, dedupeKey x.1 = dedupeKey y.1 → x.2.1.ingestionId = y.2.1.ingestionId)
    {x : TelemetryEvent × DbRow × FixtureRow δ} (hx : x ∈ exported) :
    ∃ batch ∈ restoredBatches batchSize (exported.map Prod.fst), KeepsId batch.events x.2.1.ingestionId := by
  have hmem : reloaded x.1 ∈ (chunks batchSize ((exported.map Prod.fst).map reloaded)).flatten := by
    rw [flatten_chunks batchSize hsize]
    exact List.mem_map_of_mem (List.mem_map_of_mem hx)
  obtain ⟨chunk, hchunk, hin⟩ := List.mem_flatten.mp hmem
  have hbatch : TelemetryBatch.mk chunk ∈ restoredBatches batchSize (exported.map Prod.fst) :=
    List.mem_map_of_mem hchunk
  obtain ⟨first, hfirst, hkey⟩ := exists_firstOfKey hin
  obtain ⟨y, hy, rfl⟩ := mem_restored hbatch (mem_of_firstOfKey hfirst)
  refine ⟨_, hbatch, reloaded y.1, hfirst, ?_⟩
  rw [ingestionId_reloaded, id_of_exported (hexported y hy), hkeys y hy x hx hkey]

/-- Rows that a worker wrote are exported, loaded and replayed with their ids. The ingestion service accepts
every batch, and the jobs can be run. However they are, with retries and in any order, each row that they add
is one of the exported rows; the ids that are there then are those that the batches keep. Where rows of one
key have one id, none is missing, and where all of the ids were there already, the table stays as it was. -/
theorem replay_restores (codec : Codec δ) (host : Host) {linesep : Linesep} (draw : FreshDraw)
    (settings : Worker.Settings) {file : PyStr} {n : ℕ} (hexported : ∀ x ∈ exported, Exported env x.1 x.2.1 x.2.2)
    (hlax : ∀ x ∈ exported, ∀ y ∈ measurements x.1, ConvertsBack env.lax y)
    (hfloat : ∀ q, printable (codec.floatRepr q))
    (hloads : ∀ line ∈ exported.map (fun x => x.2.2), ∀ text,
      jsonDumps codec.floatRepr (codec.record line) = some text → codec.loads text = some (codec.record line))
    (hexport : codec.exportFixture linesep (exported.map fun x => x.2.2) = (file, some n)) (hne : exported ≠ [])
    (hsize : 0 < batchSize) :
    let batches := restoredBatches batchSize (exported.map Prod.fst)
    (∀ outcome completed, List.Forall₂
      (fun values batch => TelemetryBatch.modelValidate env.lax (batchPayload values) = .ok batch)
      (runReplay codec host .replay draw (some file) batchSize outcome completed).1 batches) ∧
    ∀ w, (∃ w', env.Completes settings (jobsOf batches) w w') ∧
      ∀ w', env.Completes settings (jobsOf batches) w w' →
        (∃ added, w'.rawTelemetry.rows = w.rawTelemetry.rows ++ added ∧
          ∀ r' ∈ added, ∃ x ∈ exported, SameObservation x.2.1 r') ∧
        (∀ u, u ∈ w'.rawTelemetry.keys ↔
          u ∈ w.rawTelemetry.keys ∨ ∃ batch ∈ batches, KeepsId batch.events u) ∧
        ((∀ x ∈ exported, ∀ y ∈ exported, dedupeKey x.1 = dedupeKey y.1 →
            x.2.1.ingestionId = y.2.1.ingestionId) →
          ∀ x ∈ exported, x.2.1.ingestionId ∈ w'.rawTelemetry.keys) ∧
        ((∀ x ∈ exported, x.2.1.ingestionId ∈ w.rawTelemetry.keys) →
          w'.rawTelemetry.rows = w.rawTelemetry.rows) := by
  intro batches
  have hload := loadFixture_exportFixture hfloat hloads hexport
  rw [List.map_map] at hload
  have hpayloads : exported.map (FixtureRow.payload ∘ fun x => x.2.2) ≠ [] := by simpa using hne
  refine ⟨fun outcome completed => ?_, fun w => ⟨?_, fun w' hw' => ?_⟩⟩
  · rw [runReplay_loaded hload hpayloads host .replay draw (Nat.ne_of_gt hsize), submitBatches_replay]
    exact replay_accepted hexported hlax
  · refine completes_of_storing (parsed_jobs env batches) ?_ settings w
    simp only [List.forall_mem_map]
    exact storing_restored hexported
  · obtain ⟨added, hrows, hadded⟩ := completes_adds hw'
    have hsame : ∀ r' ∈ added, ∃ x ∈ exported, SameObservation x.2.1 r' := by
      intro r' hr'
      obtain ⟨values, hvalues, hkept⟩ := hadded r' hr'
      exact observation_of_kept hexported hvalues hkept
    have hids := restored_ids hw'
    refine ⟨⟨added, hrows, hsame⟩, hids, fun hkeys x hx => ?_, fun hknown => ?_⟩
    · exact (hids _).mpr (.inr (keepsId_restored hexported hsize hkeys hx))
    · -- a row that is added would have an id that is there already
      cases added with
      | nil => rw [hrows, List.append_nil]
      | cons r' rest =>
        obtain ⟨x, hx, hobserved⟩ := hsame r' List.mem_cons_self
        have hnodup := w'.rawTelemetry.nodup
        rw [hrows, List.map_append, List.nodup_append] at hnodup
        have hold : r'.ingestionId ∈ w.rawTelemetry.rows.map DbRow.ingestionId := by
          rw [hobserved.ingestionId]
          exact hknown x hx
        exact absurd rfl (hnodup.2.2 _ hold _ (List.mem_map_of_mem List.mem_cons_self))

end

/-! ## Three sightings of one aircraft -/

/-- What the driver loads of this value can be the value itself. -/
def LoadsAsItself (v : PyVal) : Prop := ∀ t, dumps v = some t → Reloads t v

theorem loadsAsItself_none : LoadsAsItself .none := by
  rintro t ht
  cases ht
  exact .null

theorem loadsAsItself_bool (b : Bool) : LoadsAsItself (.bool b) := by
  rintro t ht
  cases ht
  exact .bool b

theorem loadsAsItself_int (n : ℤ) : LoadsAsItself (.int n) := by
  rintro t ht
  rw [dumps] at ht
  split at ht
  · cases ht
    exact .int n
  · cases ht

theorem loadsAsItself_float (q : ℚ) : LoadsAsItself (.float (.finite q)) := by
  rintro t ht
  cases ht
  exact .float q

theorem loadsAsItself_str {s : PyStr} (hs : plain s) : LoadsAsItself (.str s) := by
  rintro t ht
  cases ht
  obtain ⟨k, hk⟩ := Option.isSome_iff_exists.mp (encodeText_isSome.mpr hs)
  rw [← decodeText_encodeText hk]
  exact .str (by rw [jsonString_utf16 (plain_decodeText k), encodeText_decodeText])

theorem loadsAsItself_modelDump (h : ∀ v ∈ dumpedValues e, LoadsAsItself v) : LoadsAsItself e.modelDump := by
  intro text htext
  rw [modelDump_eq] at htext ⊢
  refine reloads_dict_self htext ?_ ?_ fun p hp => h p.2 (List.of_mem_zip hp).2
  · have hall : ∀ k ∈ eventFields.map str, plain k = true := by decide
    exact fun p hp => hall p.1 (List.of_mem_zip hp).1
  · have hnames : ((eventFields.map str).zip (dumpedValues e)).map Prod.fst = eventFields.map str := rfl
    rw [hnames]
    decide

/-- The line of the row that was written for the event. -/
def lineOf (u : Uuid) (e : TelemetryEvent) : FixtureRow PyStr where
  ingestionId := u
  source := e.source
  icao24 := e.icao24
  collectorId := e.collectorId
  payload := e.modelDump
  receivedAt := str "2026-08-26T10:00:00+00:00"
  ingestedAt := str "2026-08-26T10:00:00+00:00"
  processedAt := none

theorem exported_lineOf {u : Uuid} (h : StorableEvent env e) (hnormalized : normalizeEvent e = e)
    (hu : parseUuid e.ingestionId = some u) (hloads : LoadsAsItself e.modelDump) :
    ∃ r, Exported env e r (lineOf u e) := by
  obtain ⟨row, hrow, hadmitted⟩ := (admissible_iff (.at 0)).mpr h
  obtain ⟨r, hr⟩ := Option.isSome_iff_exists.mp hadmitted
  have hbound := admitRow_spec hr
  obtain ⟨text, htext, rfl⟩ := Option.map_eq_some_iff.mp (eventToRow_eq e ▸ hrow)
  refine ⟨r, hnormalized, ⟨_, .at 0, hrow, hr, hloads text htext⟩, ?_, (decodeText_encodeText hbound.source).symm,
    (decodeText_encodeText hbound.icao24).symm, ?_⟩
  · exact Option.some.inj (hu.symm.trans hbound.ingestionId)
  · have hcollector : nullableText e.collectorId = some r.collectorId := hbound.collectorId
    change e.collectorId = _
    cases hid : e.collectorId with
    | none =>
      rw [hid] at hcollector
      rw [← Option.some.inj hcollector]
      rfl
    | some s =>
      rw [hid] at hcollector
      obtain ⟨t, ht, hsome⟩ := Option.map_eq_some_iff.mp hcollector
      rw [← hsome, Option.map_some, decodeText_encodeText ht]

/-- The ids and the times of the sightings. -/
def sightings : List (Uuid × ℤ) :=
  [ (sampleUuid, 1787738400),
    (⟨[6, 11, 10, 7, 11, 8, 1, 1, 9, 13, 10, 13, 1, 1, 13, 1, 8, 0, 11, 4, 0, 0, 12, 0, 4, 15, 13, 4, 3, 0, 12, 8],
      rfl⟩, 1787738410),
    (⟨[6, 11, 10, 7, 11, 8, 1, 2, 9, 13, 10, 13, 1, 1, 13, 1, 8, 0, 11, 4, 0, 0, 12, 0, 4, 15, 13, 4, 3, 0, 12, 8],
      rfl⟩, 1787738420) ]

def sightingEvent (p : Uuid × ℤ) : TelemetryEvent :=
  { sampleEvent (uuidStr p.1) with
    callsign := some (str "SWR12")
    lastContact := some p.2
    longitude := some (.finite (33 / 4))
    latitude := some (.finite (95 / 2))
    onGround := some false }

theorem sightingEvent_loads (p : Uuid × ℤ) : LoadsAsItself (sightingEvent p).modelDump := by
  have hid : plain (uuidStr p.1) := plain_of_parseUuid (by rw [parseUuid_uuidStr]; rfl)
  have hnone := loadsAsItself_none
  refine loadsAsItself_modelDump ?_
  simp only [dumpedValues, sightingEvent, sampleEvent, dumpOption, List.forall_mem_cons]
  exact ⟨loadsAsItself_str (by decide), loadsAsItself_str (by decide), loadsAsItself_str (by decide), hnone, hnone,
    loadsAsItself_int _, loadsAsItself_float _, loadsAsItself_float _, hnone, hnone, hnone, hnone, hnone,
    loadsAsItself_bool _, loadsAsItself_str (by decide), loadsAsItself_str hid, hnone, by simp⟩

theorem sightingEvent_storable {p : Uuid × ℤ} (hp : hasRepr p.2) : StorableEvent sampleEnv (sightingEvent p) :=
  { sampleEvent_storable with
    ingestionId := by
      change (parseUuid (uuidStr p.1)).isSome
      rw [parseUuid_uuidStr]
      rfl
    callsign := by
      intro s hs
      obtain rfl := Option.some.inj hs
      decide
    lastContact := by
      intro n hn
      obtain rfl := Option.some.inj hn
      exact hp
    measurements := by
      intro x hx
      simp only [measurements, sightingEvent, sampleEvent, List.mem_cons, Option.some.injEq] at hx
      rcases hx with rfl | rfl | h | h | h | h | h | h
      · exact ⟨_, rfl⟩
      · exact ⟨_, rfl⟩
      all_goals cases h }

theorem sightings_exported :
    ∀ p ∈ sightings, ∃ r, Exported sampleEnv (sightingEvent p) r (lineOf p.1 (sightingEvent p)) := by
  intro p hp
  have hrepr : ∀ p ∈ sightings, hasRepr p.2 = true := by decide +kernel
  exact exported_lineOf (sightingEvent_storable (hrepr p hp)) rfl (parseUuid_uuidStr p.1) (sightingEvent_loads p)

theorem sightings_converted (p : Uuid × ℤ) : ∀ x ∈ measurements (sightingEvent p), ConvertsBack sampleEnv.lax x := by
  have hfraction : ∀ (q : ℚ) (n : ℤ), q.den ≠ 1 → (some (PyFloat.finite q) : Option PyFloat) ≠ some (.finite n) := by
    rintro q n hden heq
    obtain rfl := PyFloat.finite.inj (Option.some.inj heq)
    exact hden rfl
  simp only [measurements, sightingEvent, sampleEvent, List.forall_mem_cons]
  refine ⟨fun n hn => absurd hn (hfraction (33 / 4) n (by decide +kernel)),
    fun n hn => absurd hn (hfraction (95 / 2) n (by decide +kernel)), ?_, ?_, ?_, ?_, ?_, by simp⟩
  all_goals
    intro n hn
    cases hn

def sightingLines : List (FixtureRow PyStr) := sightings.map fun p => lineOf p.1 (sightingEvent p)

theorem sightings_written : ∃ exported : List (TelemetryEvent × DbRow × FixtureRow PyStr),
    exported.map Prod.fst = sightings.map sightingEvent ∧ exported.map (fun x => x.2.2) = sightingLines ∧
    ∀ x ∈ exported, Exported sampleEnv x.1 x.2.1 x.2.2 := by
  obtain ⟨r, -⟩ := sightings_exported _ List.mem_cons_self
  have hrows : Nonempty DbRow := ⟨r⟩
  choose! row hrow using sightings_exported
  refine ⟨sightings.map fun p => (sightingEvent p, row p, lineOf p.1 (sightingEvent p)), rfl, rfl, ?_⟩
  rw [List.forall_mem_map]
  exact hrow

theorem sightingLines_dumps : ∀ line ∈ sightingLines,
    (jsonDumps (linesCodec sightingLines).floatRepr ((linesCodec sightingLines).record line)).isSome := by
  decide +kernel

theorem sightingLines_loads : ∀ line ∈ sightingLines, ∀ text,
    jsonDumps (linesCodec sightingLines).floatRepr ((linesCodec sightingLines).record line) = some text →
      (linesCodec sightingLines).loads text = some ((linesCodec sightingLines).record line) :=
  linesCodec_loads (by decide +kernel)

theorem sightings_keys :
    ∀ p ∈ sightings, ∀ q ∈ sightings, dedupeKey (sightingEvent p) = dedupeKey (sightingEvent q) → p = q := by
  decide +kernel

/-- They are played back in two batches, the second of one event, into a table that is empty. -/
theorem replay_restores_sample : ∃ (exported : List (TelemetryEvent × DbRow × FixtureRow PyStr)) (file : PyStr),
    exported.map Prod.fst = sightings.map sightingEvent ∧
    exported.map (fun x => x.2.2) = sightingLines ∧ (∀ x ∈ exported, Exported sampleEnv x.1 x.2.1 x.2.2) ∧
    (linesCodec sightingLines).exportFixture .lf sightingLines = (file, some 3) ∧
    List.Forall₂ (fun values batch => TelemetryBatch.modelValidate sampleEnv.lax (batchPayload values) = .ok batch)
      (runReplay (linesCodec sightingLines) sampleHost .replay sampleDraw (some file) 2 sampleOutcome [1, 0]).1
      (restoredBatches 2 (sightings.map sightingEvent)) ∧
    ∃ w', sampleEnv.Completes .default (jobsOf (restoredBatches 2 (sightings.map sightingEvent))) emptyWorld w' ∧
      ∀ x ∈ exported, x.2.1.ingestionId ∈ w'.rawTelemetry.keys := by
  obtain ⟨exported, hfst, hlines, hexported⟩ := sightings_written
  obtain ⟨file, hexport⟩ : ∃ file, (linesCodec sightingLines).exportFixture .lf sightingLines = (file, some 3) :=
    exportFixture_total sightingLines_dumps
  have hsighting : ∀ x ∈ exported, ∃ p ∈ sightings, sightingEvent p = x.1 :=
    fun x hx => List.mem_map.mp (hfst ▸ List.mem_map_of_mem hx)
  have hlax : ∀ x ∈ exported, ∀ y ∈ measurements x.1, ConvertsBack sampleEnv.lax y := by
    intro x hx
    obtain ⟨p, -, hp⟩ := hsighting x hx
    exact hp ▸ sightings_converted p
  have hne : exported ≠ [] := by
    rintro rfl
    cases hfst
  obtain ⟨haccepted, hrun⟩ := replay_restores (linesCodec sightingLines) sampleHost sampleDraw .default hexported hlax
    sampleRepr_printable (by rw [hlines]; exact sightingLines_loads) (by rw [hlines]; exact hexport) hne two_pos
  obtain ⟨⟨w', hw'⟩, hall⟩ := hrun emptyWorld
  obtain ⟨-, -, hids, -⟩ := hall w' hw'
  rw [hfst] at haccepted hw'
  refine ⟨exported, file, hfst, hlines, hexported, hexport, haccepted sampleOutcome [1, 0], w', hw', hids ?_⟩
  intro x hx y hy hkey
  obtain ⟨p, hp, hxp⟩ := hsighting x hx
  obtain ⟨q, hq, hyq⟩ := hsighting y hy
  rw [← hxp, ← hyq] at hkey
  have hid := id_of_exported (hexported x hx)
  rw [← hxp, sightings_keys p hp q hq hkey, hyq] at hid
  exact Option.some.inj (hid.symm.trans (id_of_exported (hexported y hy)))

end FlightPulse.Replay
