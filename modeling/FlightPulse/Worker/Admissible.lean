import FlightPulse.Worker.Processor

/-!
# What the schema accepts and the table does not

`TelemetryEvent` takes any string and any number. `raw_telemetry` takes a row only
when each column accepts its parameter and the index its entry, and one row that it
refuses stops a batch.
-/

open Lib Lib.Python Lib.Pydantic Lib.Postgres Lib.Psycopg

namespace FlightPulse.Worker

open Ingestion

variable {env : Env} {now : Timestamptz}

/-! ## Events that can be stored -/

def measurements (e : TelemetryEvent) : List (Option PyFloat) :=
  [e.longitude, e.latitude, e.baroAltitudeM, e.geoAltitudeM, e.velocityMps, e.trueTrackDeg, e.verticalRateMps]

/-- The fields of an event as the columns and the payload need them. -/
structure BindableEvent (env : Env) (e : TelemetryEvent) : Prop where
  ingestionId : (parseUuid e.ingestionId).isSome
  ingestedAt : (env.parseTimestamptz e.ingestedAt).isSome
  source : plain e.source
  icao24 : plain e.icao24
  collectorId : ∀ s, e.collectorId = some s → plain s
  callsign : ∀ s, e.callsign = some s → paired s
  originCountry : ∀ s, e.originCountry = some s → paired s
  timePosition : ∀ n, e.timePosition = some n → hasRepr n
  lastContact : ∀ n, e.lastContact = some n → hasRepr n
  measurements : ∀ x, some x ∈ measurements e → ∃ q, x = .finite q

/-- The index takes the entry of the event, whose `icao24` can be of any length. -/
def FitsIndex (env : Env) (e : TelemetryEvent) : Prop :=
  ∀ icao24 ingestedAt, encodeText e.icao24 = some icao24 → env.parseTimestamptz e.ingestedAt = some ingestedAt →
    env.indexEntryFits icao24 ingestedAt

structure StorableEvent (env : Env) (e : TelemetryEvent) : Prop extends BindableEvent env e where
  indexEntry : FitsIndex env e

theorem plain_of_parseUuid {s : PyStr} (h : (parseUuid s).isSome) : plain s := by
  rw [← encodeText_isSome]
  cases hs : encodeText s with
  | none => simp [parseUuid, hs] at h
  | some t => rfl

theorem plain_of_parseTimestamptz {s : PyStr} (h : (env.parseTimestamptz s).isSome) : plain s := by
  rw [← encodeText_isSome]
  cases hs : encodeText s with
  | none => simp [Env.parseTimestamptz, hs] at h
  | some t => rfl

theorem nullableText_isSome {x : Option PyStr} : (nullableText x).isSome ↔ ∀ s, x = some s → plain s := by
  cases x with
  | none => simp [nullableText]
  | some s => simp [nullableText, encodeText_isSome]

/-! ## The payload -/

theorem storable_dumpOption {α : Type} {dump : α → PyVal} {x : Option α} :
    Storable (dumpOption dump x) ↔ ∀ a, x = some a → Storable (dump a) := by
  cases x with
  | none => simp [dumpOption, storable_none]
  | some a => simp [dumpOption]

structure StorablePayload (e : TelemetryEvent) : Prop where
  callsign : ∀ s, e.callsign = some s → paired s
  originCountry : ∀ s, e.originCountry = some s → paired s
  timePosition : ∀ n, e.timePosition = some n → hasRepr n
  lastContact : ∀ n, e.lastContact = some n → hasRepr n
  measurements : ∀ x, some x ∈ measurements e → ∃ q, x = .finite q

theorem payload_of_storable {e : TelemetryEvent} (h : Storable e.modelDump) : StorablePayload e := by
  simp only [TelemetryEvent.modelDump, storable_dict, List.forall_mem_cons, storable_str, storable_dumpOption,
    storable_int, storable_float] at h
  obtain ⟨-, -, ⟨-, hcallsign⟩, ⟨-, hcountry⟩, ⟨-, htime⟩, ⟨-, hcontact⟩, ⟨-, hlon⟩, ⟨-, hlat⟩, ⟨-, hbaro⟩,
    ⟨-, hgeo⟩, ⟨-, hvel⟩, ⟨-, htrack⟩, ⟨-, hrate⟩, -⟩ := h
  refine ⟨hcallsign, hcountry, htime, hcontact, fun x hx => ?_⟩
  unfold measurements at hx
  simp only [List.mem_cons, List.not_mem_nil, or_false] at hx
  rcases hx with hx | hx | hx | hx | hx | hx | hx
  · exact hlon x hx.symm
  · exact hlat x hx.symm
  · exact hbaro x hx.symm
  · exact hgeo x hx.symm
  · exact hvel x hx.symm
  · exact htrack x hx.symm
  · exact hrate x hx.symm

theorem storable_of_payload {e : TelemetryEvent} (h : StorablePayload e) (hsource : paired e.source)
    (hicao : paired e.icao24) (hcollector : ∀ s, e.collectorId = some s → paired s) (hid : paired e.ingestionId)
    (hat : paired e.ingestedAt) : Storable e.modelDump := by
  have hfloat : ∀ y, y ∈ measurements e → ∀ x, y = some x → ∃ q, x = .finite q := by
    rintro y hy x rfl
    exact h.measurements x hy
  unfold measurements at hfloat
  simp only [List.forall_mem_cons] at hfloat
  obtain ⟨hlon, hlat, hbaro, hgeo, hvel, htrack, hrate, -⟩ := hfloat
  have hkey : ∀ k ∈ [str "source", str "icao24", str "callsign", str "origin_country", str "time_position",
      str "last_contact", str "longitude", str "latitude", str "baro_altitude_m", str "geo_altitude_m",
      str "velocity_mps", str "true_track_deg", str "vertical_rate_mps", str "on_ground", str "ingested_at",
      str "ingestion_id", str "collector_id"], paired k = true := by decide
  simp only [List.forall_mem_cons] at hkey
  obtain ⟨k1, k2, k3, k4, k5, k6, k7, k8, k9, k10, k11, k12, k13, k14, k15, k16, k17, -⟩ := hkey
  simp only [TelemetryEvent.modelDump, storable_dict, List.forall_mem_cons, storable_str, storable_dumpOption,
    storable_int, storable_float, storable_bool]
  exact ⟨⟨k1, hsource⟩, ⟨k2, hicao⟩, ⟨k3, h.callsign⟩, ⟨k4, h.originCountry⟩, ⟨k5, h.timePosition⟩,
    ⟨k6, h.lastContact⟩, ⟨k7, hlon⟩, ⟨k8, hlat⟩, ⟨k9, hbaro⟩, ⟨k10, hgeo⟩, ⟨k11, hvel⟩, ⟨k12, htrack⟩,
    ⟨k13, hrate⟩, ⟨k14, fun _ _ => trivial⟩, ⟨k15, hat⟩, ⟨k16, hid⟩, ⟨k17, hcollector⟩, by simp⟩

/-! ## Rows -/

theorem bindRow_isSome {row : Row} : (env.bindRow now row).isSome ↔
    (parseUuid row.ingestionId).isSome ∧ plain row.source ∧ plain row.icao24 ∧
      (∀ s, row.collectorId = some s → plain s) ∧ (jsonbIn row.payload).isSome ∧
      (env.parseTimestamptz row.ingestedAt).isSome := by
  rw [← encodeText_isSome, ← encodeText_isSome, ← nullableText_isSome]
  unfold Env.bindRow
  cases parseUuid row.ingestionId <;> cases encodeText row.source <;> cases encodeText row.icao24 <;>
    cases nullableText row.collectorId <;> cases jsonbIn row.payload <;>
    cases env.parseTimestamptz row.ingestedAt <;> simp

theorem admitRow_isSome {row : Row} : (env.admitRow now row).isSome ↔ (env.bindRow now row).isSome ∧
    ∀ icao24 ingestedAt, encodeText row.icao24 = some icao24 → env.parseTimestamptz row.ingestedAt = some ingestedAt →
      env.indexEntryFits icao24 ingestedAt := by
  unfold Env.admitRow
  cases hbind : env.bindRow now row with
  | none => simp
  | some r =>
    have hbound := bindRow_spec hbind
    simp [Option.filter, hbound.icao24, hbound.ingestedAt]

theorem bindable_iff (now : Timestamptz) {e : TelemetryEvent} :
    (∃ row, eventToRow e = some row ∧ (env.bindRow now row).isSome) ↔ BindableEvent env e := by
  constructor
  · rintro ⟨row, hrow, hbound⟩
    obtain ⟨payload, hdumps, rfl⟩ := Option.map_eq_some_iff.mp hrow
    obtain ⟨hid, hsource, hicao, hcollector, hjson, hat⟩ := bindRow_isSome.mp hbound
    have hpayload := payload_of_storable ⟨payload, hdumps, hjson⟩
    exact ⟨hid, hat, hsource, hicao, hcollector, hpayload.callsign, hpayload.originCountry, hpayload.timePosition,
      hpayload.lastContact, hpayload.measurements⟩
  · intro h
    have hpayload : StorablePayload e :=
      ⟨h.callsign, h.originCountry, h.timePosition, h.lastContact, h.measurements⟩
    obtain ⟨payload, hdumps, hjson⟩ := storable_of_payload hpayload (paired_of_plain h.source)
      (paired_of_plain h.icao24) (fun s hs => paired_of_plain (h.collectorId s hs))
      (paired_of_plain (plain_of_parseUuid h.ingestionId))
      (paired_of_plain (plain_of_parseTimestamptz h.ingestedAt))
    exact ⟨_, Option.map_eq_some_iff.mpr ⟨payload, hdumps, rfl⟩,
      bindRow_isSome.mpr ⟨h.ingestionId, h.source, h.icao24, h.collectorId, hjson, h.ingestedAt⟩⟩

theorem admissible_iff (now : Timestamptz) {e : TelemetryEvent} :
    (∃ row, eventToRow e = some row ∧ (env.admitRow now row).isSome) ↔ StorableEvent env e := by
  constructor
  · rintro ⟨row, hrow, hadmitted⟩
    obtain ⟨hbound, hfits⟩ := admitRow_isSome.mp hadmitted
    refine ⟨(bindable_iff now).mp ⟨row, hrow, hbound⟩, ?_⟩
    obtain ⟨payload, -, rfl⟩ := Option.map_eq_some_iff.mp hrow
    exact hfits
  · intro h
    obtain ⟨row, hrow, hbound⟩ := (bindable_iff now).mpr h.toBindableEvent
    refine ⟨row, hrow, admitRow_isSome.mpr ⟨hbound, ?_⟩⟩
    obtain ⟨payload, -, rfl⟩ := Option.map_eq_some_iff.mp hrow
    exact h.indexEntry

/-! ## Batches -/

theorem bindableEvent_normalize {e : TelemetryEvent} (h : BindableEvent env e) :
    BindableEvent env (normalizeEvent e) := by
  unfold normalizeEvent
  split
  · exact ⟨h.ingestionId, h.ingestedAt, h.source, h.icao24, h.collectorId, h.callsign, h.originCountry,
      h.timePosition, h.lastContact, h.measurements⟩
  · exact h

theorem fitsIndex_normalize {e : TelemetryEvent} : FitsIndex env (normalizeEvent e) ↔ FitsIndex env e := by
  unfold normalizeEvent
  split <;> exact Iff.rfl

theorem storableEvent_normalize {e : TelemetryEvent} (h : StorableEvent env e) :
    StorableEvent env (normalizeEvent e) :=
  ⟨bindableEvent_normalize h.toBindableEvent, fitsIndex_normalize.mpr h.indexEntry⟩

theorem storableEvent_processed {batch : TelemetryBatch} (h : ∀ e ∈ batch.events, StorableEvent env e)
    {event : TelemetryEvent} (he : event ∈ processed batch) : StorableEvent env event := by
  obtain ⟨e, hmem, rfl⟩ := mem_of_mem_processed he
  exact storableEvent_normalize (h e hmem)

theorem persistBatch_storable {events : List TelemetryEvent} (h : ∀ e ∈ events, StorableEvent env e)
    {fault : Option Fault} (hfault : ∀ f, fault = some f → f.exn.isConnection) (table : RawTelemetry)
    {e : PersistError} (he : (env.persistBatch now fault events table).2 = .error e) :
    e = .persistenceUnavailable := by
  by_cases hne : events = []
  · subst hne
    rw [persistBatch_nil] at he
    cases he
  have hrows : (events.mapM eventToRow).isSome := by
    rw [mapM_isSome]
    intro event hevent
    obtain ⟨row, hrow, -⟩ := (admissible_iff now).mpr (h event hevent)
    rw [hrow]
    rfl
  obtain ⟨rows, hrows⟩ := Option.isSome_iff_exists.mp hrows
  have hstmts : ∀ stmt ∈ env.insertStatements now rows, stmt.isOk := by
    rw [insertStatements_isOk]
    intro row hrow
    obtain ⟨event, hevent, heq⟩ := exists_of_mem_result hrows hrow
    obtain ⟨row', hrow', hadmitted⟩ := (admissible_iff now).mpr (h event hevent)
    rw [heq, Option.some.injEq] at hrow'
    exact hrow' ▸ hadmitted
  by_cases hc : Commits fault (env.insertStatements now rows)
  · obtain ⟨stored, -, -, hend | ⟨f, hf, hend⟩⟩ := persistBatch_commits hne hrows hc table
    · rw [hend] at he
      cases he
    · rw [hend] at he
      cases he
      exact persistError_eq_unavailable.mpr (hfault f hf)
  · obtain ⟨-, e', hend, hiff⟩ := persistBatch_rolledBack hne hrows hc table
    rw [hend] at he
    cases he
    apply hiff.mpr
    obtain ⟨f, hf, hop⟩ : ∃ f, fault = some f ∧ f.op ≤ (env.insertStatements now rows).length + 1 := by
      by_contra hno
      exact hc ⟨hstmts, fun f hf => Nat.lt_of_not_le fun hle => hno ⟨f, hf, hle⟩⟩
    exact .inl ⟨f, hf, hfault f hf, hop, fun stmt hs => hstmts stmt (List.mem_of_mem_take hs)⟩

/-- Every row of the batch is admissible, and only a failing connection keeps it from being stored. -/
def SchemasAgree (env : Env) (now : Timestamptz) (batch : TelemetryBatch) : Prop :=
  (∀ e ∈ batch.events, ∃ row, eventToRow e = some row ∧ (env.admitRow now row).isSome) ∧
    ∀ fault table e, (∀ f, fault = some f → f.exn.isConnection) →
      (env.persistBatch now fault (processed batch) table).2 = .error e → e = .persistenceUnavailable

/-- The schemas agree on a body that is accepted exactly when each of its events can be stored. -/
theorem schemas_agree_iff (env : Env) (now : Timestamptz) (body : PyVal) :
    (∀ batch, TelemetryBatch.modelValidate env.lax body = .ok batch → SchemasAgree env now batch) ↔
      ∀ batch, TelemetryBatch.modelValidate env.lax body = .ok batch →
        ∀ e ∈ batch.events, StorableEvent env e := by
  constructor
  · exact fun hagree batch hbatch e he => (admissible_iff now).mp ((hagree batch hbatch).1 e he)
  · intro hstorable batch hbatch
    refine ⟨fun e he => (admissible_iff now).mpr (hstorable batch hbatch e he), fun fault table e hfault he => ?_⟩
    exact persistBatch_storable (fun event => storableEvent_processed (hstorable batch hbatch)) hfault table he

/-- An id that is a string and not a UUID. -/
def malformedEvent : TelemetryEvent := { sampleEvent (str "bad-1") with icao24 := str "4b1815" }

theorem fitsIndex_of_length {e : TelemetryEvent} (h : e.icao24.length ≤ 600) : FitsIndex sampleEnv e := by
  intro icao24 ingestedAt hicao24 _
  have hlength : e.icao24.length = icao24.chars.length := by
    rw [encodeText_eq_some.mp hicao24, List.length_map]
  exact decide_eq_true (hlength ▸ h)

theorem sampleEvent_storable : StorableEvent sampleEnv (sampleEvent sampleId) where
  ingestionId := by decide +kernel
  ingestedAt := by decide +kernel
  source := by decide
  icao24 := by decide
  collectorId := by simp [sampleEvent]
  callsign := by simp [sampleEvent]
  originCountry := by simp [sampleEvent]
  timePosition := by simp [sampleEvent]
  lastContact := by simp [sampleEvent]
  measurements := by simp [sampleEvent, measurements]
  indexEntry := fitsIndex_of_length (by decide)

theorem malformedEvent_not_storable : ¬ StorableEvent sampleEnv malformedEvent := by
  intro h
  have hid := h.ingestionId
  revert hid
  decide +kernel

theorem not_refusedAsDown {rows : List Row}
    (hfits : ∀ row ∈ rows, (env.bindRow now row).isSome → (env.admitRow now row).isSome) (fault : Option Fault)
    (op : ℕ) : ¬ RefusedAsDown fault op (env.insertStatements now rows) := by
  rintro ⟨n, exn, hn, hconn, -⟩
  obtain ⟨chunk, hchunk, hstmt⟩ := List.mem_map.mp (List.mem_of_getElem? hn)
  have hmem : ∀ row ∈ chunk, row ∈ rows := by
    intro row hrow
    rw [← mem_sortRows, ← flatten_chunks insertChunkSize (by decide) (sortRows rows)]
    exact List.mem_flatten.mpr ⟨chunk, hchunk, hrow⟩
  unfold Env.chunkStatement at hstmt
  split at hstmt
  · cases hstmt
  · next hnone =>
    rw [Except.error.injEq] at hstmt
    split at hstmt
    · next hbound =>
      have hadmitted : (chunk.mapM (env.admitRow now)).isSome := by
        rw [mapM_isSome] at hbound ⊢
        exact fun row hrow => hfits row (hmem row hrow) (hbound row hrow)
      rw [hnone] at hadmitted
      cases hadmitted
    · rw [← hstmt] at hconn
      cases hconn

theorem persistBatch_malformed {events : List TelemetryEvent} {event : TelemetryEvent} (he : event ∈ events)
    (hbad : ¬ StorableEvent env event) (hfits : ∀ e ∈ events, FitsIndex env e) (table : RawTelemetry) :
    (env.persistBatch now none events table).1 = table ∧
      ∃ e, (env.persistBatch now none events table).2 = .error e ∧ e ≠ .persistenceUnavailable := by
  cases hrows : events.mapM eventToRow with
  | none =>
    rw [persistBatch_unbuildable hrows]
    exact ⟨rfl, _, rfl, by simp⟩
  | some rows =>
    have hc : ¬ Commits none (env.insertStatements now rows) := by
      rintro ⟨hstmts, -⟩
      obtain ⟨row, hrow, heq⟩ := exists_of_mem_mapM hrows he
      exact hbad ((admissible_iff now).mp ⟨row, heq, insertStatements_isOk.mp hstmts row hrow⟩)
    obtain ⟨htable, e, hend, hiff⟩ := persistBatch_rolledBack (List.ne_nil_of_mem he) hrows hc table
    have hbound : ∀ row ∈ rows, (env.bindRow now row).isSome → (env.admitRow now row).isSome := by
      intro row hrow hbound
      obtain ⟨e, hmem, heq⟩ := exists_of_mem_result hrows hrow
      obtain ⟨payload, -, rfl⟩ := Option.map_eq_some_iff.mp heq
      exact admitRow_isSome.mpr ⟨hbound, hfits e hmem⟩
    refine ⟨htable, e, hend, fun hun => ?_⟩
    rcases hiff.mp hun with ⟨f, hf, -⟩ | ⟨-, hrefused⟩
    · cases hf
    · exact not_refusedAsDown hbound none 1 hrefused

/-- The batch is accepted, and its one malformed event keeps the other from being stored. -/
theorem schemas_disagree : ∃ body batch, TelemetryBatch.modelValidate sampleEnv.lax body = .ok batch ∧
    sampleEvent sampleId ∈ batch.events ∧ StorableEvent sampleEnv (sampleEvent sampleId) ∧
    ∀ now table, ¬ SchemasAgree sampleEnv now batch ∧
      (sampleEnv.persistBatch now none (processed batch) table).1 = table ∧
      ∃ e, (sampleEnv.persistBatch now none (processed batch) table).2 = .error e ∧
        e ≠ .persistenceUnavailable := by
  refine ⟨TelemetryBatch.modelDump ⟨[sampleEvent sampleId, malformedEvent]⟩, _,
    TelemetryBatch.modelValidate_modelDump _ _, by simp, sampleEvent_storable,
    fun now table => ⟨fun hagree => ?_, ?_⟩⟩
  · exact malformedEvent_not_storable ((admissible_iff now).mp (hagree.1 malformedEvent (by simp)))
  · have hprocessed : processed ⟨[sampleEvent sampleId, malformedEvent]⟩ = [sampleEvent sampleId, malformedEvent] := by
      decide
    rw [hprocessed]
    have hmem : malformedEvent ∈ [sampleEvent sampleId, malformedEvent] := by simp
    refine persistBatch_malformed hmem malformedEvent_not_storable ?_ table
    simp only [List.forall_mem_cons]
    exact ⟨sampleEvent_storable.indexEntry, fitsIndex_of_length (by decide), by simp⟩

end FlightPulse.Worker
