import FlightPulse.Analytics.Conservation
import FlightPulse.Collector.Normalizer
import FlightPulse.Lib.Run
import FlightPulse.Worker.ChunkedInsert

/-!
# One fact row for each observation

An id is hashed from the fields as OpenSky wrote them, and the staging view reads
them in its own way. Two spellings of one observation have two ids and two rows.
-/

open Lib Lib.Sql Lib.Python Lib.Pydantic Lib.Postgres Lib.Psycopg Lib.Run
open scoped List

namespace FlightPulse.Analytics

open Collector Ingestion Worker

/-! ## Responses, and what is stored of them -/

/-- One call of `normalize_batch`. -/
structure Poll where
  collectorId : PyStr
  draws : ℕ → Draw
  response : PyVal

/-- One call of `persist_batch`. -/
structure Store where
  now : Timestamptz
  fault : Option Fault
  events : List TelemetryEvent

def emptyTable : RawTelemetry := ⟨[], List.nodup_nil⟩

def storeBatch (env : Env) (table : RawTelemetry) (s : Store) : Option RawTelemetry :=
  some (env.persistBatch s.now s.fault s.events table).1

/-- The event is what the schema makes of an item that `normalize_batch` returned. -/
def Normalized (host : Host) (env : Env) (polls : List Poll) (e : TelemetryEvent) : Prop :=
  ∃ poll ∈ polls, ∃ values, host.normalizeBatch poll.collectorId poll.draws poll.response = some values ∧
    ∃ v ∈ values, TelemetryEvent.modelValidate env.lax v = .ok e

/-! ## State vectors -/

def vectorIcao24 (items : List PyVal) : PyVal := getOrNone "icao24" (stateVectorFields.zip items)

def vectorLastContact (items : List PyVal) : PyVal := getOrNone "last_contact" (stateVectorFields.zip items)

/-- The text that the id of the state vector is hashed from. -/
def hashedName (host : Host) (items : List PyVal) : Option PyStr :=
  host.identity [.str (str "opensky"), vectorIcao24 items, vectorLastContact items]

/-- The `icao24` and the `last_contact_at` that the staging view has for the state vector. -/
def stagedKey (pg : Server) (lax : Lax) (items : List PyVal) : Option (Text × Timestamptz) :=
  match vectorIcao24 items, optional (validateInt lax) (vectorLastContact items) with
  | .str s, .ok (some n) => (encodeText s).bind fun icao24 =>
    (pg.toTimestamp n).map fun lastContactAt => (stagedIcao24 pg icao24, lastContactAt)
  | _, _ => none

/-- The event is made of this state vector of a response. -/
def MadeOf (host : Host) (env : Env) (polls : List Poll) (items : List PyVal) (e : TelemetryEvent) : Prop :=
  ∃ poll ∈ polls, ∃ response states state, poll.response = .dict response ∧
    iterate (getOrNone "states" response) = some states ∧ state ∈ states ∧ iterate state = some items ∧
    ∃ values v draw, host.normalizeBatch poll.collectorId poll.draws poll.response = some values ∧ v ∈ values ∧
      host.normalizeStateVector poll.collectorId draw items = some v ∧
      TelemetryEvent.modelValidate env.lax v = .ok e

variable {pg : Server} {host : Host} {env : Env} {polls : List Poll} {items : List PyVal} {e : TelemetryEvent}

theorem normalized_of_madeOf (h : MadeOf host env polls items e) : Normalized host env polls e := by
  obtain ⟨poll, hpoll, -, -, -, -, -, -, -, values, v, -, hvalues, hv, -, hvalid⟩ := h
  exact ⟨poll, hpoll, values, hvalues, v, hv, hvalid⟩

theorem madeOf_of_normalized (h : Normalized host env polls e) : ∃ items, MadeOf host env polls items e := by
  obtain ⟨poll, hpoll, values, hvalues, v, hv, hvalid⟩ := h
  have hbatch := hvalues
  unfold Host.normalizeBatch at hbatch
  split at hbatch
  · next response hresponse =>
    dsimp only at hbatch
    split at hbatch
    · obtain ⟨states, hstates, hevents⟩ := Option.bind_eq_some_iff.mp hbatch
      obtain ⟨state, hstate, draw, items, -, hitems, hvector⟩ := exists_state_of_mem hevents hv
      exact ⟨items, poll, hpoll, response, states, state, hresponse, hstates, hstate, hitems, values, v, draw,
        hvalues, hv, hvector, hvalid⟩
    · obtain rfl := Option.some.inj hbatch
      cases hv
  · cases hbatch

theorem validateStr_eq_ok {v : PyVal} {s : PyStr} (h : validateStr v = .ok s) : v = .str s := by
  unfold validateStr at h
  split at h
  · exact congrArg PyVal.str (Validated.ok.inj h)
  · cases h

theorem madeOf_spec (h : MadeOf host env polls items e) :
    e.source = str "opensky" ∧ vectorIcao24 items = .str e.icao24 ∧
      optional (validateInt env.lax) (vectorLastContact items) = .ok e.lastContact ∧
      ∃ draw, host.computeIngestionId draw (str "opensky") (vectorIcao24 items) (vectorLastContact items) =
        some e.ingestionId := by
  obtain ⟨poll, -, -, -, -, -, -, -, -, -, v, draw, -, -, hvector, hvalid⟩ := h
  unfold Host.normalizeStateVector at hvector
  simp only [Option.bind_eq_bind, Option.bind_eq_some_iff, Option.some.injEq] at hvector
  obtain ⟨callsign, -, ingestionId, hid, rfl⟩ := hvector
  obtain ⟨hsource, hicao24, hcontact, hingestionId⟩ := TelemetryEvent.fields_spec hvalid
  simp [defaulted, PyVal.get?, validateStr] at hsource
  simp [required, PyVal.get?, str_inj, Validated.within_eq_ok] at hicao24
  simp [optionalField, defaulted, PyVal.get?, str_inj, Validated.within_eq_ok] at hcontact
  simp [required, PyVal.get?, str_inj, validateStr] at hingestionId
  exact ⟨hsource.symm, validateStr_eq_ok hicao24, hcontact, draw, hingestionId ▸ hid⟩

/-! ## Two vectors with one name -/

theorem stagedKey_of_madeOf (h : MadeOf host env polls items e) {n : ℤ} (hn : e.lastContact = some n) :
    stagedKey pg env.lax items = (encodeText e.icao24).bind fun icao24 =>
      (pg.toTimestamp n).map fun lastContactAt => (stagedIcao24 pg icao24, lastContactAt) := by
  obtain ⟨-, hicao24, hcontact, -⟩ := madeOf_spec h
  unfold stagedKey
  rw [hn] at hcontact
  simp only [hicao24, hcontact]

theorem lastContact_of_stagedKey (h : MadeOf host env polls items e) {k : Text × Timestamptz}
    (hk : stagedKey pg env.lax items = some k) : e.lastContact.bind pg.toTimestamp = some k.2 := by
  obtain ⟨-, hicao24, hcontact, -⟩ := madeOf_spec h
  cases hn : e.lastContact with
  | none =>
    unfold stagedKey at hk
    rw [hn] at hcontact
    simp only [hicao24, hcontact] at hk
    cases hk
  | some n =>
    rw [stagedKey_of_madeOf h hn] at hk
    obtain ⟨icao24, -, hk⟩ := Option.bind_eq_some_iff.mp hk
    obtain ⟨t, ht, rfl⟩ := Option.map_eq_some_iff.mp hk
    exact ht

theorem madeOf_id (h : MadeOf host env polls items e) {n : ℤ} (hn : e.lastContact = some n) :
    ∃ name chars, hashedName host items = some name ∧ name.mapM toChar? = some chars ∧
      e.ingestionId = uuidStr (host.uuid5 chars) := by
  obtain ⟨-, -, hcontact, draw, hid⟩ := madeOf_spec h
  rw [hn] at hcontact
  unfold Host.computeIngestionId at hid
  split at hid
  · next hnone =>
    rw [hnone] at hcontact
    cases hcontact
  · unfold Host.hashed at hid
    simp only [Option.bind_eq_bind, Option.bind_eq_some_iff, Option.some.injEq] at hid
    obtain ⟨name, hname, chars, hchars, heq⟩ := hid
    exact ⟨name, chars, hname, hchars, heq.symm⟩

/-! ## The row of an event -/

variable {now : Timestamptz} {row : Row} {r : DbRow} {a : ActivityRow}

theorem fact_lastContact (hrow : eventToRow e = some row) (hr : env.admitRow now row = some r)
    (ha : factRow pg (sourceRow r) = some a) : a.lastContactAt = e.lastContact.bind pg.toTimestamp := by
  obtain ⟨-, -, -, -, -, hcontact⟩ := factRow_spec ha
  obtain ⟨j, hj, hget⟩ := stored_get hrow (admitRow_spec hr) (k := "last_contact") (v := dumpOption .int e.lastContact)
    (by simp [eventFields, dumpedValues]) (by decide)
  rw [hget] at hcontact
  have hrange : InRange pg e.lastContact := by
    rw [← epoch_isSome hj, hcontact]
    rfl
  rw [epoch_value hj hrange] at hcontact
  exact (Option.some.inj hcontact).symm

theorem fact_spec (hmade : MadeOf host env polls items e) (hrow : eventToRow e = some row)
    (hr : env.admitRow now row = some r) (ha : factRow pg (sourceRow r) = some a) {t : Timestamptz}
    (ht : a.lastContactAt = some t) :
    stagedKey pg env.lax items = some (a.icao24, t) ∧ encodeText (str "opensky") = some a.source ∧
      ∃ name chars, hashedName host items = some name ∧ name.mapM toChar? = some chars ∧
        r.ingestionId = host.uuid5 chars := by
  obtain ⟨-, hicao24, -, -, hsource, -⟩ := factRow_spec ha
  obtain ⟨-, hencSource, hencIcao24, -⟩ := admitRow_spec hr
  obtain ⟨hrowSource, hrowIcao24⟩ := eventToRow_texts hrow
  rw [fact_lastContact hrow hr ha] at ht
  obtain ⟨n, hn, hnt⟩ := Option.bind_eq_some_iff.mp ht
  obtain ⟨name, chars, hname, hchars, hid⟩ := madeOf_id hmade hn
  refine ⟨?_, ?_, name, chars, hname, hchars, ?_⟩
  · rw [stagedKey_of_madeOf hmade hn, ← hrowIcao24, hencIcao24, hnt, hicao24]
    rfl
  · rw [← (madeOf_spec hmade).1, ← hrowSource, hencSource, hsource]
    rfl
  · have hparsed := admitRow_ingestionId hr
    rw [eventToRow_ingestionId hrow, hid, parseUuid_uuidStr] at hparsed
    exact (Option.some.inj hparsed).symm

/-! ## Every row of the table -/

theorem mem_storeBatch {table table' : RawTelemetry} {s : Store} (h : storeBatch env table s = some table')
    (hr : r ∈ table'.rows) :
    r ∈ table.rows ∨ ∃ e ∈ s.events, ∃ row, eventToRow e = some row ∧ env.admitRow s.now row = some r := by
  obtain rfl := Option.some.inj h
  rcases persistBatch_effect s.now s.fault s.events table with
    ⟨rows, stored, hrows, hstored, htable⟩ | ⟨htable, -⟩
  · rw [htable, UniqueTable.rows_insertRows] at hr
    rcases List.mem_append.mp hr with hr | hr
    · exact .inl hr
    · obtain ⟨row, hrow, hadmit⟩ := exists_of_mem_result hstored (UniqueTable.mem_of_mem_returning hr)
      obtain ⟨e, he, herow⟩ := exists_of_mem_result hrows (mem_sortRows.mp hrow)
      exact .inr ⟨e, he, row, herow, hadmit⟩
  · rw [htable] at hr
    exact .inl hr

theorem mem_stored {stores : List Store} {table : RawTelemetry}
    (h : exec (storeBatch env) emptyTable stores = some table) :
    ∀ r ∈ table.rows, ∃ s ∈ stores, ∃ e ∈ s.events, ∃ row, eventToRow e = some row ∧
      env.admitRow s.now row = some r := by
  refine exec_induction (P := fun stores table => ∀ r ∈ table.rows, ∃ s ∈ stores, ∃ e ∈ s.events, ∃ row,
    eventToRow e = some row ∧ env.admitRow s.now row = some r) (by simp [emptyTable]) ?_ h
  intro stores table s table' _ ih hstep r hr
  rcases mem_storeBatch hstep hr with hr | hr
  · obtain ⟨s', hs', hrest⟩ := ih r hr
    exact ⟨s', List.mem_append_left _ hs', hrest⟩
  · exact ⟨s, by simp, hr⟩

/-! ## One name, one row -/

/-- The event can be stored, and its row staged and derived. -/
def Counted (pg : Server) (env : Env) (e : TelemetryEvent) : Prop :=
  ∃ now row r a, eventToRow e = some row ∧ env.admitRow now row = some r ∧ factRow pg (sourceRow r) = some a

def countOf (source icao24 : Text) (lastContactAt : Timestamptz) (fact : List ActivityRow) : ℕ :=
  fact.countP fun a => a.source = source ∧ a.icao24 = icao24 ∧ a.lastContactAt = some lastContactAt

/-- However the events are repeated, batched and ordered, no observation has two rows. -/
def OneFactRow (pg : Server) (host : Host) (env : Env) (polls : List Poll) : Prop :=
  ∀ stores table fact, (∀ s ∈ stores, ∀ e ∈ s.events, Normalized host env polls e) →
    exec (storeBatch env) emptyTable stores = some table → factAircraftState pg (table.rows.map sourceRow) = some fact →
      ∀ source icao24 lastContactAt, countOf source icao24 lastContactAt fact ≤ 1

/-- State vectors that the view takes for one observation are hashed from one text. -/
def OneName (pg : Server) (host : Host) (env : Env) (polls : List Poll) : Prop :=
  ∀ items items' e e', MadeOf host env polls items e → MadeOf host env polls items' e' →
    Counted pg env e → Counted pg env e' →
      ∀ k, stagedKey pg env.lax items = some k → stagedKey pg env.lax items' = some k →
        hashedName host items = hashedName host items'

/-- `uuid5` has no collision among the names of the run. -/
def NoCollision (host : Host) (env : Env) (polls : List Poll) : Prop :=
  ∀ items items' e e', MadeOf host env polls items e → MadeOf host env polls items' e' →
    ∀ chars chars', (hashedName host items).bind (fun name => name.mapM toChar?) = some chars →
      (hashedName host items').bind (fun name => name.mapM toChar?) = some chars' →
        host.uuid5 chars = host.uuid5 chars' → chars = chars'

theorem fact_origin {stores : List Store} {table : RawTelemetry} {fact : List ActivityRow}
    (hstores : ∀ s ∈ stores, ∀ e ∈ s.events, Normalized host env polls e)
    (hexec : exec (storeBatch env) emptyTable stores = some table)
    (hfact : (table.rows.map sourceRow).mapM (factRow pg) = some fact) (ha : a ∈ fact) :
    ∃ items e now row r, MadeOf host env polls items e ∧ eventToRow e = some row ∧
      env.admitRow now row = some r ∧ factRow pg (sourceRow r) = some a := by
  obtain ⟨src, hsrc, hsrca⟩ := exists_of_mem_result hfact ha
  obtain ⟨r, hr, rfl⟩ := List.mem_map.mp hsrc
  obtain ⟨s, hs, e, he, row, hrow, hadmit⟩ := mem_stored hexec r hr
  obtain ⟨items, hitems⟩ := madeOf_of_normalized (hstores s hs e he)
  exact ⟨items, e, s.now, row, r, hitems, hrow, hadmit, hsrca⟩

theorem oneFactRow_of_oneName (h : OneName pg host env polls) : OneFactRow pg host env polls := by
  intro stores table fact hstores hexec hfact source icao24 t
  rw [factAircraftState_eq] at hfact
  have hids : (fact.map (·.ingestionId)).Nodup := by
    rw [map_of_mapM (g := fun r : SourceRow => r.ingestionId) hfact fun r _ a ha => (factRow_spec ha).1,
      List.map_map]
    exact table.nodup
  have hsame : ∀ a ∈ fact, ∀ b ∈ fact, a.icao24 = b.icao24 → a.lastContactAt = some t → b.lastContactAt = some t →
      a.ingestionId = b.ingestionId := by
    intro a ha b hb hicao24 hat hbt
    obtain ⟨items, e, now, row, r, hmade, hrow, hr, hra⟩ := fact_origin hstores hexec hfact ha
    obtain ⟨items', e', now', row', r', hmade', hrow', hr', hrb⟩ := fact_origin hstores hexec hfact hb
    obtain ⟨hkey, -, name, chars, hname, hchars, hid⟩ := fact_spec hmade hrow hr hra hat
    obtain ⟨hkey', -, name', chars', hname', hchars', hid'⟩ := fact_spec hmade' hrow' hr' hrb hbt
    have hnames := h items items' e e' hmade hmade' ⟨now, row, r, a, hrow, hr, hra⟩
      ⟨now', row', r', b, hrow', hr', hrb⟩ _ (hicao24 ▸ hkey) hkey'
    obtain rfl : name = name' := Option.some.inj (hname.symm.trans (hnames.trans hname'))
    obtain rfl : chars = chars' := Option.some.inj (hchars.symm.trans hchars')
    rw [(factRow_spec hra).1, (factRow_spec hrb).1]
    exact hid.trans hid'.symm
  have hone : MatchesOne (fun (_ : Unit) a => a.source = source ∧ a.icao24 = icao24 ∧ a.lastContactAt = some t)
      [()] fact := by
    apply matchesOne_of_nodup _ hids
    intro _ _ a ha b hb hat hbt
    obtain ⟨-, haicao24, hat⟩ := of_decide_eq_true hat
    obtain ⟨-, hbicao24, hbt⟩ := of_decide_eq_true hbt
    exact hsame a ha b hb (haicao24.trans hbicao24.symm) hat hbt
  unfold countOf
  rw [List.countP_eq_length_filter]
  exact hone () (by simp)

/-! ## Two names, two rows -/

theorem two_rows {e e' : TelemetryEvent} {now now' : Timestamptz} {row row' : Row} {r r' : DbRow}
    (hrow : eventToRow e = some row) (hr : env.admitRow now row = some r) (hrow' : eventToRow e' = some row')
    (hr' : env.admitRow now' row' = some r') (hne : r.ingestionId ≠ r'.ingestionId) :
    ∃ table, exec (storeBatch env) emptyTable [⟨now, none, [e]⟩, ⟨now', none, [e']⟩] = some table ∧
      table.rows = [r, r'] := by
  have hone : ∀ {now : Timestamptz} {e : TelemetryEvent} {row : Row} {r : DbRow}, eventToRow e = some row →
      env.admitRow now row = some r → ∀ table, storeBatch env table ⟨now, none, [e]⟩ = some (table.insertRows [r]) := by
    intro now e row r hrow hr table
    have hrows : [e].mapM eventToRow = some [row] := by simp [hrow]
    have hstored : (sortRows [row]).mapM (env.admitRow now) = some [r] := by simp [sortRows, hr]
    unfold storeBatch
    exact congrArg (fun r : RawTelemetry × _ => some r.1) (persistBatchIn_stored (by decide) hrows hstored table)
  refine ⟨(emptyTable.insertRows [r]).insertRows [r'], ?_, ?_⟩
  · rw [exec_cons, hone hrow hr, Option.bind_some, exec_cons, hone hrow' hr']
    rfl
  · rw [← UniqueTable.insertRows_append, UniqueTable.rows_insertRows]
    simp [emptyTable, UniqueTable.returning, UniqueTable.keys, UniqueTable.insertRow, hne.symm]

theorem oneName_of_oneFactRow (hcollision : NoCollision host env polls) (h : OneFactRow pg host env polls) :
    OneName pg host env polls := by
  rintro items items' e e' hmade hmade' ⟨now, row, r, a, hrow, hr, ha⟩ ⟨now', row', r', b, hrow', hr', hb⟩
    ⟨icao24, t⟩ hkey hkey'
  have hat : a.lastContactAt = some t := (fact_lastContact hrow hr ha).trans (lastContact_of_stagedKey hmade hkey)
  have hbt : b.lastContactAt = some t :=
    (fact_lastContact hrow' hr' hb).trans (lastContact_of_stagedKey hmade' hkey')
  obtain ⟨hakey, hasource, name, chars, hname, hchars, hid⟩ := fact_spec hmade hrow hr ha hat
  obtain ⟨hbkey, hbsource, name', chars', hname', hchars', hid'⟩ := fact_spec hmade' hrow' hr' hb hbt
  have haicao24 : a.icao24 = icao24 := congrArg Prod.fst (Option.some.inj (hakey.symm.trans hkey))
  have hbicao24 : b.icao24 = icao24 := congrArg Prod.fst (Option.some.inj (hbkey.symm.trans hkey'))
  have hsource : b.source = a.source := Option.some.inj (hbsource.symm.trans hasource)
  -- With two ids, both rows would be in the fact table.
  have hids : r.ingestionId = r'.ingestionId := by
    by_contra hne
    obtain ⟨table, hexec, htable⟩ := two_rows hrow hr hrow' hr' hne
    have hfact : factAircraftState pg (table.rows.map sourceRow) = some [a, b] := by
      rw [factAircraftState_eq, htable]
      simp [ha, hb]
    have hle := h _ table [a, b] (by simp [normalized_of_madeOf hmade, normalized_of_madeOf hmade']) hexec hfact
      a.source icao24 t
    unfold countOf at hle
    simp [haicao24, hbicao24, hsource, hat, hbt] at hle
  rw [hid, hid'] at hids
  have hsame : chars = chars' := hcollision items items' e e' hmade hmade' chars chars'
    (by rw [hname, Option.bind_some, hchars]) (by rw [hname', Option.bind_some, hchars']) hids
  rw [hname, hname', eq_of_mapM_toChar hchars, eq_of_mapM_toChar hchars', hsame]

/-! ## Two spellings of one aircraft -/

/-- A state vector with an `icao24` and a `last_contact`, as OpenSky sends it. -/
def heardItems (icao24 : PyStr) : List PyVal :=
  [.str icao24, .none, .none, .none, .int 1787738400] ++ List.replicate 12 .none

def heardPoll (icao24 : PyStr) : Poll where
  collectorId := str "collector-1"
  draws := fun _ => ⟨str "2026-08-26T10:00:00Z", sampleUuid⟩
  response := .dict [(str "time", .int 1787738400), (str "states", .list [.list (heardItems icao24)])]

def upperId : Uuid :=
  ⟨[9, 15, 9, 2, 5, 1, 14, 4, 14, 8, 9, 15, 5, 2, 4, 10, 10, 3, 0, 10, 14, 6, 7, 12, 12, 6, 9, 2, 14, 3, 11, 9], rfl⟩

def lowerId : Uuid :=
  ⟨[2, 9, 5, 2, 13, 4, 1, 0, 2, 2, 3, 13, 5, 5, 10, 1, 9, 1, 5, 14, 13, 11, 1, 2, 8, 15, 14, 10, 8, 4, 10, 9], rfl⟩

/-- `uuid5` as it is on the two names. -/
def heardHost : Host where
  repr := fun _ => none
  uuid5 := fun chars => if chars = "opensky:4B1814:1787738400".toList then upperId else lowerId

def heardEvent (icao24 : PyStr) (u : Uuid) : TelemetryEvent :=
  { sampleEvent (uuidStr u) with
    icao24 := icao24
    lastContact := some 1787738400
    collectorId := some (str "collector-1") }

theorem nulFree_toLower {cs : List Char} (h : nulFree cs) : nulFree (cs.map Char.toLower) := by
  rw [nulFree_iff] at h ⊢
  rw [List.forall_mem_map]
  intro c hc
  have hne := h c hc
  unfold Char.toLower
  split
  · next hupper =>
    obtain ⟨hlow, hhigh⟩ := hupper
    simp only [ge_iff_le, UInt32.le_iff_toNat_le] at hlow hhigh
    have hadd : (c.val + ('a'.val - 'A'.val)).toNat = c.val.toNat + 32 := by
      rw [UInt32.toNat_add]
      have hz : 'Z'.val.toNat = 90 := rfl
      have hd : ('a'.val - 'A'.val).toNat = 32 := rfl
      omega
    unfold Char.toNat
    rw [hadd]
    omega
  · exact hne

def heardServer : Server :=
  { sampleServer with lower := fun t => ⟨t.chars.map Char.toLower, nulFree_toLower t.noNul⟩ }

variable {icao24 : PyStr} {u : Uuid} {icaos : List PyStr}

theorem heard_madeOf (hmem : icao24 ∈ icaos) (hne : icao24 ≠ [])
    (hid : heardHost.hashed [.str (str "opensky"), .str icao24, .int 1787738400] = some (uuidStr u)) :
    MadeOf heardHost sampleEnv (icaos.map heardPoll) (heardItems icao24) (heardEvent icao24 u) := by
  have hvector : heardHost.normalizeStateVector (str "collector-1") ⟨str "2026-08-26T10:00:00Z", sampleUuid⟩
      (heardItems icao24) = some (heardEvent icao24 u).modelDump := by
    have hcompute : heardHost.computeIngestionId ⟨str "2026-08-26T10:00:00Z", sampleUuid⟩ (str "opensky")
        (getOrNone "icao24" (stateVectorFields.zip (heardItems icao24)))
        (getOrNone "last_contact" (stateVectorFields.zip (heardItems icao24))) = some (uuidStr u) := hid
    unfold Host.normalizeStateVector
    dsimp only
    rw [hcompute]
    rfl
  have hbatch : heardHost.normalizeBatch (str "collector-1") (heardPoll icao24).draws (heardPoll icao24).response =
      some [(heardEvent icao24 u).modelDump] := by
    have hstates : heardHost.normalizeBatch (str "collector-1") (heardPoll icao24).draws (heardPoll icao24).response =
        heardHost.normalizeStates (str "collector-1") (heardPoll icao24).draws 0 [.list (heardItems icao24)] := rfl
    have hfirst : first (.list (heardItems icao24)) = some (.str icao24) := rfl
    have hlist : truthy (.list (heardItems icao24)) = true := rfl
    have htruthy : truthy (.str icao24) = true := by
      cases icao24 with
      | nil => exact absurd rfl hne
      | cons c cs => rfl
    rw [hstates]
    unfold Host.normalizeStates
    simp only [hlist, if_true, hfirst, Option.bind_eq_bind, Option.bind_some, htruthy, iterate]
    rw [show (heardPoll icao24).draws 0 = ⟨str "2026-08-26T10:00:00Z", sampleUuid⟩ from rfl, hvector]
    rfl
  exact ⟨heardPoll icao24, List.mem_map_of_mem hmem, _, _, _, rfl, rfl, List.mem_singleton_self _, rfl, _, _, _, hbatch,
    List.mem_singleton_self _, hvector, TelemetryEvent.modelValidate_modelDump _ _⟩

theorem heard_items {items : List PyVal} {e : TelemetryEvent}
    (h : MadeOf heardHost sampleEnv (icaos.map heardPoll) items e) : ∃ icao24 ∈ icaos, items = heardItems icao24 := by
  obtain ⟨poll, hpoll, response, states, state, hresponse, hstates, hstate, hitems, -⟩ := h
  obtain ⟨icao24, hmem, rfl⟩ := List.mem_map.mp hpoll
  refine ⟨icao24, hmem, ?_⟩
  obtain rfl := PyVal.dict.inj hresponse
  obtain rfl := Option.some.inj hstates
  obtain rfl := List.mem_singleton.mp hstate
  exact (Option.some.inj hitems).symm

theorem heard_chars : (hashedName heardHost (heardItems (str "4B1814"))).bind (fun name => name.mapM toChar?) =
      some "opensky:4B1814:1787738400".toList ∧
    (hashedName heardHost (heardItems (str "4b1814"))).bind (fun name => name.mapM toChar?) =
      some "opensky:4b1814:1787738400".toList := by decide +kernel

theorem counted_of_isSome {e : TelemetryEvent} (now : Timestamptz)
    (h : (((eventToRow e).bind (env.admitRow now)).bind fun r => factRow pg (sourceRow r)).isSome) :
    Counted pg env e := by
  obtain ⟨a, ha⟩ := Option.isSome_iff_exists.mp h
  obtain ⟨r, hr, ha⟩ := Option.bind_eq_some_iff.mp ha
  obtain ⟨row, hrow, hr⟩ := Option.bind_eq_some_iff.mp hr
  exact ⟨now, row, r, a, hrow, hr, ha⟩

def twoSpellings : List Poll := [str "4B1814", str "4b1814"].map heardPoll

theorem twoSpellings_noCollision : NoCollision heardHost sampleEnv twoSpellings := by
  intro items items' e e' hmade hmade' chars chars' hchars hchars' hsame
  obtain ⟨icao24, hmem, rfl⟩ := heard_items hmade
  obtain ⟨icao24', hmem', rfl⟩ := heard_items hmade'
  rcases List.mem_pair.mp hmem with rfl | rfl <;> rcases List.mem_pair.mp hmem' with rfl | rfl
  · exact Option.some.inj (hchars.symm.trans hchars')
  · obtain rfl := Option.some.inj (heard_chars.1.symm.trans hchars)
    obtain rfl := Option.some.inj (heard_chars.2.symm.trans hchars')
    revert hsame
    decide
  · obtain rfl := Option.some.inj (heard_chars.2.symm.trans hchars)
    obtain rfl := Option.some.inj (heard_chars.1.symm.trans hchars')
    revert hsame
    decide
  · exact Option.some.inj (hchars.symm.trans hchars')

/-! ## Observations and fact rows -/

/-- An observation has one row exactly when its spellings, as the view reads them, share a name. -/
theorem one_fact_row_iff (pg : Server) (host : Host) (env : Env) (polls : List Poll)
    (hcollision : NoCollision host env polls) : OneFactRow pg host env polls ↔ OneName pg host env polls :=
  ⟨oneName_of_oneFactRow hcollision, oneFactRow_of_oneName⟩

theorem polled_twice_one_fact_row :
    OneFactRow heardServer heardHost sampleEnv ([str "4b1814", str "4b1814"].map heardPoll) := by
  have hitems : ∀ items e, MadeOf heardHost sampleEnv ([str "4b1814", str "4b1814"].map heardPoll) items e →
      items = heardItems (str "4b1814") := by
    intro items e hmade
    obtain ⟨icao24, hmem, rfl⟩ := heard_items hmade
    rcases List.mem_pair.mp hmem with rfl | rfl <;> rfl
  apply (one_fact_row_iff heardServer heardHost sampleEnv _ ?_).mpr
  · intro items items' e e' hmade hmade' _ _ _ _ _
    rw [hitems items e hmade, hitems items' e' hmade']
  · intro items items' e e' hmade hmade' chars chars' hchars hchars' _
    rw [hitems items e hmade] at hchars
    rw [hitems items' e' hmade'] at hchars'
    exact Option.some.inj (hchars.symm.trans hchars')

/-- An aircraft that is spelled in capitals once has two rows at one time. -/
theorem spelling_counted_twice : NoCollision heardHost sampleEnv twoSpellings ∧
    ¬ OneFactRow heardServer heardHost sampleEnv twoSpellings := by
  refine ⟨twoSpellings_noCollision, fun h => ?_⟩
  have hupper : MadeOf heardHost sampleEnv twoSpellings (heardItems (str "4B1814"))
      (heardEvent (str "4B1814") upperId) := heard_madeOf (by simp) (by decide) (by decide +kernel)
  have hlower : MadeOf heardHost sampleEnv twoSpellings (heardItems (str "4b1814"))
      (heardEvent (str "4b1814") lowerId) := heard_madeOf (by simp) (by decide) (by decide +kernel)
  have hnames := oneName_of_oneFactRow twoSpellings_noCollision h _ _ _ _ hupper hlower
    (counted_of_isSome (.at 841053600000000) (by decide +kernel))
    (counted_of_isSome (.at 841053600000000) (by decide +kernel))
    (.lit "4b1814", .at 841053600000000) (by decide +kernel) (by decide +kernel)
  revert hnames
  decide +kernel

end FlightPulse.Analytics
