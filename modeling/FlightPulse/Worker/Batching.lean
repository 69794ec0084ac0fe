import Mathlib.Data.List.Flatten
import FlightPulse.Collector.Normalizer
import FlightPulse.Lib.Run
import FlightPulse.Worker.ChunkedInsert
import FlightPulse.Worker.Delivery

/-!
# Splitting a list of events into batches

An event is dropped from a batch when an earlier one has the same `icao24`,
`last_contact` and `source`, and from the table when its `ingestion_id` is there.
Where the two disagree, it matters how a list of events is split.
-/

open Lib Lib.Python Lib.Pydantic Lib.Postgres Lib.Psycopg Lib.Run

namespace FlightPulse.Worker

open Ingestion

/-! ## The events that a batch keeps -/

/-- The event is in the list, and the first one there with its key. -/
def FirstOfKey (events : List TelemetryEvent) (event : TelemetryEvent) : Prop :=
  ∃ pre post, events = pre ++ event :: post ∧ ∀ e ∈ pre, dedupeKey e ≠ dedupeKey event

/-- Every event that the batch keeps can be stored. -/
def Storing (env : Env) (events : List TelemetryEvent) : Prop :=
  ∀ event, FirstOfKey events event → StorableEvent env event

/-- An event that the batch keeps has this id. -/
def KeepsId (events : List TelemetryEvent) (u : Uuid) : Prop :=
  ∃ event, FirstOfKey events event ∧ parseUuid event.ingestionId = some u

theorem mem_dedupeFrom_iff {seen : List (PyStr × Option ℤ × PyStr)} {events : List TelemetryEvent}
    {event : TelemetryEvent} : event ∈ dedupeFrom seen events ↔
      ∃ pre post, events = pre ++ event :: post ∧ dedupeKey event ∉ seen ∧
        ∀ e ∈ pre, dedupeKey e ≠ dedupeKey event := by
  fun_induction dedupeFrom seen events with
  | case1 => simp
  | case2 seen e events hseen ih =>
    rw [ih]
    constructor
    · rintro ⟨pre, post, rfl, hnot, hpre⟩
      refine ⟨e :: pre, post, rfl, hnot, List.forall_mem_cons.mpr ⟨fun heq => hnot (heq ▸ hseen), hpre⟩⟩
    · rintro ⟨pre, post, heq, hnot, hpre⟩
      rcases List.cons_eq_append_iff.mp heq with ⟨rfl, hcons⟩ | ⟨pre', rfl, rfl⟩
      · obtain ⟨rfl, -⟩ := List.cons.inj hcons
        exact absurd hseen hnot
      · exact ⟨pre', post, rfl, hnot, (List.forall_mem_cons.mp hpre).2⟩
  | case3 seen e events hseen ih =>
    rw [List.mem_cons, ih]
    constructor
    · rintro (rfl | ⟨pre, post, rfl, hnot, hpre⟩)
      · exact ⟨[], events, rfl, hseen, by simp⟩
      · rw [List.mem_cons, not_or] at hnot
        exact ⟨e :: pre, post, rfl, hnot.2, List.forall_mem_cons.mpr ⟨fun heq => hnot.1 heq.symm, hpre⟩⟩
    · rintro ⟨pre, post, heq, hnot, hpre⟩
      rcases List.cons_eq_append_iff.mp heq with ⟨rfl, hcons⟩ | ⟨pre', rfl, rfl⟩
      · exact .inl (List.cons.inj hcons).1
      · rw [List.forall_mem_cons] at hpre
        exact .inr ⟨pre', post, rfl, by simpa [hnot] using fun heq => hpre.1 heq.symm, hpre.2⟩

theorem dedupeKey_normalizeEvent (event : TelemetryEvent) : dedupeKey (normalizeEvent event) = dedupeKey event := by
  unfold normalizeEvent
  split <;> rfl

theorem ingestionId_normalizeEvent (event : TelemetryEvent) :
    (normalizeEvent event).ingestionId = event.ingestionId := by
  unfold normalizeEvent
  split <;> rfl

theorem mem_processed_iff {batch : TelemetryBatch} {event : TelemetryEvent} :
    event ∈ processed batch ↔ ∃ e, FirstOfKey batch.events e ∧ normalizeEvent e = event := by
  unfold processed dedupeEvents FirstOfKey
  rw [mem_dedupeFrom_iff]
  constructor
  · rintro ⟨pre, post, heq, -, hpre⟩
    obtain ⟨pre', rest, hevents, rfl, hrest⟩ := List.map_eq_append_iff.mp heq
    obtain ⟨e, post', rfl, rfl, rfl⟩ := List.map_eq_cons_iff.mp hrest
    simp only [List.forall_mem_map, dedupeKey_normalizeEvent] at hpre
    exact ⟨e, ⟨pre', post', hevents, hpre⟩, rfl⟩
  · rintro ⟨e, ⟨pre, post, heq, hpre⟩, rfl⟩
    refine ⟨pre.map normalizeEvent, post.map normalizeEvent, by simp [heq], by simp, ?_⟩
    simpa only [List.forall_mem_map, dedupeKey_normalizeEvent] using hpre

theorem storableEvent_of_normalize {env : Env} {e : TelemetryEvent} (h : StorableEvent env (normalizeEvent e)) :
    StorableEvent env e := by
  refine ⟨?_, fitsIndex_normalize.mp h.indexEntry⟩
  replace h := h.toBindableEvent
  unfold normalizeEvent at h
  split at h
  · exact ⟨h.ingestionId, h.ingestedAt, h.source, h.icao24, h.collectorId, h.callsign, h.originCountry,
      h.timePosition, h.lastContact, h.measurements⟩
  · exact h

theorem storing_iff {env : Env} {batch : TelemetryBatch} :
    Storing env batch.events ↔ ∀ event ∈ processed batch, StorableEvent env event := by
  constructor
  · intro h event hevent
    obtain ⟨e, he, rfl⟩ := mem_processed_iff.mp hevent
    exact storableEvent_normalize (h e he)
  · exact fun h e he => storableEvent_of_normalize (h _ (mem_processed_iff.mpr ⟨e, he, rfl⟩))

theorem keepsId_iff {batch : TelemetryBatch} {u : Uuid} :
    KeepsId batch.events u ↔ ∃ event ∈ processed batch, parseUuid event.ingestionId = some u := by
  constructor
  · rintro ⟨e, he, hu⟩
    exact ⟨_, mem_processed_iff.mpr ⟨e, he, rfl⟩, by rwa [ingestionId_normalizeEvent]⟩
  · rintro ⟨event, hevent, hu⟩
    obtain ⟨e, he, rfl⟩ := mem_processed_iff.mp hevent
    exact ⟨e, he, by rwa [ingestionId_normalizeEvent] at hu⟩

/-! ## A list in parts -/

theorem mem_of_firstOfKey {events : List TelemetryEvent} {event : TelemetryEvent} (h : FirstOfKey events event) :
    event ∈ events := by
  obtain ⟨pre, post, rfl, -⟩ := h
  simp

theorem firstOfKey_append {first second : List TelemetryEvent} {event : TelemetryEvent}
    (h : FirstOfKey (first ++ second) event) :
    FirstOfKey first event ∨ FirstOfKey second event := by
  obtain ⟨pre, post, heq, hpre⟩ := h
  rcases List.append_eq_append_iff.mp heq with ⟨mid, rfl, hmid⟩ | ⟨mid, rfl, hmid⟩
  · exact .inr ⟨mid, post, hmid, fun e he => hpre e (List.mem_append_right _ he)⟩
  · cases mid with
    | nil => exact .inr ⟨[], post, by simpa using hmid.symm, by simp⟩
    | cons e mid =>
      obtain ⟨rfl, rfl⟩ := List.cons.inj hmid
      exact .inl ⟨pre, mid, rfl, hpre⟩

theorem firstOfKey_left {first second : List TelemetryEvent} {event : TelemetryEvent}
    (h : FirstOfKey first event) : FirstOfKey (first ++ second) event := by
  obtain ⟨pre, post, rfl, hpre⟩ := h
  exact ⟨pre, post ++ second, by simp, hpre⟩

theorem firstOfKey_flatten {batches : List (List TelemetryEvent)} {event : TelemetryEvent}
    (h : FirstOfKey batches.flatten event) : ∃ batch ∈ batches, FirstOfKey batch event := by
  induction batches with
  | nil =>
    obtain ⟨pre, post, heq, -⟩ := h
    simp at heq
  | cons batch rest ih =>
    rw [List.flatten_cons] at h
    rcases firstOfKey_append h with h | h
    · exact ⟨batch, List.mem_cons_self, h⟩
    · obtain ⟨b, hb, hfirst⟩ := ih h
      exact ⟨b, List.mem_cons_of_mem _ hb, hfirst⟩

theorem storing_flatten {env : Env} {batches : List (List TelemetryEvent)}
    (h : ∀ batch ∈ batches, Storing env batch) : Storing env batches.flatten := by
  intro event hevent
  obtain ⟨batch, hbatch, hfirst⟩ := firstOfKey_flatten hevent
  exact h batch hbatch event hfirst

theorem exists_firstOfKey {events : List TelemetryEvent} {event : TelemetryEvent} (h : event ∈ events) :
    ∃ first, FirstOfKey events first ∧ dedupeKey first = dedupeKey event := by
  induction events with
  | nil => cases h
  | cons e events ih =>
    by_cases hkey : dedupeKey e = dedupeKey event
    · exact ⟨e, ⟨[], events, rfl, by simp⟩, hkey⟩
    · rcases List.mem_cons.mp h with rfl | h
      · exact absurd rfl hkey
      · obtain ⟨first, ⟨pre, post, rfl, hpre⟩, heq⟩ := ih h
        exact ⟨first, ⟨e :: pre, post, rfl, List.forall_mem_cons.mpr ⟨heq ▸ hkey, hpre⟩⟩, heq⟩

theorem keepsId_of_consistent {events : List TelemetryEvent}
    (h : ∀ e ∈ events, ∀ f ∈ events, dedupeKey e = dedupeKey f →
      parseUuid e.ingestionId = parseUuid f.ingestionId) (u : Uuid) :
    KeepsId events u ↔ ∃ event ∈ events, parseUuid event.ingestionId = some u := by
  constructor
  · rintro ⟨event, hfirst, hu⟩
    exact ⟨event, mem_of_firstOfKey hfirst, hu⟩
  · rintro ⟨event, hevent, hu⟩
    obtain ⟨first, hfirst, hkey⟩ := exists_firstOfKey hevent
    exact ⟨first, hfirst, by rwa [h first (mem_of_firstOfKey hfirst) event hevent hkey]⟩

/-! ## One job -/

/-- The payload of a batch, as the collector sends it. -/
def batchPayload (events : List PyVal) : PyVal := .dict [(str "events", .list events)]

def Parsed (env : Env) (values : List PyVal) (events : List TelemetryEvent) : Prop :=
  List.Forall₂ (fun v e => TelemetryEvent.modelValidate env.lax v = .ok e) values events

variable {env : Env} {settings : Settings}

theorem modelValidate_batchPayload {values : List PyVal} {batch : TelemetryBatch} :
    TelemetryBatch.modelValidate env.lax (batchPayload values) = .ok batch ↔ Parsed env values batch.events := by
  unfold Parsed
  rw [← validateItems_eq_ok (i := 0)]
  unfold batchPayload TelemetryBatch.modelValidate validateModel required validateList
  simp only [PyVal.get?, if_true]
  obtain ⟨events⟩ := batch
  cases validateItems (TelemetryEvent.modelValidate env.lax) 0 values <;> simp [Validated.map, Validated.within]

/-- One attempt stores the ids that its batch keeps, or nothing. When it is completed, it stored them. -/
theorem job_effect (env : Env) (settings : Settings) (jobTry : ℕ) (a : Attempt) (values : List PyVal) (w : World) :
    let r := env.processTelemetryBatch settings jobTry a (batchPayload values) w
    (∃ events, Parsed env values events ∧ Storing env events ∧
      ∀ u, u ∈ r.1.rawTelemetry.keys ↔ u ∈ w.rawTelemetry.keys ∨ KeepsId events u) ∨
    (r.1.rawTelemetry = w.rawTelemetry ∧ ∀ accepted inserted, r.2 ≠ .completed accepted inserted) := by
  intro r
  cases hvalid : TelemetryBatch.modelValidate env.lax (batchPayload values) with
  | invalid errors =>
    right
    have hr : r = env.deadLetterJob a (batchPayload values) errors w := by
      simp only [r, Env.processTelemetryBatch, hvalid]
    rw [hr]
    refine ⟨rfl, fun accepted inserted => ?_⟩
    unfold Env.deadLetterJob
    dsimp only
    split <;> simp
  | ok batch =>
    have htable : r.1.rawTelemetry = (env.persistBatch a.now a.fault (processed batch) w.rawTelemetry).1 := by
      simp only [r, Env.processTelemetryBatch, hvalid]
    have hfailed : ∀ e, (env.persistBatch a.now a.fault (processed batch) w.rawTelemetry).2 = .error e →
        r.2 = Env.persistFailed settings jobTry e := by
      intro e he
      simp only [r, Env.processTelemetryBatch, hvalid, he]
    rw [htable]
    rcases persistBatch_effect a.now a.fault (processed batch) w.rawTelemetry with
      ⟨rows, stored, hrows, hstored, hinsert⟩ | ⟨hsame, e, hend⟩
    · left
      refine ⟨batch.events, modelValidate_batchPayload.mp hvalid, ?_, fun u => ?_⟩
      · rw [storing_iff, forall_storable_iff a.now hrows]
        intro row hrow
        obtain ⟨r', -, hr'⟩ := exists_of_mem_mapM hstored (mem_sortRows.mpr hrow)
        rw [hr']
        rfl
      · have hexec : env.executionRows ⟨batch, a.now⟩ = some stored := by
          unfold Env.executionRows
          rw [hrows, Option.bind_some, hstored]
        rw [hinsert, UniqueTable.mem_keys_insertRows, keepsId_iff, mem_executionRows_iff hexec]
    · right
      refine ⟨hsame, fun accepted inserted => ?_⟩
      rw [hfailed e hend]
      unfold Env.persistFailed
      cases e with
      | persistenceUnavailable => cases settings.computeBackoffSeconds jobTry <;> simp
      | escaping exn => simp

/-- An attempt without any fault. -/
def undisturbed : Attempt := ⟨.at 0, .finite 0, none, none⟩

theorem job_completes {values : List PyVal} {events : List TelemetryEvent} (hparsed : Parsed env values events)
    (hstoring : Storing env events) (settings : Settings) (jobTry : ℕ) (w : World) : ∃ accepted inserted,
    (env.processTelemetryBatch settings jobTry undisturbed (batchPayload values) w).2 =
      .completed accepted inserted := by
  have hvalid : TelemetryBatch.modelValidate env.lax (batchPayload values) = .ok ⟨events⟩ :=
    modelValidate_batchPayload.mpr hparsed
  have hstorable : ∀ event ∈ processed ⟨events⟩, StorableEvent env event := storing_iff.mp hstoring
  obtain ⟨rows, sorted, -, hrows, hsorted, -⟩ := rows_of_storable undisturbed.now hstorable
  have hpos : 0 < insertChunkSize := by decide
  have hend := persistBatchIn_stored hpos hrows hsorted w.rawTelemetry
  change env.persistBatch undisturbed.now none (processed ⟨events⟩) w.rawTelemetry = _ at hend
  refine ⟨(processed ⟨events⟩).length, (w.rawTelemetry.returning sorted).length, ?_⟩
  have hfault : undisturbed.fault = none := rfl
  simp only [Env.processTelemetryBatch, hvalid, hfault, hend]

/-! ## The jobs of all batches, in any order -/

/-- An attempt of the job of one batch. -/
structure Turn where
  batch : ℕ
  jobTry : ℕ
  meets : Attempt

/-- The tables, and the batches whose job has been completed. -/
structure Progress where
  world : World
  completed : List ℕ

def isCompleted : JobEnd → Bool
  | .completed _ _ => true
  | _ => false

def Env.turn (env : Env) (settings : Settings) (batches : List (List PyVal)) (s : Progress) (t : Turn) :
    Option Progress :=
  (batches[t.batch]?).map fun values =>
    let r := env.processTelemetryBatch settings t.jobTry t.meets (batchPayload values) s.world
    ⟨r.1, if isCompleted r.2 then t.batch :: s.completed else s.completed⟩

/-- A run that brings the job of every batch to completion. -/
def Env.Completes (env : Env) (settings : Settings) (batches : List (List PyVal)) (w w' : World) : Prop :=
  ∃ turns s, exec (env.turn settings batches) ⟨w, []⟩ turns = some s ∧
    (∀ i < batches.length, i ∈ s.completed) ∧ s.world = w'

structure Accounted (env : Env) (batches : List (List PyVal)) (w : World) (s : Progress) : Prop where
  kept : ∀ u ∈ w.rawTelemetry.keys, u ∈ s.world.rawTelemetry.keys
  sound : ∀ u ∈ s.world.rawTelemetry.keys, u ∈ w.rawTelemetry.keys ∨
    ∃ values ∈ batches, ∃ events, Parsed env values events ∧ KeepsId events u
  complete : ∀ i ∈ s.completed, ∃ values events, batches[i]? = some values ∧ Parsed env values events ∧
    Storing env events ∧ ∀ u, KeepsId events u → u ∈ s.world.rawTelemetry.keys

variable {batches : List (List PyVal)} {w w' : World}

theorem accounted_step {s s' : Progress} {t : Turn} (hs : Accounted env batches w s)
    (h : env.turn settings batches s t = some s') : Accounted env batches w s' := by
  obtain ⟨values, hvalues, rfl⟩ := Option.map_eq_some_iff.mp h
  rcases job_effect env settings t.jobTry t.meets values s.world with
    ⟨events, hparsed, hstoring, hkeys⟩ | ⟨hsame, hnot⟩
  · have hgrow : ∀ u ∈ s.world.rawTelemetry.keys, u ∈
        (env.processTelemetryBatch settings t.jobTry t.meets (batchPayload values) s.world).1.rawTelemetry.keys :=
      fun u hu => (hkeys u).mpr (.inl hu)
    have holds : ∀ i ∈ s.completed, ∃ values' events, batches[i]? = some values' ∧ Parsed env values' events ∧
        Storing env events ∧ ∀ u, KeepsId events u → u ∈
          (env.processTelemetryBatch settings t.jobTry t.meets (batchPayload values) s.world).1.rawTelemetry.keys := by
      intro i hi
      obtain ⟨values', events', hi', hp, hst, hall⟩ := hs.complete i hi
      exact ⟨values', events', hi', hp, hst, fun u hu => hgrow u (hall u hu)⟩
    refine ⟨fun u hu => hgrow u (hs.kept u hu), fun u hu => ?_, fun i hi => ?_⟩
    · rcases (hkeys u).mp hu with hu | hu
      · exact hs.sound u hu
      · exact .inr ⟨values, List.mem_of_getElem? hvalues, events, hparsed, hu⟩
    · dsimp only at hi
      split at hi
      · rcases List.mem_cons.mp hi with rfl | hi
        · exact ⟨values, events, hvalues, hparsed, hstoring, fun u hu => (hkeys u).mpr (.inr hu)⟩
        · exact holds i hi
      · exact holds i hi
  · have hend : isCompleted
        (env.processTelemetryBatch settings t.jobTry t.meets (batchPayload values) s.world).2 = false := by
      cases hr : (env.processTelemetryBatch settings t.jobTry t.meets (batchPayload values) s.world).2 with
      | completed accepted inserted => exact absurd hr (hnot accepted inserted)
      | _ => rfl
    simp only [hend, Bool.false_eq_true, if_false]
    exact ⟨fun u hu => by rw [hsame]; exact hs.kept u hu, fun u hu => hs.sound u (by rwa [hsame] at hu),
      fun i hi => by rw [hsame]; exact hs.complete i hi⟩

theorem parsed_unique {values : List PyVal} {events events' : List TelemetryEvent}
    (h : Parsed env values events) (h' : Parsed env values events') : events = events' := by
  refine List.right_unique_forall₂' ?_ h h'
  intro v e e' he he'
  exact Validated.ok.inj (he.symm.trans he')

theorem completes_ids (h : env.Completes settings batches w w') :
    ∃ parts, List.Forall₂ (Parsed env) batches parts ∧ (∀ events ∈ parts, Storing env events) ∧
      ∀ u, u ∈ w'.rawTelemetry.keys ↔ u ∈ w.rawTelemetry.keys ∨ ∃ events ∈ parts, KeepsId events u := by
  obtain ⟨turns, s, hexec, hall, rfl⟩ := h
  have hs : Accounted env batches w s :=
    exec_invariant (fun _ _ _ hs h => accounted_step hs h) ⟨fun _ hu => hu, fun _ hu => .inl hu, by simp⟩ hexec
  have hparts : ∀ values ∈ batches, ∃ events, Parsed env values events ∧ Storing env events ∧
      ∀ u, KeepsId events u → u ∈ s.world.rawTelemetry.keys := by
    intro values hvalues
    obtain ⟨i, hi, rfl⟩ := List.mem_iff_getElem.mp hvalues
    obtain ⟨values', events, hvalues', hrest⟩ := hs.complete i (hall i hi)
    rw [List.getElem?_eq_getElem hi, Option.some.injEq] at hvalues'
    exact ⟨events, hvalues' ▸ hrest⟩
  choose! part hpart using hparts
  refine ⟨batches.map part, ?_, ?_, fun u => ⟨fun hu => ?_, ?_⟩⟩
  · rw [List.forall₂_map_right_iff, List.forall₂_same]
    exact fun values hvalues => (hpart values hvalues).1
  · simp only [List.forall_mem_map]
    exact fun values hvalues => (hpart values hvalues).2.1
  · rcases hs.sound u hu with hu | ⟨values, hvalues, events, hparsed, hkeeps⟩
    · exact .inl hu
    · right
      rw [parsed_unique hparsed (hpart values hvalues).1] at hkeeps
      exact ⟨part values, List.mem_map_of_mem hvalues, hkeeps⟩
  · rintro (hu | ⟨events, hevents, hkeeps⟩)
    · exact hs.kept u hu
    · obtain ⟨values, hvalues, rfl⟩ := List.mem_map.mp hevents
      exact (hpart values hvalues).2.2 u hkeeps

theorem completes_of_storing {parts : List (List TelemetryEvent)} (hparts : List.Forall₂ (Parsed env) batches parts)
    (hstoring : ∀ events ∈ parts, Storing env events) (settings : Settings) (w : World) :
    ∃ w', env.Completes settings batches w w' := by
  have hrun : ∀ k ≤ batches.length, ∃ s, exec (env.turn settings batches) ⟨w, []⟩
      ((List.range k).map fun i => ⟨i, 1, undisturbed⟩) = some s ∧ ∀ i < k, i ∈ s.completed := by
    intro k
    induction k with
    | zero => exact fun _ => ⟨_, rfl, by simp⟩
    | succ k ih =>
      intro hk
      obtain ⟨s, hexec, hs⟩ := ih (by omega)
      have hpart : k < parts.length := by
        rw [← hparts.length_eq]
        exact hk
      have hparsed : Parsed env batches[k] parts[k] := hparts.get hk hpart
      obtain ⟨accepted, inserted, hend⟩ :=
        job_completes hparsed (hstoring _ (List.getElem_mem hpart)) settings 1 s.world
      have hturn : env.turn settings batches s ⟨k, 1, undisturbed⟩ = some ⟨(env.processTelemetryBatch settings 1
          undisturbed (batchPayload batches[k]) s.world).1, k :: s.completed⟩ := by
        simp only [Env.turn, List.getElem?_eq_getElem hk, Option.map_some, hend, isCompleted, if_true]
      refine ⟨⟨(env.processTelemetryBatch settings 1 undisturbed (batchPayload batches[k]) s.world).1,
        k :: s.completed⟩, ?_, fun i hi => ?_⟩
      · rw [List.range_succ, List.map_append, exec_append, hexec, Option.bind_some, List.map_singleton, exec_cons,
          hturn]
        rfl
      · rcases Nat.lt_succ_iff_lt_or_eq.mp hi with hi | rfl
        · exact List.mem_cons_of_mem _ (hs i hi)
        · exact List.mem_cons_self
  obtain ⟨s, hexec, hs⟩ := hrun batches.length le_rfl
  exact ⟨s.world, _, s, hexec, hs, rfl⟩

/-! ## Two ways of splitting -/

/-- However the list is split and whatever the order of the jobs, the same ids are stored. -/
def BatchingIrrelevant (env : Env) (settings : Settings) (events : List PyVal) : Prop :=
  ∀ w batches batches', batches.flatten = events → batches'.flatten = events →
    ∀ s s', env.Completes settings batches w s → env.Completes settings batches' w s' →
      ∀ u, u ∈ s.rawTelemetry.keys ↔ u ∈ s'.rawTelemetry.keys

/-- What a batch keeps when it starts in the middle of the list has no id that the whole list would lose. -/
def OneIdentity (env : Env) (events : List TelemetryEvent) : Prop :=
  ∀ pre suf, events = pre ++ suf → Storing env events → Storing env suf →
    ∀ u, KeepsId suf u → KeepsId events u

theorem keepsId_parts {parts : List (List TelemetryEvent)} (hone : OneIdentity env parts.flatten)
    (hstoring : ∀ events ∈ parts, Storing env events) (u : Uuid) :
    (∃ events ∈ parts, KeepsId events u) ↔ KeepsId parts.flatten u := by
  constructor
  · rintro ⟨events, hevents, event, hfirst, hu⟩
    obtain ⟨before, after, rfl⟩ := List.append_of_mem hevents
    rw [List.forall_mem_append] at hstoring
    refine hone before.flatten (events :: after).flatten (by simp) ?_ (storing_flatten hstoring.2) u
      ⟨event, ?_, hu⟩
    · exact storing_flatten (List.forall_mem_append.mpr hstoring)
    · rw [List.flatten_cons]
      exact firstOfKey_left hfirst
  · rintro ⟨event, hfirst, hu⟩
    obtain ⟨events, hevents, hfirst⟩ := firstOfKey_flatten hfirst
    exact ⟨events, hevents, event, hfirst, hu⟩

theorem completes_keys {events : List TelemetryEvent} (hparsed : Parsed env batches.flatten events)
    (hone : OneIdentity env events) (h : env.Completes settings batches w w') (u : Uuid) :
    u ∈ w'.rawTelemetry.keys ↔ u ∈ w.rawTelemetry.keys ∨ KeepsId events u := by
  obtain ⟨parts, hparts, hstoring, hkeys⟩ := completes_ids h
  obtain rfl : events = parts.flatten := parsed_unique hparsed (List.rel_flatten hparts)
  rw [hkeys, keepsId_parts hone hstoring]

theorem oneIdentity_of_irrelevant {values : List PyVal} {events : List TelemetryEvent}
    (h : BatchingIrrelevant env settings values) (hparsed : Parsed env values events) : OneIdentity env events := by
  rintro pre suf rfl hall hsuf u hu
  obtain ⟨vpre, vsuf, hpre, hvsuf, rfl⟩ : ∃ vpre vsuf, Parsed env vpre pre ∧ Parsed env vsuf suf ∧
      values = vpre ++ vsuf := by
    refine ⟨values.take pre.length, values.drop pre.length, ?_, ?_, (List.take_append_drop _ _).symm⟩
    · exact List.forall₂_take_append _ _ _ hparsed
    · exact List.forall₂_drop_append _ _ _ hparsed
  have hstoring : ∀ events ∈ [pre, suf], Storing env events := by
    simp only [List.forall_mem_cons]
    exact ⟨fun event hevent => hall event (firstOfKey_left hevent), hsuf, by simp⟩
  have hwhole : List.Forall₂ (Parsed env) [vpre ++ vsuf] [pre ++ suf] := .cons hparsed .nil
  have hsplit : List.Forall₂ (Parsed env) [vpre, vsuf] [pre, suf] := .cons hpre (.cons hvsuf .nil)
  obtain ⟨s, hs⟩ := completes_of_storing hwhole (by simpa using hall) settings emptyWorld
  obtain ⟨s', hs'⟩ := completes_of_storing hsplit hstoring settings emptyWorld
  have hsame := h emptyWorld [vpre ++ vsuf] [vpre, vsuf] (by simp) (by simp) s s' hs hs' u
  obtain ⟨parts, hparts, -, hkeys⟩ := completes_ids hs
  obtain ⟨parts', hparts', -, hkeys'⟩ := completes_ids hs'
  have hunique : Relator.RightUnique (Parsed env) := fun _ _ _ h h' => parsed_unique h h'
  obtain rfl := List.right_unique_forall₂' hunique hparts hwhole
  obtain rfl := List.right_unique_forall₂' hunique hparts' hsplit
  have hempty : u ∉ emptyWorld.rawTelemetry.keys := by simp [emptyWorld, UniqueTable.keys]
  rw [hkeys, hkeys'] at hsame
  simpa [hempty] using hsame.mpr (.inr ⟨suf, by simp, hu⟩)

/-- `_dedupe_events` drops the later of two events exactly when they carry the same id. -/
def MergesByIdentity (events : List TelemetryEvent) : Prop :=
  events.Pairwise fun e f => dedupeEvents [e, f] = [e] ↔ e.ingestionId = f.ingestionId

theorem dedupeEvents_pair (e f : TelemetryEvent) : dedupeEvents [e, f] = [e] ↔ dedupeKey e = dedupeKey f := by
  unfold dedupeEvents dedupeFrom
  simp only [List.not_mem_nil, if_false, List.cons.injEq, true_and]
  unfold dedupeFrom
  simp only [List.mem_singleton]
  split
  · next h => simp [dedupeFrom, h]
  · next h => simpa using fun heq => h heq.symm

/-! ## A sample without `last_contact` -/

def drawnId (d : Fin 16) : Uuid := ⟨List.replicate 32 d, rfl⟩

/-- An aircraft that has not been heard, in the 17 fields of a state vector. -/
def unheardState : PyVal := .list (.str (str "4b1814") :: List.replicate 16 .none)

def unheardResponse : PyVal := .dict [(str "time", .int 1787738400), (str "states", .list [unheardState, unheardState])]

def unheardDraws (i : ℕ) : Collector.Draw := ⟨str "2026-08-26T10:00:00Z", drawnId (Fin.ofNat 16 i)⟩

def unheardEvent (u : Uuid) : TelemetryEvent :=
  { sampleEvent (uuidStr u) with collectorId := some (str "collector-1") }

theorem unheardEvent_storable (u : Uuid) : StorableEvent sampleEnv (unheardEvent u) :=
  { sampleEvent_storable with
    ingestionId := by
      unfold unheardEvent sampleEvent
      rw [parseUuid_uuidStr]
      rfl
    collectorId := by
      intro s hs
      rw [← Option.some.inj hs]
      decide }

end FlightPulse.Worker
