import FlightPulse.Ingestion.Routes

/-!
# What a reply of `POST /telemetry` promises

The queue is the history of the enqueues that succeeded. The invariant says where
each batch in a handler, in the cache and in a reply comes from.
-/

open Lib Lib.Run Lib.Python Lib.Pydantic

namespace FlightPulse.Ingestion

open Instance

variable {cfg : Config} {s t : Instance}

/-! ## The ids of a payload -/

/-- `event["ingestion_id"]` -/
def eventId : PyVal → Option PyStr
  | .dict data =>
    match PyVal.get? (str "ingestion_id") data with
    | some (.str s) => some s
    | _ => none
  | _ => none

/-- The ids under `payload["events"]`, in their order. -/
def payloadIds : PyVal → Option (List PyStr)
  | .dict data =>
    match PyVal.get? (str "events") data with
    | some (.list events) => events.mapM eventId
    | _ => none
  | _ => none

theorem required_eq_ok {α : Type} {name : PyStr} {validate : PyVal → Validated α} {data : List (PyStr × PyVal)} {a : α}
    (h : required name validate data = .ok a) : ∃ v, PyVal.get? name data = some v ∧ validate v = .ok a := by
  unfold required at h
  split at h
  · next v hv => exact ⟨v, hv, Validated.within_eq_ok.mp h⟩
  · cases h

theorem eventId_of_valid {lax : Lax} {v : PyVal} {e : TelemetryEvent}
    (h : TelemetryEvent.modelValidate lax v = .ok e) : eventId v = some e.ingestionId := by
  cases v with
  | dict data =>
    obtain ⟨v, hget, hid⟩ := required_eq_ok (TelemetryEvent.fields_spec h).2.2.2
    cases v with
    | str s =>
      cases hid
      simp only [eventId, hget]
    | _ => cases hid
  | _ => cases h

theorem mapM_eventId {lax : Lax} {items : List PyVal} {events : List TelemetryEvent}
    (h : List.Forall₂ (fun v e => TelemetryEvent.modelValidate lax v = .ok e) items events) :
    items.mapM eventId = some (events.map TelemetryEvent.ingestionId) := by
  induction h with
  | nil => rfl
  | cons hv _ ih => simp [eventId_of_valid hv, ih]

theorem payloadIds_of_valid {lax : Lax} {payload : PyVal} {batch : TelemetryBatch}
    (h : TelemetryBatch.modelValidate lax payload = .ok batch) : payloadIds payload = some batch.ids := by
  cases payload with
  | dict data =>
    obtain ⟨events, hevents, rfl⟩ := Validated.map_eq_ok.mp h
    obtain ⟨v, hget, hlist⟩ := required_eq_ok hevents
    cases v with
    | list items =>
      have hids := mapM_eventId (validateItems_eq_ok.mp hlist)
      simp only [payloadIds, hget, hids, TelemetryBatch.ids]
    | _ => cases hlist
  | _ => cases h

theorem payloadIds_modelDump (batch : TelemetryBatch) : payloadIds batch.modelDump = some batch.ids :=
  payloadIds_of_valid (TelemetryBatch.modelValidate_modelDump .strict batch)

/-! ## Where a batch comes from -/

def Validates (cfg : Config) (i : ℕ) (batch : TelemetryBatch) : Prop :=
  ∃ raw, cfg.parsed (cfg.calls i) = some raw ∧ TelemetryBatch.modelValidate cfg.lax raw = .ok batch

def Enqueued (cfg : Config) (queue : List (ℕ × Job)) (i : ℕ) (batch : TelemetryBatch) : Prop :=
  (i, (Work.telemetry batch).job) ∈ queue ∧ Validates cfg i batch

/-- Request `i` itself, or another request under the same key. -/
def SameKey (cfg : Config) (i j : ℕ) : Prop :=
  i = j ∨ ∃ k, (cfg.calls i).key? = some k ∧ (cfg.calls j).key? = some k

/-- What is true of request `i` in each place that its handler can be. -/
def Sound (cfg : Config) (queue : List (ℕ × Job)) (i : ℕ) : Handler → Prop
  | .validating raw => cfg.parsed (cfg.calls i) = some raw
  | .acquiringLock (.telemetry batch) | .creatingPool (.telemetry batch) | .enqueueing (.telemetry batch) =>
    Validates cfg i batch
  | .replied (.accepted resp) => ∃ j batch, SameKey cfg i j ∧ Enqueued cfg queue j batch ∧ resp = response batch
  | _ => True

/-- Each entry of the cache is the response to a request under its key that was enqueued. -/
def CacheSound (cfg : Config) (queue : List (ℕ × Job)) (cache : Dict PyStr IngestResponse) : Prop :=
  ∀ k resp, cache.get? k = some resp →
    ∃ j batch, (cfg.calls j).key? = some k ∧ Enqueued cfg queue j batch ∧ resp = response batch

structure AckInv (cfg : Config) (s : Instance) : Prop where
  handlers : ∀ i, Sound cfg s.queue i (s.handler i)
  cache : CacheSound cfg s.queue s.idempotencyCache

theorem carries_sound {queue : List (ℕ × Job)} {i : ℕ} {h : Handler} {batch : TelemetryBatch}
    (hc : h.carries (.telemetry batch)) : Sound cfg queue i h ↔ Validates cfg i batch := by
  rcases hc with rfl | rfl | rfl <;> exact Iff.rfl

theorem carries_log_sound {queue : List (ℕ × Job)} {i : ℕ} {h : Handler} {entry : ExtractionLogEntry}
    (hc : h.carries (.extractionLog entry)) : Sound cfg queue i h := by
  rcases hc with rfl | rfl | rfl <;> trivial

theorem Enqueued.append {queue more : List (ℕ × Job)} {i : ℕ} {batch : TelemetryBatch}
    (h : Enqueued cfg queue i batch) : Enqueued cfg (queue ++ more) i batch :=
  ⟨List.mem_append_left _ h.1, h.2⟩

theorem Sound.append {queue : List (ℕ × Job)} (more : List (ℕ × Job)) {i : ℕ} {h : Handler}
    (hs : Sound cfg queue i h) : Sound cfg (queue ++ more) i h := by
  unfold Sound at hs ⊢
  split
  · exact hs
  · exact hs
  · exact hs
  · exact hs
  · obtain ⟨j, batch, hkey, henq, hresp⟩ := hs
    exact ⟨j, batch, hkey, henq.append, hresp⟩
  · trivial

theorem CacheSound.append {queue : List (ℕ × Job)} (more : List (ℕ × Job)) {cache : Dict PyStr IngestResponse}
    (hs : CacheSound cfg queue cache) : CacheSound cfg (queue ++ more) cache := by
  intro k resp hget
  obtain ⟨j, batch, hkey, henq, hresp⟩ := hs k resp hget
  exact ⟨j, batch, hkey, henq.append, hresp⟩

/-! ## Every step keeps it so -/

theorem remember_sound {queue : List (ℕ × Job)} {cache : Dict PyStr IngestResponse} {i : ℕ} {work : Work}
    (hc : CacheSound cfg queue cache) (hw : ∀ batch, work = .telemetry batch → Enqueued cfg queue i batch) :
    CacheSound cfg queue ((cfg.calls i).remember work cache) := by
  unfold Call.remember
  split
  · next batch k hk =>
    intro k' resp hget
    rw [Dict.get?_set] at hget
    split at hget
    · next hkk =>
      cases hget
      exact ⟨i, batch, hkk ▸ hk, hw batch rfl, rfl⟩
    · exact hc k' resp hget
  · exact hc

theorem moves_sound {queue : List (ℕ × Job)} {cache cache' : Dict PyStr IngestResponse} {i : ℕ}
    {h h' : Handler} {ok : Bool} {jobs : List Job} (hm : Moves cfg (cfg.calls i) cache h ok h' cache' jobs)
    (hs : Sound cfg queue i h) (hc : CacheSound cfg queue cache) :
    Sound cfg (queue ++ jobs.map (Prod.mk i)) i h' ∧ CacheSound cfg (queue ++ jobs.map (Prod.mk i)) cache' := by
  cases hm with
  | cached hcall hkey hget =>
    obtain ⟨j, batch, hj, henq, hresp⟩ := hc _ _ hget
    exact ⟨⟨j, batch, .inr ⟨_, hkey, hj⟩, henq.append, hresp⟩, hc.append _⟩
  | missed hcall hget => exact ⟨trivial, hc.append _⟩
  | logged hcall hcarries => exact ⟨carries_log_sound hcarries, hc.append _⟩
  | parsed hraw => exact ⟨hraw, hc.append _⟩
  | unparsable hraw => exact ⟨trivial, hc.append _⟩
  | valid hb hcarries => exact ⟨(carries_sound hcarries).mpr ⟨_, hs, hb⟩, hc.append _⟩
  | invalid hb => exact ⟨trivial, hc.append _⟩
  | @onward work _ _ hcarries hcarries' =>
    refine ⟨?_, hc.append _⟩
    cases work with
    | telemetry batch => exact (carries_sound hcarries').mpr ((carries_sound hcarries).mp hs)
    | extractionLog entry => exact carries_log_sound hcarries'
  | @enqueued work =>
    have hw : ∀ batch, work = .telemetry batch → Enqueued cfg (queue ++ [work.job].map (Prod.mk i)) i batch := by
      rintro batch rfl
      exact ⟨by simp, hs⟩
    refine ⟨?_, remember_sound (hc.append _) hw⟩
    cases work with
    | telemetry batch => exact ⟨i, batch, .inl rfl, hw batch rfl, rfl⟩
    | extractionLog entry => trivial
  | raised hstarted hrunning => exact ⟨trivial, hc.append _⟩

theorem ackInv_step {e : Event} (hs : AckInv cfg s) (h : cfg.step s e = some t) : AckInv cfg t := by
  obtain ⟨jobs, hmove, hqueue, hframe⟩ := step_moves h
  obtain ⟨hsound, hcache⟩ := moves_sound hmove (hs.handlers e.request) hs.cache
  rw [← hqueue] at hsound hcache
  refine ⟨fun i => ?_, hcache⟩
  rcases eq_or_ne i e.request with rfl | hi
  · exact hsound
  · rw [hframe i hi, hqueue]
    exact (hs.handlers i).append _

theorem ackInv_init : AckInv cfg init :=
  ⟨fun _ => trivial, fun k resp hget => by simp [init] at hget⟩

theorem ackInv_run {es : List Event} (h : exec cfg.step init es = some s) : AckInv cfg s :=
  exec_invariant (fun _ _ _ hs h => ackInv_step hs h) ackInv_init h

/-! ## Replies stay, and only an accepted request writes the cache -/

theorem replied_moves {call : Call} {cache cache' : Dict PyStr IngestResponse} {reply : Reply} {h : Handler}
    {ok : Bool} {jobs : List Job} (hm : Moves cfg call cache (.replied reply) ok h cache' jobs) : False := by
  cases hm with
  | onward hcarries => rcases hcarries with hc | hc | hc <;> cases hc
  | raised _ hrunning => exact hrunning reply rfl

theorem replied_step {e : Event} {i : ℕ} {reply : Reply} (hi : s.handler i = .replied reply)
    (h : cfg.step s e = some t) : t.handler i = .replied reply := by
  obtain ⟨jobs, hmove, -, hframe⟩ := step_moves h
  rcases eq_or_ne i e.request with rfl | hne
  · rw [hi] at hmove
    exact (replied_moves hmove).elim
  · rw [hframe i hne, hi]

theorem replied_run {es : List Event} {i : ℕ} {reply : Reply} (hi : s.handler i = .replied reply)
    (h : exec cfg.step s es = some t) : t.handler i = .replied reply :=
  exec_invariant (I := fun s => s.handler i = .replied reply) (fun _ _ _ hs h => replied_step hs h) hi h

theorem moves_cache {call : Call} {cache cache' : Dict PyStr IngestResponse} {h h' : Handler} {ok : Bool}
    {jobs : List Job} (hm : Moves cfg call cache h ok h' cache' jobs) :
    cache' = cache ∨ ∃ resp, h' = .replied (.accepted resp) := by
  cases hm with
  | @enqueued work =>
    cases work with
    | telemetry batch => exact .inr ⟨response batch, rfl⟩
    | extractionLog entry => exact .inl rfl
  | _ => exact .inl rfl

theorem failed_cache_unchanged {suf : List Event} {e : Event} {u : Instance} {reply : Reply}
    (hstep : cfg.step s e = some t) (hrest : exec cfg.step t suf = some u)
    (hreply : u.handler e.request = .replied reply) (hfailed : ∀ resp, reply ≠ .accepted resp) :
    t.idempotencyCache = s.idempotencyCache := by
  obtain ⟨jobs, hmove, -, -⟩ := step_moves hstep
  rcases moves_cache hmove with h | ⟨resp, hresp⟩
  · exact h
  · have hlast := replied_run hresp hrest
    rw [hreply, Handler.replied.injEq] at hlast
    exact absurd hlast (hfailed resp)

theorem cached_start {i : ℕ} {resp : IngestResponse} (h : cfg.step s (.start i) = some t)
    (hi : t.handler i = .replied (.accepted resp)) :
    ∃ k, (cfg.calls i).key? = some k ∧ s.idempotencyCache.get? k = some resp := by
  have hwaiting : s.handler i = .waiting := by
    simp only [Config.step] at h
    split at h
    · assumption
    · cases h
  obtain ⟨jobs, hmove, -, -⟩ := step_moves h
  unfold Event.request Event.ok at hmove
  simp only [hwaiting, hi] at hmove
  generalize t.idempotencyCache = cache at hmove
  cases hmove with
  | cached hcall hkey hget => exact ⟨_, hkey, hget⟩
  | logged hcall hcarries => rcases hcarries with hc | hc | hc <;> cases hc
  | onward hcarries => rcases hcarries with hc | hc | hc <;> cases hc

/-! ## The acknowledgement -/

def EqualBodies (cfg : Config) : Prop :=
  ∀ i j k, (cfg.calls i).key? = some k → (cfg.calls j).key? = some k → (cfg.calls i).body? = (cfg.calls j).body?

theorem validates_of_sameKey (hbodies : EqualBodies cfg) {i j : ℕ} {batch : TelemetryBatch}
    (hij : SameKey cfg i j) (hj : Validates cfg j batch) : Validates cfg i batch := by
  rcases hij with rfl | ⟨k, hi, hj'⟩
  · exact hj
  · obtain ⟨raw, hraw, hb⟩ := hj
    refine ⟨raw, ?_, hb⟩
    rw [← hraw, Config.parsed, Config.parsed, hbodies i j k hi hj']

/-- The acknowledgements of a run, of the state that it leads to and of the steps on its way. -/
theorem acknowledgement_sound {es : List Event} (h : exec cfg.step init es = some s) :
    (∀ i resp, s.handler i = .replied (.accepted resp) →
      ∃ j, ∃ batch : TelemetryBatch, (j, .processTelemetryBatch batch.modelDump) ∈ s.queue ∧
        payloadIds batch.modelDump = some resp.ingestionIds ∧ resp.accepted = resp.ingestionIds.length) ∧
    (∀ pre e suf t u reply, es = pre ++ e :: suf → exec cfg.step init pre = some t → cfg.step t e = some u →
      s.handler e.request = .replied reply → (∀ resp, reply ≠ .accepted resp) →
      u.idempotencyCache = t.idempotencyCache) ∧
    (∀ pre i suf t u resp, es = pre ++ .start i :: suf → exec cfg.step init pre = some t →
      cfg.step t (.start i) = some u → u.handler i = .replied (.accepted resp) →
      ∃ k j, ∃ batch : TelemetryBatch, (cfg.calls i).key? = some k ∧ (cfg.calls j).key? = some k ∧
        (j, .processTelemetryBatch batch.modelDump) ∈ t.queue ∧ payloadIds batch.modelDump = some resp.ingestionIds ∧
        resp = response batch) ∧
    (EqualBodies cfg → ∀ i resp, s.handler i = .replied (.accepted resp) →
      ∃ raw batch, cfg.parsed (cfg.calls i) = some raw ∧ TelemetryBatch.modelValidate cfg.lax raw = .ok batch ∧
        payloadIds raw = some resp.ingestionIds) := by
  have hinv := ackInv_run h
  refine ⟨?_, ?_, ?_, ?_⟩
  · intro i resp hi
    have hsound := hinv.handlers i
    rw [hi] at hsound
    obtain ⟨j, batch, -, henq, rfl⟩ := hsound
    exact ⟨j, batch, henq.1, payloadIds_modelDump batch, (List.length_map _).symm⟩
  · rintro pre e suf t u reply rfl ht hu hreply hfailed
    obtain ⟨t', u', ht', hu', hrest⟩ := exec_split h
    rw [ht, Option.some.injEq] at ht'
    subst ht'
    rw [hu, Option.some.injEq] at hu'
    subst hu'
    exact failed_cache_unchanged hu hrest hreply hfailed
  · rintro pre i suf t u resp rfl ht hu hi
    obtain ⟨k, hkey, hget⟩ := cached_start hu hi
    obtain ⟨j, batch, hj, henq, hresp⟩ := (ackInv_run ht).cache k resp hget
    exact ⟨k, j, batch, hkey, hj, henq.1, hresp ▸ payloadIds_modelDump batch, hresp⟩
  · intro hbodies i resp hi
    have hsound := hinv.handlers i
    rw [hi] at hsound
    obtain ⟨j, batch, hij, henq, rfl⟩ := hsound
    obtain ⟨raw, hraw, hvalid⟩ := validates_of_sameKey hbodies hij henq.2
    exact ⟨raw, batch, hraw, hvalid, payloadIds_of_valid hvalid⟩

def rawEvent (ingestionId : PyStr) : PyVal :=
  .dict [(str "icao24", .str (str "4b1814")), (str "ingested_at", .str (str "2026-08-26T10:00:00Z")),
    (str "ingestion_id", .str ingestionId)]

/-- Every request posts the same two events under one key. -/
def twoEvents : Config where
  loads := fun _ => some (.dict [(str "events", .list [rawEvent (str "a"), rawEvent (str "b")])])
  lax := .strict
  calls := fun _ => .postTelemetry (some (str "k")) (bytes "[]")

theorem acknowledgement_of_duplicate : ∃ s resp, exec twoEvents.step init duplicateAfterReply = some s ∧
    s.handler 1 = .replied (.accepted resp) ∧ resp.ingestionIds = [str "a", str "b"] ∧ resp.accepted = 2 ∧
    ∃ j, ∃ batch : TelemetryBatch, (j, .processTelemetryBatch batch.modelDump) ∈ s.queue ∧
      payloadIds batch.modelDump = some resp.ingestionIds ∧ resp.accepted = resp.ingestionIds.length := by
  have hrun : ∃ s resp, exec twoEvents.step init duplicateAfterReply = some s ∧
      s.handler 1 = .replied (.accepted resp) ∧ resp.ingestionIds = [str "a", str "b"] ∧ resp.accepted = 2 :=
    ⟨_, _, rfl, rfl, rfl, rfl⟩
  obtain ⟨s, resp, hs, h1, hids, haccepted⟩ := hrun
  exact ⟨s, resp, hs, h1, hids, haccepted, (acknowledgement_sound hs).1 1 _ h1⟩

end FlightPulse.Ingestion
