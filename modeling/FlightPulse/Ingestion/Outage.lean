import FlightPulse.Ingestion.Handover
import FlightPulse.Ingestion.PoolLock

/-!
# While Redis is down

No operation on Redis succeeds for a while. An instance claims nothing in that time
that it has not handed over before, it answers every request, and with Redis back it
serves the next one as it is, without a restart.
-/

open Lib Lib.Run Lib.Python Lib.Pydantic

namespace FlightPulse.Ingestion

open Instance

variable {cfg : Config} {s t u : Instance}

/-! ## An outage -/

/-- The coroutine waits for Redis. -/
def Handler.OnRedis (h : Handler) : Prop := ∃ work, h = .creatingPool work ∨ h = .enqueueing work

/-- Redis does not answer. -/
def RedisDown (s : Instance) (e : Event) : Prop := ∀ i, e = .resume i true → ¬ (s.handler i).OnRedis

/-- Nothing but Redis fails. -/
def OnlyRedisFails (s : Instance) (e : Event) : Prop := ∀ i, e = .resume i false → (s.handler i).OnRedis

/-- What request `i` can be told in an outage that began in `s`. An acceptance is the cached one of a batch that
was in the queue by then, under the same key. -/
def OutageReply (cfg : Config) (s : Instance) (i : ℕ) : Reply → Prop
  | .accepted resp => ∃ k j batch, (cfg.calls i).key? = some k ∧ (cfg.calls j).key? = some k ∧
      s.idempotencyCache.get? k = some resp ∧ Enqueued cfg s.queue j batch ∧ resp = response batch
  | .logAccepted _ => False
  | .unprocessable errors => ∃ raw, cfg.parsed (cfg.calls i) = some raw ∧
      TelemetryBatch.modelValidate cfg.lax raw = .invalid errors
  | .serverError => True

/-- What an outage that began in `s` has changed. -/
structure Unclaimed (cfg : Config) (s u : Instance) : Prop where
  queue : u.queue = s.queue
  cache : u.idempotencyCache = s.idempotencyCache
  replies : ∀ i reply, u.handler i = .replied reply →
    s.handler i = .replied reply ∨ OutageReply cfg s i reply

/-! ## Nothing is claimed -/

theorem moves_down {call : Call} {cache cache' : Dict PyStr IngestResponse} {h h' : Handler} {ok : Bool}
    {jobs : List Job} (hm : Moves cfg call cache h ok h' cache' jobs)
    (hdown : ok = true → ∀ work, h ≠ .enqueueing work) : jobs = [] ∧ cache' = cache := by
  cases hm with
  | @enqueued work => exact absurd rfl (hdown rfl work)
  | _ => exact ⟨rfl, rfl⟩

theorem moves_outageReply {cache' : Dict PyStr IngestResponse} {i : ℕ} {h : Handler} {ok : Bool}
    {reply : Reply} {jobs : List Job} {queue : List (ℕ × Job)}
    (hm : Moves cfg (cfg.calls i) s.idempotencyCache h ok (.replied reply) cache' jobs)
    (hdown : ok = true → ∀ work, h ≠ .enqueueing work) (hs : HandsOver cfg queue i h)
    (hc : CacheSound cfg s.queue s.idempotencyCache) : OutageReply cfg s i reply := by
  cases hm with
  | cached _ hkey hget =>
    obtain ⟨j, batch, hj, henq, hresp⟩ := hc _ _ hget
    exact ⟨_, j, batch, hkey, hj, hget, henq, hresp⟩
  | logged _ hcarries => rcases hcarries with hc | hc | hc <;> cases hc
  | unparsable _ => trivial
  | valid _ hcarries => rcases hcarries with hc | hc | hc <;> cases hc
  | invalid hinvalid => exact ⟨_, hs, hinvalid⟩
  | onward _ hcarries => rcases hcarries with hc | hc | hc <;> cases hc
  | @enqueued work => exact absurd rfl (hdown rfl work)
  | raised _ _ => trivial

theorem down_of_redisDown {e : Event} (hdown : RedisDown s e) (h : cfg.step s e = some t) (hok : e.ok = true)
    (work : Work) : s.handler e.request ≠ .enqueueing work := by
  intro hi
  cases e with
  | start i =>
    simp only [Config.step] at h
    split at h
    · next hwaiting =>
      rw [Event.request, hwaiting] at hi
      cases hi
    · cases h
  | resume i ok =>
    obtain rfl : ok = true := hok
    exact hdown i rfl ⟨work, .inr hi⟩
  | acquired i =>
    simp only [Config.step] at h
    split at h
    · next hacquiring =>
      rw [Event.request, hacquiring] at hi
      cases hi
    · cases h

theorem unclaimed_step {e : Event} (hc : CacheSound cfg s.queue s.idempotencyCache) (hs : HandoverInv cfg t)
    (h : Unclaimed cfg s t) (hdown : RedisDown t e) (hstep : cfg.step t e = some u) : Unclaimed cfg s u := by
  obtain ⟨jobs, hmove, hqueue, hframe⟩ := step_moves hstep
  have hnot := down_of_redisDown hdown hstep
  obtain ⟨rfl, hcache⟩ := moves_down hmove hnot
  refine ⟨by rw [hqueue, h.queue]; simp, hcache.trans h.cache, fun i reply hi => ?_⟩
  rcases eq_or_ne i e.request with rfl | hne
  · rw [hi, h.cache] at hmove
    exact .inr (moves_outageReply hmove hnot (hs.handlers e.request) hc)
  · rw [hframe i hne] at hi
    exact h.replies i reply hi

theorem unclaimed_run {es fs : List Event} (hbefore : exec cfg.step init es = some s)
    (h : exec cfg.step s fs = some u) (hdown : Meets cfg.step RedisDown s fs) : Unclaimed cfg s u := by
  have hc := (ackInv_run hbefore).cache
  have key : HandoverInv cfg u ∧ Unclaimed cfg s u := by
    refine meets_invariant (I := fun t => HandoverInv cfg t ∧ Unclaimed cfg s t) ?_
      ⟨handoverInv_run hbefore, rfl, rfl, fun _ _ hi => .inl hi⟩ h hdown
    rintro t e v ⟨hinv, ht⟩ hd hv
    exact ⟨handoverInv_step hinv hv, unclaimed_step hc hinv ht hd hv⟩
  exact key.2

/-! ## The pool stays -/

@[simp] theorem put_arqPool (s : Instance) (i : ℕ) (h : Handler) : (s.put i h).arqPool = s.arqPool := rfl

@[simp] theorem insideLock_arqPool (s : Instance) (i : ℕ) (work : Work) :
    (s.insideLock i work).arqPool = s.arqPool := by
  unfold Instance.insideLock
  split <;> rfl

@[simp] theorem getArqPool_arqPool (s : Instance) (i : ℕ) (work : Work) :
    (s.getArqPool i work).arqPool = s.arqPool := by
  unfold Instance.getArqPool
  repeat' split
  all_goals simp

@[simp] theorem start_arqPool (s : Instance) (i : ℕ) (call : Call) : (s.start i call).arqPool = s.arqPool := by
  unfold Instance.start
  repeat' split
  all_goals simp

theorem step_arqPool {e : Event} (hpool : s.arqPool = true) (h : cfg.step s e = some t) : t.arqPool = true := by
  cases e with
  | start i =>
    simp only [Config.step] at h
    split at h <;> cases h
    simpa using hpool
  | resume i ok =>
    simp only [Config.step] at h
    split at h
    · cases ok with
      | true =>
        simp only [if_true, Config.proceed] at h
        repeat' split at h
        all_goals cases h
        all_goals simp [hpool, finish]
      | false =>
        simp only [Bool.false_eq_true, if_false, Instance.abort] at h
        split at h <;> cases h <;> exact hpool
    · cases h
  | acquired i =>
    simp only [Config.step] at h
    split at h
    · split at h <;> cases h
      simpa using hpool
    · cases h

/-- Once there is a pool, nobody waits for the lock any more. -/
theorem unblocked_run {fs : List Event} (hs : LockInv s) (hpool : s.arqPool = true) (hblocked : s.blocked = none)
    (h : exec cfg.step s fs = some u) : u.blocked = none := by
  have key : LockInv u ∧ u.arqPool = true ∧ u.blocked = none := by
    refine exec_invariant (I := fun t => LockInv t ∧ t.arqPool = true ∧ t.blocked = none) ?_
      ⟨hs, hpool, hblocked⟩ h
    rintro t e v ⟨hinv, ht, -⟩ hv
    refine ⟨lockInv_step hinv hv, step_arqPool ht hv, (step_blocked hinv hv).mpr fun _ hnone => ?_⟩
    rw [ht] at hnone
    cases hnone
  exact key.2.2

/-! ## Every request is answered -/

/-- The loop runs, and whoever asks for the pool gets it or creates it. -/
structure Free (s : Instance) : Prop where
  blocked : s.blocked = none
  pool : s.arqPool = false → s.arqPoolLock = none

theorem Free.put (h : Free s) (i : ℕ) (handler : Handler) : Free (s.put i handler) := ⟨h.blocked, h.pool⟩

theorem getArqPool_free (h : Free s) (i : ℕ) (work : Work) : (s.getArqPool i work).blocked = none ∧
    ((s.getArqPool i work).handler i = .creatingPool work ∨ (s.getArqPool i work).handler i = .enqueueing work) := by
  refine ⟨(getArqPool_blocked work h.blocked).mpr h.pool, ?_⟩
  unfold Instance.getArqPool Instance.insideLock
  cases hpool : s.arqPool with
  | true => simp [Instance.put]
  | false => simp [h.pool hpool, Instance.put]

/-- Request `i` has a reply. -/
def Answered (i : ℕ) (s : Instance) : Prop := ∃ reply, s.handler i = .replied reply

/-- Redis is down, and nothing else fails. -/
def InOutage (s : Instance) (e : Event) : Prop := RedisDown s e ∧ OnlyRedisFails s e

theorem inOutage_start (s : Instance) (i : ℕ) : InOutage s (.start i) := by
  constructor <;> intro j hj <;> cases hj

theorem inOutage_proceed {i : ℕ} (h : ¬ (s.handler i).OnRedis) : InOutage s (.resume i true) := by
  constructor
  · intro j hj
    cases hj
    exact h
  · intro j hj
    cases hj

theorem inOutage_abort {i : ℕ} (h : (s.handler i).OnRedis) : InOutage s (.resume i false) := by
  constructor
  · intro j hj
    cases hj
  · intro j hj
    cases hj
    exact h

theorem answered_onRedis {i : ℕ} (hblocked : s.blocked = none) (h : (s.handler i).OnRedis) :
    Reaches cfg.step InOutage (Answered i) s := by
  have habort : ∃ t, cfg.step s (.resume i false) = some t ∧ Answered i t := by
    obtain ⟨work, hi | hi⟩ := h
    · refine ⟨{ s.put i (.replied .serverError) with arqPoolLock := none }, ?_, .serverError, by simp [Instance.put]⟩
      simp [Config.step, hblocked, Instance.abort, hi]
    · refine ⟨s.put i (.replied .serverError), ?_, .serverError, by simp [Instance.put]⟩
      simp [Config.step, hblocked, Instance.abort, hi]
  obtain ⟨t, ht, hanswered⟩ := habort
  exact .next (inOutage_abort h) ht (.here hanswered)

theorem answered_getArqPool (h : Free s) (i : ℕ) (work : Work) :
    Reaches cfg.step InOutage (Answered i) (s.getArqPool i work) := by
  obtain ⟨hblocked, hi⟩ := getArqPool_free h i work
  exact answered_onRedis hblocked ⟨work, hi⟩

theorem answered_validating {i : ℕ} {raw : PyVal} (h : Free s) (hi : s.handler i = .validating raw) :
    Reaches cfg.step InOutage (Answered i) s := by
  have hnot : ¬ (s.handler i).OnRedis := by
    rintro ⟨work, hw | hw⟩ <;> rw [hi] at hw <;> cases hw
  cases hbatch : TelemetryBatch.modelValidate cfg.lax raw with
  | ok batch =>
    refine .next (inOutage_proceed hnot) ?_ (answered_getArqPool h i (.telemetry batch))
    simp [Config.step, h.blocked, Config.proceed, hi, hbatch]
  | invalid errors =>
    refine .next (t := s.put i (.replied (.unprocessable errors))) (inOutage_proceed hnot) ?_
      (.here ⟨.unprocessable errors, by simp [Instance.put]⟩)
    simp [Config.step, h.blocked, Config.proceed, hi, hbatch]

theorem answered_readingBody {i : ℕ} (h : Free s) (hi : s.handler i = .readingBody) :
    Reaches cfg.step InOutage (Answered i) s := by
  have hnot : ¬ (s.handler i).OnRedis := by
    rintro ⟨work, hw | hw⟩ <;> rw [hi] at hw <;> cases hw
  cases hparsed : cfg.parsed (cfg.calls i) with
  | some raw =>
    refine .next (t := s.put i (.validating raw)) (inOutage_proceed hnot) ?_
      (answered_validating (h.put i _) (show _ = Handler.validating raw by simp [Instance.put]))
    simp [Config.step, h.blocked, Config.proceed, hi, hparsed]
  | none =>
    refine .next (t := s.put i (.replied .serverError)) (inOutage_proceed hnot) ?_
      (.here ⟨.serverError, by simp [Instance.put]⟩)
    simp [Config.step, h.blocked, Config.proceed, hi, hparsed]

theorem answered_waiting {i : ℕ} (h : Free s) (hi : s.handler i = .waiting) :
    Reaches cfg.step InOutage (Answered i) s := by
  have hstart : cfg.step s (.start i) = some (s.start i (cfg.calls i)) := by
    simp [Config.step, h.blocked, hi]
  refine .next (inOutage_start s i) hstart ?_
  unfold Instance.start
  split
  · split
    · next cached _ => exact .here ⟨.accepted cached, by simp [Instance.put]⟩
    · exact answered_readingBody (h.put i _) (by simp [Instance.put])
  · next entry _ => exact answered_getArqPool h i (.extractionLog entry)

variable (cfg) in
/-- Whoever creates the pool fails, and the lock is free again. -/
theorem released (hs : LockInv s) (hblocked : s.blocked = none) {j : ℕ} (hj : s.arqPoolLock = some j) :
    ∃ t, cfg.step s (.resume j false) = some t ∧ (s.handler j).OnRedis ∧ Free t ∧ Answered j t ∧
      ∀ i ≠ j, t.handler i = s.handler i := by
  obtain ⟨work, hwork⟩ := (hs.holder j).mp hj
  refine ⟨{ s.put j (.replied .serverError) with arqPoolLock := none }, ?_, ⟨work, .inl hwork⟩,
    ⟨hblocked, fun _ => rfl⟩, ⟨.serverError, by simp [Instance.put]⟩, fun i hi => by simp [Instance.put, hi]⟩
  simp [Config.step, hblocked, Instance.abort, hwork]

theorem answered_free {i : ℕ} (hs : LockInv s) (h : Free s) (hi : (s.handler i).Unfinished) :
    Reaches cfg.step InOutage (Answered i) s := by
  cases hhandler : s.handler i with
  | waiting => exact answered_waiting h hhandler
  | readingBody => exact answered_readingBody h hhandler
  | validating raw => exact answered_validating h hhandler
  | acquiringLock work =>
    have hwaits := (hs.waiter i).mpr ⟨work, hhandler⟩
    rw [h.blocked] at hwaits
    cases hwaits
  | creatingPool work => exact answered_onRedis h.blocked ⟨work, .inl hhandler⟩
  | enqueueing work => exact answered_onRedis h.blocked ⟨work, .inr hhandler⟩
  | replied reply => exact absurd hhandler (hi reply)

theorem answered_in_outage {i : ℕ} (hs : LockInv s) (hblocked : s.blocked = none) (hi : (s.handler i).Unfinished) :
    Reaches cfg.step InOutage (Answered i) s := by
  cases hlock : s.arqPoolLock with
  | none => exact answered_free hs ⟨hblocked, fun _ => hlock⟩ hi
  | some j =>
    obtain ⟨t, ht, hredis, hfree, hanswered, hframe⟩ := released cfg hs hblocked hlock
    refine .next (inOutage_abort hredis) ht ?_
    rcases eq_or_ne i j with rfl | hne
    · exact .here hanswered
    · refine answered_free (lockInv_step hs ht) hfree ?_
      rw [hframe i hne]
      exact hi

/-! ## With Redis back -/

/-- No operation fails. -/
def AllUp (_ : Instance) (e : Event) : Prop := ∀ i, e ≠ .resume i false

theorem allUp_proceed (s : Instance) (i : ℕ) : AllUp s (.resume i true) := by
  intro j hj
  cases hj

theorem allUp_start (s : Instance) (i : ℕ) : AllUp s (.start i) := by
  intro j hj
  cases hj

/-- Request `i` has been told that its batch was accepted, and the batch is in the queue. -/
def Served (i : ℕ) (batch : TelemetryBatch) (s : Instance) : Prop :=
  s.handler i = .replied (.accepted (response batch)) ∧ (i, (Work.telemetry batch).job) ∈ s.queue

theorem served_enqueueing {i : ℕ} {batch : TelemetryBatch} (hblocked : s.blocked = none)
    (hi : s.handler i = .enqueueing (.telemetry batch)) : Reaches cfg.step AllUp (Served i batch) s := by
  refine .next (t := s.finish i (cfg.calls i) (.telemetry batch)) (allUp_proceed s i) ?_ (.here ⟨?_, ?_⟩)
  · simp [Config.step, hblocked, Config.proceed, hi]
  · simp [finish, Instance.put, Work.reply]
  · simp [finish]

theorem served_creatingPool {i : ℕ} {batch : TelemetryBatch} (hblocked : s.blocked = none)
    (hi : s.handler i = .creatingPool (.telemetry batch)) : Reaches cfg.step AllUp (Served i batch) s := by
  refine .next
    (t := { s.put i (.enqueueing (.telemetry batch)) with arqPool := true, arqPoolLock := none })
    (allUp_proceed s i) ?_ (served_enqueueing hblocked (by simp [Instance.put]))
  simp [Config.step, hblocked, Config.proceed, hi]

theorem served_validating {i : ℕ} {raw : PyVal} {batch : TelemetryBatch} (h : Free s)
    (hi : s.handler i = .validating raw) (hbatch : TelemetryBatch.modelValidate cfg.lax raw = .ok batch) :
    Reaches cfg.step AllUp (Served i batch) s := by
  obtain ⟨hblocked, hpool⟩ := getArqPool_free h i (.telemetry batch)
  refine .next (t := s.getArqPool i (.telemetry batch)) (allUp_proceed s i) ?_ ?_
  · simp [Config.step, h.blocked, Config.proceed, hi, hbatch]
  · rcases hpool with hcreating | henqueueing
    · exact served_creatingPool hblocked hcreating
    · exact served_enqueueing hblocked henqueueing

theorem served_readingBody {i : ℕ} {batch : TelemetryBatch} (h : Free s) (hi : s.handler i = .readingBody)
    (hvalid : Validates cfg i batch) : Reaches cfg.step AllUp (Served i batch) s := by
  obtain ⟨raw, hraw, hbatch⟩ := hvalid
  refine .next (t := s.put i (.validating raw)) (allUp_proceed s i) ?_
    (served_validating (h.put i _) (show _ = Handler.validating raw by simp [Instance.put]) hbatch)
  simp [Config.step, h.blocked, Config.proceed, hi, hraw]

theorem served_waiting {i : ℕ} {batch : TelemetryBatch} (h : Free s) (hi : s.handler i = .waiting)
    (hvalid : Validates cfg i batch) (hfresh : (cfg.calls i).key?.bind s.idempotencyCache.get? = none) :
    Reaches cfg.step AllUp (Served i batch) s := by
  have hstart : cfg.step s (.start i) = some (s.put i .readingBody) := by
    cases hcall : cfg.calls i with
    | postTelemetry key body =>
      rw [hcall] at hfresh
      simp [Config.step, h.blocked, hi, Instance.start, hcall, hfresh]
    | postExtractionLog entry =>
      obtain ⟨raw, hraw, -⟩ := hvalid
      simp [Config.parsed, Call.body?, hcall] at hraw
  exact .next (allUp_start s i) hstart (served_readingBody (h.put i _) (by simp [Instance.put]) hvalid)

theorem served_again {i : ℕ} {batch : TelemetryBatch} (hs : LockInv s) (hblocked : s.blocked = none)
    (hi : s.handler i = .waiting) (hvalid : Validates cfg i batch)
    (hfresh : (cfg.calls i).key?.bind s.idempotencyCache.get? = none) :
    Reaches cfg.step AllUp (Served i batch) s := by
  cases hlock : s.arqPoolLock with
  | none => exact served_waiting ⟨hblocked, fun _ => hlock⟩ hi hvalid hfresh
  | some j =>
    -- The creation that is under way succeeds first.
    obtain ⟨work, hwork⟩ := (hs.holder j).mp hlock
    have hne : i ≠ j := by
      rintro rfl
      rw [hi] at hwork
      cases hwork
    refine .next (t := { s.put j (.enqueueing work) with arqPool := true, arqPoolLock := none })
      (allUp_proceed s j) ?_ (served_waiting ⟨hblocked, fun _ => rfl⟩ ?_ hvalid hfresh)
    · simp [Config.step, hblocked, Config.proceed, hwork]
    · simp [Instance.put, hne, hi]

/-! ## An outage from its begin to its end -/

/-- While Redis is down, nothing is queued or remembered, and the only acceptance is that of a batch that was
handed over before, under the same key. As long as no coroutine holds up the loop, which it never does once
there is a pool, every request can still be answered, and after the outage any valid one is served. -/
theorem redis_outage {es fs : List Event} (hbefore : exec cfg.step init es = some s)
    (hduring : exec cfg.step s fs = some u) (hdown : Meets cfg.step RedisDown s fs) :
    Unclaimed cfg s u ∧
      (s.arqPool = true → s.blocked = none → u.blocked = none) ∧
      (u.blocked = none →
        (∀ i, (u.handler i).Unfinished → Reaches cfg.step InOutage (Answered i) u) ∧
        ∀ i batch, u.handler i = .waiting → Validates cfg i batch →
          (cfg.calls i).key?.bind s.idempotencyCache.get? = none → Reaches cfg.step AllUp (Served i batch) u) := by
  have hunclaimed := unclaimed_run hbefore hduring hdown
  have hlock : LockInv u := lockInv_run (exec_trans hbefore hduring)
  refine ⟨hunclaimed, fun hpool hblocked => unblocked_run (lockInv_run hbefore) hpool hblocked hduring,
    fun hblocked => ⟨fun i hi => answered_in_outage hlock hblocked hi, fun i batch hi hvalid hfresh => ?_⟩⟩
  rw [← hunclaimed.cache] at hfresh
  exact served_again hlock hblocked hi hvalid hfresh

def servedOnce : List Event := [.start 0, .resume 0 true, .resume 0 true, .resume 0 true, .resume 0 true]

def refusedOnce : List Event := [.start 1, .resume 1 true, .resume 1 true, .resume 1 false]

/-- A request is served, Redis goes down under the next one, and a third one can be served again. -/
theorem redis_outage_survived : ∃ s u, exec (emptyBatches none).step init servedOnce = some s ∧
    exec (emptyBatches none).step s refusedOnce = some u ∧ u.handler 1 = .replied .serverError ∧
    u.queue = s.queue ∧ Reaches (emptyBatches none).step AllUp (Served 2 ⟨[]⟩) u := by
  have hrun : ∃ s u, exec (emptyBatches none).step init servedOnce = some s ∧ s.arqPool = true ∧ s.blocked = none ∧
      exec (emptyBatches none).step s refusedOnce = some u ∧
      Meets (emptyBatches none).step RedisDown s refusedOnce ∧
      u.handler 1 = .replied .serverError ∧ u.handler 2 = .waiting := by
    refine ⟨_, _, rfl, rfl, rfl, rfl, ?_, rfl, rfl⟩
    refine (meets_cons rfl).mpr ⟨fun i hi => (by cases hi), ?_⟩
    refine (meets_cons rfl).mpr ⟨fun i hi => (by cases hi; rintro ⟨work, hw | hw⟩ <;> cases hw), ?_⟩
    refine (meets_cons rfl).mpr ⟨fun i hi => (by cases hi; rintro ⟨work, hw | hw⟩ <;> cases hw), ?_⟩
    exact (meets_cons rfl).mpr ⟨fun i hi => (by cases hi), trivial⟩
  obtain ⟨s, u, hs, hpool, hblocked, hu, hdown, h1, h2⟩ := hrun
  obtain ⟨hunclaimed, hfree, hserves⟩ := redis_outage hs hu hdown
  obtain ⟨-, hagain⟩ := hserves (hfree hpool hblocked)
  refine ⟨s, u, hs, hu, h1, hunclaimed.queue, hagain 2 ⟨[]⟩ h2 ?_ rfl⟩
  exact ⟨.dict [(str "events", .list [])], rfl, rfl⟩

end FlightPulse.Ingestion
