import FlightPulse.Lib.Dict
import FlightPulse.Lib.Run
import FlightPulse.Ingestion.Schemas

/-!
# The routes of one ingestion instance (`ingestion/routes.py`)

Each request runs its handler as a coroutine on one event loop. A step runs one
coroutine from where it waits to its next `await`, or to its end. The idempotency
lock is never held across an `await`, so it does not show.
-/

open Lib Lib.Python Lib.Pydantic

namespace FlightPulse.Ingestion

/-! ## Requests, jobs and replies -/

/-- The header and the body of a request, or the entry that the framework has validated. -/
inductive Call where
  | postTelemetry (idempotencyKey : Option PyStr) (body : Bytes)
  | postExtractionLog (entry : ExtractionLogEntry)

/-- `if idempotency_key:` is false for the empty string too. -/
def Call.key? : Call → Option PyStr
  | .postTelemetry (some (c :: k)) _ => some (c :: k)
  | _ => none

def Call.body? : Call → Option Bytes
  | .postTelemetry _ body => some body
  | .postExtractionLog _ => none

inductive Job where
  | processTelemetryBatch (payload : PyVal)
  | processExtractionLog (payload : PyVal)

inductive Reply where
  | accepted (response : IngestResponse)
  | logAccepted (requestId : PyStr)
  | unprocessable (errors : List ErrorDetail)
  /-- An exception that the handler does not catch. -/
  | serverError

inductive Work where
  | telemetry (batch : TelemetryBatch)
  | extractionLog (entry : ExtractionLogEntry)

def TelemetryBatch.ids (batch : TelemetryBatch) : List PyStr :=
  batch.events.map TelemetryEvent.ingestionId

def response (batch : TelemetryBatch) : IngestResponse where
  status := str "accepted"
  accepted := batch.events.length
  ingestionIds := batch.ids

def Work.job : Work → Job
  | .telemetry batch => .processTelemetryBatch batch.modelDump
  | .extractionLog entry => .processExtractionLog entry.modelDump

def Work.reply : Work → Reply
  | .telemetry batch => .accepted (response batch)
  | .extractionLog entry => .logAccepted entry.requestId

/-- `_idempotency_cache[idempotency_key] = response`, for a request with a key. -/
def Call.remember (call : Call) (work : Work) (cache : Dict PyStr IngestResponse) : Dict PyStr IngestResponse :=
  match work, call.key? with
  | .telemetry batch, some k => cache.set k (response batch)
  | _, _ => cache

/-! ## The process -/

/-- Where the coroutine of a request is. -/
inductive Handler where
  | waiting
  | readingBody
  | validating (raw : PyVal)
  /-- Inside `with _arq_pool_lock:`, not past the acquisition. -/
  | acquiringLock (work : Work)
  | creatingPool (work : Work)
  | enqueueing (work : Work)
  | replied (reply : Reply)

structure Config where
  /-- The JSON parser: `none` when it raises. -/
  loads : Bytes → Option PyVal
  lax : Lax
  calls : ℕ → Call

structure Instance where
  /-- `_arq_pool is not None`. -/
  arqPool : Bool
  /-- The request whose coroutine holds `_arq_pool_lock`. -/
  arqPoolLock : Option ℕ
  /-- The request in whose coroutine the loop thread waits for `_arq_pool_lock`. -/
  blocked : Option ℕ
  idempotencyCache : Dict PyStr IngestResponse
  /-- The jobs that Redis took, each with the request that enqueued it. -/
  queue : List (ℕ × Job)
  handler : ℕ → Handler

namespace Instance

def init : Instance where
  arqPool := false
  arqPoolLock := none
  blocked := none
  idempotencyCache := Dict.empty
  queue := []
  handler := fun _ => .waiting

def put (s : Instance) (i : ℕ) (h : Handler) : Instance :=
  { s with handler := Function.update s.handler i h }

/-- The body of `with _arq_pool_lock:`, which tests `_arq_pool` once more. -/
def insideLock (s : Instance) (i : ℕ) (work : Work) : Instance :=
  if s.arqPool then s.put i (.enqueueing work)
  else { s.put i (.creatingPool work) with arqPoolLock := some i }

def getArqPool (s : Instance) (i : ℕ) (work : Work) : Instance :=
  if s.arqPool then s.put i (.enqueueing work)
  else
    match s.arqPoolLock with
    | none => s.insideLock i work
    | some _ => { s.put i (.acquiringLock work) with blocked := some i }

/-- The start of a handler, up to its first `await`. -/
def start (s : Instance) (i : ℕ) (call : Call) : Instance :=
  match call with
  | .postTelemetry _ _ =>
    match call.key?.bind s.idempotencyCache.get? with
    | some cached => s.put i (.replied (.accepted cached))
    | none => s.put i .readingBody
  | .postExtractionLog entry => s.getArqPool i (.extractionLog entry)

def finish (s : Instance) (i : ℕ) (call : Call) (work : Work) : Instance :=
  { s.put i (.replied work.reply) with
    queue := s.queue ++ [(i, work.job)]
    idempotencyCache := call.remember work s.idempotencyCache }

/-- The `await` of request `i` raised. Leaving the `with` block releases the lock. -/
def abort (s : Instance) (i : ℕ) : Option Instance :=
  match s.handler i with
  | .readingBody | .validating _ | .enqueueing _ => some (s.put i (.replied .serverError))
  | .creatingPool _ => some { s.put i (.replied .serverError) with arqPoolLock := none }
  | _ => none

end Instance

open Instance

inductive Event where
  | start (i : ℕ)
  /-- The awaited operation of request `i` is over; `ok` is false when it raised. -/
  | resume (i : ℕ) (ok : Bool)
  | acquired (i : ℕ)
deriving DecidableEq

def Event.request : Event → ℕ
  | .start i => i
  | .resume i _ => i
  | .acquired i => i

namespace Config

variable (cfg : Config)

def parsed (call : Call) : Option PyVal := call.body?.bind cfg.loads

/-- The coroutine of request `i` goes on with the result of its `await`. -/
def proceed (s : Instance) (i : ℕ) : Option Instance :=
  match s.handler i with
  | .readingBody =>
    match cfg.parsed (cfg.calls i) with
    | some raw => some (s.put i (.validating raw))
    | none => some (s.put i (.replied .serverError))
  | .validating raw =>
    match TelemetryBatch.modelValidate cfg.lax raw with
    | .ok batch => some (s.getArqPool i (.telemetry batch))
    | .invalid errors => some (s.put i (.replied (.unprocessable errors)))
  | .creatingPool work => some { s.put i (.enqueueing work) with arqPool := true, arqPoolLock := none }
  | .enqueueing work => some (s.finish i (cfg.calls i) work)
  | _ => none

/-- No coroutine runs while the loop thread waits for the lock. -/
def step (s : Instance) : Event → Option Instance
  | .start i =>
    match s.blocked, s.handler i with
    | none, .waiting => some (s.start i (cfg.calls i))
    | _, _ => none
  | .resume i ok =>
    match s.blocked with
    | none => if ok then cfg.proceed s i else s.abort i
    | some _ => none
  | .acquired i =>
    match s.blocked, s.arqPoolLock, s.handler i with
    | some j, none, .acquiringLock work =>
      if j = i then some ({ s with blocked := none }.insideLock i work) else none
    | _, _, _ => none

end Config

/-! ## What a step does to the handler, the cache and the queue -/

def Handler.carries (work : Work) (h : Handler) : Prop :=
  h = .acquiringLock work ∨ h = .creatingPool work ∨ h = .enqueueing work

/-- The part of a step that does not depend on the pool: the handler before and after, the
cache before and after and the jobs enqueued. -/
inductive Moves (cfg : Config) (call : Call) (cache : Dict PyStr IngestResponse) :
    Handler → Bool → Handler → Dict PyStr IngestResponse → List Job → Prop
  | cached {key body k resp} : call = .postTelemetry key body → call.key? = some k →
      cache.get? k = some resp → Moves cfg call cache .waiting true (.replied (.accepted resp)) cache []
  | missed {key body} : call = .postTelemetry key body →
      (∀ k, call.key? = some k → cache.get? k = none) → Moves cfg call cache .waiting true .readingBody cache []
  | logged {entry h} : call = .postExtractionLog entry → h.carries (.extractionLog entry) →
      Moves cfg call cache .waiting true h cache []
  | parsed {raw} : cfg.parsed call = some raw →
      Moves cfg call cache .readingBody true (.validating raw) cache []
  | unparsable : cfg.parsed call = none →
      Moves cfg call cache .readingBody true (.replied .serverError) cache []
  | valid {raw batch h} : TelemetryBatch.modelValidate cfg.lax raw = .ok batch →
      h.carries (.telemetry batch) → Moves cfg call cache (.validating raw) true h cache []
  | invalid {raw errors} : TelemetryBatch.modelValidate cfg.lax raw = .invalid errors →
      Moves cfg call cache (.validating raw) true (.replied (.unprocessable errors)) cache []
  | onward {work h h'} : h.carries work → h'.carries work → Moves cfg call cache h true h' cache []
  | enqueued {work} :
      Moves cfg call cache (.enqueueing work) true (.replied work.reply) (call.remember work cache) [work.job]
  | raised {h} : h ≠ .waiting → (∀ reply, h ≠ .replied reply) →
      Moves cfg call cache h false (.replied .serverError) cache []

def Event.ok : Event → Bool
  | .resume _ ok => ok
  | _ => true

variable {cfg : Config} {s t : Instance}

theorem insideLock_frame (s : Instance) (i : ℕ) (work : Work) :
    ((s.insideLock i work).handler i).carries work ∧ (∀ j ≠ i, (s.insideLock i work).handler j = s.handler j) ∧
      (s.insideLock i work).idempotencyCache = s.idempotencyCache ∧ (s.insideLock i work).queue = s.queue := by
  unfold Instance.insideLock
  split <;> simp +contextual [put, Handler.carries]

theorem getArqPool_frame (s : Instance) (i : ℕ) (work : Work) :
    ((s.getArqPool i work).handler i).carries work ∧ (∀ j ≠ i, (s.getArqPool i work).handler j = s.handler j) ∧
      (s.getArqPool i work).idempotencyCache = s.idempotencyCache ∧ (s.getArqPool i work).queue = s.queue := by
  unfold Instance.getArqPool
  split
  · simp +contextual [put, Handler.carries]
  · split
    · exact insideLock_frame s i work
    · simp +contextual [put, Handler.carries]

theorem start_moves (cfg : Config) (s : Instance) (i : ℕ) (call : Call) (hi : s.handler i = .waiting) :
    Moves cfg call s.idempotencyCache (s.handler i) true ((s.start i call).handler i)
      (s.start i call).idempotencyCache [] ∧
    (s.start i call).queue = s.queue ∧ ∀ j ≠ i, (s.start i call).handler j = s.handler j := by
  rw [hi]
  unfold Instance.start
  split
  · next key body =>
    split
    · next cached hc =>
      obtain ⟨k, hk, hget⟩ := Option.bind_eq_some_iff.mp hc
      refine ⟨?_, rfl, fun j hj => by simp [put, hj]⟩
      simpa [put] using Moves.cached rfl hk hget
    · next hc =>
      refine ⟨?_, rfl, fun j hj => by simp [put, hj]⟩
      simpa [put] using Moves.missed rfl fun k hk => Option.bind_eq_none_iff.mp hc k hk
  · next entry =>
    obtain ⟨hcarries, hframe, hcache, hqueue⟩ := getArqPool_frame s i (.extractionLog entry)
    rw [hcache]
    exact ⟨.logged rfl hcarries, hqueue, hframe⟩

theorem proceed_moves (i : ℕ) (h : cfg.proceed s i = some t) :
    ∃ jobs, Moves cfg (cfg.calls i) s.idempotencyCache (s.handler i) true (t.handler i) t.idempotencyCache jobs ∧
      t.queue = s.queue ++ jobs.map (Prod.mk i) ∧ ∀ j ≠ i, t.handler j = s.handler j := by
  unfold Config.proceed at h
  split at h
  · next hi =>
    rw [hi]
    refine ⟨[], ?_⟩
    split at h <;> cases h <;> refine ⟨?_, by simp [put], fun j hj => by simp [put, hj]⟩
    · next raw hraw => simpa [put] using Moves.parsed hraw
    · next hraw => simpa [put] using Moves.unparsable hraw
  · next raw hi =>
    rw [hi]
    refine ⟨[], ?_⟩
    split at h <;> cases h
    · next batch hb =>
      obtain ⟨hcarries, hframe, hcache, hqueue⟩ := getArqPool_frame s i (.telemetry batch)
      rw [hcache]
      exact ⟨.valid hb hcarries, by simpa using hqueue, hframe⟩
    · next errors hb =>
      refine ⟨?_, by simp [put], fun j hj => by simp [put, hj]⟩
      simpa [put] using Moves.invalid hb
  · next work hi =>
    cases h
    rw [hi]
    refine ⟨[], ?_, by simp [put], fun j hj => by simp [put, hj]⟩
    simpa [put] using Moves.onward (show Handler.carries work _ from .inr (.inl rfl)) (.inr (.inr rfl))
  · next work hi =>
    cases h
    rw [hi]
    refine ⟨[work.job], ?_, rfl, fun j hj => by simp [finish, put, hj]⟩
    simpa [finish, put] using Moves.enqueued
  · cases h

theorem abort_moves (cfg : Config) (call : Call) (i : ℕ) (h : s.abort i = some t) :
    Moves cfg call s.idempotencyCache (s.handler i) false (t.handler i) t.idempotencyCache [] ∧
      t.queue = s.queue ∧ ∀ j ≠ i, t.handler j = s.handler j := by
  unfold Instance.abort at h
  split at h <;> cases h <;> next hi =>
    rw [hi]
    refine ⟨?_, rfl, fun j hj => by simp [put, hj]⟩
    simpa [put] using Moves.raised (by simp) (by simp)

theorem step_moves {e : Event} (h : cfg.step s e = some t) :
    ∃ jobs, Moves cfg (cfg.calls e.request) s.idempotencyCache (s.handler e.request) e.ok
        (t.handler e.request) t.idempotencyCache jobs ∧
      t.queue = s.queue ++ jobs.map (Prod.mk e.request) ∧
      ∀ j ≠ e.request, t.handler j = s.handler j := by
  cases e with
  | start i =>
    simp only [Config.step] at h
    split at h <;> cases h
    next hi =>
    obtain ⟨hmove, hqueue, hframe⟩ := start_moves cfg s i (cfg.calls i) hi
    exact ⟨[], hmove, by simpa using hqueue, hframe⟩
  | resume i ok =>
    simp only [Config.step] at h
    split at h
    · cases ok with
      | true => exact proceed_moves i h
      | false =>
        obtain ⟨hmove, hqueue, hframe⟩ := abort_moves cfg (cfg.calls i) i h
        exact ⟨[], hmove, by simpa using hqueue, hframe⟩
    · cases h
  | acquired i =>
    simp only [Config.step] at h
    split at h
    · next j work hb hl hi =>
      split at h <;> cases h
      obtain ⟨hcarries, hframe, hcache, hqueue⟩ := insideLock_frame { s with blocked := none } i work
      refine ⟨[], ?_, by simpa using hqueue, hframe⟩
      unfold Event.request Event.ok
      simp only [hi]
      rw [hcache]
      exact .onward (.inl rfl) hcarries
    · cases h

theorem start_of_waiting {e : Event} (hw : s.handler e.request = .waiting) (h : cfg.step s e = some t) :
    e = .start e.request := by
  cases e with
  | start i => rfl
  | resume i ok =>
    simp only [Config.step] at h
    split at h
    · cases ok <;> simp_all [Event.request, Config.proceed, Instance.abort]
    · cases h
  | acquired i =>
    simp only [Config.step] at h
    split at h
    · simp_all [Event.request]
    · cases h

/-! ## A batch without events -/

def emptyBody : Bytes := bytes "\x7b\"events\": []\x7d"

/-- Every request posts the batch without events, under the same header or none. -/
def emptyBatches (idempotencyKey : Option PyStr) : Config where
  loads := fun body => if body = emptyBody then some (.dict [(str "events", .list [])]) else none
  lax := .strict
  calls := fun _ => .postTelemetry idempotencyKey emptyBody

def duplicates : Config := emptyBatches (some (str "k"))

def duplicateAfterReply : List Event :=
  [.start 0, .resume 0 true, .resume 0 true, .resume 0 true, .resume 0 true, .start 1]

def duplicateInFlight : List Event :=
  [.start 0, .start 1, .resume 0 true, .resume 1 true, .resume 0 true, .resume 0 true, .resume 1 true,
    .resume 0 true, .resume 1 true]

end FlightPulse.Ingestion
