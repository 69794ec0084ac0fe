import FlightPulse.LoadBalancer.Router

/-!
# The reverse proxy (`load_balancer/server.py`)

`proxy` handles one request. From the body on it never awaits, so nothing but
the thread of the health checker runs between its steps; what that thread does
and what the network answers comes in as one `Turn` for each pass of the loop.
-/

open Lib Lib.Python

namespace FlightPulse.LoadBalancer

/-! ## Requests and answers -/

inductive Method where
  | get
  | post
  | put
  | patch
  | delete
deriving DecidableEq

structure Request where
  method : Method
  fullPath : PyStr
  headers : List (PyStr × PyStr)
  queryParams : List (PyStr × PyStr)
  body : Bytes

structure OutgoingRequest where
  method : Method
  url : PyStr
  headers : Dict PyStr PyStr
  params : Dict PyStr PyStr
  data : Bytes

structure BackendResponse where
  statusCode : ℕ
  headers : Dict PyStr PyStr
  content : Bytes

inductive RequestException where
  | connectionError
  | timeout
  | invalidUrl
  | invalidHeader
  | tooManyRedirects
  | contentDecodingError
  /-- A connection error or a timeout on the way to which a redirect of the backend leads. -/
  | redirectUnreachable
  /-- The body broke off or stalled after the headers of the response. -/
  | bodyInterrupted
deriving DecidableEq

inductive ForwardResult where
  | response (r : BackendResponse)
  | requestException (e : RequestException)
  /-- An exception outside of `requests.RequestException`. -/
  | otherException

structure Response where
  content : Bytes
  statusCode : ℕ
  headers : Dict PyStr PyStr

inductive Reply where
  | noHealthyBackend
  | badGateway
  | relayed (r : Response)
  /-- The handler raised; the framework answers. -/
  | raised

def Reply.response : Reply → Option Response
  | .noHealthyBackend => some ⟨bytes "Service Unavailable: no healthy backends", 503, Dict.empty⟩
  | .badGateway => some ⟨bytes "Bad Gateway", 502, Dict.empty⟩
  | .relayed r => some r
  | .raised => none

/-! ## Headers -/

/-- `str.lower` on the Latin-1 letters that a header name can have. -/
def lowerPoint (c : CodePoint) : CodePoint :=
  if (65 ≤ c.val ∧ c.val ≤ 90) ∨ (192 ≤ c.val ∧ c.val ≤ 222 ∧ c.val ≠ 215) then c + 32 else c

def lower (s : PyStr) : PyStr := s.map lowerPoint

def hopByHopRequestHeaders : List PyStr := [str "host", str "content-length"]
def hopByHopResponseHeaders : List PyStr :=
  [str "content-length", str "transfer-encoding", str "connection"]

/-- `{k: v for k, v in items if k.lower() not in dropped}`. -/
def filterHeaders (dropped : List PyStr) (items : List (PyStr × PyStr)) : Dict PyStr PyStr :=
  Dict.ofPairs (items.filter fun p => lower p.1 ∉ dropped)

def safeRetryMethods : List Method := [.get, .put, .delete]
def idempotencyKeyHeader : PyStr := str "Idempotency-Key"

def isSafeToRetry (method : Method) (headers : Dict PyStr PyStr) : Bool :=
  method ∈ safeRetryMethods || headers.keys.any fun k => lower k = lower idempotencyKeyHeader

def forwardHeaders (req : Request) : Dict PyStr PyStr :=
  filterHeaders hopByHopRequestHeaders req.headers

def retryable (req : Request) : Bool := isSafeToRetry req.method (forwardHeaders req)

/-- The length of `range(attempts_allowed)`. -/
def attemptsAllowed (maxRetries : ℤ) (req : Request) : ℕ :=
  (1 + if retryable req then maxRetries else 0).toNat

def forwardOnce (req : Request) (backendBase : Url) : OutgoingRequest where
  method := req.method
  url := backendBase ++ str "/" ++ req.fullPath
  headers := forwardHeaders req
  params := Dict.ofPairs req.queryParams
  data := req.body

def relay (r : BackendResponse) : Response where
  content := r.content
  statusCode := r.statusCode
  headers := filterHeaders hopByHopResponseHeaders r.headers.entries

/-! ## The balancer -/

/-- The health checker, the router and the metrics of one process, over one list of backends. -/
structure Balancer where
  healthChecker : HealthChecker
  router : RoundRobinRouter
  metrics : Metrics
  urls_eq : router.backendUrls = healthChecker.backendUrls

namespace Balancer

def healthyBackends (lb : Balancer) : List Url := lb.healthChecker.healthyBackends

/-- What the health thread does with the answer of one probe. -/
def checkOne (lb : Balancer) (url : Url) (healthy : Bool) : Balancer :=
  { lb with
    healthChecker := lb.healthChecker.applyCheck url healthy
    metrics := if healthy then lb.metrics else lb.metrics.recordHealthCheckFailure url
    urls_eq := by
      rw [lb.urls_eq, (lb.healthChecker.applyCheck_frame url healthy).backendUrls] }

def checkAll (lb : Balancer) (checks : List (Url × Bool)) : Balancer :=
  checks.foldl (fun lb c => lb.checkOne c.1 c.2) lb

def markUnhealthy (lb : Balancer) (url : Url) : Balancer :=
  { lb with
    healthChecker := lb.healthChecker.markUnhealthy url
    urls_eq := by
      rw [lb.urls_eq, (lb.healthChecker.markUnhealthy_frame url).backendUrls] }

def record (lb : Balancer) (url : Url) (success : Bool) (latencyMs : ℚ) (retried : Bool) : Balancer :=
  { lb with metrics := lb.metrics.recordRequest url success latencyMs retried }

/-- The backend that the router selects next. -/
def selected (lb : Balancer) : Option Url := (lb.router.nextBackend (some lb.healthChecker)).1

theorem nextBackend_backendUrls (r : RoundRobinRouter) (hc : HealthChecker) :
    (r.nextBackend (some hc)).2.backendUrls = r.backendUrls := by
  rw [← r.moved_self, RoundRobinRouter.nextBackend_moved]
  rfl

def select (lb : Balancer) : Balancer :=
  { lb with
    router := (lb.router.nextBackend (some lb.healthChecker)).2
    urls_eq := by rw [nextBackend_backendUrls, lb.urls_eq] }

end Balancer

/-- The route `/lb-status`. -/
def lbStatus (lb : Balancer) : Dict Url BackendState := lb.healthChecker.snapshot

/-! ## One pass of the loop -/

/-- What the health thread and the network do during one pass. -/
structure Turn where
  /-- Probe answers applied before the selection. -/
  beforeSelection : List (Url × Bool)
  /-- Probe answers applied between the selection and the comparison of the two sizes. -/
  beforeSize : List (Url × Bool)
  duringForward : List (Url × Bool)
  answer : OutgoingRequest → ForwardResult
  elapsedMs : ℚ

/-- One selection: what had been tried, which backends were healthy, which one the router chose, and
what the forward to it gave. -/
structure Selection where
  tried : List Url
  healthy : List Url
  chosen : Option Url
  forwarded : Option ForwardResult

structure Loop where
  lb : Balancer
  attemptedBackends : List Url
  selections : List Selection
  reply : Option Reply

namespace Loop

def start (lb : Balancer) : Loop := ⟨lb, [], [], none⟩

def selecting (st : Loop) (t : Turn) : Balancer := st.lb.checkAll t.beforeSelection

def sizing (st : Loop) (t : Turn) : Balancer := (st.selecting t).select.checkAll t.beforeSize

def selection (st : Loop) (t : Turn) (forwarded : Option ForwardResult) : Selection :=
  ⟨st.attemptedBackends, (st.selecting t).healthyBackends, (st.selecting t).selected, forwarded⟩

/-- `backend_base in attempted_backends and len(healthy_backends()) > len(attempted_backends)`. -/
def skips (st : Loop) (t : Turn) (backendBase : Url) : Bool :=
  backendBase ∈ st.attemptedBackends &&
    st.attemptedBackends.length < (st.sizing t).healthyBackends.length

def forward (req : Request) (allowed attempt : ℕ) (st : Loop) (t : Turn) (backendBase : Url) : Loop :=
  let isRetry : Bool := attempt > 0
  let result := t.answer (forwardOnce req backendBase)
  let lb := (st.sizing t).checkAll t.duringForward
  let st' : Loop :=
    ⟨lb, st.attemptedBackends ++ [backendBase], st.selections ++ [st.selection t (some result)], none⟩
  match result with
  | .requestException _ =>
    let failed :=
      { st' with lb := (lb.markUnhealthy backendBase).record backendBase false t.elapsedMs isRetry }
    if retryable req && attempt < allowed - 1 then failed
    else { failed with reply := some .badGateway }
  | .otherException => { st' with reply := some .raised }
  | .response r =>
    { st' with
      lb := lb.record backendBase (r.statusCode < 500) t.elapsedMs isRetry
      reply := some (.relayed (relay r)) }

def pass (req : Request) (allowed attempt : ℕ) (st : Loop) (t : Turn) : Loop :=
  match (st.selecting t).selected with
  | none =>
    { st with
      lb := (st.selecting t).select.record (str "none") false 0 false
      selections := st.selections ++ [st.selection t none]
      reply := some .noHealthyBackend }
  | some backendBase =>
    if st.skips t backendBase then
      { st with lb := st.sizing t, selections := st.selections ++ [st.selection t none] }
    else st.forward req allowed attempt t backendBase

end Loop

/-- `for attempt in range(attempts_allowed)`: the loop before pass `k`; a reply ends it. -/
def passes (req : Request) (allowed : ℕ) (turns : ℕ → Turn) (lb : Balancer) : ℕ → Loop
  | 0 => .start lb
  | k + 1 =>
    let st := passes req allowed turns lb k
    if st.reply.isSome then st else st.pass req allowed k (turns k)

def proxy (maxRetries : ℤ) (req : Request) (turns : ℕ → Turn) (lb : Balancer) : Loop :=
  let allowed := attemptsAllowed maxRetries req
  let st := passes req allowed turns lb allowed
  { st with reply := some (st.reply.getD .badGateway) }

end FlightPulse.LoadBalancer
