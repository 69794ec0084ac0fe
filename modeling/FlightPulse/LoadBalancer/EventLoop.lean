import FlightPulse.Lib.Run
import FlightPulse.LoadBalancer.Retry

/-!
# Many requests on one event loop

`proxy` is a coroutine that forwards with a blocking call: the loop thread is its own
from the body of the request to the reply. The steps of the handlers are those of
`Loop.pass`, one at a time, with the health thread between them.
-/

open Lib Lib.Run Lib.Python

namespace FlightPulse.LoadBalancer.EventLoop

/-! ## Handlers -/

inductive Phase where
  | absent
  /-- The connection is there and no handler runs for it yet. -/
  | arrived (req : Request)
  /-- `await request.body()`. -/
  | reading (req : Request)
  /-- Before the selection of this attempt. -/
  | looping (req : Request) (attempt : ℕ) (tried : List Url)
  | chosen (req : Request) (attempt : ℕ) (tried : List Url) (backendBase : Url)
  /-- In `requests.request`. -/
  | forwarding (req : Request) (attempt : ℕ) (tried : List Url) (backendBase : Url)
  | done (reply : Reply)

namespace Phase

def unfinished : Phase → Bool
  | absent => false
  | done _ => false
  | _ => true

/-- The phases that hold the loop thread. -/
def holds : Phase → Bool
  | looping .. => true
  | chosen .. => true
  | forwarding .. => true
  | _ => false

def isForwarding : Phase → Bool
  | forwarding .. => true
  | _ => false

def isArrived : Phase → Bool
  | arrived _ => true
  | _ => false

end Phase

structure Process (ι : Type*) where
  lb : Balancer
  phase : ι → Phase
  /-- Whose code the loop thread runs. -/
  thread : Option ι

inductive Event (ι : Type*) where
  | arrive (i : ι) (req : Request)
  | start (i : ι)
  | body (i : ι)
  | select (i : ι)
  | compare (i : ι)
  | answer (i : ι) (result : ForwardResult) (elapsedMs : ℚ)
  | check (url : Url) (healthy : Bool)

variable {ι : Type*} [DecidableEq ι]

namespace Process

def init (lb : Balancer) : Process ι := ⟨lb, fun _ => .absent, none⟩

def put (s : Process ι) (i : ι) (p : Phase) : Process ι :=
  { s with
    phase := fun j => if j = i then p else s.phase j
    thread := if p.holds then some i else none }

/-- `for attempt in range(attempts_allowed)`, before this attempt. -/
def iterate (maxRetries : ℤ) (s : Process ι) (i : ι) (req : Request) (attempt : ℕ) (tried : List Url) : Process ι :=
  if attempt < attemptsAllowed maxRetries req then s.put i (.looping req attempt tried)
  else s.put i (.done .badGateway)

/-- Whether the attempt is skipped after its selection. -/
def skips (s : Process ι) (tried : List Url) (backendBase : Url) : Bool :=
  backendBase ∈ tried && tried.length < s.lb.healthyBackends.length

def step (maxRetries : ℤ) (s : Process ι) : Event ι → Option (Process ι)
  | .arrive i req =>
    match s.phase i with
    | .absent => some { s with phase := fun j => if j = i then .arrived req else s.phase j }
    | _ => none
  | .start i =>
    match s.thread, s.phase i with
    | none, .arrived req => some (s.put i (.reading req))
    | _, _ => none
  | .body i =>
    match s.thread, s.phase i with
    | none, .reading req => some (s.iterate maxRetries i req 0 [])
    | _, _ => none
  | .select i =>
    match s.phase i with
    | .looping req attempt tried =>
      match s.lb.selected with
      | none => some { s.put i (.done .noHealthyBackend) with lb := s.lb.select.record (str "none") false 0 false }
      | some b => some { s.put i (.chosen req attempt tried b) with lb := s.lb.select }
    | _ => none
  | .compare i =>
    match s.phase i with
    | .chosen req attempt tried b =>
      if s.skips tried b then some (s.iterate maxRetries i req (attempt + 1) tried)
      else some (s.put i (.forwarding req attempt (tried ++ [b]) b))
    | _ => none
  | .answer i result elapsedMs =>
    match s.phase i with
    | .forwarding req attempt tried b =>
      match result with
      | .requestException _ =>
        let failed := { s with lb := (s.lb.markUnhealthy b).record b false elapsedMs (attempt > 0) }
        if retryable req && attempt < attemptsAllowed maxRetries req - 1 then
          some (failed.iterate maxRetries i req (attempt + 1) tried)
        else some (failed.put i (.done .badGateway))
      | .otherException => some (s.put i (.done .raised))
      | .response r =>
        some { s.put i (.done (.relayed (relay r))) with
          lb := s.lb.record b (r.statusCode < 500) elapsedMs (attempt > 0) }
    | _ => none
  | .check url healthy => some { s with lb := s.lb.checkOne url healthy }

end Process

/-! ## The property and the condition -/

open Process

/-- A request that has arrived can be started when the others that are not answered only wait for a backend. -/
def NotStalled (maxRetries : ℤ) (s : Process ι) : Prop :=
  ∀ i, (s.phase i).isArrived → (∀ j, j ≠ i → (s.phase j).unfinished → (s.phase j).isForwarding) →
    (s.step maxRetries (.start i)).isSome

/-- The comparison lets the attempt pass. -/
def BeginsForward (s : Process ι) (j : ι) : Prop :=
  ∃ req attempt tried b, s.phase j = .chosen req attempt tried b ∧ s.skips tried b = false

/-- No request arrives while the only one that is not answered waits for its backend, and none begins to wait
while the only other one has not been started. -/
def Unhindered (s : Process ι) : Event ι → Prop
  | .arrive i _ => ∀ j, (s.phase j).isForwarding → ∃ k, k ≠ i ∧ k ≠ j ∧ (s.phase k).unfinished
  | .compare j => BeginsForward s j → ∀ i, (s.phase i).isArrived → ∃ k, k ≠ i ∧ k ≠ j ∧ (s.phase k).unfinished
  | _ => True

/-! ## What a step changes -/

variable {maxRetries : ℤ} {s t : Process ι}

@[simp] theorem put_phase_self (s : Process ι) (i : ι) (p : Phase) : (s.put i p).phase i = p := if_pos rfl

theorem put_phase_of_ne (s : Process ι) {i j : ι} (p : Phase) (h : j ≠ i) : (s.put i p).phase j = s.phase j :=
  if_neg h

/-- A handler goes on. Only a comparison takes it into a forward. -/
structure Moves (s : Process ι) (e : Event ι) (i : ι) (p : Phase) : Prop where
  free : s.thread = none ∨ (s.phase i).holds
  notArrived : p.isArrived = false
  forward : p.isForwarding = true ∧ e = .compare i ∧ BeginsForward s i ∨
    p.isForwarding = false ∧ Unhindered s e

theorem iterate_eq (maxRetries : ℤ) (s : Process ι) (i : ι) (req : Request) (attempt : ℕ) (tried : List Url) :
    ∃ p, s.iterate maxRetries i req attempt tried = s.put i p ∧ p.isArrived = false ∧ p.isForwarding = false := by
  unfold iterate
  split
  · exact ⟨_, rfl, rfl, rfl⟩
  · exact ⟨_, rfl, rfl, rfl⟩

theorem moves_answer {i : ι} {req : Request} {attempt : ℕ} {tried : List Url} {b : Url}
    (hi : s.phase i = .forwarding req attempt tried b) {result : ForwardResult} {ms : ℚ}
    (h : s.step maxRetries (.answer i result ms) = some t) :
    ∃ p lb, t = { s.put i p with lb := lb } ∧ Moves s (.answer i result ms) i p := by
  have hfree : s.thread = none ∨ (s.phase i).holds := .inr (by rw [hi]; rfl)
  simp only [step, hi] at h
  split at h
  · split at h <;> cases h
    · obtain ⟨p, hp, harrived, hforward⟩ := iterate_eq maxRetries
        { s with lb := (s.lb.markUnhealthy b).record b false ms (attempt > 0) } i req (attempt + 1) tried
      exact ⟨p, _, hp, hfree, harrived, .inr ⟨hforward, trivial⟩⟩
    · exact ⟨_, _, rfl, hfree, rfl, .inr ⟨rfl, trivial⟩⟩
  · cases h
    exact ⟨_, s.lb, rfl, hfree, rfl, .inr ⟨rfl, trivial⟩⟩
  · cases h
    exact ⟨_, _, rfl, hfree, rfl, .inr ⟨rfl, trivial⟩⟩

theorem step_cases {e : Event ι} (h : s.step maxRetries e = some t) :
    (∃ i req, e = .arrive i req ∧ s.phase i = .absent ∧
      t = { s with phase := fun j => if j = i then .arrived req else s.phase j }) ∨
    (∃ url healthy, e = .check url healthy ∧ t = { s with lb := s.lb.checkOne url healthy }) ∨
    ∃ i p lb, t = { s.put i p with lb := lb } ∧ Moves s e i p := by
  cases e with
  | arrive i req =>
    simp only [step] at h
    split at h <;> cases h
    next hi => exact .inl ⟨i, req, rfl, hi, rfl⟩
  | check url healthy =>
    cases h
    exact .inr (.inl ⟨url, healthy, rfl, rfl⟩)
  | start i =>
    simp only [step] at h
    split at h <;> cases h
    next hthread hi => exact .inr (.inr ⟨i, _, s.lb, rfl, .inl hthread, rfl, .inr ⟨rfl, trivial⟩⟩)
  | body i =>
    simp only [step] at h
    split at h <;> cases h
    next req hthread hi =>
      obtain ⟨p, hp, harrived, hforward⟩ := iterate_eq maxRetries s i req 0 []
      exact .inr (.inr ⟨i, p, s.lb, hp, .inl hthread, harrived, .inr ⟨hforward, trivial⟩⟩)
  | select i =>
    simp only [step] at h
    split at h
    · next req attempt tried hi =>
      have hfree : s.thread = none ∨ (s.phase i).holds := .inr (by rw [hi]; rfl)
      split at h <;> cases h
      · exact .inr (.inr ⟨i, _, _, rfl, hfree, rfl, .inr ⟨rfl, trivial⟩⟩)
      · exact .inr (.inr ⟨i, _, _, rfl, hfree, rfl, .inr ⟨rfl, trivial⟩⟩)
    · cases h
  | compare i =>
    simp only [step] at h
    split at h
    · next req attempt tried b hi =>
      have hfree : s.thread = none ∨ (s.phase i).holds := .inr (by rw [hi]; rfl)
      split at h <;> cases h
      · next hskip =>
        have hnot : ¬ BeginsForward s i := by
          rintro ⟨req', attempt', tried', b', hi', hskip'⟩
          rw [hi, Phase.chosen.injEq] at hi'
          obtain ⟨-, -, rfl, rfl⟩ := hi'
          rw [hskip] at hskip'
          cases hskip'
        obtain ⟨p, hp, harrived, hforward⟩ := iterate_eq maxRetries s i req (attempt + 1) tried
        exact .inr (.inr ⟨i, p, s.lb, hp, hfree, harrived, .inr ⟨hforward, fun hb => absurd hb hnot⟩⟩)
      · next hskip =>
        have hbegins : BeginsForward s i := ⟨req, attempt, tried, b, hi, by simpa using hskip⟩
        exact .inr (.inr ⟨i, _, s.lb, rfl, hfree, rfl, .inl ⟨rfl, rfl, hbegins⟩⟩)
    · cases h
  | answer i result ms =>
    have hi : ∃ req attempt tried b, s.phase i = .forwarding req attempt tried b := by
      simp only [step] at h
      split at h
      · next hi => exact ⟨_, _, _, _, hi⟩
      · cases h
    obtain ⟨req, attempt, tried, b, hi⟩ := hi
    exact .inr (.inr ⟨i, moves_answer hi h⟩)

/-! ## A handler runs the loop of `proxy` -/

theorem put_put (s : Process ι) (i : ι) (p q : Phase) (lb : Balancer) :
    ({ s.put i p with lb := lb } : Process ι).put i q = { s.put i q with lb := lb } := by
  have hphase : (fun j => if j = i then q else if j = i then p else s.phase j) =
      fun j => if j = i then q else s.phase j := by
    funext j
    split <;> rfl
  unfold put
  simp only [hphase]

theorem exec_checks (s : Process ι) (checks : List (Url × Bool)) :
    exec (step maxRetries) s (checks.map fun c => .check c.1 c.2) = some { s with lb := s.lb.checkAll checks } := by
  induction checks generalizing s with
  | nil => rfl
  | cons c checks ih => exact ih { s with lb := s.lb.checkOne c.1 c.2 }

/-- Where the handler is before attempt `k`, when `passes` has come to `st`. -/
def phaseOf (allowed : ℕ) (req : Request) (k : ℕ) (st : Loop) : Phase :=
  match st.reply with
  | some reply => .done reply
  | none => if k < allowed then .looping req k st.attemptedBackends else .done .badGateway

/-- The events of one pass, as far as it comes. -/
def passEvents (req : Request) (st : Loop) (turn : Turn) (i : ι) : List (Event ι) :=
  turn.beforeSelection.map (fun c => .check c.1 c.2) ++ .select i ::
    match (st.selecting turn).selected with
    | none => []
    | some b =>
      turn.beforeSize.map (fun c => .check c.1 c.2) ++ .compare i ::
        if st.skips turn b then []
        else
          turn.duringForward.map (fun c => .check c.1 c.2) ++
            [.answer i (turn.answer (forwardOnce req b)) turn.elapsedMs]

/-- The handler `i` in this phase, beside the others of `s`. -/
def handler (s : Process ι) (i : ι) (p : Phase) (lb : Balancer) : Process ι := { s.put i p with lb := lb }

@[simp] theorem handler_phase (s : Process ι) (i : ι) (p : Phase) (lb : Balancer) : (handler s i p lb).phase i = p :=
  put_phase_self s i p

theorem handler_put (s : Process ι) (i : ι) (p q : Phase) (lb lb' : Balancer) :
    ({ (handler s i p lb).put i q with lb := lb' } : Process ι) = handler s i q lb' := by
  unfold handler
  rw [put_put]

theorem handler_iterate (s : Process ι) (i : ι) (p : Phase) (lb : Balancer) (req : Request) (k : ℕ) (tried : List Url) :
    (handler s i p lb).iterate maxRetries i req k tried =
      handler s i (if k < attemptsAllowed maxRetries req then .looping req k tried else .done .badGateway) lb := by
  unfold iterate
  split
  · exact handler_put s i p _ lb lb
  · exact handler_put s i p _ lb lb

theorem exec_checks_handler (s : Process ι) (i : ι) (p : Phase) (lb : Balancer) (checks : List (Url × Bool)) :
    exec (step maxRetries) (handler s i p lb) (checks.map fun c => .check c.1 c.2) =
      some (handler s i p (lb.checkAll checks)) := exec_checks _ checks

theorem forward_simulated (s : Process ι) {i : ι} {req : Request} {k : ℕ} {st : Loop} {turn : Turn} {b : Url} :
    (handler s i (.forwarding req k (st.attemptedBackends ++ [b]) b)
        ((st.sizing turn).checkAll turn.duringForward)).step maxRetries
        (.answer i (turn.answer (forwardOnce req b)) turn.elapsedMs) =
      some (handler s i (phaseOf (attemptsAllowed maxRetries req) req (k + 1)
          (st.forward req (attemptsAllowed maxRetries req) k turn b))
        (st.forward req (attemptsAllowed maxRetries req) k turn b).lb) := by
  unfold Loop.forward step
  simp only [handler_phase]
  cases turn.answer (forwardOnce req b) with
  | requestException e =>
    by_cases hretry : (retryable req && decide (k < attemptsAllowed maxRetries req - 1)) = true
    · simp only [if_pos hretry, Option.some.injEq]
      exact handler_iterate s i _ _ req (k + 1) _
    · simp only [if_neg hretry, Option.some.injEq]
      exact handler_put s i _ _ _ _
  | otherException =>
    simp only [Option.some.injEq]
    exact handler_put s i _ _ _ _
  | response r =>
    simp only [Option.some.injEq]
    exact handler_put s i _ _ _ _

theorem select_simulated (s : Process ι) (i : ι) (req : Request) (k : ℕ) (tried : List Url) (lb : Balancer) :
    (handler s i (.looping req k tried) lb).step maxRetries (.select i) =
      match lb.selected with
      | none => some (handler s i (.done .noHealthyBackend) (lb.select.record (str "none") false 0 false))
      | some b => some (handler s i (.chosen req k tried b) lb.select) := by
  unfold step
  simp only [handler_phase, handler_put]
  rfl

theorem compare_simulated (s : Process ι) {i : ι} {req : Request} {k : ℕ} {st : Loop} {turn : Turn} {b : Url} :
    (handler s i (.chosen req k st.attemptedBackends b) (st.sizing turn)).step maxRetries (.compare i) =
      if st.skips turn b then
        some (handler s i (if k + 1 < attemptsAllowed maxRetries req then .looping req (k + 1) st.attemptedBackends
          else .done .badGateway) (st.sizing turn))
      else some (handler s i (.forwarding req k (st.attemptedBackends ++ [b]) b) (st.sizing turn)) := by
  have hskips : (handler s i (.chosen req k st.attemptedBackends b) (st.sizing turn)).skips st.attemptedBackends b =
      st.skips turn b := rfl
  unfold step
  simp only [handler_phase, hskips, handler_iterate]
  split
  · rfl
  · exact congrArg some (handler_put s i _ _ _ _)

/-- One pass of the loop, with the health thread between its steps, is a run of the process. -/
theorem pass_simulated (s : Process ι) {i : ι} {req : Request} {k : ℕ} {st : Loop} {turn : Turn}
    (hrun : st.reply = none) :
    exec (step maxRetries) (handler s i (.looping req k st.attemptedBackends) st.lb) (passEvents req st turn i) =
      some (handler s i (phaseOf (attemptsAllowed maxRetries req) req (k + 1)
          (st.pass req (attemptsAllowed maxRetries req) k turn))
        (st.pass req (attemptsAllowed maxRetries req) k turn).lb) := by
  unfold passEvents Loop.pass
  rw [exec_append, exec_checks_handler, Option.bind_some, exec_cons, select_simulated]
  change (match (st.selecting turn).selected with
    | none => _
    | some b => _ : Option (Process ι)).bind _ = _
  cases hsel : (st.selecting turn).selected with
  | none => rfl
  | some b =>
    simp only [Option.bind_some]
    rw [exec_append, exec_checks_handler, Option.bind_some, exec_cons]
    change (step maxRetries (handler s i _ (st.sizing turn)) (.compare i)).bind _ = _
    rw [compare_simulated]
    by_cases hskip : st.skips turn b = true
    · simp only [if_pos hskip, Option.bind_some, exec_nil, phaseOf, hrun]
    · simp only [if_neg hskip, Option.bind_some]
      rw [exec_append, exec_checks_handler, Option.bind_some, exec_cons, forward_simulated]
      rfl

variable (maxRetries) in
theorem passes_simulated (s : Process ι) (i : ι) (req : Request) (turns : ℕ → Turn) (lb : Balancer) {n : ℕ}
    (hn : n ≤ attemptsAllowed maxRetries req) :
    ∃ es, exec (step maxRetries) (handler s i (.reading req) lb) es =
      some (handler s i (phaseOf (attemptsAllowed maxRetries req) req n
          (passes req (attemptsAllowed maxRetries req) turns lb n))
        (passes req (attemptsAllowed maxRetries req) turns lb n).lb) := by
  induction n with
  | zero =>
    refine ⟨[.body i], ?_⟩
    have hthread : (handler s i (.reading req) lb).thread = none := rfl
    rw [exec_cons]
    simp only [step, handler_phase, hthread, Option.bind_some, exec_nil, handler_iterate]
    rfl
  | succ n ih =>
    obtain ⟨es, hes⟩ := ih (by omega)
    by_cases hrun : Running req (attemptsAllowed maxRetries req) turns lb n
    · refine ⟨es ++ passEvents req (passes req (attemptsAllowed maxRetries req) turns lb n) (turns n) i, ?_⟩
      rw [exec_append, hes, Option.bind_some, passes_succ hrun]
      unfold Running at hrun
      rw [phaseOf, hrun]
      simp only
      rw [if_pos (by omega)]
      exact pass_simulated s hrun
    · refine ⟨es, ?_⟩
      rw [hes, passes_succ_of_reply hrun]
      obtain ⟨reply, hreply⟩ := Option.ne_none_iff_exists'.mp hrun
      simp only [phaseOf, hreply]

variable (maxRetries) in
theorem proxy_simulated (s : Process ι) (i : ι) (req : Request) (turns : ℕ → Turn) (lb : Balancer) :
    ∃ es reply, (proxy maxRetries req turns lb).reply = some reply ∧
      exec (step maxRetries) (handler s i (.reading req) lb) es =
        some (handler s i (.done reply) (proxy maxRetries req turns lb).lb) := by
  obtain ⟨es, hes⟩ := passes_simulated maxRetries s i req turns lb (le_refl _)
  refine ⟨es, _, rfl, ?_⟩
  rw [hes, phaseOf]
  cases (passes req (attemptsAllowed maxRetries req) turns lb (attemptsAllowed maxRetries req)).reply with
  | none =>
    simp only [Nat.lt_irrefl, if_false]
    rfl
  | some reply => rfl

/-! ## The loop thread -/

/-- Exactly the handler that runs on the loop thread is in a phase that holds it. -/
def ThreadInv (s : Process ι) : Prop := ∀ i, (s.phase i).holds ↔ s.thread = some i

theorem holds_of_isForwarding {p : Phase} (h : p.isForwarding) : p.holds := by
  cases p <;> first | rfl | cases h

theorem unfinished_of_holds {p : Phase} (h : p.holds) : p.unfinished := by
  cases p <;> first | rfl | cases h

theorem not_holds_of_isArrived {p : Phase} (h : p.isArrived) : p.holds = false := by
  cases p <;> first | rfl | cases h

theorem threadInv_step {e : Event ι} (hs : ThreadInv s) (h : s.step maxRetries e = some t) : ThreadInv t := by
  rcases step_cases h with ⟨i, req, -, hi, rfl⟩ | ⟨url, healthy, -, rfl⟩ | ⟨i, p, lb, rfl, hmoves⟩
  · intro j
    rcases eq_or_ne j i with rfl | hj
    · have hnot := (hs j).not.mp (by simp [hi, Phase.holds])
      simpa [Phase.holds] using hnot
    · simpa [hj] using hs j
  · exact hs
  · intro j
    change ((s.put i p).phase j).holds ↔ (if p.holds then some i else none) = some j
    rcases eq_or_ne j i with rfl | hj
    · rw [put_phase_self]
      split <;> simp_all
    · have hne : s.thread ≠ some j := by
        intro hthread
        rcases hmoves.free with hfree | hfree
        · simp [hthread] at hfree
        · exact hj (Option.some.inj (hthread.symm.trans ((hs i).mp hfree)))
      rw [put_phase_of_ne s p hj, hs j]
      refine iff_of_false hne ?_
      split
      · simpa using hj.symm
      · simp

omit [DecidableEq ι] in
theorem threadInv_init (lb : Balancer) : ThreadInv (init lb : Process ι) := by
  intro i
  simp [init, Phase.holds]

theorem threadInv_run {lb : Balancer} {es : List (Event ι)} (h : exec (step maxRetries) (init lb) es = some t) :
    ThreadInv t :=
  exec_invariant (fun _ _ _ hs h => threadInv_step hs h) (threadInv_init lb) h

omit [DecidableEq ι] in
theorem one_forward (ht : ThreadInv t) {i j : ι} (hi : (t.phase i).isForwarding) (hj : (t.phase j).isForwarding) :
    i = j := by
  have hi := (ht i).mp (holds_of_isForwarding hi)
  have hj := (ht j).mp (holds_of_isForwarding hj)
  exact Option.some.inj (hi.symm.trans hj)

/-! ## States without a stalled request -/

/-- Beside a request that waits for its backend and one that has arrived there is a third one. -/
def Clear (s : Process ι) : Prop :=
  ∀ i j, (s.phase i).isArrived → (s.phase j).isForwarding → ∃ k, k ≠ i ∧ k ≠ j ∧ (s.phase k).unfinished

variable (maxRetries) in
theorem notStalled_iff (hs : ThreadInv s) : NotStalled maxRetries s ↔ Clear s := by
  constructor
  · intro h i j hi hj
    by_contra hnone
    have hthread := (hs j).mp (holds_of_isForwarding hj)
    have henabled := h i hi fun l hl hunfinished => by
      obtain rfl : l = j := by
        by_contra hne
        exact hnone ⟨l, hl, hne, hunfinished⟩
      exact hj
    simp [step, hthread] at henabled
  · intro h i hi hothers
    cases hthread : s.thread with
    | none =>
      obtain ⟨req, hreq⟩ : ∃ req, s.phase i = .arrived req := by
        cases hp : s.phase i <;> simp [hp, Phase.isArrived] at hi ⊢
      simp [step, hthread, hreq]
    | some j =>
      have hholds := (hs j).mpr hthread
      have hji : j ≠ i := by
        rintro rfl
        rw [not_holds_of_isArrived hi] at hholds
        cases hholds
      obtain ⟨k, hki, hkj, hk⟩ := h i j hi (hothers j hji (unfinished_of_holds hholds))
      have hthread' := (hs k).mp (holds_of_isForwarding (hothers k hki hk))
      exact absurd (Option.some.inj (hthread'.symm.trans hthread)) hkj

theorem no_forward_put (hs : ThreadInv s) {i : ι} (hfree : s.thread = none ∨ (s.phase i).holds) {p : Phase}
    (hp : p.isForwarding = false) (j : ι) : ((s.put i p).phase j).isForwarding = false := by
  rcases eq_or_ne j i with rfl | hj
  · rw [put_phase_self, hp]
  · rw [put_phase_of_ne s p hj, Bool.eq_false_iff]
    intro hforward
    have hthread := (hs j).mp (holds_of_isForwarding hforward)
    rcases hfree with hfree | hfree
    · simp [hthread] at hfree
    · exact hj (Option.some.inj (hthread.symm.trans ((hs i).mp hfree)))

theorem clear_arrive (hclear : Clear s) {i : ι} {req : Request} (hi : s.phase i = .absent)
    (ht : t = { s with phase := fun j => if j = i then .arrived req else s.phase j }) :
    Clear t ↔ Unhindered s (.arrive i req) := by
  have hself : t.phase i = .arrived req := by rw [ht]; exact if_pos rfl
  have hother : ∀ j, j ≠ i → t.phase j = s.phase j := by
    intro j hj
    rw [ht]
    exact if_neg hj
  constructor
  · intro h j hj
    have hji : j ≠ i := by
      rintro rfl
      simp [hi, Phase.isForwarding] at hj
    obtain ⟨k, hki, hkj, hk⟩ := h i j (by rw [hself]; rfl) (by rw [hother j hji]; exact hj)
    exact ⟨k, hki, hkj, hother k hki ▸ hk⟩
  · intro h l j hl hj
    have hji : j ≠ i := by
      rintro rfl
      rw [hself] at hj
      cases hj
    rw [hother j hji] at hj
    rcases eq_or_ne l i with rfl | hli
    · obtain ⟨k, hkl, hkj, hk⟩ := h j hj
      exact ⟨k, hkl, hkj, by rw [hother k hkl]; exact hk⟩
    · rw [hother l hli] at hl
      obtain ⟨k, hkl, hkj, hk⟩ := hclear l j hl hj
      have hki : k ≠ i := by
        rintro rfl
        simp [hi, Phase.unfinished] at hk
      exact ⟨k, hkl, hkj, by rw [hother k hki]; exact hk⟩

theorem clear_forward (hs : ThreadInv s) {i : ι} {p : Phase} (hfree : (s.phase i).holds)
    (hp : p.isForwarding) (harrived : p.isArrived = false) (hbegins : BeginsForward s i) :
    Clear (s.put i p) ↔ Unhindered s (.compare i) := by
  have hself : ((s.put i p).phase i).isForwarding := by rw [put_phase_self]; exact hp
  have harrivedOf : ∀ l, ((s.put i p).phase l).isArrived ↔ (s.phase l).isArrived := by
    intro l
    rcases eq_or_ne l i with rfl | hl
    · rw [put_phase_self, harrived]
      refine iff_of_false (by simp) fun h => ?_
      rw [not_holds_of_isArrived h] at hfree
      cases hfree
    · rw [put_phase_of_ne s p hl]
  have honly : ∀ j, ((s.put i p).phase j).isForwarding → j = i := by
    intro j hj
    by_contra hne
    rw [put_phase_of_ne s p hne] at hj
    have hthread := (hs j).mp (holds_of_isForwarding hj)
    exact hne (Option.some.inj (hthread.symm.trans ((hs i).mp hfree)))
  constructor
  · intro h _ l hl
    obtain ⟨k, hkl, hki, hk⟩ := h l i ((harrivedOf l).mpr hl) hself
    exact ⟨k, hkl, hki, put_phase_of_ne s p hki ▸ hk⟩
  · intro h l j hl hj
    obtain rfl := honly j hj
    obtain ⟨k, hkl, hkj, hk⟩ := h hbegins l ((harrivedOf l).mp hl)
    exact ⟨k, hkl, hkj, by rw [put_phase_of_ne s p hkj]; exact hk⟩

theorem clear_step (hs : ThreadInv s) (hclear : Clear s) {e : Event ι} (h : s.step maxRetries e = some t) :
    Clear t ↔ Unhindered s e := by
  rcases step_cases h with ⟨i, req, rfl, hi, ht⟩ | ⟨url, healthy, rfl, rfl⟩ | ⟨i, p, lb, rfl, hmoves⟩
  · exact clear_arrive hclear hi ht
  · exact iff_of_true hclear trivial
  · rcases hmoves.forward with ⟨hp, rfl, hbegins⟩ | ⟨hp, hunhindered⟩
    · have hholds : (s.phase i).holds := by
        obtain ⟨_, _, _, _, hi, -⟩ := hbegins
        rw [hi]
        rfl
      exact clear_forward hs hholds hp hmoves.notArrived hbegins
    · refine iff_of_true (fun l j _ hj => ?_) hunhindered
      rw [no_forward_put hs hmoves.free hp j] at hj
      cases hj

/-! ## Whole runs -/

/-- No state on the way of a run stalls a request exactly when every step of it is unhindered. Two requests
are never with their backends at once. -/
theorem never_stalled_iff (maxRetries : ℤ) (lb : Balancer) (es : List (Event ι)) (t : Process ι)
    (h : exec (step maxRetries) (init lb) es = some t) :
    ((∀ pre u, pre <+: es → exec (step maxRetries) (init lb) pre = some u → NotStalled maxRetries u) ↔
        Meets (step maxRetries) Unhindered (init lb) es) ∧
      ∀ i j, (t.phase i).isForwarding → (t.phase j).isForwarding → i = j := by
  refine ⟨⟨fun hall => ?_, fun hmeets pre u hpre hu => ?_⟩, fun i j => one_forward (threadInv_run h)⟩
  · refine meets_of_split h fun pre e suf u hes hu => ?_
    have hclear := (notStalled_iff maxRetries (threadInv_run hu)).mp (hall pre u ⟨e :: suf, hes.symm⟩ hu)
    obtain ⟨u', v, hu', hv, -⟩ := exec_split (hes ▸ h)
    obtain rfl : u = u' := Option.some.inj (hu.symm.trans hu')
    rw [← clear_step (threadInv_run hu) hclear hv, ← notStalled_iff maxRetries
      (threadInv_step (threadInv_run hu) hv)]
    exact hall (pre ++ [e]) v ⟨suf, by rw [hes]; simp⟩ (exec_snoc.mpr ⟨u, hu, hv⟩)
  · obtain ⟨suf, rfl⟩ := hpre
    have hinv : ThreadInv u ∧ Clear u := by
      refine meets_invariant (I := fun u => ThreadInv u ∧ Clear u) ?_ ?_ hu (meets_of_append hmeets)
      · exact fun s e t hs hc hst => ⟨threadInv_step hs.1 hst, (clear_step hs.1 hs.2 hst).mpr hc⟩
      · exact ⟨threadInv_init lb, fun i j hi => by simp [init, Phase.isArrived] at hi⟩
    exact (notStalled_iff maxRetries hinv.1).mpr hinv.2

def oneAfterAnother : List (Event (Fin 2)) :=
  [.arrive 0 getRequest, .start 0, .body 0, .select 0, .compare 0, .answer 0 .otherException 0, .arrive 1 getRequest,
    .start 1]

theorem never_stalled_sequential : ∃ t, exec (step 2) (init threeBackends) oneAfterAnother = some t ∧
    ∀ pre u, pre <+: oneAfterAnother → exec (step 2) (init threeBackends) pre = some u → NotStalled 2 u := by
  refine ⟨_, rfl, (never_stalled_iff 2 threeBackends oneAfterAnother _ rfl).1.mpr ?_⟩
  refine (meets_cons rfl).mpr ⟨fun j hj => (by cases hj), (meets_cons rfl).mpr ⟨trivial, ?_⟩⟩
  refine (meets_cons rfl).mpr ⟨trivial, (meets_cons rfl).mpr ⟨trivial, ?_⟩⟩
  refine (meets_cons rfl).mpr ⟨fun _ => by decide, (meets_cons rfl).mpr ⟨trivial, ?_⟩⟩
  exact (meets_cons rfl).mpr ⟨(by unfold Unhindered; decide), (meets_cons rfl).mpr ⟨trivial, trivial⟩⟩

/-- The first request waits for its backend, and the handler of the second one cannot be started. -/
theorem second_request_stalled : ∃ t : Process (Fin 2),
    exec (step 2) (init threeBackends)
        [.arrive 0 getRequest, .start 0, .body 0, .select 0, .compare 0, .arrive 1 getRequest] = some t ∧
      ¬ NotStalled 2 t := by
  refine ⟨_, rfl, fun h => ?_⟩
  have henabled := h 1 rfl (by decide)
  revert henabled
  decide

end FlightPulse.LoadBalancer.EventLoop
