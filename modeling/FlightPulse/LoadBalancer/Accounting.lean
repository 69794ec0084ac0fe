import FlightPulse.LoadBalancer.Retry

/-!
# What the counters say about the requests

`record_request` is called once for each forward that is answered or fails, and once
when no backend is healthy. A request has one call without `retried`, except for the
one that raises in its first forward and the one that finds no healthy backend later.
-/

open Lib Lib.Python

namespace FlightPulse.LoadBalancer

/-! ## Requests one after another -/

structure Call where
  req : Request
  turns : ℕ → Turn

/-- A call, the balancer that it found, and what the handler left. -/
structure Served where
  call : Call
  found : Balancer
  left : Loop

/-- From its body on a handler never awaits, so the calls are handled one after another. -/
def serve (maxRetries : ℤ) : List Call → Balancer → List Served × Balancer
  | [], lb => ([], lb)
  | c :: cs, lb =>
    let st := proxy maxRetries c.req c.turns lb
    let rest := serve maxRetries cs st.lb
    (⟨c, lb, st⟩ :: rest.1, rest.2)

theorem served_left {maxRetries : ℤ} {calls : List Call} {lb : Balancer} {s : Served}
    (h : s ∈ (serve maxRetries calls lb).1) : s.left = proxy maxRetries s.call.req s.call.turns s.found := by
  induction calls generalizing lb with
  | nil => cases h
  | cons c calls ih =>
    rcases List.mem_cons.mp h with rfl | h
    · rfl
    · exact ih h

/-- A handler that raises is answered with 500. -/
def Reply.statusCode (r : Reply) : ℕ :=
  match r.response with
  | some response => response.statusCode
  | none => 500

def Reply.isSuccess (r : Reply) : Bool := r.statusCode < 500

def Loop.succeeded (st : Loop) : Bool := st.reply.any Reply.isSuccess

/-! ## The two exceptions -/

/-- Not an exception of `requests`, so `proxy` does not catch it. -/
def ForwardResult.escapes : ForwardResult → Bool
  | .otherException => true
  | _ => false

section

variable (req : Request) (turns : ℕ → Turn) (lb : Balancer)

def raisesFirst : Bool :=
  match ((Loop.start lb).selecting (turns 0)).selected with
  | none => false
  | some b => ((turns 0).answer (forwardOnce req b)).escapes

/-- A pass behind the first finds no healthy backend. -/
def lateNone (allowed n : ℕ) : Bool :=
  (List.range n).any fun k =>
    0 < k && (passes req allowed turns lb k).reply.isNone &&
      ((passes req allowed turns lb k).selecting (turns k)).selected.isNone

end

namespace Served

variable (maxRetries : ℤ) (s : Served)

/-- No call of `record_request` without `retried`. -/
def unbooked : Bool := attemptsAllowed maxRetries s.call.req = 0 || raisesFirst s.call.req s.call.turns s.found

/-- A second one. -/
def bookedTwice : Bool :=
  lateNone s.call.req s.call.turns s.found (attemptsAllowed maxRetries s.call.req)
    (attemptsAllowed maxRetries s.call.req)

end Served

/-! ## What is added to the counters -/

structure Metrics.Adds (m m' : Metrics) (unretried retried successful : ℕ) : Prop where
  total : m'.totalRequests = m.totalRequests + unretried + retried
  retries : m'.retriedRequests = m.retriedRequests + retried
  successes : m'.successfulRequests = m.successfulRequests + successful

namespace Metrics

variable {m m' m'' : Metrics}

theorem adds_refl (m : Metrics) : Adds m m 0 0 0 := ⟨rfl, rfl, rfl⟩

theorem Adds.trans {u r s u' r' s' : ℕ} (h : Adds m m' u r s) (h' : Adds m' m'' u' r' s') :
    Adds m m'' (u + u') (r + r') (s + s') := by
  refine ⟨?_, ?_, ?_⟩
  · rw [h'.total, h.total]
    omega
  · rw [h'.retries, h.retries]
    omega
  · rw [h'.successes, h.successes]
    omega

theorem adds_record (m : Metrics) (url : Url) (success : Bool) (ms : ℚ) (retried : Bool) :
    Adds m (m.recordRequest url success ms retried) (!retried).toNat retried.toNat success.toNat := by
  cases success <;> cases retried <;> exact ⟨rfl, rfl, rfl⟩

theorem adds_checkAll (lb : Balancer) (checks : List (Url × Bool)) :
    Adds lb.metrics (lb.checkAll checks).metrics 0 0 0 := by
  induction checks generalizing lb with
  | nil => exact adds_refl _
  | cons c checks ih =>
    have hone : Adds lb.metrics (lb.checkOne c.1 c.2).metrics 0 0 0 := by
      unfold Balancer.checkOne
      dsimp only
      split
      · exact adds_refl _
      · exact ⟨rfl, rfl, rfl⟩
    exact hone.trans (ih _)

end Metrics

/-! ## One pass -/

namespace Loop

variable (req : Request) (attempt : ℕ) (st : Loop) (t : Turn)

/-- The calls of `record_request` without `retried` in one pass. -/
def unretriedIn : ℕ :=
  match (st.selecting t).selected with
  | none => 1
  | some b => (!(st.skips t b || (t.answer (forwardOnce req b)).escapes || attempt > 0)).toNat

theorem adds_selecting : Metrics.Adds st.lb.metrics (st.selecting t).metrics 0 0 0 :=
  Metrics.adds_checkAll _ _

theorem adds_sizing : Metrics.Adds st.lb.metrics (st.sizing t).metrics 0 0 0 := by
  have hselect : Metrics.Adds st.lb.metrics (st.selecting t).select.metrics 0 0 0 := adds_selecting st t
  exact hselect.trans (Metrics.adds_checkAll _ _)

theorem adds_forward (allowed : ℕ) (b : Url) :
    ∃ r, Metrics.Adds st.lb.metrics (st.forward req allowed attempt t b).lb.metrics
      (!((t.answer (forwardOnce req b)).escapes || attempt > 0)).toNat r
      (st.forward req allowed attempt t b).succeeded.toNat := by
  have hforward := (adds_sizing st t).trans (Metrics.adds_checkAll (st.sizing t) t.duringForward)
  unfold forward
  cases t.answer (forwardOnce req b) with
  | requestException e =>
    have hrecord := hforward.trans
      (Metrics.adds_record ((st.sizing t).checkAll t.duringForward).metrics b false t.elapsedMs (attempt > 0))
    simp only [Nat.zero_add] at hrecord
    refine ⟨(decide (attempt > 0)).toNat, ?_⟩
    by_cases hretry : (retryable req && decide (attempt < allowed - 1)) = true
    · simp only [if_pos hretry]
      exact hrecord
    · simp only [if_neg hretry]
      exact hrecord
  | otherException => exact ⟨0, hforward⟩
  | response r =>
    have hrecord := hforward.trans (Metrics.adds_record ((st.sizing t).checkAll t.duringForward).metrics b
      (r.statusCode < 500) t.elapsedMs (attempt > 0))
    simp only [Nat.zero_add] at hrecord
    exact ⟨(decide (attempt > 0)).toNat, hrecord⟩

theorem adds_pass (allowed : ℕ) (hrun : st.reply = none) :
    ∃ r, Metrics.Adds st.lb.metrics (st.pass req allowed attempt t).lb.metrics (st.unretriedIn req attempt t) r
      (st.pass req allowed attempt t).succeeded.toNat := by
  unfold pass unretriedIn
  cases hsel : (st.selecting t).selected with
  | none =>
    have hselect : Metrics.Adds st.lb.metrics (st.selecting t).select.metrics 0 0 0 := adds_selecting st t
    exact ⟨0, hselect.trans (Metrics.adds_record _ (str "none") false 0 false)⟩
  | some b =>
    dsimp only
    by_cases hskip : st.skips t b
    · refine ⟨0, ?_⟩
      rw [if_pos hskip, hskip]
      unfold succeeded
      dsimp only
      rw [hrun]
      exact adds_sizing st t
    · have hnot : st.skips t b = false := by simpa using hskip
      rw [if_neg hskip, hnot, Bool.false_or]
      exact adds_forward req attempt st t allowed b

end Loop

/-! ## All passes of a request -/

section

variable {req : Request} {allowed : ℕ} {turns : ℕ → Turn} {lb : Balancer}

theorem lateNone_succ (n : ℕ) : lateNone req turns lb allowed (n + 1) =
    (lateNone req turns lb allowed n ||
      (0 < n && (passes req allowed turns lb n).reply.isNone &&
        ((passes req allowed turns lb n).selecting (turns n)).selected.isNone)) := by
  unfold lateNone
  rw [List.range_succ, List.any_append, List.any_cons, List.any_nil, Bool.or_false]

theorem lateNone_of_running {n : ℕ} (h : Running req allowed turns lb n) :
    lateNone req turns lb allowed n = false := by
  unfold lateNone
  rw [List.any_eq_false]
  intro k hk hlate
  simp only [Bool.and_eq_true, Option.isNone_iff_eq_none] at hlate
  refine not_settles_of_running h (List.mem_range.mp hk) (.inl ?_)
  exact (Balancer.selected_eq_none_iff _).mp hlate.2

theorem unretriedIn_first :
    (Loop.start lb).unretriedIn req 0 (turns 0) = (!raisesFirst req turns lb).toNat := by
  unfold Loop.unretriedIn raisesFirst
  cases ((Loop.start lb).selecting (turns 0)).selected with
  | none => rfl
  | some b =>
    have hskip : (Loop.start lb).skips (turns 0) b = false := rfl
    simp [hskip]

theorem unretriedIn_later {n : ℕ} (hn : 0 < n) (st : Loop) (t : Turn) :
    st.unretriedIn req n t = (st.selecting t).selected.isNone.toNat := by
  unfold Loop.unretriedIn
  cases (st.selecting t).selected with
  | none => rfl
  | some b => simp [hn]

variable (req allowed turns lb) in
/-- After `n` passes: one call without `retried`, or none, and one more for a late pass. -/
theorem adds_passes (n : ℕ) :
    ∃ r, Metrics.Adds lb.metrics (passes req allowed turns lb n).lb.metrics
      ((!(n = 0 || raisesFirst req turns lb)).toNat + (lateNone req turns lb allowed n).toNat) r
      (passes req allowed turns lb n).succeeded.toNat := by
  induction n with
  | zero => exact ⟨0, Metrics.adds_refl _⟩
  | succ n ih =>
    obtain ⟨r, hr⟩ := ih
    by_cases hrun : Running req allowed turns lb n
    · obtain ⟨r', hr'⟩ := Loop.adds_pass req n (passes req allowed turns lb n) (turns n) allowed hrun
      have hnot : (passes req allowed turns lb n).succeeded = false := by
        unfold Loop.succeeded
        rw [show (passes req allowed turns lb n).reply = none from hrun, Option.any_none]
      have hnone : (passes req allowed turns lb n).reply.isNone = true :=
        Option.isNone_iff_eq_none.mpr hrun
      rw [lateNone_of_running hrun, hnot] at hr
      rw [passes_succ hrun, lateNone_succ, lateNone_of_running hrun, hnone]
      refine ⟨r + r', ?_⟩
      rcases Nat.eq_zero_or_pos n with rfl | hn
      · rw [show passes req allowed turns lb 0 = Loop.start lb from rfl, unretriedIn_first] at hr'
        simpa [passes] using hr.trans hr'
      · have hne : n ≠ 0 := by omega
        rw [unretriedIn_later hn] at hr'
        simpa [hn, hne] using hr.trans hr'
    · have hsome : (passes req allowed turns lb n).reply.isNone = false := by
        rw [Option.isNone_eq_false_iff, Option.isSome_iff_ne_none]
        exact hrun
      have hne : n ≠ 0 := by
        rintro rfl
        exact hrun rfl
      rw [passes_succ_of_reply hrun, lateNone_succ, hsome]
      refine ⟨r, ?_⟩
      simpa [hne] using hr

end

/-! ## Runs of requests -/

theorem isSuccess_getD (reply : Option Reply) :
    (some (reply.getD .badGateway)).any Reply.isSuccess = reply.any Reply.isSuccess := by
  cases reply <;> rfl

theorem adds_proxy (maxRetries : ℤ) (c : Call) (lb : Balancer) (s : Served)
    (hs : s = ⟨c, lb, proxy maxRetries c.req c.turns lb⟩) :
    ∃ r, Metrics.Adds lb.metrics s.left.lb.metrics
      ((!s.unbooked maxRetries).toNat + (s.bookedTwice maxRetries).toNat) r s.left.succeeded.toNat := by
  obtain ⟨r, hr⟩ := adds_passes c.req (attemptsAllowed maxRetries c.req) c.turns lb (attemptsAllowed maxRetries c.req)
  have hreply : s.left.succeeded = (passes c.req (attemptsAllowed maxRetries c.req) c.turns lb
      (attemptsAllowed maxRetries c.req)).succeeded := by
    rw [hs]
    exact isSuccess_getD _
  rw [hreply, hs]
  exact ⟨r, hr⟩

theorem countP_cons_toNat {α : Type*} (p : α → Bool) (a : α) (l : List α) :
    (a :: l).countP p = (p a).toNat + l.countP p := by
  rw [List.countP_cons, Nat.add_comm]
  cases p a <;> rfl

theorem adds_serve (maxRetries : ℤ) (calls : List Call) (lb : Balancer) :
    ∃ u r, Metrics.Adds lb.metrics (serve maxRetries calls lb).2.metrics u r
        ((serve maxRetries calls lb).1.countP fun s => s.left.succeeded) ∧
      u + (serve maxRetries calls lb).1.countP (Served.unbooked maxRetries) =
        calls.length + (serve maxRetries calls lb).1.countP (Served.bookedTwice maxRetries) := by
  induction calls generalizing lb with
  | nil => exact ⟨0, 0, Metrics.adds_refl _, rfl⟩
  | cons c cs ih =>
    obtain ⟨r, hr⟩ := adds_proxy maxRetries c lb _ rfl
    obtain ⟨u', r', hr', hu'⟩ := ih (proxy maxRetries c.req c.turns lb).lb
    have hbool : ∀ b : Bool, (!b).toNat + b.toNat = 1 := by decide
    have hone := hbool (Served.unbooked maxRetries ⟨c, lb, proxy maxRetries c.req c.turns lb⟩)
    unfold serve
    simp only [countP_cons_toNat, List.length_cons]
    exact ⟨_, r + r', hr.trans hr', by omega⟩

/-- The successes are the replies below 500. What is left of the total without the retries is the number of
requests exactly when as many requests are not booked at all as are booked twice. -/
theorem counters_reconcile_iff (maxRetries : ℤ) (calls : List Call) (lb : Balancer) :
    let run := serve maxRetries calls { lb with metrics := .init }
    run.2.metrics.successfulRequests = (run.1.countP fun s => s.left.succeeded) ∧
      ((run.2.metrics.totalRequests : ℤ) - run.2.metrics.retriedRequests = calls.length ↔
        run.1.countP (Served.unbooked maxRetries) = run.1.countP (Served.bookedTwice maxRetries)) := by
  intro run
  obtain ⟨u, r, ⟨htotal, hretries, hsuccesses⟩, hu⟩ : ∃ u r,
      Metrics.Adds .init run.2.metrics u r (run.1.countP fun s => s.left.succeeded) ∧
        u + run.1.countP (Served.unbooked maxRetries) =
          calls.length + run.1.countP (Served.bookedTwice maxRetries) :=
    adds_serve maxRetries calls { lb with metrics := .init }
  have hzero : Metrics.init.totalRequests = 0 ∧ Metrics.init.retriedRequests = 0 ∧
      Metrics.init.successfulRequests = 0 := ⟨rfl, rfl, rfl⟩
  simp only [hzero, Nat.zero_add] at htotal hretries hsuccesses
  refine ⟨hsuccesses, ?_⟩
  rw [htotal, hretries]
  omega

theorem counters_reconcile_of_plain (maxRetries : ℤ) (calls : List Call) (lb : Balancer)
    (h : ∀ s ∈ (serve maxRetries calls { lb with metrics := .init }).1,
      s.unbooked maxRetries = false ∧ s.bookedTwice maxRetries = false) :
    ((serve maxRetries calls { lb with metrics := .init }).2.metrics.totalRequests : ℤ) -
      (serve maxRetries calls { lb with metrics := .init }).2.metrics.retriedRequests = calls.length := by
  obtain ⟨u, r, ⟨htotal, hretries, -⟩, hu⟩ := adds_serve maxRetries calls { lb with metrics := .init }
  have hunbooked : (serve maxRetries calls { lb with metrics := .init }).1.countP (Served.unbooked maxRetries) = 0 :=
    List.countP_eq_zero.mpr fun s hs => by simp [(h s hs).1]
  have htwice : (serve maxRetries calls { lb with metrics := .init }).1.countP (Served.bookedTwice maxRetries) = 0 :=
    List.countP_eq_zero.mpr fun s hs => by simp [(h s hs).2]
  have hzero : Metrics.init.totalRequests = 0 ∧ Metrics.init.retriedRequests = 0 := ⟨rfl, rfl⟩
  simp only [hzero, Nat.zero_add] at htotal hretries
  rw [htotal, hretries]
  omega

def oneBackend : Balancer where
  healthChecker := .init [str "a"] 2
  router := ⟨[str "a"], by decide, 0, by decide⟩
  metrics := .init
  urls_eq := rfl

def oneCall : List Call := [⟨getRequest, fun _ => failingTurn []⟩]

/-- The only backend fails once: the retry finds none healthy and is booked like a second request. -/
theorem counters_off_by_one :
    ¬ ((serve 2 oneCall oneBackend).2.metrics.totalRequests : ℤ) -
      (serve 2 oneCall oneBackend).2.metrics.retriedRequests = oneCall.length := by
  decide +kernel

end FlightPulse.LoadBalancer
