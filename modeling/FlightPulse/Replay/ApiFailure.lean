import FlightPulse.LoadBalancer.Failover
import FlightPulse.LoadBalancer.Snapshot

/-!
# The figures of an API failure (`replay/fault_injection.py`)

The scenario kills one backend under traffic, restarts it, and compares the counters of the
balancer from before and after. The figures say how many failures the outage has cost.
-/

open Lib Lib.Python

namespace FlightPulse.Replay.ApiFailure

open LoadBalancer

/-! ## `run_scenario` -/

/-- The route `/lb-metrics`. -/
def lbMetrics (lb : Balancer) : Option Snapshot := lb.metrics.snapshot lb.healthyBackends.length

/-- `failed_delta`, `retried_delta` and `total_delta`. -/
structure Deltas where
  failed : ℤ
  retried : ℤ
  total : ℤ

def deltas (baseline afterRecovery : Snapshot) : Deltas where
  failed := afterRecovery.failedRequests - baseline.failedRequests
  retried := afterRecovery.retriedRequests - baseline.retriedRequests
  total := afterRecovery.totalRequests - baseline.totalRequests

/-- `wait_for_backend_state`, from the answers of `_fetch_json` until the time is up. -/
def waitForBackendState (backendUrl : Url) (targetStates : List BackendState) :
    List (Option (Dict Url BackendState)) → Bool
  | [] => false
  | none :: polls => waitForBackendState backendUrl targetStates polls
  | some backends :: polls =>
    if (backends.get? backendUrl).any fun state => state ∈ targetStates then true
    else waitForBackendState backendUrl targetStates polls

/-! ## What is added to the counters -/

/-- The calls of `record_request`, those among them that failed, and those with `retried`. -/
structure Spent (m m' : Metrics) (total failed retried : ℕ) : Prop where
  total : m'.totalRequests = m.totalRequests + total
  failed : m'.failedRequests = m.failedRequests + failed
  retried : m'.retriedRequests = m.retriedRequests + retried

variable {m m' m'' : Metrics}

theorem spent_refl (m : Metrics) : Spent m m 0 0 0 := ⟨rfl, rfl, rfl⟩

theorem Spent.trans {t f r t' f' r' : ℕ} (h : Spent m m' t f r) (h' : Spent m' m'' t' f' r') :
    Spent m m'' (t + t') (f + f') (r + r') := by
  refine ⟨?_, ?_, ?_⟩
  · rw [h'.total, h.total, Nat.add_assoc]
  · rw [h'.failed, h.failed, Nat.add_assoc]
  · rw [h'.retried, h.retried, Nat.add_assoc]

theorem spent_record (m : Metrics) (url : Url) (success : Bool) (ms : ℚ) (retried : Bool) :
    Spent m (m.recordRequest url success ms retried) 1 (!success).toNat retried.toNat := by
  cases success <;> cases retried <;> exact ⟨rfl, rfl, rfl⟩

theorem spent_checkAll (lb : Balancer) (answers : List (Url × Bool)) :
    Spent lb.metrics (lb.checkAll answers).metrics 0 0 0 := by
  induction answers generalizing lb with
  | nil => exact spent_refl _
  | cons c answers ih =>
    have hone : Spent lb.metrics (lb.checkOne c.1 c.2).metrics 0 0 0 := by
      unfold Balancer.checkOne
      dsimp only
      split
      · exact spent_refl _
      · exact ⟨rfl, rfl, rfl⟩
    exact hone.trans (ih _)

section

variable {live : Url → Bool} {req : Request} {turns : ℕ → Turn} {lb : Balancer} {st : Loop} {k : ℕ}

theorem spent_duringForward (st : Loop) (t : Turn) :
    Spent st.lb.metrics ((st.sizing t).checkAll t.duringForward).metrics 0 0 0 := by
  have hselect : Spent st.lb.metrics (st.selecting t).select.metrics 0 0 0 := spent_checkAll st.lb t.beforeSelection
  exact (hselect.trans (spent_checkAll _ t.beforeSize)).trans (spent_checkAll _ t.duringForward)

variable (req) in
theorem spent_pass {b : Url} {t : Turn} (allowed attempt : ℕ) (hsel : (st.selecting t).selected = some b)
    (hskips : st.skips t b = false) :
    (∀ e, t.answer (forwardOnce req b) = .requestException e →
      Spent st.lb.metrics (st.pass req allowed attempt t).lb.metrics 1 1 (decide (attempt > 0)).toNat) ∧
    ∀ r, t.answer (forwardOnce req b) = .response r →
      (st.pass req allowed attempt t).reply = some (.relayed (relay r)) ∧
      Spent st.lb.metrics (st.pass req allowed attempt t).lb.metrics 1 (decide (500 ≤ r.statusCode)).toNat
        (decide (attempt > 0)).toNat := by
  have hduring := spent_duringForward st t
  unfold Loop.pass
  simp only [hsel, hskips, Bool.false_eq_true, if_false, Loop.forward]
  constructor
  · intro e he
    have hrecord := hduring.trans (spent_record
      ((st.sizing t).checkAll t.duringForward).metrics b false t.elapsedMs (decide (attempt > 0)))
    simp only [Nat.zero_add] at hrecord
    rw [he]
    dsimp only
    split <;> exact hrecord
  · intro r hr
    have hrecord := hduring.trans (spent_record ((st.sizing t).checkAll t.duringForward).metrics b
      (decide (r.statusCode < 500)) t.elapsedMs (decide (attempt > 0)))
    have hserver : (!decide (r.statusCode < 500)) = decide (500 ≤ r.statusCode) := by
      rw [← decide_not, decide_eq_decide]
      exact Nat.not_lt
    simp only [Nat.zero_add, hserver] at hrecord
    rw [hr]
    exact ⟨rfl, hrecord⟩

/-! ## One request -/

/-- What was relayed is a server error of a backend. -/
def isServerError : Option Reply → Bool
  | some (.relayed r) => 500 ≤ r.statusCode
  | _ => false

theorem forwards_of_triedDown (h : Outage live req turns) (hst : TriedDown live lb st)
    (hup : ∃ b ∈ lb.healthyBackends, live b = true) :
    ∃ b, (st.selecting (turns k)).selected = some b ∧ st.skips (turns k) b = false := by
  obtain ⟨b₀, hb₀, hlive₀⟩ := hup
  have hhealthy := (steady_selecting h st k).up b₀ hlive₀ (hst.steady.up b₀ hlive₀ hb₀)
  cases hsel : (st.selecting (turns k)).selected with
  | none =>
    rw [(Balancer.selected_eq_none_iff _).mp hsel] at hhealthy
    cases hhealthy
  | some b => exact ⟨b, rfl, by simp [Loop.skips, not_tried_of_selected h hst hsel]⟩

theorem spent_answered (h : Outage live req turns) (hst : TriedDown live lb st)
    (hup : ∃ b ∈ lb.healthyBackends, live b = true) (allowed : ℕ) {resp : Response}
    (hreply : (st.pass req allowed k (turns k)).reply = some (.relayed resp)) :
    Spent st.lb.metrics (st.pass req allowed k (turns k)).lb.metrics 1
      (isServerError (st.pass req allowed k (turns k)).reply).toNat (decide (k > 0)).toNat := by
  obtain ⟨b, hsel, hskips⟩ := forwards_of_triedDown (k := k) h hst hup
  obtain ⟨-, hanswered⟩ := spent_pass req allowed k hsel hskips
  cases hlive : live b with
  | true =>
    obtain ⟨r, hr⟩ := h.up k b hlive
    obtain ⟨hrelayed, hspent⟩ := hanswered r hr
    rw [hrelayed]
    exact hspent
  | false =>
    obtain ⟨e, he⟩ := h.down k b hlive
    have hfails := (Loop.pass_of_fails allowed k ⟨b, e, hsel, hskips, he⟩).2.2
    rw [hfails] at hreply
    split at hreply <;> cases hreply

/-- While the loop runs, each of its passes has been one failed call. -/
theorem spent_of_running {allowed : ℕ} (h : Outage live req turns) (hup : ∃ b ∈ lb.healthyBackends, live b = true)
    (hrun : Running req allowed turns lb k) :
    Spent lb.metrics (passes req allowed turns lb k).lb.metrics k k (k - 1) := by
  induction k with
  | zero => exact spent_refl _
  | succ k ih =>
    have hk := running_of_le hrun (Nat.le_succ k)
    obtain ⟨hst, -⟩ := triedDown_of_running h hup hk
    unfold Running at hrun
    rw [passes_succ hk] at hrun ⊢
    rcases pass_of_triedDown h hst allowed hup (k := k) with ⟨b, r, -, -, hreply, -⟩ | ⟨-, b, e, hsel, hskips, he⟩
    · rw [hreply] at hrun
      cases hrun
    · have hpass := (ih hk).trans ((spent_pass req allowed k hsel hskips).1 e he)
      have hretried : k - 1 + (decide (k > 0)).toNat = k + 1 - 1 := by
        cases k with
        | zero => rfl
        | succ k => simp
      rwa [hretried] at hpass

/-- The request has found out that these backends are down, at one failed forward each, and a live one has
answered it. Its answer counts as failed where it is a server error. -/
structure FoundOut (live : Url → Bool) (req : Request) (turns : ℕ → Turn) (lb : Balancer) (st : Loop)
    (dead : List Url) : Prop where
  steady : Steady live lb st.lb
  nodup : dead.Nodup
  down : ∀ u ∈ dead, live u = false ∧ u ∈ lb.healthyBackends ∧ u ∉ st.lb.healthyBackends
  spent : Spent lb.metrics st.lb.metrics (1 + dead.length) (dead.length + (isServerError st.reply).toNat) dead.length
  answered : ∃ k b r, live b = true ∧ (turns k).answer (forwardOnce req b) = .response r ∧
    st.reply = some (.relayed (relay r))

theorem foundOut_proxy {maxRetries : ℕ} (hretry : retryable req = true) (h : Outage live req turns)
    (hup : ∃ b ∈ lb.healthyBackends, live b = true)
    (hfew : lb.healthyBackends.countP (!live ·) ≤ maxRetries) :
    ∃ dead, FoundOut live req turns lb (proxy maxRetries req turns lb) dead := by
  obtain ⟨k, b, r, hrun, hlive, hr, hlb, -, hreply, hlast, hsteady⟩ := relayed_at hretry h hup hfew
  obtain ⟨hst, hlength⟩ := triedDown_of_running h hup hrun
  refine ⟨(passes req (maxRetries + 1) turns lb k).attemptedBackends, hst.steady.trans hsteady, hst.nodup,
    hst.left hsteady, ?_, k, b, r, hlive, hr, hreply⟩
  have hall := (spent_of_running h hup hrun).trans (spent_answered h hst hup (maxRetries + 1) hlast)
  have hretried : k - 1 + (decide (k > 0)).toNat = k := by
    cases k with
    | zero => rfl
    | succ k => simp
  rwa [hretried, Nat.add_comm k 1, ← hlb, hlast, ← hreply, ← hlength] at hall

end

/-! ## The whole outage -/

section

variable {live : Url → Bool} {lb : Balancer}

def serverErrors (served : List Served) : ℕ := served.countP fun s => isServerError s.left.reply

/-- The client is told what a live backend has answered. -/
def Answered (live : Url → Bool) (s : Served) : Prop :=
  ∃ k b r, live b = true ∧ (s.call.turns k).answer (forwardOnce s.call.req b) = .response r ∧
    s.left.reply = some (.relayed (relay r))

/-- What a run of requests has cost. -/
structure Cost (live : Url → Bool) (calls : List Call) (lb : Balancer) (run : List Served × Balancer)
    (dead : List Url) : Prop where
  steady : Steady live lb run.2
  nodup : dead.Nodup
  down : ∀ u ∈ dead, live u = false ∧ u ∈ lb.healthyBackends ∧ u ∉ run.2.healthyBackends
  spent : Spent lb.metrics run.2.metrics (calls.length + dead.length) (dead.length + serverErrors run.1) dead.length
  answered : ∀ s ∈ run.1, Answered live s

theorem cost_serve {maxRetries : ℕ} {calls : List Call} (hretry : ∀ c ∈ calls, retryable c.req = true)
    (houtage : ∀ c ∈ calls, Outage live c.req c.turns) (hup : ∃ b ∈ lb.healthyBackends, live b = true)
    (hfew : lb.healthyBackends.countP (!live ·) ≤ maxRetries) :
    ∃ dead, Cost live calls lb (serve maxRetries calls lb) dead := by
  induction calls generalizing lb with
  | nil =>
    exact ⟨[], steady_refl live lb, List.nodup_nil, (fun u hu => nomatch hu), spent_refl _, (fun s hs => nomatch hs)⟩
  | cons c calls ih =>
    have hc := List.mem_cons_self (a := c) (l := calls)
    have hlater : ∀ d ∈ calls, d ∈ c :: calls := fun d hd => List.mem_cons_of_mem c hd
    obtain ⟨first, hfirst⟩ := foundOut_proxy (hretry c hc) (houtage c hc) hup hfew
    obtain ⟨b, hb, hlive⟩ := hup
    obtain ⟨rest, hrest⟩ := ih (fun d hd => hretry d (hlater d hd)) (fun d hd => houtage d (hlater d hd))
      ⟨b, hfirst.steady.up b hlive hb, hlive⟩ (hfirst.steady.countP_le.trans hfew)
    refine ⟨first ++ rest, hfirst.steady.trans hrest.steady, ?_, fun u hu => ?_, ?_, fun s hs => ?_⟩
    · -- a backend that was found out is not healthy when the next request comes
      rw [List.nodup_append]
      refine ⟨hfirst.nodup, hrest.nodup, fun u hu v hv => ?_⟩
      rintro rfl
      exact (hfirst.down u hu).2.2 (hrest.down u hv).2.1
    · rcases List.mem_append.mp hu with hu | hu
      · obtain ⟨hdown, hin, hnot⟩ := hfirst.down u hu
        exact ⟨hdown, hin, fun hmem => hnot (hrest.steady.down u hdown hmem)⟩
      · obtain ⟨hdown, hin, hnot⟩ := hrest.down u hu
        exact ⟨hdown, hfirst.steady.down u hdown hin, hnot⟩
    · have hspent := hfirst.spent.trans hrest.spent
      have htotal : 1 + first.length + (calls.length + rest.length) =
          (c :: calls).length + (first ++ rest).length := by
        rw [List.length_cons, List.length_append]
        omega
      have hfailed : first.length + (isServerError (proxy maxRetries c.req c.turns lb).reply).toNat +
          (rest.length + serverErrors (serve maxRetries calls (proxy maxRetries c.req c.turns lb).lb).1) =
          (first ++ rest).length + serverErrors (serve maxRetries (c :: calls) lb).1 := by
        unfold serverErrors
        simp only [serve, List.countP_cons, List.length_append]
        cases isServerError (proxy maxRetries c.req c.turns lb).reply <;> simp <;> omega
      rwa [htotal, hfailed, ← List.length_append] at hspent
    · rcases List.mem_cons.mp hs with rfl | hs
      · exact hfirst.answered
      · exact hrest.answered s hs

/-- The requests are answered as in an outage, and may all be retried. -/
structure Traffic (live : Url → Bool) (calls : List Call) : Prop where
  retryable : ∀ c ∈ calls, retryable c.req = true
  outage : ∀ c ∈ calls, Outage live c.req c.turns

theorem serve_append (maxRetries : ℤ) (first rest : List Call) (lb : Balancer) :
    serve maxRetries (first ++ rest) lb =
      ((serve maxRetries first lb).1 ++ (serve maxRetries rest (serve maxRetries first lb).2).1,
        (serve maxRetries rest (serve maxRetries first lb).2).2) := by
  induction first generalizing lb with
  | nil => rfl
  | cons c first ih =>
    simp only [List.cons_append, serve, ih]

theorem cost_traffic {maxRetries : ℕ} {calls : List Call} (h : Traffic live calls)
    (hup : ∃ b ∈ lb.healthyBackends, live b = true)
    (hfew : ∀ down : List Url, down.Nodup → (∀ u ∈ down, live u = false) → down.length ≤ maxRetries) :
    ∃ dead, Cost live calls lb (serve maxRetries calls lb) dead := by
  have hcount : lb.healthyBackends.countP (!live ·) ≤ maxRetries := by
    rw [List.countP_eq_length_filter]
    refine hfew _ ((healthyBackends_nodup lb).filter _) fun u hu => ?_
    simpa using (List.mem_filter.mp hu).2
  exact cost_serve h.retryable h.outage hup hcount

theorem nil_of_down {down : List Url} (h : ∀ u ∈ down, (fun _ : Url => true) u = false) : down = [] := by
  cases down with
  | nil => rfl
  | cons v down => cases h v List.mem_cons_self

theorem spent_phases {maxRetries : ℕ} {warmup fault restarted : List Call} {killed : Url} (hretries : 1 ≤ maxRetries)
    (hwarmup : Traffic (fun _ => true) warmup) (hfault : Traffic (fun u => decide (u ≠ killed)) fault)
    (hrestarted : Traffic (fun _ => true) restarted) (hup : ∃ u ∈ lb.healthyBackends, u ≠ killed) :
    ∃ cost ≤ 1,
      Spent lb.metrics (serve maxRetries (warmup ++ (fault ++ restarted)) lb).2.metrics
        ((warmup ++ (fault ++ restarted)).length + cost)
        (cost + serverErrors (serve maxRetries (warmup ++ (fault ++ restarted)) lb).1) cost ∧
      ∀ s ∈ (serve maxRetries (warmup ++ (fault ++ restarted)) lb).1, Answered (fun _ => true) s := by
  obtain ⟨u, hu, hne⟩ := hup
  have hlive : decide (u ≠ killed) = true := decide_eq_true hne
  have hnone : ∀ down : List Url, down.Nodup → (∀ v ∈ down, (fun _ : Url => true) v = false) →
      down.length ≤ maxRetries := fun down _ hdown => by simp [nil_of_down hdown]
  have hone : ∀ down : List Url, down.Nodup → (∀ v ∈ down, decide (v ≠ killed) = false) → down.length ≤ 1 := by
    intro down hnodup hdown
    have hsub : down ⊆ [killed] := fun v hv => by simpa using hdown v hv
    exact (hnodup.subperm hsub).length_le
  obtain ⟨dead₁, hcost₁⟩ := cost_traffic hwarmup ⟨u, hu, rfl⟩ hnone
  have hu₁ := hcost₁.steady.up u rfl hu
  obtain ⟨dead₂, hcost₂⟩ := cost_traffic hfault ⟨u, hu₁, hlive⟩
    fun down hnodup hdown => (hone down hnodup hdown).trans hretries
  have hu₂ := hcost₂.steady.up u hlive hu₁
  obtain ⟨dead₃, hcost₃⟩ := cost_traffic hrestarted ⟨u, hu₂, rfl⟩ hnone
  obtain rfl := nil_of_down fun v hv => (hcost₁.down v hv).1
  obtain rfl := nil_of_down fun v hv => (hcost₃.down v hv).1
  have hspent := hcost₁.spent.trans (hcost₂.spent.trans hcost₃.spent)
  simp only [List.length_nil, Nat.add_zero, Nat.zero_add] at hspent
  refine ⟨dead₂.length, hone dead₂ hcost₂.nodup fun v hv => (hcost₂.down v hv).1, ?_, fun s hs => ?_⟩
  · have htotal : warmup.length + (fault.length + dead₂.length + restarted.length) =
        (warmup ++ (fault ++ restarted)).length + dead₂.length := by
      simp only [List.length_append]
      omega
    have hfailed : ∀ first second third : List Served,
        serverErrors first + (dead₂.length + serverErrors second + serverErrors third) =
          dead₂.length + serverErrors (first ++ (second ++ third)) := by
      intro first second third
      unfold serverErrors
      simp only [List.countP_append]
      omega
    rw [serve_append, serve_append, ← htotal, ← hfailed]
    exact hspent
  · rw [serve_append, serve_append] at hs
    rcases List.mem_append.mp hs with hs | hs
    · exact hcost₁.answered s hs
    · rcases List.mem_append.mp hs with hs | hs
      · obtain ⟨k, b, r, -, hr, hreply⟩ := hcost₂.answered s hs
        exact ⟨k, b, r, rfl, hr, hreply⟩
      · exact hcost₃.answered s hs

theorem snapshot_counters (m : Metrics) (activeBackendCount : ℤ) :
    ∃ s, m.snapshot activeBackendCount = some s ∧ s.totalRequests = m.totalRequests ∧
      s.failedRequests = m.failedRequests ∧ s.retriedRequests = m.retriedRequests := by
  unfold Metrics.snapshot
  generalize m.latenciesMs.insertionSort (· ≤ ·) = l
  obtain ⟨p50, h50⟩ := Option.isSome_iff_exists.mp (Metrics.percentile_isSome l 50)
  obtain ⟨p95, h95⟩ := Option.isSome_iff_exists.mp (Metrics.percentile_isSome l 95)
  obtain ⟨p99, h99⟩ := Option.isSome_iff_exists.mp (Metrics.percentile_isSome l 99)
  simp only [h50, h95, h99, Option.bind_eq_bind, Option.bind_some]
  rcases eq_or_ne l [] with rfl | hne
  · exact ⟨_, rfl, rfl, rfl, rfl⟩
  · have hlen := List.length_pos_iff.mpr hne
    have hhead : item l 0 = some l[0] := (Metrics.item_natCast l 0).trans (List.getElem?_eq_getElem hlen)
    simp only [List.isEmpty_iff, hne, if_false, hhead, Metrics.item_last hne, Option.map_some, Option.bind_some]
    exact ⟨_, rfl, rfl, rfl, rfl⟩

/-- Killing a backend costs one failed forward, or none, however long it is away and however many requests there
are. The figures of the scenario count it once as failed and once as retried, beside the server errors of the
backends themselves, and every client is told what a backend has answered. -/
theorem api_failure_transient {maxRetries : ℕ} {warmup fault restarted : List Call} {killed : Url}
    (hretries : 1 ≤ maxRetries) (hwarmup : Traffic (fun _ => true) warmup)
    (hfault : Traffic (fun u => decide (u ≠ killed)) fault) (hrestarted : Traffic (fun _ => true) restarted)
    (hup : ∃ u ∈ lb.healthyBackends, u ≠ killed) :
    ∃ (cost : ℕ) (baseline afterRecovery : Snapshot), cost ≤ 1 ∧ lbMetrics lb = some baseline ∧
      lbMetrics (serve maxRetries (warmup ++ (fault ++ restarted)) lb).2 = some afterRecovery ∧
      deltas baseline afterRecovery =
        ⟨cost + serverErrors (serve maxRetries (warmup ++ (fault ++ restarted)) lb).1, cost,
          (warmup ++ (fault ++ restarted)).length + cost⟩ ∧
      ∀ s ∈ (serve maxRetries (warmup ++ (fault ++ restarted)) lb).1, Answered (fun _ => true) s := by
  obtain ⟨cost, hcost, hspent, hok⟩ := spent_phases hretries hwarmup hfault hrestarted hup
  obtain ⟨baseline, hbaseline, htotal, hfailed, hretried⟩ := snapshot_counters lb.metrics lb.healthyBackends.length
  obtain ⟨after, hafter, htotal', hfailed', hretried'⟩ := snapshot_counters
    (serve maxRetries (warmup ++ (fault ++ restarted)) lb).2.metrics
    (serve maxRetries (warmup ++ (fault ++ restarted)) lb).2.healthyBackends.length
  refine ⟨cost, baseline, after, hcost, hbaseline, hafter, ?_, hok⟩
  unfold deltas
  rw [htotal', hfailed', hretried', hspent.total, hspent.failed, hspent.retried, htotal, hfailed, hretried]
  push_cast
  simp only [add_sub_cancel_left]

end

/-- The backend `a` is gone, and the others answer with that status. -/
def withoutOne (statusCode : ℕ) : Call where
  req := getRequest
  turns := fun _ =>
    ⟨[], [], [], fun out =>
      if out.url = (forwardOnce getRequest (str "a")).url then .requestException .connectionError
      else .response ⟨statusCode, Dict.empty, []⟩, 0⟩

theorem outage_withoutOne (statusCode : ℕ) :
    Outage (fun u => decide (u ≠ str "a")) (withoutOne statusCode).req (withoutOne statusCode).turns where
  beforeSelection _ _ hc := nomatch hc
  beforeSize _ _ hc := nomatch hc
  duringForward _ _ hc := nomatch hc
  up k b hb := by
    refine ⟨_, if_neg fun heq => ?_⟩
    exact of_decide_eq_true hb (List.append_cancel_right (List.append_cancel_right heq))
  down k b hb := by
    obtain rfl : b = str "a" := by simpa using hb
    exact ⟨.connectionError, by simp [withoutOne]⟩

/-- One of the two requests may run into the backend that is gone, and one is answered with a server error. -/
theorem api_failure_transient_withoutOne : ∃ (cost : ℕ) (baseline afterRecovery : Snapshot), cost ≤ 1 ∧
    lbMetrics threeBackends = some baseline ∧
    lbMetrics (serve ((1 : ℕ) : ℤ) ([] ++ ([withoutOne 200, withoutOne 500] ++ [])) threeBackends).2 =
      some afterRecovery ∧
    deltas baseline afterRecovery = ⟨cost + (1 : ℕ), cost, (2 : ℕ) + cost⟩ ∧
    ∀ s ∈ (serve ((1 : ℕ) : ℤ) ([] ++ ([withoutOne 200, withoutOne 500] ++ [])) threeBackends).1,
      Answered (fun _ => true) s := by
  have hquiet : Traffic (fun _ => true) [] := ⟨by simp, by simp⟩
  have hup : ∃ u ∈ threeBackends.healthyBackends, u ≠ str "a" := ⟨str "b", by decide, by decide⟩
  have hfault : Traffic (fun u => decide (u ≠ str "a")) [withoutOne 200, withoutOne 500] := by
    refine ⟨fun c hc => ?_, fun c hc => ?_⟩
    · rcases List.mem_pair.mp hc with rfl | rfl <;> decide
    · rcases List.mem_pair.mp hc with rfl | rfl
      · exact outage_withoutOne 200
      · exact outage_withoutOne 500
  have herrors : serverErrors
      (serve ((1 : ℕ) : ℤ) ([] ++ ([withoutOne 200, withoutOne 500] ++ [])) threeBackends).1 = 1 := by decide
  obtain ⟨cost, baseline, afterRecovery, hcost, hbefore, hafter, hdeltas, hanswered⟩ :=
    api_failure_transient (le_refl 1) hquiet hfault hquiet hup
  rw [herrors] at hdeltas
  exact ⟨cost, baseline, afterRecovery, hcost, hbefore, hafter, hdeltas, hanswered⟩

/-! ## What the scenario says about the recovery -/

theorem waitForBackendState_iff (backendUrl : Url) (targetStates : List BackendState)
    (polls : List (Option (Dict Url BackendState))) :
    waitForBackendState backendUrl targetStates polls = true ↔
      ∃ backends, some backends ∈ polls ∧ ∃ state ∈ targetStates, backends.get? backendUrl = some state := by
  induction polls with
  | nil => simp [waitForBackendState]
  | cons poll polls ih =>
    cases poll with
    | none => simpa [waitForBackendState] using ih
    | some backends =>
      have hhead : ((backends.get? backendUrl).any fun state => state ∈ targetStates) = true ↔
          ∃ state ∈ targetStates, backends.get? backendUrl = some state := by
        rw [Option.any_eq_true]
        constructor
        · rintro ⟨state, hstate, hin⟩
          exact ⟨state, of_decide_eq_true hin, hstate⟩
        · rintro ⟨state, hin, hstate⟩
          exact ⟨state, hstate, decide_eq_true hin⟩
      unfold waitForBackendState
      rw [Bool.if_true_left, Bool.or_eq_true, decide_eq_true_iff, hhead, ih]
      simp only [List.mem_cons, Option.some.injEq, or_and_right, exists_or, exists_eq_left]

/-- What has come to the balancer before a poll: the calls, and the probes that were answered after them. -/
structure Past where
  calls : List Call
  answers : List (Url × Bool)

section

variable {b : Url} {urls : List Url} {required maxRetries : ℤ}

/-- What has happened to the backends since the process was started. -/
def since (h : urls ≠ []) (required maxRetries : ℤ) (past : Past) : List Action :=
  serveActions maxRetries past.calls (.fresh urls h required) ++ checks past.answers

/-- What a poll finds then. -/
def polled (h : urls ≠ []) (required maxRetries : ℤ) (past : Past) : Dict Url BackendState :=
  lbStatus ((serve maxRetries past.calls (.fresh urls h required)).2.checkAll past.answers)

theorem polled_iff (h : urls ≠ []) (required maxRetries : ℤ) (hurl : b ∈ urls) (past : Past) :
    ((polled h required maxRetries past).get? b = some .healthy ↔
      (∀ a ∈ since h required maxRetries past, a.fails b = false) ∨
        max required 2 ≤ (passesBehind b (since h required maxRetries past) : ℤ)) ∧
    ((polled h required maxRetries past).get? b = some .recovering ↔
      (∃ a ∈ since h required maxRetries past, a.fails b = true) ∧
        0 < passesBehind b (since h required maxRetries past) ∧
        (passesBehind b (since h required maxRetries past) : ℤ) < max required 2) := by
  obtain ⟨hhealthy, -, hrecovering⟩ := History.state_of_matches
    (History.inv_run hurl (healthEvents (since h required maxRetries past))).2.2
  rw [failed_healthEvents, passesSince_healthEvents] at hhealthy hrecovering
  have hstate : (polled h required maxRetries past).get? b =
      (History.run urls required (healthEvents (since h required maxRetries past))).stateOf b := by
    have hchecker : ((serve maxRetries past.calls (.fresh urls h required)).2.checkAll past.answers).healthChecker =
        replay (Balancer.fresh urls h required).healthChecker (since h required maxRetries past) := by
      unfold since
      rw [replay_checks, replay_append, replay_serve]
    change HealthChecker.stateOf (Balancer.healthChecker _) b = _
    rw [hchecker]
    rfl
  rw [hstate]
  refine ⟨hhealthy.trans (or_congr_left ?_), hrecovering⟩
  simp

theorem waited_iff (h : urls ≠ []) (targetStates : List BackendState) (polls : List (Option Past)) :
    waitForBackendState b targetStates (polls.map (Option.map (polled h required maxRetries))) = true ↔
      ∃ past, some past ∈ polls ∧ ∃ state ∈ targetStates, (polled h required maxRetries past).get? b = some state := by
  rw [waitForBackendState_iff]
  constructor
  · rintro ⟨backends, hmem, hstate⟩
    obtain ⟨poll, hpoll, hbackends⟩ := List.mem_map.mp hmem
    obtain ⟨past, rfl, rfl⟩ := Option.map_eq_some_iff.mp hbackends
    exact ⟨past, hpoll, hstate⟩
  · rintro ⟨past, hmem, hstate⟩
    exact ⟨_, List.mem_map.mpr ⟨_, hmem, rfl⟩, hstate⟩

/-- A backend is reported as back if a poll finds a passed probe behind its last failure, and as fully back if
one finds as many of them as are required. -/
theorem recovery_reported_iff (h : urls ≠ []) (hurl : b ∈ urls) (polls : List (Option Past)) :
    (waitForBackendState b [.recovering, .healthy] (polls.map (Option.map (polled h required maxRetries))) = true ↔
      ∃ past, some past ∈ polls ∧ ((∀ a ∈ since h required maxRetries past, a.fails b = false) ∨
        0 < passesBehind b (since h required maxRetries past))) ∧
    (waitForBackendState b [.healthy] (polls.map (Option.map (polled h required maxRetries))) = true ↔
      ∃ past, some past ∈ polls ∧ ((∀ a ∈ since h required maxRetries past, a.fails b = false) ∨
        max required 2 ≤ (passesBehind b (since h required maxRetries past) : ℤ))) := by
  rw [waited_iff, waited_iff]
  constructor
  · refine exists_congr fun past => and_congr_right fun _ => ?_
    obtain ⟨hhealthy, hrecovering⟩ := polled_iff h required maxRetries hurl past
    simp only [List.mem_cons, List.not_mem_nil, or_false, exists_eq_or_imp, exists_eq_left, hhealthy, hrecovering]
    constructor
    · rintro (⟨-, hpassed, -⟩ | hnever | henough)
      · exact .inr hpassed
      · exact .inl hnever
      · exact .inr (by omega)
    · rintro (hnever | hpassed)
      · exact .inr (.inl hnever)
      · by_cases henough : max required 2 ≤ (passesBehind b (since h required maxRetries past) : ℤ)
        · exact .inr (.inr henough)
        · by_cases hnever : ∀ a ∈ since h required maxRetries past, a.fails b = false
          · exact .inr (.inl hnever)
          · -- it has failed, and the probes that it has passed since are too few
            refine .inl ⟨?_, hpassed, by omega⟩
            simpa using hnever
  · refine exists_congr fun past => and_congr_right fun _ => ?_
    obtain ⟨hhealthy, -⟩ := polled_iff h required maxRetries hurl past
    simp only [List.mem_singleton, exists_eq_left, hhealthy]

end

/-- `a` is killed and comes back: a probe fails, nobody answers the first poll, and two probes pass. -/
def killedOnce : List (Option Past) :=
  [some ⟨[], [(str "a", false)]⟩, none, some ⟨[], [(str "a", false), (str "a", true), (str "a", true)]⟩]

theorem recovery_reported_killedOnce :
    waitForBackendState (str "a") [.healthy]
      (killedOnce.map (Option.map (polled (List.cons_ne_nil (str "a") []) 2 1))) = true := by
  refine (recovery_reported_iff (List.cons_ne_nil _ _) (List.mem_singleton_self _) killedOnce).2.mpr ?_
  exact ⟨⟨[], [(str "a", false), (str "a", true), (str "a", true)]⟩, by simp [killedOnce], .inr (by decide)⟩

end FlightPulse.Replay.ApiFailure
