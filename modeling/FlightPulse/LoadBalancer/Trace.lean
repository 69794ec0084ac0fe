import FlightPulse.LoadBalancer.Accounting
import FlightPulse.LoadBalancer.Eviction
import FlightPulse.LoadBalancer.History

/-!
# What the balancer does, in order

A run of requests, with the probes that are answered meanwhile, as one list of actions.
The health states and the counters of each backend are read off that list, and so is
what has to happen before a backend that failed gets a request again.
-/

open Lib Lib.Python

namespace FlightPulse.LoadBalancer

/-! ## Actions -/

inductive Action where
  /-- The answer of a probe is applied. -/
  | check (url : Url) (healthy : Bool)
  /-- The router selects the backend. -/
  | select (url : Url)
  /-- The request is sent. -/
  | forward (url : Url)
  | failed (url : Url)
  | answered (url : Url) (success : Bool)
  /-- The forward raised what `proxy` does not catch. -/
  | escaped (url : Url)
  /-- No backend is healthy. -/
  | refused
deriving DecidableEq

namespace Action

def health : Action → Option History.Event
  | .check url healthy => some (.check url healthy)
  | .failed url => some (.markUnhealthy url)
  | _ => none

/-- A failure of the backend, in a probe or in a request. -/
def fails (b : Url) : Action → Bool
  | .check url healthy => url = b && !healthy
  | .failed url => url = b
  | _ => false

def passes (b : Url) : Action → Bool
  | .check url healthy => url = b && healthy
  | _ => false

/-- What counts as a selection of the backend; a refused request counts for the name `none`. -/
def selects (b : Url) : Action → Bool
  | .failed url => url = b
  | .answered url _ => url = b
  | .refused => str "none" = b
  | _ => false

end Action

def checks (answers : List (Url × Bool)) : List Action := answers.map fun c => .check c.1 c.2

def healthEvents (as : List Action) : List History.Event := as.filterMap Action.health

namespace Loop

def outcome (b : Url) : ForwardResult → List Action
  | .requestException _ => [.failed b]
  | .otherException => [.escaped b]
  | .response r => [.answered b (r.statusCode < 500)]

def actions (req : Request) (st : Loop) (t : Turn) : List Action :=
  checks t.beforeSelection ++
    match (st.selecting t).selected with
    | none => [.refused]
    | some b =>
      .select b :: (checks t.beforeSize ++
        if st.skips t b then []
        else .forward b :: (checks t.duringForward ++ outcome b (t.answer (forwardOnce req b))))

end Loop

def passesActions (req : Request) (allowed : ℕ) (turns : ℕ → Turn) (lb : Balancer) : ℕ → List Action
  | 0 => []
  | k + 1 =>
    let st := passes req allowed turns lb k
    passesActions req allowed turns lb k ++ if st.reply.isSome then [] else st.actions req (turns k)

def serveActions (maxRetries : ℤ) : List Call → Balancer → List Action
  | [], _ => []
  | c :: cs, lb =>
    let allowed := attemptsAllowed maxRetries c.req
    passesActions c.req allowed c.turns lb allowed ++ serveActions maxRetries cs (proxy maxRetries c.req c.turns lb).lb

/-- The balancer when the process starts; without a URL the router raises. -/
def Balancer.fresh (urls : List Url) (h : urls ≠ []) (required : ℤ) : Balancer where
  healthChecker := .init urls required
  router := ⟨urls, h, 0, List.length_pos_iff.mpr h⟩
  metrics := .init
  urls_eq := rfl

/-! ## The health states follow the actions -/

/-- What the actions do to the health checker. -/
def replay (hc : HealthChecker) (as : List Action) : HealthChecker := (healthEvents as).foldl History.record hc

theorem replay_append (hc : HealthChecker) (as bs : List Action) :
    replay hc (as ++ bs) = replay (replay hc as) bs := by
  simp [replay, healthEvents, List.filterMap_append, List.foldl_append]

theorem healthEvents_checks (answers : List (Url × Bool)) :
    healthEvents (checks answers) = answers.map fun c => History.Event.check c.1 c.2 := by
  simp [healthEvents, checks, List.filterMap_map, Function.comp_def, Action.health]

theorem replay_checks (lb : Balancer) (answers : List (Url × Bool)) :
    (lb.checkAll answers).healthChecker = replay lb.healthChecker (checks answers) := by
  unfold replay
  rw [healthEvents_checks]
  induction answers generalizing lb with
  | nil => rfl
  | cons c answers ih => exact ih (lb.checkOne c.1 c.2)

namespace Loop

variable (req : Request) (allowed attempt : ℕ) (st : Loop) (t : Turn)

theorem replay_selecting :
    (st.selecting t).healthChecker = replay st.lb.healthChecker (checks t.beforeSelection) :=
  replay_checks _ _

theorem replay_select (hc : HealthChecker) (b : Url) (as : List Action) :
    replay hc (.select b :: as) = replay hc as := rfl

theorem replay_forward (hc : HealthChecker) (b : Url) (as : List Action) :
    replay hc (.forward b :: as) = replay hc as := rfl

theorem replay_sizing : (st.sizing t).healthChecker =
    replay (st.selecting t).healthChecker (checks t.beforeSize) :=
  replay_checks _ _

theorem replay_pass :
    (st.pass req allowed attempt t).lb.healthChecker = replay st.lb.healthChecker (st.actions req t) := by
  unfold pass actions
  rw [replay_append, ← replay_selecting]
  cases hsel : (st.selecting t).selected with
  | none => rfl
  | some b =>
    simp only
    rw [replay_select, replay_append, ← replay_sizing]
    cases hs : st.skips t b with
    | true => rfl
    | false =>
      simp only [Bool.false_eq_true, if_false, forward]
      rw [replay_forward, replay_append, ← replay_checks]
      cases t.answer (forwardOnce req b) with
      | requestException e =>
        simp only
        split <;> rfl
      | otherException => rfl
      | response r => rfl

end Loop

section

variable (req : Request) (allowed : ℕ) (turns : ℕ → Turn) (lb : Balancer)

theorem replay_passes (n : ℕ) :
    (passes req allowed turns lb n).lb.healthChecker =
      replay lb.healthChecker (passesActions req allowed turns lb n) := by
  induction n with
  | zero => rfl
  | succ n ih =>
    unfold passes passesActions
    simp only
    split
    · rw [List.append_nil, ih]
    · rw [replay_append, ← ih, Loop.replay_pass]

theorem replay_proxy (maxRetries : ℤ) : (proxy maxRetries req turns lb).lb.healthChecker =
    replay lb.healthChecker
      (passesActions req (attemptsAllowed maxRetries req) turns lb (attemptsAllowed maxRetries req)) :=
  replay_passes ..

end

theorem replay_serve (maxRetries : ℤ) (calls : List Call) (lb : Balancer) :
    (serve maxRetries calls lb).2.healthChecker = replay lb.healthChecker (serveActions maxRetries calls lb) := by
  induction calls generalizing lb with
  | nil => rfl
  | cons c calls ih =>
    unfold serve serveActions
    simp only
    rw [replay_append, ih, replay_proxy]

/-! ## The counters of each backend -/

namespace Metrics

/-- What is added to the two counters of backend `b`. -/
structure Counts (m m' : Metrics) (b : Url) (selections failures : ℕ) : Prop where
  selections : (m'.backendSelectionCounts.get? b).getD 0 = (m.backendSelectionCounts.get? b).getD 0 + selections
  failures : (m'.healthCheckFailures.get? b).getD 0 = (m.healthCheckFailures.get? b).getD 0 + failures

variable {m m' m'' : Metrics} {b : Url}

theorem counts_refl (m : Metrics) (b : Url) : Counts m m b 0 0 := ⟨rfl, rfl⟩

theorem Counts.trans {n k n' k' : ℕ} (h : Counts m m' b n k) (h' : Counts m' m'' b n' k') :
    Counts m m'' b (n + n') (k + k') := by
  refine ⟨?_, ?_⟩
  · rw [h'.selections, h.selections]
    omega
  · rw [h'.failures, h.failures]
    omega

theorem getD_increment (counts : Dict Url ℕ) (url b : Url) :
    ((increment counts url).get? b).getD 0 = (counts.get? b).getD 0 + (decide (url = b)).toNat := by
  unfold increment
  rw [Dict.get?_set]
  by_cases h : url = b
  · subst h
    simp
  · simp [h]

theorem counts_record (m : Metrics) (url b : Url) (success : Bool) (ms : ℚ) (retried : Bool) :
    Counts m (m.recordRequest url success ms retried) b (decide (url = b)).toNat 0 :=
  ⟨getD_increment _ _ _, rfl⟩

end Metrics

/-- A probe that failed. -/
def Action.probeFails (b : Url) : Action → Bool
  | .check url healthy => url = b && !healthy
  | _ => false

/-- The counters of `b` after the actions, from what they were before. -/
def Booked (m m' : Metrics) (b : Url) (as : List Action) : Prop :=
  Metrics.Counts m m' b (as.countP (Action.selects b)) (as.countP (Action.probeFails b))

variable {b : Url} {m m' m'' : Metrics} {as bs : List Action}

theorem Booked.append (h : Booked m m' b as) (h' : Booked m' m'' b bs) : Booked m m'' b (as ++ bs) := by
  unfold Booked
  rw [List.countP_append, List.countP_append]
  exact Metrics.Counts.trans h h'

theorem booked_checks (lb : Balancer) (answers : List (Url × Bool)) :
    Booked lb.metrics (lb.checkAll answers).metrics b (checks answers) := by
  induction answers generalizing lb with
  | nil => exact Metrics.counts_refl _ _
  | cons c answers ih =>
    obtain ⟨url, healthy⟩ := c
    have hone : Booked lb.metrics (lb.checkOne url healthy).metrics b [.check url healthy] := by
      cases healthy with
      | true => exact ⟨rfl, by simp [Balancer.checkOne, Action.probeFails]⟩
      | false =>
        refine ⟨by simp [Balancer.checkOne, Metrics.recordHealthCheckFailure, Action.selects], ?_⟩
        have h := Metrics.getD_increment lb.metrics.healthCheckFailures url b
        by_cases hb : url = b <;> simpa [Balancer.checkOne, Metrics.recordHealthCheckFailure, Action.probeFails, hb]
          using h
    exact hone.append (ih (lb.checkOne url healthy))

theorem booked_record (lb : Balancer) (url : Url) (success : Bool) (ms : ℚ) (retried : Bool) {a : Action}
    (hselects : a.selects b = decide (url = b)) (hprobe : a.probeFails b = false) :
    Booked lb.metrics (lb.record url success ms retried).metrics b [a] := by
  have h := Metrics.counts_record lb.metrics url b success ms retried
  unfold Booked
  rw [List.countP_singleton, List.countP_singleton, hselects, hprobe]
  by_cases hb : url = b <;> simpa [hb, Balancer.record] using h

namespace Loop

variable (req : Request) (allowed attempt : ℕ) (st : Loop) (t : Turn)

theorem booked_silent (m : Metrics) {a : Action} (hselects : a.selects b = false) (hprobe : a.probeFails b = false) :
    Booked m m b [a] := by
  unfold Booked
  rw [List.countP_singleton, List.countP_singleton, hselects, hprobe]
  exact Metrics.counts_refl m b

theorem booked_pass : Booked st.lb.metrics (st.pass req allowed attempt t).lb.metrics b (st.actions req t) := by
  unfold pass actions
  refine (booked_checks st.lb t.beforeSelection).append ?_
  cases hsel : (st.selecting t).selected with
  | none => exact booked_record (st.selecting t).select (str "none") false 0 false rfl rfl
  | some u =>
    refine (booked_silent _ rfl rfl).append ((booked_checks (st.selecting t).select t.beforeSize).append ?_)
    cases hs : st.skips t u with
    | true =>
      simp only [hs, if_true]
      exact Metrics.counts_refl _ _
    | false =>
      simp only [hs, Bool.false_eq_true, if_false, forward]
      refine (booked_silent _ rfl rfl).append ((booked_checks (st.sizing t) t.duringForward).append ?_)
      cases t.answer (forwardOnce req u) with
      | requestException e =>
        have h : Booked ((st.sizing t).checkAll t.duringForward).metrics
            ((((st.sizing t).checkAll t.duringForward).markUnhealthy u).record u false t.elapsedMs
              (attempt > 0)).metrics b [.failed u] := booked_record _ _ _ _ _ rfl rfl
        simp only [outcome]
        split <;> exact h
      | otherException => exact ⟨rfl, rfl⟩
      | response r => exact booked_record _ _ _ _ _ rfl rfl

end Loop

theorem booked_passes (req : Request) (allowed : ℕ) (turns : ℕ → Turn) (lb : Balancer) (n : ℕ) :
    Booked lb.metrics (passes req allowed turns lb n).lb.metrics b (passesActions req allowed turns lb n) := by
  induction n with
  | zero => exact Metrics.counts_refl _ _
  | succ n ih =>
    unfold passes passesActions
    simp only
    split
    · rw [List.append_nil]
      exact ih
    · exact ih.append (Loop.booked_pass ..)

theorem booked_serve (maxRetries : ℤ) (calls : List Call) (lb : Balancer) :
    Booked lb.metrics (serve maxRetries calls lb).2.metrics b (serveActions maxRetries calls lb) := by
  induction calls generalizing lb with
  | nil => exact Metrics.counts_refl _ _
  | cons c calls ih =>
    exact (booked_passes c.req _ c.turns lb _).append (ih (proxy maxRetries c.req c.turns lb).lb)

/-! ## Every forward has an outcome -/

/-- The forwards to `b`, and how they ended. -/
def Settled (b : Url) (as : List Action) : Prop :=
  as.count (.forward b) = as.count (.failed b) + as.count (.answered b true) + as.count (.answered b false) +
    as.count (.escaped b)

theorem Settled.append (h : Settled b as) (h' : Settled b bs) : Settled b (as ++ bs) := by
  unfold Settled at h h' ⊢
  simp only [List.count_append]
  omega

theorem settled_checks (answers : List (Url × Bool)) : Settled b (checks answers) := by
  have hzero : ∀ a, (∀ url healthy, a ≠ .check url healthy) → (checks answers).count a = 0 := by
    intro a ha
    rw [List.count_eq_zero]
    intro hmem
    obtain ⟨c, -, rfl⟩ := List.mem_map.mp hmem
    exact ha _ _ rfl
  unfold Settled
  rw [hzero, hzero, hzero, hzero, hzero] <;> simp

theorem settled_forward (u : Url) (result : ForwardResult) : Settled b (.forward u :: Loop.outcome u result) := by
  have hanswered : ∀ success, Settled b [.forward u, .answered u success] := by
    intro success
    cases success <;> by_cases hb : u = b <;> simp [Settled, hb]
  cases result with
  | requestException e => by_cases hb : u = b <;> simp [Settled, Loop.outcome, hb]
  | otherException => by_cases hb : u = b <;> simp [Settled, Loop.outcome, hb]
  | response r => exact hanswered _

theorem settled_actions (req : Request) (st : Loop) (t : Turn) : Settled b (st.actions req t) := by
  unfold Loop.actions
  refine (settled_checks _).append ?_
  split
  · simp [Settled]
  · next u _ =>
    have hselect : Settled b [.select u] := by simp [Settled]
    refine hselect.append ((settled_checks t.beforeSize).append ?_)
    split
    · rfl
    · have hchecks := settled_checks (b := b) t.duringForward
      have hforward := settled_forward (b := b) u (t.answer (forwardOnce req u))
      unfold Settled at hchecks hforward ⊢
      simp only [List.count_cons, List.count_append] at hchecks hforward ⊢
      omega

theorem settled_passes (req : Request) (allowed : ℕ) (turns : ℕ → Turn) (lb : Balancer) (n : ℕ) :
    Settled b (passesActions req allowed turns lb n) := by
  induction n with
  | zero => rfl
  | succ n ih =>
    unfold passesActions
    simp only
    split
    · rw [List.append_nil]
      exact ih
    · exact ih.append (settled_actions ..)

theorem settled_serve (maxRetries : ℤ) (calls : List Call) (lb : Balancer) :
    Settled b (serveActions maxRetries calls lb) := by
  induction calls generalizing lb with
  | nil => rfl
  | cons c calls ih => exact (settled_passes ..).append (ih _)

theorem countP_selects (b : Url) (as : List Action) :
    as.countP (Action.selects b) = as.count (.failed b) + as.count (.answered b true) +
      as.count (.answered b false) + if str "none" = b then as.count .refused else 0 := by
  induction as with
  | nil => simp
  | cons a as ih =>
    rw [List.countP_cons, ih]
    simp only [List.count_cons]
    cases a with
    | failed url =>
      by_cases h : url = b <;> simp [Action.selects, h]
      omega
    | answered url success => cases success <;> by_cases h : url = b <;> simp [Action.selects, h] <;> omega
    | refused =>
      by_cases h : str "none" = b <;> simp [Action.selects, h]
      omega
    | _ => simp [Action.selects]

/-- The counters that `/lb-metrics` shows for a backend: the forwards to it, less those that raised, and
its failed probes. The name `none` counts the requests that found no healthy backend. -/
theorem backend_counters (maxRetries : ℤ) (calls : List Call) (urls : List Url) (h : urls ≠ []) (required : ℤ)
    (b : Url) :
    let as := serveActions maxRetries calls (.fresh urls h required)
    let m := (serve maxRetries calls (.fresh urls h required)).2.metrics
    (m.backendSelectionCounts.get? b).getD 0 + as.count (.escaped b) =
        as.count (.forward b) + (if str "none" = b then as.count .refused else 0) ∧
      (m.healthCheckFailures.get? b).getD 0 = as.count (.check b false) := by
  obtain ⟨hselections, hfailures⟩ := booked_serve (b := b) maxRetries calls (.fresh urls h required)
  have hsettled := settled_serve (b := b) maxRetries calls (.fresh urls h required)
  refine ⟨?_, ?_⟩
  · rw [hselections, countP_selects, hsettled]
    simp only [Balancer.fresh, Metrics.init, Dict.get?_empty, Option.getD_none]
    omega
  · rw [hfailures]
    simp only [Balancer.fresh, Metrics.init, Dict.get?_empty, Option.getD_none, Nat.zero_add, List.count]
    refine List.countP_congr fun a _ => ?_
    cases a with
    | check url healthy => cases healthy <;> simp [Action.probeFails]
    | _ => simp [Action.probeFails]

/-! ## A backend is healthy when it is selected -/

def SelectsHealthy : HealthChecker → List Action → Prop
  | _, [] => True
  | hc, a :: as => (∀ u, a = .select u → u ∈ hc.healthyBackends) ∧ SelectsHealthy (replay hc [a]) as

theorem replay_cons (hc : HealthChecker) (a : Action) (as : List Action) :
    replay hc (a :: as) = replay (replay hc [a]) as := replay_append hc [a] as

theorem selectsHealthy_append {hc : HealthChecker} :
    SelectsHealthy hc (as ++ bs) ↔ SelectsHealthy hc as ∧ SelectsHealthy (replay hc as) bs := by
  induction as generalizing hc with
  | nil => exact (true_and _).symm ▸ Iff.rfl
  | cons a as ih => rw [List.cons_append, SelectsHealthy, SelectsHealthy, ih, replay_cons hc a as, and_assoc]

theorem selectsHealthy_of_none {hc : HealthChecker} (h : ∀ u, .select u ∉ as) : SelectsHealthy hc as := by
  induction as generalizing hc with
  | nil => trivial
  | cons a as ih =>
    refine ⟨?_, ih fun u hu => h u (List.mem_cons_of_mem _ hu)⟩
    rintro u rfl
    exact absurd List.mem_cons_self (h u)

theorem select_notMem_checks (u : Url) (answers : List (Url × Bool)) : .select u ∉ checks answers := by
  simp [checks]

theorem forward_notMem_checks (u : Url) (answers : List (Url × Bool)) : .forward u ∉ checks answers := by
  simp [checks]

theorem selectsHealthy_actions (req : Request) (st : Loop) (t : Turn) :
    SelectsHealthy st.lb.healthChecker (st.actions req t) := by
  unfold Loop.actions
  refine selectsHealthy_append.mpr ⟨selectsHealthy_of_none fun u => select_notMem_checks u _, ?_⟩
  rw [← Loop.replay_selecting]
  split
  · exact selectsHealthy_of_none (by simp)
  · next b hsel =>
    refine ⟨?_, selectsHealthy_of_none fun u => ?_⟩
    · rintro u hu
      rw [Action.select.injEq] at hu
      exact hu ▸ Balancer.selected_mem hsel
    · rw [List.mem_append, not_or]
      refine ⟨select_notMem_checks u _, ?_⟩
      split
      · simp
      · cases t.answer (forwardOnce req b) <;> simp [Loop.outcome, select_notMem_checks]

theorem selectsHealthy_passes (req : Request) (allowed : ℕ) (turns : ℕ → Turn) (lb : Balancer) (n : ℕ) :
    SelectsHealthy lb.healthChecker (passesActions req allowed turns lb n) := by
  induction n with
  | zero => trivial
  | succ n ih =>
    unfold passesActions
    simp only
    refine selectsHealthy_append.mpr ⟨ih, ?_⟩
    rw [← replay_passes]
    split
    · trivial
    · exact selectsHealthy_actions ..

theorem selectsHealthy_serve (maxRetries : ℤ) (calls : List Call) (lb : Balancer) :
    SelectsHealthy lb.healthChecker (serveActions maxRetries calls lb) := by
  induction calls generalizing lb with
  | nil => trivial
  | cons c calls ih =>
    refine selectsHealthy_append.mpr ⟨selectsHealthy_passes .., ?_⟩
    rw [← replay_proxy]
    exact ih _

theorem select_healthy {hc : HealthChecker} {u : Url} (h : SelectsHealthy hc (as ++ .select u :: bs)) :
    u ∈ (replay hc as).healthyBackends :=
  (selectsHealthy_append.mp h).2.1 u rfl

/-! ## A request is sent to the backend that was selected for it -/

/-- Between the selection and the sending, only answers of probes are applied. -/
def SentAsSelected (as : List Action) : Prop :=
  ∀ sent b post, as = sent ++ .forward b :: post →
    ∃ before answers, sent = before ++ .select b :: checks answers

theorem sentAsSelected_of_none (h : ∀ u, .forward u ∉ as) : SentAsSelected as := by
  rintro sent b post rfl
  exact absurd (by simp) (h b)

theorem SentAsSelected.append (h : SentAsSelected as) (h' : SentAsSelected bs) : SentAsSelected (as ++ bs) := by
  intro sent b post heq
  rcases List.append_eq_append_iff.mp heq with ⟨rest, rfl, hbs⟩ | ⟨rest, has, hpost⟩
  · obtain ⟨before, answers, rfl⟩ := h' rest b post hbs
    exact ⟨as ++ before, answers, by rw [List.append_assoc]⟩
  · cases rest with
    | nil =>
      obtain ⟨before, answers, hnil⟩ := h' [] b post hpost.symm
      simp at hnil
    | cons a rest =>
      rw [List.cons_append, List.cons.injEq] at hpost
      exact h sent b rest (hpost.1 ▸ has)

theorem sentAsSelected_forward (b : Url) (answers : List (Url × Bool)) :
    SentAsSelected (.select b :: checks answers ++ [.forward b]) := by
  intro sent u post heq
  rcases List.append_eq_append_iff.mp heq with ⟨rest, rfl, hrest⟩ | ⟨rest, hsent, hpost⟩
  · cases rest with
    | nil =>
      obtain rfl : b = u := by simpa using congrArg List.head? hrest
      exact ⟨[], answers, by simp⟩
    | cons a rest => simp at hrest
  · cases rest with
    | nil =>
      obtain rfl : u = b := by simpa using congrArg List.head? hpost
      exact ⟨[], answers, by simpa using hsent.symm⟩
    | cons a rest =>
      rw [List.cons_append, List.cons.injEq] at hpost
      have hmem : .forward u ∈ Action.select b :: checks answers := by
        rw [hsent, ← hpost.1]
        simp
      simp [forward_notMem_checks] at hmem

theorem sentAsSelected_actions (req : Request) (st : Loop) (t : Turn) : SentAsSelected (st.actions req t) := by
  unfold Loop.actions
  refine (sentAsSelected_of_none fun u => forward_notMem_checks u _).append ?_
  split
  · exact sentAsSelected_of_none (by simp)
  · next b _ =>
    split
    · exact sentAsSelected_of_none (by simp [forward_notMem_checks])
    · have hrest : SentAsSelected (checks t.duringForward ++ Loop.outcome b (t.answer (forwardOnce req b))) := by
        refine sentAsSelected_of_none fun u => ?_
        cases t.answer (forwardOnce req b) <;> simp [Loop.outcome, forward_notMem_checks]
      simpa using (sentAsSelected_forward b t.beforeSize).append hrest

theorem sentAsSelected_passes (req : Request) (allowed : ℕ) (turns : ℕ → Turn) (lb : Balancer) (n : ℕ) :
    SentAsSelected (passesActions req allowed turns lb n) := by
  induction n with
  | zero => exact sentAsSelected_of_none (by simp [passesActions])
  | succ n ih =>
    unfold passesActions
    simp only
    split
    · rw [List.append_nil]
      exact ih
    · exact ih.append (sentAsSelected_actions req _ _)

theorem sentAsSelected_serve (maxRetries : ℤ) (calls : List Call) (lb : Balancer) :
    SentAsSelected (serveActions maxRetries calls lb) := by
  induction calls generalizing lb with
  | nil => exact sentAsSelected_of_none (by simp [serveActions])
  | cons c calls ih => exact (sentAsSelected_passes c.req _ c.turns lb _).append (ih _)

/-! ## A failed backend is left alone until its probes pass -/

/-- The passes of `b` behind its last failure. -/
def passesBehind (b : Url) (as : List Action) : ℕ :=
  (as.rtakeWhile fun a => !a.fails b).countP (Action.passes b)

theorem failed_healthEvents : History.Failed b (healthEvents as) ↔ ∃ a ∈ as, a.fails b = true := by
  unfold History.Failed healthEvents
  simp only [List.mem_filterMap]
  constructor
  · rintro ⟨e, ⟨a, ha, hae⟩, he⟩
    refine ⟨a, ha, ?_⟩
    cases a <;> cases hae <;> exact he
  · rintro ⟨a, ha, hfails⟩
    cases a with
    | check url healthy => exact ⟨.check url healthy, ⟨_, ha, rfl⟩, hfails⟩
    | failed url => exact ⟨.markUnhealthy url, ⟨_, ha, rfl⟩, hfails⟩
    | _ => cases hfails

theorem passesBehind_failure (as : List Action) {a : Action} (ha : a.fails b = true) :
    passesBehind b (as ++ [a]) = 0 := by
  unfold passesBehind
  rw [List.rtakeWhile_concat_neg _ _ _ (by simp [ha])]
  rfl

theorem passesBehind_snoc (as : List Action) {a : Action} (ha : a.fails b = false) :
    passesBehind b (as ++ [a]) = passesBehind b as + if a.passes b then 1 else 0 := by
  unfold passesBehind
  rw [List.rtakeWhile_concat_pos _ _ _ (by simp [ha]), List.countP_append, List.countP_singleton]

theorem passesSince_healthEvents (b : Url) (as : List Action) :
    History.passesSince b (healthEvents as) = passesBehind b as := by
  induction as using List.reverseRecOn with
  | nil => rfl
  | append_singleton as a ih =>
    have happend : healthEvents (as ++ [a]) = healthEvents as ++ a.health.toList := by
      simp [healthEvents, List.filterMap_append, List.filterMap_cons]
      cases a.health <;> rfl
    rw [happend]
    cases hfails : a.fails b with
    | true =>
      rw [passesBehind_failure as hfails]
      cases a with
      | check url healthy => exact History.passesSince_failure hfails
      | failed url => exact History.passesSince_failure hfails
      | _ => cases hfails
    | false =>
      rw [passesBehind_snoc as hfails, ← ih]
      cases a with
      | check url healthy => exact History.passesSince_snoc hfails
      | failed url => exact History.passesSince_snoc hfails
      | _ => simp [Action.health, Action.passes]

theorem stateOf_failure {hc : HealthChecker} (hurl : b ∈ hc.backendUrls) {a : Action} (ha : a.fails b = true) :
    (replay hc [a]).stateOf b = some .unhealthy := by
  cases a with
  | check url healthy =>
    simp only [Action.fails, Bool.and_eq_true, decide_eq_true_eq, Bool.not_eq_true'] at ha
    obtain ⟨rfl, rfl⟩ := ha
    exact (HealthChecker.applyCheck_fail hurl).1
  | failed url =>
    obtain rfl : url = b := of_decide_eq_true ha
    exact (HealthChecker.markUnhealthy_self hurl).1
  | _ => cases ha

theorem stateOf_pass {hc : HealthChecker} {state : BackendState} (hstate : hc.stateOf b = some state) {a : Action}
    (ha : a.passes b = true) :
    ∃ now, (replay hc [a]).stateOf b = some now ∧ now ≠ .unhealthy := by
  obtain rfl : a = .check b true := by
    cases a <;> simp_all [Action.passes]
  exact ⟨_, (HealthChecker.applyCheck_pass hstate).1, HealthChecker.passNext_ne_unhealthy _ _ _⟩

theorem stateOf_elsewhere (hc : HealthChecker) {a : Action} (hfails : a.fails b = false)
    (hpasses : a.passes b = false) :
    (replay hc [a]).stateOf b = hc.stateOf b := by
  cases a with
  | check url healthy =>
    have hne : b ≠ url := by
      rintro rfl
      cases healthy
      · simp [Action.fails] at hfails
      · simp [Action.passes] at hpasses
    exact ((hc.applyCheck_frame url healthy).elsewhere b hne).1
  | failed url =>
    have hne : b ≠ url := fun h => of_decide_eq_false hfails h.symm
    exact ((hc.markUnhealthy_frame url).elsewhere b hne).1
  | _ => rfl

theorem unhealthy_replay {hc : HealthChecker} (h : hc.stateOf b = some .healthy) (as : List Action) :
    (∃ state, (replay hc as).stateOf b = some state) ∧
    ((replay hc as).stateOf b = some .unhealthy ↔ (∃ a ∈ as, a.fails b = true) ∧ passesBehind b as = 0) := by
  induction as using List.reverseRecOn with
  | nil => exact ⟨⟨_, h⟩, by simp [replay, healthEvents, h]⟩
  | append_singleton as a ih =>
    obtain ⟨⟨state, hstate⟩, hunhealthy⟩ := ih
    rw [replay_append]
    cases hfails : a.fails b with
    | true =>
      have hurl : b ∈ (replay hc as).backendUrls := by
        rw [← HealthChecker.stateOf_isSome, hstate]
        rfl
      have hnow := stateOf_failure hurl hfails
      rw [passesBehind_failure as hfails]
      exact ⟨⟨_, hnow⟩, iff_of_true hnow ⟨⟨a, by simp, hfails⟩, rfl⟩⟩
    | false =>
      have hsame : (∃ x ∈ as ++ [a], x.fails b = true) ↔ ∃ x ∈ as, x.fails b = true := by
        simp [or_and_right, exists_or, hfails]
      rw [passesBehind_snoc as hfails, hsame]
      cases hpasses : a.passes b with
      | true =>
        obtain ⟨now, hnow, hne⟩ := stateOf_pass hstate hpasses
        rw [hnow]
        exact ⟨⟨_, rfl⟩, iff_of_false (fun h => hne (Option.some.inj h)) (by simp)⟩
      | false =>
        rw [stateOf_elsewhere _ hfails hpasses]
        exact ⟨⟨_, hstate⟩, by simpa using hunhealthy⟩

/-- The passes behind the last failure are all behind any failure before it. -/
theorem passesBehind_split (as mid : List Action) {a : Action} (ha : a.fails b = true) :
    ∃ early late, mid = early ++ late ∧ (∀ x ∈ late, x.fails b = false) ∧
      passesBehind b (as ++ a :: mid) = late.countP (Action.passes b) := by
  let late := (as ++ a :: mid).rtakeWhile fun x => !x.fails b
  have hlate : ∀ x ∈ late, x.fails b = false := by
    intro x hx
    simpa using List.mem_rtakeWhile_imp hx
  have hsuffix : late <:+ a :: mid := by
    rcases List.suffix_or_suffix_of_suffix (List.rtakeWhile_suffix _ _) (List.suffix_append as (a :: mid)) with h | h
    · exact h
    · have hfalse := hlate a (h.subset List.mem_cons_self)
      rw [ha] at hfalse
      cases hfalse
  rcases List.suffix_cons_iff.mp hsuffix with heq | ⟨early, hearly⟩
  · have hfalse := hlate a (heq ▸ List.mem_cons_self)
    rw [ha] at hfalse
    cases hfalse
  · exact ⟨early, late, hearly.symm, hlate, rfl⟩

theorem run_backendUrls (urls : List Url) (required : ℤ) (es : List History.Event) :
    (History.run urls required es).backendUrls = urls := by
  induction es using List.reverseRecOn with
  | nil => rfl
  | append_singleton es e ih => rw [History.run_snoc, (History.record_frame _ e).backendUrls, ih]

/-- A request that is sent to a backend was sent there by a selection, with nothing but answers of probes in
between; and once the backend has failed, in a probe or in a request, it is not selected before `max required 2`
of its probes have passed without another failure. -/
theorem circuit_breaker (maxRetries : ℤ) (calls : List Call) (urls : List Url) (h : urls ≠ []) (required : ℤ)
    {sent post : List Action} {b : Url}
    (hrun : serveActions maxRetries calls (.fresh urls h required) = sent ++ .forward b :: post) :
    ∃ before answers, sent = before ++ .select b :: checks answers ∧
      ∀ pre a mid, before = pre ++ a :: mid → a.fails b = true →
        ∃ early late, mid = early ++ late ∧ (∀ x ∈ late, x.fails b = false) ∧
          max required 2 ≤ (late.countP (Action.passes b) : ℤ) := by
  obtain ⟨before, answers, rfl⟩ := sentAsSelected_serve maxRetries calls _ sent b post hrun
  refine ⟨before, answers, rfl, ?_⟩
  rintro pre a mid rfl ha
  have hall := selectsHealthy_serve maxRetries calls (.fresh urls h required)
  rw [hrun, List.append_assoc, List.cons_append] at hall
  have hhealthy := select_healthy hall
  have hurl : b ∈ urls := by
    have hmem := HealthChecker.mem_backendUrls_of_healthy hhealthy
    exact run_backendUrls urls required _ ▸ hmem
  rw [HealthChecker.mem_healthyBackends] at hhealthy
  have hstate := (History.state_of_matches (History.inv_run hurl _).2.2).1.mp hhealthy
  rw [failed_healthEvents, passesSince_healthEvents] at hstate
  obtain ⟨early, late, hmid, hlate, hcount⟩ := passesBehind_split pre mid ha
  refine ⟨early, late, hmid, hlate, hcount ▸ hstate.resolve_left fun hnever => hnever ⟨a, ?_, ha⟩⟩
  simp

/-- A refused connection, two probes that pass, and the next request, which is sent behind a probe that fails. -/
def refusedThenServed : List Call :=
  [⟨getRequest, fun _ => failingTurn []⟩,
    ⟨getRequest, fun _ => ⟨[(str "a", true), (str "a", true)], [(str "a", false)], [],
      fun _ => .response ⟨200, Dict.empty, []⟩, 0⟩⟩]

theorem refusedThenServed_actions : serveActions 0 refusedThenServed (.fresh [str "a"] (by decide) 2) =
    [.select (str "a"), .forward (str "a"), .failed (str "a"), .check (str "a") true, .check (str "a") true,
      .select (str "a"), .check (str "a") false] ++ .forward (str "a") :: [.answered (str "a") true] := by
  decide

theorem circuit_breaker_refused : ∃ before answers,
    [.select (str "a"), .forward (str "a"), .failed (str "a"), .check (str "a") true, .check (str "a") true,
      .select (str "a"), .check (str "a") false] = before ++ .select (str "a") :: checks answers ∧
    ∀ pre a mid, before = pre ++ a :: mid → a.fails (str "a") = true →
      ∃ early late, mid = early ++ late ∧ (∀ x ∈ late, x.fails (str "a") = false) ∧
        max 2 2 ≤ (late.countP (Action.passes (str "a")) : ℤ) :=
  circuit_breaker 0 refusedThenServed [str "a"] (by decide) 2 refusedThenServed_actions

theorem backend_counters_refused :
    ((serve 0 refusedThenServed (.fresh [str "a"] (by decide) 2)).2.metrics.backendSelectionCounts.get?
      (str "a")).getD 0 = 2 := by
  have h := (backend_counters 0 refusedThenServed [str "a"] (by decide) 2 (str "a")).1
  rw [refusedThenServed_actions] at h
  have hnone : str "none" ≠ str "a" := by decide
  simpa [hnone] using h

end FlightPulse.LoadBalancer
