import FlightPulse.LoadBalancer.Trace

/-!
# What the balancer does while backends are down, and when they are back

Some backends answer and the others do not, in probes as in requests. A request that
may be retried then finds one that answers. A backend whose probes pass again gets
requests again, and how many requests it can wait for the next one is bounded.
-/

open Lib Lib.Python

namespace FlightPulse.LoadBalancer

/-! ## Probes that tell the truth -/

/-- Every probe that is applied says whether its backend is live. -/
def Truthful (live : Url → Bool) (answers : List (Url × Bool)) : Prop := ∀ c ∈ answers, c.2 = live c.1

/-- Backends that are down only leave the healthy ones, and backends that are live stay there. -/
structure Steady (live : Url → Bool) (lb lb' : Balancer) : Prop where
  down : ∀ u, live u = false → u ∈ lb'.healthyBackends → u ∈ lb.healthyBackends
  up : ∀ u, live u = true → u ∈ lb.healthyBackends → u ∈ lb'.healthyBackends

section

variable {live : Url → Bool} {lb lb' lb'' : Balancer}

theorem steady_refl (live : Url → Bool) (lb : Balancer) : Steady live lb lb := ⟨fun _ _ h => h, fun _ _ h => h⟩

theorem Steady.trans (h : Steady live lb lb') (h' : Steady live lb' lb'') : Steady live lb lb'' :=
  ⟨fun u hu hmem => h.down u hu (h'.down u hu hmem), fun u hu hmem => h'.up u hu (h.up u hu hmem)⟩

theorem mem_healthy (lb : Balancer) (u : Url) :
    u ∈ lb.healthyBackends ↔ lb.healthChecker.stateOf u = some .healthy :=
  lb.healthChecker.mem_healthyBackends u

theorem steady_checkOne {url : Url} {healthy : Bool} (h : healthy = live url) (lb : Balancer) :
    Steady live lb (lb.checkOne url healthy) := by
  have hframe := lb.healthChecker.applyCheck_frame url healthy
  refine ⟨fun u hu hmem => ?_, fun u hu hmem => ?_⟩
  · rw [mem_healthy] at hmem ⊢
    unfold Balancer.checkOne at hmem
    rcases eq_or_ne u url with rfl | hne
    · -- its probe failed
      rw [h, hu] at hmem
      by_cases hurl : u ∈ lb.healthChecker.backendUrls
      · rw [(HealthChecker.applyCheck_fail hurl).1] at hmem
        cases hmem
      · simpa [HealthChecker.applyCheck, hurl] using hmem
    · rwa [(hframe.elsewhere u hne).1] at hmem
  · rw [mem_healthy] at hmem ⊢
    unfold Balancer.checkOne
    rcases eq_or_ne u url with rfl | hne
    · rw [h, hu, (HealthChecker.applyCheck_pass hmem).1]
      rfl
    · rwa [(hframe.elsewhere u hne).1]

theorem steady_checkAll {answers : List (Url × Bool)} (h : Truthful live answers) (lb : Balancer) :
    Steady live lb (lb.checkAll answers) := by
  induction answers generalizing lb with
  | nil => exact steady_refl live lb
  | cons c answers ih =>
    have hone := steady_checkOne (h c List.mem_cons_self) lb
    exact hone.trans (ih (fun d hd => h d (List.mem_cons_of_mem _ hd)) (lb.checkOne c.1 c.2))

theorem healthyBackends_nodup (lb : Balancer) : lb.healthyBackends.Nodup :=
  lb.healthChecker.state.nodup.sublist (List.filter_sublist.map Prod.fst)

theorem Steady.countP_le (h : Steady live lb lb') :
    lb'.healthyBackends.countP (!live ·) ≤ lb.healthyBackends.countP (!live ·) := by
  rw [List.countP_eq_length_filter, List.countP_eq_length_filter]
  refine (((healthyBackends_nodup lb').filter _).subperm fun u hu => ?_).length_le
  simp only [List.mem_filter, Bool.not_eq_true'] at hu ⊢
  exact ⟨h.down u hu.2 hu.1, hu.2⟩

theorem mem_healthy_markUnhealthy (lb : Balancer) (b u : Url) :
    u ∈ (lb.markUnhealthy b).healthyBackends ↔ u ≠ b ∧ u ∈ lb.healthyBackends := by
  rw [mem_healthy, mem_healthy]
  unfold Balancer.markUnhealthy
  rcases eq_or_ne u b with rfl | hne
  · by_cases hurl : u ∈ lb.healthChecker.backendUrls
    · simp [(HealthChecker.markUnhealthy_self hurl).1]
    · have hnone : lb.healthChecker.stateOf u = none := by
        rw [← Option.not_isSome_iff_eq_none, HealthChecker.stateOf_isSome]
        exact hurl
      simp [HealthChecker.markUnhealthy, hurl, hnone]
  · rw [((lb.healthChecker.markUnhealthy_frame b).elsewhere u hne).1]
    simp [hne]

end

/-! ## One request while backends are down -/

/-- During this request the probes tell the truth, the live backends respond and the others cannot be reached. -/
structure Outage (live : Url → Bool) (req : Request) (turns : ℕ → Turn) : Prop where
  beforeSelection : ∀ k, Truthful live (turns k).beforeSelection
  beforeSize : ∀ k, Truthful live (turns k).beforeSize
  duringForward : ∀ k, Truthful live (turns k).duringForward
  up : ∀ k b, live b = true → ∃ r, (turns k).answer (forwardOnce req b) = .response r
  down : ∀ k b, live b = false → ∃ e, (turns k).answer (forwardOnce req b) = .requestException e

/-- Only backends that are down have been tried, each once, and none of them is healthy any more. -/
structure TriedDown (live : Url → Bool) (lb : Balancer) (st : Loop) : Prop where
  steady : Steady live lb st.lb
  nodup : st.attemptedBackends.Nodup
  tried : ∀ b ∈ st.attemptedBackends, live b = false ∧ b ∈ lb.healthyBackends ∧ b ∉ st.lb.healthyBackends

section

variable {live : Url → Bool} {req : Request} {turns : ℕ → Turn} {lb : Balancer} {st : Loop} {k : ℕ}

theorem steady_selecting (h : Outage live req turns) (st : Loop) (k : ℕ) :
    Steady live st.lb (st.selecting (turns k)) :=
  steady_checkAll (h.beforeSelection k) st.lb

theorem steady_sizing (h : Outage live req turns) (st : Loop) (k : ℕ) :
    Steady live (st.selecting (turns k)) (st.sizing (turns k)) :=
  -- the selection moves the router only
  have hchecks := steady_checkAll (h.beforeSize k) (st.selecting (turns k)).select
  ⟨hchecks.down, hchecks.up⟩

/-- The router never comes back to a backend that was tried. -/
theorem not_tried_of_selected (h : Outage live req turns) (hst : TriedDown live lb st) {b : Url}
    (hb : (st.selecting (turns k)).selected = some b) : b ∉ st.attemptedBackends := by
  intro hmem
  obtain ⟨hdown, -, hnot⟩ := hst.tried b hmem
  exact hnot ((steady_selecting h st k).down b hdown (Balancer.selected_mem hb))

theorem pass_failing (allowed : ℕ) {b : Url} {e : RequestException}
    (hsel : (st.selecting (turns k)).selected = some b) (hskips : st.skips (turns k) b = false)
    (he : (turns k).answer (forwardOnce req b) = .requestException e) :
    (st.pass req allowed k (turns k)).lb.healthChecker =
        (((st.sizing (turns k)).checkAll (turns k).duringForward).markUnhealthy b).healthChecker ∧
      (st.pass req allowed k (turns k)).attemptedBackends = st.attemptedBackends ++ [b] := by
  unfold Loop.pass
  simp only [hsel, hskips, Bool.false_eq_true, if_false, Loop.forward, he]
  split_ifs <;> exact ⟨rfl, rfl⟩

theorem pass_of_triedDown (h : Outage live req turns) (hst : TriedDown live lb st) (allowed : ℕ)
    (hup : ∃ b ∈ lb.healthyBackends, live b = true) :
    (∃ b r, live b = true ∧ (turns k).answer (forwardOnce req b) = .response r ∧
      (st.pass req allowed k (turns k)).reply = some (.relayed (relay r)) ∧
      (st.pass req allowed k (turns k)).attemptedBackends = st.attemptedBackends ++ [b] ∧
      Steady live st.lb (st.pass req allowed k (turns k)).lb) ∨
    TriedDown live lb (st.pass req allowed k (turns k)) ∧ st.Fails req (turns k) := by
  have hselecting := steady_selecting h st k
  have hduring : Steady live (st.sizing (turns k)) ((st.sizing (turns k)).checkAll (turns k).duringForward) :=
    steady_checkAll (h.duringForward k) _
  have hbefore : Steady live st.lb ((st.sizing (turns k)).checkAll (turns k).duringForward) :=
    hselecting.trans ((steady_sizing h st k).trans hduring)
  -- a live backend was healthy and still is, so one is selected
  obtain ⟨b₀, hb₀, hlive₀⟩ := hup
  have hhealthy : b₀ ∈ (st.selecting (turns k)).healthyBackends :=
    hselecting.up b₀ hlive₀ (hst.steady.up b₀ hlive₀ hb₀)
  cases hsel : (st.selecting (turns k)).selected with
  | none =>
    rw [(Balancer.selected_eq_none_iff _).mp hsel] at hhealthy
    cases hhealthy
  | some b =>
    have hnew := not_tried_of_selected h hst hsel
    have hskips : st.skips (turns k) b = false := by simp [Loop.skips, hnew]
    cases hlive : live b with
    | true =>
      obtain ⟨r, hr⟩ := h.up k b hlive
      refine .inl ⟨b, r, hlive, hr, ?_⟩
      unfold Loop.pass
      simp only [hsel, hskips, Bool.false_eq_true, if_false, Loop.forward, hr]
      exact ⟨trivial, trivial, hbefore.down, hbefore.up⟩
    | false =>
      obtain ⟨e, he⟩ := h.down k b hlive
      have hselected : b ∈ lb.healthyBackends :=
        hst.steady.down b hlive (hselecting.down b hlive (Balancer.selected_mem hsel))
      obtain ⟨hlb, htried⟩ := pass_failing allowed hsel hskips he
      have hafter : ∀ u, u ∈ (st.pass req allowed k (turns k)).lb.healthyBackends ↔
          u ≠ b ∧ u ∈ ((st.sizing (turns k)).checkAll (turns k).duringForward).healthyBackends := by
        intro u
        rw [← mem_healthy_markUnhealthy, mem_healthy, mem_healthy, hlb]
      refine .inr ⟨⟨hst.steady.trans ⟨?_, ?_⟩, ?_, ?_⟩, b, e, hsel, hskips, he⟩
      · exact fun u hu hmem => hbefore.down u hu ((hafter u).mp hmem).2
      · intro u hu hmem
        refine (hafter u).mpr ⟨?_, hbefore.up u hu hmem⟩
        rintro rfl
        rw [hlive] at hu
        cases hu
      · rw [htried, List.nodup_append]
        exact ⟨hst.nodup, List.nodup_singleton b, by rintro u hu _ hb rfl; exact hnew (List.mem_singleton.mp hb ▸ hu)⟩
      · intro u hu
        rw [htried, List.mem_append, List.mem_singleton] at hu
        rcases hu with hu | rfl
        · obtain ⟨hdown, hin, hnot⟩ := hst.tried u hu
          exact ⟨hdown, hin, fun hmem => hnot (hbefore.down u hdown ((hafter u).mp hmem).2)⟩
        · exact ⟨hlive, hselected, fun hmem => ((hafter u).mp hmem).1 rfl⟩

theorem triedDown_of_running {allowed : ℕ} (h : Outage live req turns)
    (hup : ∃ b ∈ lb.healthyBackends, live b = true) (hrun : Running req allowed turns lb k) :
    TriedDown live lb (passes req allowed turns lb k) ∧
      (passes req allowed turns lb k).attemptedBackends.length = k := by
  induction k with
  | zero => exact ⟨⟨steady_refl live lb, List.nodup_nil, by simp [passes, Loop.start]⟩, rfl⟩
  | succ k ih =>
    have hk := running_of_le hrun (Nat.le_succ k)
    obtain ⟨hst, hlength⟩ := ih hk
    unfold Running at hrun
    rw [passes_succ hk] at hrun ⊢
    rcases pass_of_triedDown h hst allowed hup (k := k) with ⟨b, r, -, -, hreply, -⟩ | ⟨hst', hfails⟩
    · rw [hreply] at hrun
      cases hrun
    · rw [(Loop.pass_of_fails allowed k hfails).1, hlength]
      exact ⟨hst', rfl⟩

theorem triedDown_length (hst : TriedDown live lb st) :
    st.attemptedBackends.length ≤ lb.healthyBackends.countP (!live ·) := by
  have hsub : st.attemptedBackends ⊆ lb.healthyBackends.filter (!live ·) := by
    intro u hu
    obtain ⟨hdown, hin, -⟩ := hst.tried u hu
    simp [hin, hdown]
  have hlength := (hst.nodup.subperm hsub).length_le
  rwa [List.countP_eq_length_filter]

theorem relayed_at {maxRetries : ℕ} (hretry : retryable req = true) (h : Outage live req turns)
    (hup : ∃ b ∈ lb.healthyBackends, live b = true)
    (hfew : lb.healthyBackends.countP (!live ·) ≤ maxRetries) :
    ∃ k b r, Running req (maxRetries + 1) turns lb k ∧ live b = true ∧
      (turns k).answer (forwardOnce req b) = .response r ∧
      (proxy maxRetries req turns lb).lb =
        ((passes req (maxRetries + 1) turns lb k).pass req (maxRetries + 1) k (turns k)).lb ∧
      (proxy maxRetries req turns lb).attemptedBackends =
        (passes req (maxRetries + 1) turns lb k).attemptedBackends ++ [b] ∧
      (proxy maxRetries req turns lb).reply = some (.relayed (relay r)) ∧
      ((passes req (maxRetries + 1) turns lb k).pass req (maxRetries + 1) k (turns k)).reply =
        some (.relayed (relay r)) ∧
      Steady live (passes req (maxRetries + 1) turns lb k).lb (proxy maxRetries req turns lb).lb := by
  have hallowed : attemptsAllowed maxRetries req = maxRetries + 1 := by
    simp only [attemptsAllowed, hretry, if_true]
    omega
  have hended : ¬ Running req (maxRetries + 1) turns lb (maxRetries + 1) := by
    intro hrun
    obtain ⟨hst, hlength⟩ := triedDown_of_running h hup hrun
    have := triedDown_length hst
    omega
  obtain ⟨k, hk, hrun, heq⟩ := ended_at hended
  obtain ⟨hst, hlength⟩ := triedDown_of_running h hup hrun
  unfold proxy
  simp only [hallowed, heq]
  rcases pass_of_triedDown h hst (maxRetries + 1) hup (k := k) with
    ⟨b, r, hlive, hr, hreply, htried, hsteady⟩ | ⟨hst', hfails⟩
  · exact ⟨k, b, r, hrun, hlive, hr, rfl, htried, by rw [hreply]; rfl, hreply, hsteady⟩
  · -- the last pass failed, so more backends were tried than there are
    obtain ⟨hmore, -, hreply⟩ := Loop.pass_of_fails (maxRetries + 1) k hfails
    have := triedDown_length hst'
    have hrunning : Running req (maxRetries + 1) turns lb (maxRetries + 1) := by
      unfold Running
      rw [heq, hreply, if_pos (by simp [hretry]; omega)]
    exact absurd hrunning hended

theorem TriedDown.left {st' : Loop} (hst : TriedDown live lb st) (h : Steady live st.lb st'.lb) :
    ∀ u ∈ st.attemptedBackends, live u = false ∧ u ∈ lb.healthyBackends ∧ u ∉ st'.lb.healthyBackends := by
  intro u hu
  obtain ⟨hdown, hin, hnot⟩ := hst.tried u hu
  exact ⟨hdown, hin, fun hmem => hnot (h.down u hdown hmem)⟩

/-- A request that may be retried is answered by a live backend, if one is healthy and there are no more
healthy backends that are down than retries. Before that backend each one that is down was tried once at
most, and none of those is healthy any more. -/
theorem failover {maxRetries : ℕ} (hretry : retryable req = true) (h : Outage live req turns)
    (hup : ∃ b ∈ lb.healthyBackends, live b = true)
    (hfew : lb.healthyBackends.countP (!live ·) ≤ maxRetries) :
    ∃ dead b k r,
      live b = true ∧ (turns k).answer (forwardOnce req b) = .response r ∧
      (proxy maxRetries req turns lb).reply = some (.relayed (relay r)) ∧
      (proxy maxRetries req turns lb).attemptedBackends = dead ++ [b] ∧ dead.Nodup ∧
      ∀ u ∈ dead, live u = false ∧ u ∈ lb.healthyBackends ∧
        u ∉ (proxy maxRetries req turns lb).lb.healthyBackends := by
  obtain ⟨k, b, r, hrun, hlive, hr, -, htried, hreply, -, hsteady⟩ := relayed_at hretry h hup hfew
  obtain ⟨hst, -⟩ := triedDown_of_running h hup hrun
  exact ⟨_, b, k, r, hlive, hr, hreply, htried, hst.nodup, hst.left hsteady⟩

end

/-- `a` is down, and nobody has noticed yet. -/
def withoutA : Turn where
  beforeSelection := []
  beforeSize := []
  duringForward := []
  answer := fun out =>
    if out.url.head? = (str "a").head? then .requestException .connectionError
    else .response ⟨200, Dict.empty, []⟩
  elapsedMs := 0

theorem outage_withoutA : Outage (fun u => u.head? != (str "a").head?) getRequest fun _ => withoutA := by
  refine ⟨by simp [Truthful, withoutA], by simp [Truthful, withoutA], by simp [Truthful, withoutA], ?_, ?_⟩
  · intro k b hb
    refine ⟨_, if_neg ?_⟩
    cases b with
    | nil => decide
    | cons c cs => simpa [forwardOnce] using hb
  · intro k b hb
    refine ⟨_, if_pos ?_⟩
    cases b with
    | nil => exact absurd hb (by decide)
    | cons c cs => simpa [forwardOnce] using hb

theorem failover_withoutA : ∃ dead b k r,
    (b.head? != (str "a").head?) = true ∧
    ((fun _ : ℕ => withoutA) k).answer (forwardOnce getRequest b) = .response r ∧
    (proxy 1 getRequest (fun _ => withoutA) threeBackends).reply = some (.relayed (relay r)) ∧
    (proxy 1 getRequest (fun _ => withoutA) threeBackends).attemptedBackends = dead ++ [b] ∧ dead.Nodup ∧
    ∀ u ∈ dead, (u.head? != (str "a").head?) = false ∧ u ∈ threeBackends.healthyBackends ∧
      u ∉ (proxy 1 getRequest (fun _ => withoutA) threeBackends).lb.healthyBackends :=
  failover (by decide) outage_withoutA ⟨str "b", by decide, by decide⟩ (by decide)

/-! ## A backend that is healthy gets requests -/

section

variable {b : Url}

theorem replay_healthy {hc : HealthChecker} {as : List Action} (h : b ∈ hc.healthyBackends)
    (hquiet : ∀ a ∈ as, a.fails b = false) : b ∈ (replay hc as).healthyBackends := by
  induction as generalizing hc with
  | nil => exact h
  | cons a as ih =>
    rw [replay_cons]
    refine ih ?_ fun x hx => hquiet x (List.mem_cons_of_mem _ hx)
    have hone := hquiet a List.mem_cons_self
    rw [HealthChecker.mem_healthyBackends] at h ⊢
    cases a with
    | check url healthy =>
      change (hc.applyCheck url healthy).stateOf b = some .healthy
      rcases eq_or_ne b url with rfl | hne
      · obtain rfl : healthy = true := by simpa [Action.fails] using hone
        rw [(HealthChecker.applyCheck_pass h).1]
        rfl
      · rwa [((hc.applyCheck_frame url healthy).elsewhere b hne).1]
    | failed url =>
      change (hc.markUnhealthy url).stateOf b = some .healthy
      have hne : b ≠ url := by
        rintro rfl
        simp [Action.fails] at hone
      rwa [((hc.markUnhealthy_frame url).elsewhere b hne).1]
    | _ => exact h

/-- The backend is one of the next `d` that the router looks at. -/
def RoundRobinRouter.Near (r : RoundRobinRouter) (b : Url) (d : ℕ) : Prop := r.rotation.Ahead b r.cursor d

theorem near_length {r : RoundRobinRouter} (h : b ∈ r.backendUrls) : r.Near b r.backendUrls.length :=
  r.rotation.ahead_size h r.cursor

theorem near_select {lb : Balancer} {d : ℕ} (hb : b ∈ lb.healthyBackends) (h : lb.router.Near b (d + 1)) :
    lb.selected = some b ∨ lb.select.router.Near b d := by
  have hwants : RoundRobinRouter.wants lb.healthChecker.healthyBackends b = true := by
    unfold RoundRobinRouter.wants
    exact decide_eq_true hb
  obtain ⟨q, hscan, hq⟩ := lb.router.rotation.scan_ahead hwants h
  have hnext := lb.router.nextBackend_moved lb.healthChecker lb.router.cursor
  rw [RoundRobinRouter.moved_self, hscan] at hnext
  have hselected : lb.selected = some (lb.router.rotation.item q) := congrArg Prod.fst hnext
  have hrouter : lb.select.router = lb.router.moved (q + 1) := congrArg Prod.snd hnext
  rcases hq with hq | hq
  · exact .inl (hq ▸ hselected)
  · right
    rw [hrouter]
    exact (lb.router.rotation.ahead_mod).mpr hq

theorem checkAll_router (lb : Balancer) (answers : List (Url × Bool)) :
    (lb.checkAll answers).router = lb.router := by
  induction answers generalizing lb with
  | nil => rfl
  | cons c answers ih => exact ih (lb.checkOne c.1 c.2)

namespace Loop

variable (req : Request) (allowed attempt : ℕ) (st : Loop) (t : Turn)

theorem selecting_router : (st.selecting t).router = st.lb.router := checkAll_router st.lb t.beforeSelection

theorem pass_router : (st.pass req allowed attempt t).lb.router = (st.selecting t).select.router := by
  have hsizing : (st.sizing t).router = (st.selecting t).select.router := checkAll_router _ _
  unfold pass
  split
  · rfl
  · split
    · exact hsizing
    · have hduring : ((st.sizing t).checkAll t.duringForward).router = (st.selecting t).select.router :=
        (checkAll_router _ _).trans hsizing
      unfold forward
      simp only
      split
      · split <;> exact hduring
      · exact hduring
      · exact hduring

theorem forward_of_tried {u : Url} (h : u ∈ (st.pass req allowed attempt t).attemptedBackends) :
    u ∈ st.attemptedBackends ∨ .forward u ∈ st.actions req t := by
  unfold pass at h
  unfold actions
  cases hsel : (st.selecting t).selected with
  | none =>
    simp only [hsel] at h
    exact .inl h
  | some c =>
    cases hs : st.skips t c with
    | true =>
      simp only [hsel, hs, if_true] at h
      exact .inl h
    | false =>
      simp only [hsel, hs, Bool.false_eq_true, if_false, forward] at h
      have hmem : u ∈ st.attemptedBackends ++ [c] := by
        revert h
        split
        · split <;> exact id
        · exact id
        · exact id
      rcases List.mem_append.mp hmem with hmem | hmem
      · exact .inl hmem
      · right
        simp [hs, List.mem_singleton.mp hmem]

/-- A pass while the backend is healthy goes to it, or has gone to it before, or brings it nearer. -/
theorem near_pass {d : ℕ} (hb : b ∈ st.lb.healthyBackends) (hquiet : ∀ a ∈ st.actions req t, a.fails b = false)
    (h : st.lb.router.Near b (d + 1)) :
    b ∈ st.attemptedBackends ∨ .forward b ∈ st.actions req t ∨
      (st.pass req allowed attempt t).lb.router.Near b d := by
  have hhealthy : b ∈ (st.selecting t).healthyBackends := by
    unfold Balancer.healthyBackends
    rw [replay_selecting]
    refine replay_healthy hb fun a ha => hquiet a ?_
    unfold actions
    exact List.mem_append_left _ ha
  rw [← selecting_router st t] at h
  rcases near_select hhealthy h with hsel | hnear
  · cases hs : st.skips t b with
    | true =>
      unfold skips at hs
      simp only [Bool.and_eq_true, decide_eq_true_eq] at hs
      exact .inl hs.1
    | false =>
      right; left
      unfold actions
      simp [hsel, hs]
  · exact .inr (.inr (pass_router req allowed attempt st t ▸ hnear))

end Loop

section

variable {req : Request} {allowed : ℕ} {turns : ℕ → Turn} {lb : Balancer}

theorem forward_of_tried {u : Url} {n : ℕ} (h : u ∈ (passes req allowed turns lb n).attemptedBackends) :
    .forward u ∈ passesActions req allowed turns lb n := by
  induction n with
  | zero => simp [passes, Loop.start] at h
  | succ n ih =>
    unfold passesActions
    simp only
    by_cases hrun : Running req allowed turns lb n
    · rw [passes_succ hrun] at h
      rw [show (passes req allowed turns lb n).reply = none from hrun]
      rcases Loop.forward_of_tried req allowed n _ _ h with hold | hnew
      · exact List.mem_append_left _ (ih hold)
      · exact List.mem_append_right _ hnew
    · rw [passes_succ_of_reply hrun] at h
      exact List.mem_append_left _ (ih h)

theorem near_passes {d n : ℕ} (hb : b ∈ lb.healthyBackends) (h : lb.router.Near b (d + 1))
    (hquiet : ∀ a ∈ passesActions req allowed turns lb (n + 1), a.fails b = false) :
    .forward b ∈ passesActions req allowed turns lb (n + 1) ∨
      (passes req allowed turns lb (n + 1)).lb.router.Near b d := by
  induction n with
  | zero =>
    have hrun : Running req allowed turns lb 0 := rfl
    have hactions : passesActions req allowed turns lb 1 = (Loop.start lb).actions req (turns 0) := rfl
    rw [hactions] at hquiet ⊢
    rw [passes_succ hrun]
    rcases Loop.near_pass req allowed 0 (.start lb) (turns 0) hb hquiet h with htried | hrest
    · cases htried
    · exact hrest
  | succ n ih =>
    have hprefix : ∀ a ∈ passesActions req allowed turns lb (n + 1), a.fails b = false := by
      intro a ha
      exact hquiet a (List.mem_append_left _ ha)
    rw [passesActions] at hquiet ⊢
    rcases ih hprefix with hforward | hnear
    · exact .inl (List.mem_append_left _ hforward)
    by_cases hrun : Running req allowed turns lb (n + 1)
    · rw [show (passes req allowed turns lb (n + 1)).reply = none from hrun] at hquiet ⊢
      have hhealthy : b ∈ (passes req allowed turns lb (n + 1)).lb.healthyBackends := by
        unfold Balancer.healthyBackends
        rw [replay_passes]
        exact replay_healthy hb hprefix
      have hlater := fun a ha => hquiet a (List.mem_append_right _ ha)
      rw [passes_succ hrun]
      -- the backend can only come nearer still
      rcases Loop.near_pass req allowed (n + 1) _ _ hhealthy hlater (hnear.mono (Nat.le_succ d)) with
        htried | hforward | h
      · exact .inl (List.mem_append_left _ (forward_of_tried htried))
      · exact .inl (List.mem_append_right _ hforward)
      · exact .inr h
    · rw [passes_succ_of_reply hrun]
      exact .inr hnear

end

theorem forward_of_near {maxRetries : ℕ} {calls : List Call} {lb : Balancer} {d : ℕ}
    (hb : b ∈ lb.healthyBackends) (h : lb.router.Near b d) (hlength : d ≤ calls.length)
    (hquiet : ∀ a ∈ serveActions maxRetries calls lb, a.fails b = false) :
    .forward b ∈ serveActions maxRetries calls lb := by
  induction calls generalizing lb d with
  | nil =>
    obtain ⟨i, hi, -⟩ := h
    rw [List.length_nil] at hlength
    omega
  | cons c calls ih =>
    cases d with
    | zero =>
      obtain ⟨i, hi, -⟩ := h
      exact absurd hi (Nat.not_lt_zero i)
    | succ d =>
      obtain ⟨n, hallowed⟩ : ∃ n, attemptsAllowed maxRetries c.req = n + 1 := by
        refine ⟨attemptsAllowed maxRetries c.req - 1, ?_⟩
        unfold attemptsAllowed
        split <;> omega
      unfold serveActions at hquiet ⊢
      simp only at hquiet ⊢
      have hcall := fun a ha => hquiet a (List.mem_append_left _ ha)
      rw [hallowed] at hcall ⊢
      rcases near_passes hb h hcall with hforward | hnear
      · exact List.mem_append_left _ hforward
      · refine List.mem_append_right _ (ih ?_ ?_ (by simpa using hlength) ?_)
        · unfold Balancer.healthyBackends
          rw [replay_proxy, hallowed]
          exact replay_healthy hb hcall
        · unfold proxy
          simp only [hallowed]
          exact hnear
        · exact fun a ha => hquiet a (List.mem_append_right _ ha)

end

def answeringTurn (before : List (Url × Bool)) : Turn :=
  ⟨before, [], [], fun _ => .response ⟨200, Dict.empty, []⟩, 0⟩

/-- Of two backends one refuses a request, and passes two probes before the next. -/
def refusedThenPassed : List Call :=
  [⟨getRequest, fun _ => failingTurn []⟩,
    ⟨getRequest, fun _ => answeringTurn [(str "a", true), (str "b", true), (str "a", true)]⟩]

def twoMore : List Call := List.replicate 2 ⟨getRequest, fun _ => answeringTurn []⟩

end FlightPulse.LoadBalancer
