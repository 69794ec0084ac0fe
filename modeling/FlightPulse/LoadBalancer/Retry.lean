import FlightPulse.LoadBalancer.Server

/-!
# What the retry loop of the proxy guarantees

Where the retries of one request go, and how many forwards it gets. Each result
holds up to the line that skips a pass: `WrongTurn` is the pass where that line
should have skipped and did not, `Skips` is the pass that it wastes.
-/

open Lib Lib.Python

namespace FlightPulse.LoadBalancer

/-! ## One selection -/

namespace Balancer

theorem selected_eq_none_iff (lb : Balancer) : lb.selected = none ↔ lb.healthyBackends = [] := by
  refine lb.router.returned_eq_none_iff (fun _ => lb.healthChecker) ?_ 0
  intro _ url hurl
  rw [lb.urls_eq]
  exact HealthChecker.mem_backendUrls_of_healthy hurl

theorem selected_mem {lb : Balancer} {b : Url} (h : lb.selected = some b) : b ∈ lb.healthyBackends :=
  lb.router.returned_mem (fun _ => lb.healthChecker) (k := 0) h

end Balancer

/-! ## One pass -/

namespace Loop

variable (req : Request) (allowed attempt : ℕ) (st : Loop) (t : Turn)

/-- A pass that selects a backend and does not forward to it. -/
def Skips : Prop := ∃ b, (st.selecting t).selected = some b ∧ st.skips t b = true

/-- A pass that ends the request: no backend is healthy, or the forward is answered. -/
def Settles : Prop :=
  (st.selecting t).healthyBackends = [] ∨
  ∃ b, (st.selecting t).selected = some b ∧ st.skips t b = false ∧
    ∀ e, t.answer (forwardOnce req b) ≠ .requestException e

def Fails : Prop :=
  ∃ b e, (st.selecting t).selected = some b ∧ st.skips t b = false ∧
    t.answer (forwardOnce req b) = .requestException e

theorem pass_trichotomy : st.Skips t ∨ st.Settles req t ∨ st.Fails req t := by
  cases h : (st.selecting t).selected with
  | none => exact Or.inr (Or.inl (Or.inl ((Balancer.selected_eq_none_iff _).mp h)))
  | some b =>
    cases hs : st.skips t b with
    | true => exact Or.inl ⟨b, h, hs⟩
    | false =>
      cases ha : t.answer (forwardOnce req b) with
      | requestException e => exact Or.inr (Or.inr ⟨b, e, h, hs, ha⟩)
      | response r => exact Or.inr (Or.inl (Or.inr ⟨b, h, hs, by simp [ha]⟩))
      | otherException => exact Or.inr (Or.inl (Or.inr ⟨b, h, hs, by simp [ha]⟩))

variable {req allowed attempt st t}

theorem not_skips_of_fails (h : st.Fails req t) : ¬ st.Skips t := by
  obtain ⟨b, e, hb, hs, -⟩ := h
  rintro ⟨b', hb', hs'⟩
  rw [hb, Option.some.injEq] at hb'
  subst hb'
  rw [hs] at hs'
  simp at hs'

variable (req allowed attempt) in
theorem pass_of_skips (h : st.Skips t) :
    (st.pass req allowed attempt t).attemptedBackends = st.attemptedBackends ∧
    (st.pass req allowed attempt t).selections = st.selections ++ [st.selection t none] ∧
    (st.pass req allowed attempt t).reply = st.reply := by
  obtain ⟨b, hb, hs⟩ := h
  simp [pass, hb, hs]

variable (allowed attempt) in
theorem pass_of_fails (h : st.Fails req t) :
    (st.pass req allowed attempt t).attemptedBackends.length = st.attemptedBackends.length + 1 ∧
    (∃ e, (st.pass req allowed attempt t).selections =
      st.selections ++ [st.selection t (some (.requestException e))]) ∧
    (st.pass req allowed attempt t).reply =
      if retryable req && attempt < allowed - 1 then none else some .badGateway := by
  obtain ⟨b, e, hb, hs, ha⟩ := h
  unfold pass
  simp only [hb, hs, Bool.false_eq_true, if_false, forward, ha]
  split_ifs <;> exact ⟨by simp, ⟨e, rfl⟩, rfl⟩

variable (allowed attempt) in
theorem pass_of_settles (h : st.Settles req t) :
    (st.pass req allowed attempt t).attemptedBackends.length ≤ st.attemptedBackends.length + 1 ∧
    ((st.pass req allowed attempt t).reply = some .noHealthyBackend ∧
        (st.pass req allowed attempt t).selections = st.selections ++ [st.selection t none] ∧
        (st.selecting t).healthyBackends = [] ∨
      (st.pass req allowed attempt t).reply = some .raised ∨
      ∃ r, (st.pass req allowed attempt t).reply = some (.relayed r)) := by
  rcases h with h | ⟨b, hb, hs, ha⟩
  · have hnone := (Balancer.selected_eq_none_iff _).mpr h
    simp [pass, hnone, h]
  · unfold pass
    simp only [hb, hs, Bool.false_eq_true, if_false, forward]
    cases hans : t.answer (forwardOnce req b) with
    | requestException e => exact absurd hans (ha e)
    | otherException => simp
    | response r => simp

variable (req allowed attempt st t) in
theorem pass_selections :
    (st.pass req allowed attempt t).selections = st.selections ++ [st.selection t none] ∧
      (∀ b, (st.selecting t).selected = some b → st.skips t b = true) ∨
    ∃ b r, (st.selecting t).selected = some b ∧ st.skips t b = false ∧
      (st.pass req allowed attempt t).selections = st.selections ++ [st.selection t (some r)] := by
  cases h : (st.selecting t).selected with
  | none => exact Or.inl ⟨by simp [pass, h], by simp⟩
  | some b =>
    cases hs : st.skips t b with
    | true => exact Or.inl ⟨by simp [pass, h, hs], by rintro _ ⟨⟩; exact hs⟩
    | false =>
      refine Or.inr ⟨b, t.answer (forwardOnce req b), rfl, hs, ?_⟩
      unfold pass
      simp only [h, hs, Bool.false_eq_true, if_false, forward]
      split
      · split <;> rfl
      · rfl
      · rfl

theorem pass_relayed {resp : Response} (hrun : st.reply = none)
    (h : (st.pass req allowed attempt t).reply = some (.relayed resp)) :
    ∃ b r, t.answer (forwardOnce req b) = .response r ∧ resp = relay r := by
  unfold pass at h
  cases hsel : (st.selecting t).selected with
  | none => simp [hsel] at h
  | some b =>
    cases hs : st.skips t b with
    | true => simp [hsel, hs, hrun] at h
    | false =>
      simp only [hsel, hs, Bool.false_eq_true, if_false, forward] at h
      cases hans : t.answer (forwardOnce req b) with
      | requestException e =>
        rw [hans] at h
        dsimp only at h
        split_ifs at h
        cases h
      | otherException =>
        rw [hans] at h
        cases h
      | response r =>
        rw [hans] at h
        simp only [Option.some.injEq, Reply.relayed.injEq] at h
        exact ⟨b, r, hans, h.symm⟩

end Loop

/-! ## The loop -/

section Passes

variable (req : Request) (allowed : ℕ) (turns : ℕ → Turn) (lb : Balancer)

def Running (k : ℕ) : Prop := (passes req allowed turns lb k).reply = none

variable {req allowed turns lb}

theorem passes_succ {k : ℕ} (h : Running req allowed turns lb k) :
    passes req allowed turns lb (k + 1) =
      (passes req allowed turns lb k).pass req allowed k (turns k) := by
  simp [passes, show (passes req allowed turns lb k).reply = none from h]

theorem passes_succ_of_reply {k : ℕ} (h : ¬ Running req allowed turns lb k) :
    passes req allowed turns lb (k + 1) = passes req allowed turns lb k := by
  have hsome : (passes req allowed turns lb k).reply.isSome = true := by
    rw [Option.isSome_iff_ne_none]
    exact h
  simp [passes, hsome]

theorem passes_frozen {k n : ℕ} (h : ¬ Running req allowed turns lb k) (hkn : k ≤ n) :
    passes req allowed turns lb n = passes req allowed turns lb k := by
  induction n, hkn using Nat.le_induction with
  | base => rfl
  | succ n _ ih =>
    rw [passes_succ_of_reply, ih]
    unfold Running
    rw [ih]
    exact h

theorem running_of_le {k n : ℕ} (h : Running req allowed turns lb n) (hkn : k ≤ n) :
    Running req allowed turns lb k := by
  by_contra hk
  have := passes_frozen hk hkn
  unfold Running at h
  rw [this] at h
  exact hk h

theorem ended_at {n : ℕ} (h : ¬ Running req allowed turns lb n) :
    ∃ k, k < n ∧ Running req allowed turns lb k ∧
      passes req allowed turns lb n = (passes req allowed turns lb k).pass req allowed k (turns k) := by
  induction n with
  | zero => exact absurd rfl h
  | succ n ih =>
    by_cases hn : Running req allowed turns lb n
    · exact ⟨n, by omega, hn, passes_succ hn⟩
    · obtain ⟨k, hk, hr, heq⟩ := ih hn
      exact ⟨k, by omega, hr, by rw [passes_succ_of_reply hn, heq]⟩

theorem proxy_relayed {maxRetries : ℤ} {resp : Response}
    (h : (proxy maxRetries req turns lb).reply = some (.relayed resp)) :
    ∃ k b r, (turns k).answer (forwardOnce req b) = .response r ∧ resp = relay r := by
  have hreply : (passes req (attemptsAllowed maxRetries req) turns lb (attemptsAllowed maxRetries req)).reply =
      some (.relayed resp) := by
    unfold proxy at h
    cases hst : (passes req (attemptsAllowed maxRetries req) turns lb (attemptsAllowed maxRetries req)).reply with
    | none => simp [hst] at h
    | some reply => simpa [hst] using h
  have hended : ¬ Running req (attemptsAllowed maxRetries req) turns lb (attemptsAllowed maxRetries req) := by
    intro hrun
    rw [show (passes req _ turns lb _).reply = none from hrun] at hreply
    cases hreply
  obtain ⟨k, -, hrun, heq⟩ := ended_at hended
  rw [heq] at hreply
  obtain ⟨b, r, hans, hresp⟩ := Loop.pass_relayed hrun hreply
  exact ⟨k, b, r, hans, hresp⟩

end Passes

/-! ## Where the retries go -/

/-- A forward goes to a backend that has not been tried, if one of those is healthy. -/
def Selection.GoesElsewhere (sel : Selection) : Prop :=
  sel.forwarded.isSome → (∃ u ∈ sel.healthy, u ∉ sel.tried) → ∀ b, sel.chosen = some b → b ∉ sel.tried

/-- The router is at a tried backend, an untried one is healthy, and yet no more backends are healthy
than forwards have been made. -/
def Loop.WrongTurn (st : Loop) (t : Turn) : Prop :=
  ∃ b, (st.selecting t).selected = some b ∧ b ∈ st.attemptedBackends ∧
    (∃ u ∈ (st.selecting t).healthyBackends, u ∉ st.attemptedBackends) ∧
    (st.sizing t).healthyBackends.length ≤ st.attemptedBackends.length

theorem goesElsewhere_pass (req : Request) (allowed attempt : ℕ) (st : Loop) (t : Turn) :
    (∀ sel ∈ (st.pass req allowed attempt t).selections, sel.GoesElsewhere) ↔
      (∀ sel ∈ st.selections, sel.GoesElsewhere) ∧ ¬ st.WrongTurn t := by
  rcases Loop.pass_selections req allowed attempt st t with ⟨hsel, hskip⟩ | ⟨b, r, hb, hs, hsel⟩
  · have hright : ¬ st.WrongTurn t := by
      rintro ⟨b, hb, -, -, hle⟩
      have := hskip b hb
      unfold Loop.skips at this
      simp only [Bool.and_eq_true, decide_eq_true_eq] at this
      omega
    have hlast : (st.selection t none).GoesElsewhere := by
      intro h
      simp [Loop.selection] at h
    rw [hsel]
    simp [hright, hlast, or_imp, forall_and]
  · have hlast : (st.selection t (some r)).GoesElsewhere ↔ ¬ st.WrongTurn t := by
      unfold Loop.skips at hs
      simp only [Bool.and_eq_false_iff, decide_eq_false_iff_not] at hs
      constructor
      · rintro h ⟨b', hb', hmem, hex, -⟩
        exact h rfl hex b' hb' hmem
      · intro h _ hex b' hb' hmem
        unfold Loop.selection at hex hb' hmem
        refine h ⟨b', hb', hmem, hex, ?_⟩
        rw [hb, Option.some.injEq] at hb'
        subst hb'
        rcases hs with hs | hs
        · exact absurd hmem hs
        · omega
    rw [hsel]
    simp only [List.mem_append, List.mem_singleton, or_imp, forall_and, forall_eq, hlast]

theorem goesElsewhere_passes (req : Request) (allowed : ℕ) (turns : ℕ → Turn) (lb : Balancer) (n : ℕ) :
    (∀ sel ∈ (passes req allowed turns lb n).selections, sel.GoesElsewhere) ↔
      ∀ k < n, Running req allowed turns lb k → ¬ (passes req allowed turns lb k).WrongTurn (turns k) := by
  induction n with
  | zero => simp [passes, Loop.start]
  | succ n ih =>
    by_cases hn : Running req allowed turns lb n
    · rw [passes_succ hn, goesElsewhere_pass, ih, Nat.forall_lt_succ_right]
      simp [hn]
    · rw [passes_succ_of_reply hn, ih, Nat.forall_lt_succ_right]
      simp [hn]

/-- The retries of a request go to other healthy backends exactly when its loop never takes a wrong
turn. -/
theorem retries_go_elsewhere_iff (maxRetries : ℤ) (req : Request) (turns : ℕ → Turn) (lb : Balancer) :
    (∀ sel ∈ (proxy maxRetries req turns lb).selections, sel.GoesElsewhere) ↔
      ∀ k < attemptsAllowed maxRetries req,
        Running req (attemptsAllowed maxRetries req) turns lb k →
        ¬ (passes req (attemptsAllowed maxRetries req) turns lb k).WrongTurn (turns k) :=
  goesElsewhere_passes req (attemptsAllowed maxRetries req) turns lb (attemptsAllowed maxRetries req)

def failingTurn (checks : List (Url × Bool)) : Turn :=
  ⟨checks, [], [], fun _ => .requestException .connectionError, 0⟩

def threeBackends : Balancer where
  healthChecker := .init [str "a", str "b", str "c"] 2
  router := ⟨[str "a", str "b", str "c"], by decide, 0, by decide⟩
  metrics := .init
  urls_eq := rfl

def getRequest : Request := ⟨.get, str "version", [], [], []⟩

/-- `a` and `c` have failed and `a` and `b` have come back: the third forward goes to `a` again. -/
theorem retry_to_tried_backend :
    ¬ ∀ sel ∈ (proxy 2 getRequest
        (fun
          | 0 => failingTurn [(str "b", false)]
          | 1 => failingTurn []
          | _ => failingTurn [(str "a", true), (str "a", true), (str "b", true), (str "b", true)])
        threeBackends).selections, sel.GoesElsewhere := by
  intro h
  have hlast := h ⟨[str "a", str "c"], [str "a", str "b"], some (str "a"),
    some (.requestException .connectionError)⟩ (List.mem_of_getLast? rfl)
  exact hlast rfl ⟨str "b", by decide, by decide⟩ (str "a") rfl (by decide)

/-! ## How many forwards are made -/

def Reply.IsOwn : Reply → Prop
  | .noHealthyBackend => True
  | .badGateway => True
  | _ => False

/-- All the allowed forwards were made and failed, or the last selection saw no healthy backend. -/
def Loop.Justified (allowed : ℕ) (st : Loop) : Prop :=
  (st.attemptedBackends.length = allowed ∧
    ∀ sel ∈ st.selections, ∀ r, sel.forwarded = some r → ∃ e, r = .requestException e) ∨
  ∃ sel, st.selections.getLast? = some sel ∧ sel.healthy = []

section Budget

variable {req : Request} {allowed : ℕ} {turns : ℕ → Turn} {lb : Balancer}

variable (req allowed turns lb) in
theorem forwards_le (k : ℕ) : (passes req allowed turns lb k).attemptedBackends.length ≤ k := by
  induction k with
  | zero => simp [passes, Loop.start]
  | succ k ih =>
    by_cases hk : Running req allowed turns lb k
    · rw [passes_succ hk]
      rcases Loop.pass_trichotomy req (passes req allowed turns lb k) (turns k) with h | h | h
      · rw [(Loop.pass_of_skips _ _ _ h).1]
        omega
      · have := (Loop.pass_of_settles allowed k h).1
        omega
      · rw [(Loop.pass_of_fails _ _ h).1]
        omega
    · rw [passes_succ_of_reply hk]
      omega

theorem not_settles_of_running {k n : ℕ} (h : Running req allowed turns lb n) (hk : k < n) :
    ¬ (passes req allowed turns lb k).Settles req (turns k) := by
  intro hs
  have hk1 := running_of_le h (by omega : k + 1 ≤ n)
  unfold Running at hk1
  rw [passes_succ (running_of_le h (by omega))] at hk1
  rcases (Loop.pass_of_settles allowed k hs).2 with ⟨hr, -⟩ | hr | ⟨r, hr⟩ <;>
    simp [hr] at hk1

theorem forwards_of_running {n : ℕ} (h : Running req allowed turns lb n) :
    ((passes req allowed turns lb n).attemptedBackends.length = n ↔
      ∀ k < n, ¬ (passes req allowed turns lb k).Skips (turns k)) ∧
    ∀ sel ∈ (passes req allowed turns lb n).selections, ∀ r, sel.forwarded = some r →
      ∃ e, r = .requestException e := by
  induction n with
  | zero => simp [passes, Loop.start]
  | succ n ih =>
    have hn := running_of_le h (Nat.le_succ n)
    obtain ⟨ih1, ih2⟩ := ih hn
    have hle := forwards_le req allowed turns lb n
    rw [passes_succ hn, Nat.forall_lt_succ_right, ← ih1]
    rcases Loop.pass_trichotomy req (passes req allowed turns lb n) (turns n) with hs | hs | hs
    · obtain ⟨p1, p2, -⟩ := Loop.pass_of_skips req allowed n hs
      refine ⟨?_, ?_⟩
      · rw [p1]
        simp only [hs, not_true_eq_false, and_false, iff_false]
        omega
      · rw [p2]
        simpa [Loop.selection, or_imp, forall_and] using ih2
    · exact absurd hs (not_settles_of_running h (Nat.lt_succ_self n))
    · obtain ⟨p1, ⟨e, p2⟩, -⟩ := Loop.pass_of_fails allowed n hs
      refine ⟨?_, ?_⟩
      · rw [p1]
        simp only [Loop.not_skips_of_fails hs, not_false_eq_true, and_true]
        omega
      · rw [p2]
        intro sel hsel r hr
        rcases List.mem_append.mp hsel with hsel | hsel
        · exact ih2 sel hsel r hr
        · rw [List.mem_singleton.mp hsel] at hr
          exact ⟨e, (Option.some.inj hr).symm⟩

theorem last_selection {st : Loop} {t : Turn} {attempt : ℕ} :
    (∃ sel, (st.pass req allowed attempt t).selections.getLast? = some sel ∧ sel.healthy = []) ↔
      (st.selecting t).healthyBackends = [] := by
  rcases Loop.pass_selections req allowed attempt st t with ⟨hsel, -⟩ | ⟨b, r, -, -, hsel⟩ <;>
  · rw [hsel, List.getLast?_append]
    simp [Loop.selection]

theorem healthy_of_selected {lb : Balancer} {b : Url} (h : lb.selected = some b) :
    lb.healthyBackends ≠ [] :=
  List.ne_nil_of_mem (Balancer.selected_mem h)

variable (req allowed turns lb) in
def NeverSkips (n : ℕ) : Prop :=
  ∀ k < n, Running req allowed turns lb k → ¬ (passes req allowed turns lb k).Skips (turns k)

variable (req allowed turns lb) in
def SomeSettles (n : ℕ) : Prop :=
  ∃ k < n, Running req allowed turns lb k ∧ (passes req allowed turns lb k).Settles req (turns k)

theorem not_someSettles_of_running {n : ℕ} (h : Running req allowed turns lb n) :
    ¬ SomeSettles req allowed turns lb n := by
  rintro ⟨k, hk, -, hs⟩
  exact not_settles_of_running h hk hs

theorem neverSkips_iff_of_running {n : ℕ} (h : Running req allowed turns lb n) :
    NeverSkips req allowed turns lb n ↔
      (passes req allowed turns lb n).attemptedBackends.length = n := by
  rw [(forwards_of_running h).1]
  exact ⟨fun hs k hk => hs k hk (running_of_le h (by omega)), fun hs k hk _ => hs k hk⟩

theorem ran_out {n : ℕ} (h : Running req (n + 1) turns lb (n + 1)) :
    ¬ (passes req (n + 1) turns lb (n + 1)).Justified (n + 1) ∧
    ¬ NeverSkips req (n + 1) turns lb (n + 1) := by
  have hn := running_of_le h (Nat.le_succ n)
  have hskip : (passes req (n + 1) turns lb n).Skips (turns n) := by
    rcases Loop.pass_trichotomy req (passes req (n + 1) turns lb n) (turns n) with hs | hs | hs
    · exact hs
    · exact absurd hs (not_settles_of_running h (Nat.lt_succ_self n))
    · have hreply := (Loop.pass_of_fails (n + 1) n hs).2.2
      unfold Running at h
      rw [passes_succ hn, hreply] at h
      simp at h
  have hnever : ¬ NeverSkips req (n + 1) turns lb (n + 1) :=
    fun hs => hs n (Nat.lt_succ_self n) hn hskip
  refine ⟨?_, hnever⟩
  rintro (⟨hlen, -⟩ | hlast)
  · exact hnever ((neverSkips_iff_of_running h).mpr hlen)
  · rw [passes_succ hn, last_selection] at hlast
    obtain ⟨b, hb, -⟩ := hskip
    exact healthy_of_selected hb hlast

theorem settled {k n : ℕ} (hs : (passes req (n + 1) turns lb k).Settles req (turns k)) {r : Reply}
    (hr : ((passes req (n + 1) turns lb k).pass req (n + 1) k (turns k)).reply = some r) (hown : r.IsOwn) :
    ((passes req (n + 1) turns lb k).pass req (n + 1) k (turns k)).Justified (n + 1) := by
  rcases (Loop.pass_of_settles (n + 1) k hs).2 with ⟨-, -, hnil⟩ | h | ⟨r', h⟩
  · exact Or.inr (last_selection.mpr hnil)
  · obtain rfl := Option.some.inj (h.symm.trans hr)
    exact hown.elim
  · obtain rfl := Option.some.inj (h.symm.trans hr)
    exact hown.elim

theorem failed_last {n : ℕ} (hn : Running req (n + 1) turns lb n)
    (hs : (passes req (n + 1) turns lb n).Fails req (turns n)) :
    (((passes req (n + 1) turns lb n).pass req (n + 1) n (turns n)).Justified (n + 1) ↔
      NeverSkips req (n + 1) turns lb (n + 1)) ∧
    ¬ SomeSettles req (n + 1) turns lb (n + 1) := by
  obtain ⟨hlen, ⟨e, hsel⟩, -⟩ := Loop.pass_of_fails (n + 1) n hs
  have hhealthy : ((passes req (n + 1) turns lb n).selecting (turns n)).healthyBackends ≠ [] := by
    obtain ⟨b, -, hb, -⟩ := hs
    exact healthy_of_selected hb
  have hfailed : ∀ sel ∈ ((passes req (n + 1) turns lb n).pass req (n + 1) n (turns n)).selections,
      ∀ r, sel.forwarded = some r → ∃ e, r = .requestException e := by
    rw [hsel]
    intro sel hmem r hr
    rcases List.mem_append.mp hmem with hmem | hmem
    · exact (forwards_of_running hn).2 sel hmem r hr
    · rw [List.mem_singleton.mp hmem] at hr
      exact ⟨e, (Option.some.inj hr).symm⟩
  have hnever : NeverSkips req (n + 1) turns lb (n + 1) ↔ NeverSkips req (n + 1) turns lb n := by
    simp only [NeverSkips, Nat.forall_lt_succ_right, Loop.not_skips_of_fails hs, not_false_eq_true,
      implies_true, and_true]
  refine ⟨?_, ?_⟩
  · rw [hnever, neverSkips_iff_of_running hn, Loop.Justified, last_selection, hlen]
    simp only [hhealthy, or_false, Nat.add_right_cancel_iff]
    exact ⟨fun h => h.1, fun h => ⟨h, hfailed⟩⟩
  · rintro ⟨k, hk, hrk, hset⟩
    rcases Nat.lt_succ_iff_lt_or_eq.mp hk with hk | rfl
    · exact not_settles_of_running hn hk hset
    · obtain ⟨b, e', hb, -, ha⟩ := hs
      rcases hset with hnil | ⟨b', hb', -, ha'⟩
      · exact hhealthy hnil
      · rw [hb, Option.some.injEq] at hb'
        subst hb'
        exact ha' e' ha

theorem justified_iff (hr : retryable req = true) (n : ℕ) :
    (∀ r, (passes req (n + 1) turns lb (n + 1)).reply.getD .badGateway = r → r.IsOwn →
      (passes req (n + 1) turns lb (n + 1)).Justified (n + 1)) ↔
      NeverSkips req (n + 1) turns lb (n + 1) ∨ SomeSettles req (n + 1) turns lb (n + 1) := by
  by_cases hrun : Running req (n + 1) turns lb (n + 1)
  · obtain ⟨hj, hs⟩ := ran_out hrun
    refine iff_of_false (fun h => hj (h .badGateway ?_ trivial)) ?_
    · rw [show (passes req (n + 1) turns lb (n + 1)).reply = none from hrun]
      rfl
    · rintro (h | h)
      · exact hs h
      · exact not_someSettles_of_running hrun h
  · obtain ⟨k, hk, hrk, heq⟩ := ended_at hrun
    rw [heq]
    rcases Loop.pass_trichotomy req (passes req (n + 1) turns lb k) (turns k) with hs | hs | hs
    · have hreply := (Loop.pass_of_skips req (n + 1) k hs).2.2
      unfold Running at hrun
      rw [heq, hreply] at hrun
      exact absurd hrk hrun
    · refine iff_of_true (fun r hreply hown => ?_) (Or.inr ⟨k, hk, hrk, hs⟩)
      unfold Running at hrun
      rw [heq] at hrun
      obtain ⟨r', hr'⟩ := Option.ne_none_iff_exists'.mp hrun
      rw [hr', Option.getD_some] at hreply
      exact settled hs hr' (hreply ▸ hown)
    · -- A failed forward ends the loop only in its last pass.
      have hreply := (Loop.pass_of_fails (n + 1) k hs).2.2
      have hkn : k = n := by
        by_contra hne
        rw [if_pos (by simp [hr]; omega)] at hreply
        unfold Running at hrun
        rw [heq] at hrun
        exact hrun hreply
      subst hkn
      obtain ⟨hj, hset⟩ := failed_last hrk hs
      rw [if_neg (by simp)] at hreply
      simp only [hreply, Option.getD_some, forall_eq', Reply.IsOwn, true_implies, hj, hset, or_false]

end Budget

/-- A request gets one forward, or one and the retries. A retryable request that the proxy answers
itself got them all, or no backend was healthy any more, exactly when no pass skipped or some pass
settled it. -/
theorem retry_budget (maxRetries : ℕ) (req : Request) (turns : ℕ → Turn) (lb : Balancer) :
    (retryable req = false → (proxy maxRetries req turns lb).attemptedBackends.length ≤ 1) ∧
    (retryable req = true → (proxy maxRetries req turns lb).attemptedBackends.length ≤ 1 + maxRetries) ∧
    (retryable req = true →
      ((∀ r, (proxy maxRetries req turns lb).reply = some r → r.IsOwn →
          (proxy maxRetries req turns lb).Justified (1 + maxRetries)) ↔
        NeverSkips req (1 + maxRetries) turns lb (1 + maxRetries) ∨
          SomeSettles req (1 + maxRetries) turns lb (1 + maxRetries))) := by
  refine ⟨fun hr => ?_, fun hr => ?_, fun hr => ?_⟩
  · have := forwards_le req (attemptsAllowed maxRetries req) turns lb (attemptsAllowed maxRetries req)
    simpa [proxy, attemptsAllowed, hr] using this
  · have hle := forwards_le req (attemptsAllowed maxRetries req) turns lb (attemptsAllowed maxRetries req)
    have hallowed : attemptsAllowed maxRetries req = 1 + maxRetries := by
      simp only [attemptsAllowed, hr, if_true]
      omega
    exact hle.trans_eq hallowed
  · have hallowed : attemptsAllowed maxRetries req = maxRetries + 1 := by
      simp only [attemptsAllowed, hr, if_true]
      omega
    rw [Nat.add_comm 1 maxRetries, ← justified_iff hr maxRetries]
    unfold proxy
    simp only [hallowed, Option.some.injEq]
    rfl

/-- `a` and `c` have failed and all three are healthy again: the third pass skips, and the proxy gives
up after two of three forwards. -/
theorem budget_not_spent :
    let st := proxy 2 getRequest
      (fun
        | 0 => failingTurn [(str "b", false)]
        | 1 => failingTurn []
        | _ => failingTurn [(str "a", true), (str "a", true), (str "b", true), (str "b", true),
            (str "c", true), (str "c", true)])
      threeBackends
    retryable getRequest = true ∧ st.reply = some .badGateway ∧ ¬ st.Justified (1 + 2) := by
  refine ⟨by decide, rfl, ?_⟩
  rintro (⟨hlen, -⟩ | ⟨sel, hlast, hnil⟩)
  · revert hlen
    decide
  · obtain rfl := Option.some.inj (hlast.symm.trans rfl)
    revert hnil
    decide

/-- With one retry and no health change behind the selection there is no wrong turn to take: a tried
and an untried healthy backend are two, and only one forward has been made. -/
theorem single_retry_goes_elsewhere (req : Request) (turns : ℕ → Turn) (lb : Balancer)
    (hquiet : ∀ k, (turns k).beforeSize = []) :
    ∀ sel ∈ (proxy 1 req turns lb).selections, sel.GoesElsewhere := by
  refine (goesElsewhere_passes req (attemptsAllowed 1 req) turns lb (attemptsAllowed 1 req)).mpr ?_
  rintro k hk - ⟨b, hb, hmem, ⟨u, hu, hunt⟩, hle⟩
  have hforwards := forwards_le req (attemptsAllowed 1 req) turns lb k
  have hallowed : attemptsAllowed 1 req ≤ 2 := by
    unfold attemptsAllowed
    split <;> omega
  have hbu : b ≠ u := by
    rintro rfl
    exact hunt hmem
  have htwo :
      2 ≤ ((passes req (attemptsAllowed 1 req) turns lb k).selecting (turns k)).healthyBackends.length := by
    have hnodup : [b, u].Nodup := by simpa using hbu
    exact (hnodup.subperm (by simp [Balancer.selected_mem hb, hu])).length_le
  have hsize : ((passes req (attemptsAllowed 1 req) turns lb k).sizing (turns k)).healthyBackends =
      ((passes req (attemptsAllowed 1 req) turns lb k).selecting (turns k)).healthyBackends := by
    unfold Loop.sizing
    rw [hquiet k]
    rfl
  rw [hsize] at hle
  omega

end FlightPulse.LoadBalancer
