import FlightPulse.LoadBalancer.Retry

/-!
# Which failures evict a backend

`proxy` marks a backend for every `RequestException`. Some of those say nothing about
the backend: the request could not be sent, or its response could not be read.
-/

open Lib Lib.Python

namespace FlightPulse.LoadBalancer

/-- Raised by a backend that could not be reached, before any response. -/
def RequestException.Unreachable (e : RequestException) : Prop := e = .connectionError ∨ e = .timeout

namespace Balancer

theorem checkAll_backendUrls (lb : Balancer) (checks : List (Url × Bool)) :
    (lb.checkAll checks).healthChecker.backendUrls = lb.healthChecker.backendUrls := by
  induction checks generalizing lb with
  | nil => rfl
  | cons c checks ih =>
    have hone := (lb.healthChecker.applyCheck_frame c.1 c.2).backendUrls
    exact (ih (lb.checkOne c.1 c.2)).trans hone

end Balancer

namespace Loop

def forwardsTo (st : Loop) (t : Turn) : Option Url :=
  (st.selecting t).selected.filter fun b => !st.skips t b

/-- The health states when the pass is decided, and before the proxy acts on it. -/
def observed (st : Loop) (t : Turn) : HealthChecker :=
  match (st.selecting t).selected with
  | none => (st.selecting t).healthChecker
  | some b =>
    if st.skips t b then (st.sizing t).healthChecker
    else ((st.sizing t).checkAll t.duringForward).healthChecker

/-- The pass forwards to `b`, and the forward raises `e`. -/
def FailsWith (req : Request) (st : Loop) (t : Turn) (b : Url) (e : RequestException) : Prop :=
  st.forwardsTo t = some b ∧ t.answer (forwardOnce req b) = .requestException e

/-! ## What a pass does to the health states -/

variable {req : Request} {allowed attempt : ℕ} {st : Loop} {t : Turn} {b : Url} {e : RequestException}

theorem forwardsTo_eq_some : st.forwardsTo t = some b ↔
    (st.selecting t).selected = some b ∧ st.skips t b = false := by
  unfold forwardsTo
  simp [Option.filter_eq_some_iff]

theorem failsWith_unique {b' : Url} {e' : RequestException} (h : st.FailsWith req t b e)
    (h' : st.FailsWith req t b' e') : b = b' ∧ e = e' := by
  obtain ⟨hb, he⟩ := h
  obtain ⟨hb', he'⟩ := h'
  obtain rfl := Option.some.inj (hb.symm.trans hb')
  rw [he] at he'
  injection he' with he'
  exact ⟨rfl, he'⟩

theorem pass_of_failsWith (h : st.FailsWith req t b e) :
    (st.pass req allowed attempt t).lb.healthChecker = (st.observed t).markUnhealthy b := by
  obtain ⟨hb, ha⟩ := h
  obtain ⟨hsel, hs⟩ := forwardsTo_eq_some.mp hb
  unfold pass observed
  simp only [hsel, hs, Bool.false_eq_true, if_false, forward, ha]
  split_ifs <;> rfl

theorem pass_of_not_failsWith (h : ∀ b e, ¬ st.FailsWith req t b e) :
    (st.pass req allowed attempt t).lb.healthChecker = st.observed t := by
  unfold pass observed
  cases hsel : (st.selecting t).selected with
  | none => rfl
  | some b =>
    cases hs : st.skips t b with
    | true => simp [hs]
    | false =>
      simp only [hs, Bool.false_eq_true, if_false, forward]
      cases ha : t.answer (forwardOnce req b) with
      | requestException e => exact absurd ⟨forwardsTo_eq_some.mpr ⟨hsel, hs⟩, ha⟩ (h b e)
      | otherException => rfl
      | response r => rfl

theorem observed_backendUrls (h : st.forwardsTo t = some b) : b ∈ (st.observed t).backendUrls := by
  obtain ⟨hsel, hs⟩ := forwardsTo_eq_some.mp h
  have hmem := HealthChecker.mem_backendUrls_of_healthy (Balancer.selected_mem hsel)
  unfold observed
  simp only [hsel, hs, Bool.false_eq_true, if_false]
  rw [Balancer.checkAll_backendUrls]
  unfold sizing
  rw [Balancer.checkAll_backendUrls]
  exact hmem

theorem changed_iff (url : Url) :
    (st.pass req allowed attempt t).lb.healthChecker.stateOf url ≠ (st.observed t).stateOf url ↔
      ∃ e, st.FailsWith req t url e ∧ (st.observed t).stateOf url ≠ some .unhealthy := by
  by_cases h : ∃ b e, st.FailsWith req t b e
  · obtain ⟨b, e, hfail⟩ := h
    rw [pass_of_failsWith hfail]
    by_cases hb : b = url
    · subst hb
      rw [(HealthChecker.markUnhealthy_self (observed_backendUrls hfail.1)).1]
      exact ⟨fun hne => ⟨e, hfail, Ne.symm hne⟩, fun ⟨_, _, hne⟩ => Ne.symm hne⟩
    · rw [(HealthChecker.markUnhealthy_frame _ b).elsewhere url (Ne.symm hb) |>.1]
      refine iff_of_false (fun hne => hne rfl) ?_
      rintro ⟨e', hfail', -⟩
      exact hb (failsWith_unique hfail hfail').1
  · rw [pass_of_not_failsWith fun b e hfail => h ⟨b, e, hfail⟩]
    refine iff_of_false (fun hne => hne rfl) ?_
    rintro ⟨e, hfail, -⟩
    exact h ⟨url, e, hfail⟩

end Loop

/-! ## One request -/

section

variable (req : Request) (allowed : ℕ) (turns : ℕ → Turn) (lb : Balancer)

/-- The request is sent once more after pass `k`. -/
def Resends (k : ℕ) : Prop :=
  ∃ j, k < j ∧ j < allowed ∧ Running req allowed turns lb j ∧
    ((passes req allowed turns lb j).forwardsTo (turns j)).isSome

/-- The proxy changes the state of a backend, and sends the request again, only after a forward that
did not reach the backend. -/
def EvictsUnreachable : Prop :=
  ∀ k < allowed, Running req allowed turns lb k →
    (∀ url, (passes req allowed turns lb (k + 1)).lb.healthChecker.stateOf url ≠
        ((passes req allowed turns lb k).observed (turns k)).stateOf url →
      ∃ e, (passes req allowed turns lb k).FailsWith req (turns k) url e ∧ e.Unreachable) ∧
    (∀ b, (passes req allowed turns lb k).forwardsTo (turns k) = some b → Resends req allowed turns lb k →
      ∃ e, (passes req allowed turns lb k).FailsWith req (turns k) b e ∧ e.Unreachable)

/-- Where a forward fails in another way, a probe has failed meanwhile, and no pass is left that
selects a backend for the request. -/
def LateFailuresHarmless : Prop :=
  ∀ k < allowed, Running req allowed turns lb k → ∀ b e,
    (passes req allowed turns lb k).FailsWith req (turns k) b e → ¬ e.Unreachable →
      ((passes req allowed turns lb k).observed (turns k)).stateOf b = some .unhealthy ∧
      (retryable req = true → ∀ j, k < j → j < allowed → Running req allowed turns lb j →
        (passes req allowed turns lb j).forwardsTo (turns j) = none)

variable {req allowed turns lb} {k : ℕ}

theorem failsWith_of_resends (hk : Running req allowed turns lb k) {b : Url}
    (hb : (passes req allowed turns lb k).forwardsTo (turns k) = some b) (h : Resends req allowed turns lb k) :
    retryable req = true ∧ ∃ e, (passes req allowed turns lb k).FailsWith req (turns k) b e := by
  obtain ⟨j, hkj, -, hj, -⟩ := h
  have hnext := running_of_le hj (Nat.succ_le_of_lt hkj)
  unfold Running at hnext
  rw [passes_succ hk] at hnext
  obtain ⟨hsel, hs⟩ := Loop.forwardsTo_eq_some.mp hb
  rcases Loop.pass_trichotomy req (passes req allowed turns lb k) (turns k) with hskip | hset | hfail
  · obtain ⟨b', hb', hs'⟩ := hskip
    obtain rfl := Option.some.inj (hsel.symm.trans hb')
    rw [hs] at hs'
    simp at hs'
  · exact absurd hset (not_settles_of_running hj hkj)
  · have hreply := (Loop.pass_of_fails allowed k hfail).2.2
    rw [hnext] at hreply
    obtain ⟨b', e, hb', -, ha⟩ := hfail
    obtain rfl := Option.some.inj (hsel.symm.trans hb')
    refine ⟨?_, e, hb, ha⟩
    by_contra hr
    simp [hr] at hreply

end

/-- A request evicts a backend, or goes on to another, only for a failed connection or a timeout,
exactly when its other failures are harmless. -/
theorem evicts_unreachable_iff (maxRetries : ℤ) (req : Request) (turns : ℕ → Turn) (lb : Balancer) :
    EvictsUnreachable req (attemptsAllowed maxRetries req) turns lb ↔
      LateFailuresHarmless req (attemptsAllowed maxRetries req) turns lb := by
  generalize attemptsAllowed maxRetries req = allowed
  constructor
  · intro h k hk hrun b e hfail hlate
    obtain ⟨hstate, hsent⟩ := h k hk hrun
    have hunique : ¬ ∃ e', (passes req allowed turns lb k).FailsWith req (turns k) b e' ∧ e'.Unreachable := by
      rintro ⟨e', hfail', hearly⟩
      obtain ⟨-, rfl⟩ := Loop.failsWith_unique hfail hfail'
      exact hlate hearly
    refine ⟨?_, fun _ j hkj hj hjrun => ?_⟩
    · by_contra hne
      refine hunique (hstate b ?_)
      rw [passes_succ hrun]
      exact (Loop.changed_iff b).mpr ⟨e, hfail, hne⟩
    · by_contra hsome
      exact hunique (hsent b hfail.1 ⟨j, hkj, hj, hjrun, Option.isSome_iff_ne_none.mpr hsome⟩)
  · intro h k hk hrun
    refine ⟨fun url hchanged => ?_, fun b hb hres => ?_⟩
    · rw [passes_succ hrun] at hchanged
      obtain ⟨e, hfail, hne⟩ := (Loop.changed_iff url).mp hchanged
      refine ⟨e, hfail, ?_⟩
      by_contra hlate
      exact hne (h k hk hrun url e hfail hlate).1
    · obtain ⟨hr, e, hfail⟩ := failsWith_of_resends hrun hb hres
      refine ⟨e, hfail, ?_⟩
      by_contra hlate
      obtain ⟨j, hkj, hj, hjrun, hsome⟩ := hres
      rw [(h k hk hrun b e hfail hlate).2 hr j hkj hj hjrun] at hsome
      simp at hsome

/-- A value that starts with a no-break space: `requests` refuses to send it, whatever the backend. -/
def badHeaderRequest : Request := ⟨.get, str "version", [(str "x-trace", [160, 97])], [], []⟩

def refusedTurn : Turn := ⟨[], [], [], fun _ => .requestException .invalidHeader, 0⟩

/-- One such request takes all three backends out of the rotation. -/
theorem bad_header_evicts_all :
    ¬ EvictsUnreachable badHeaderRequest (attemptsAllowed 2 badHeaderRequest) (fun _ => refusedTurn)
        threeBackends ∧
    (proxy 2 badHeaderRequest (fun _ => refusedTurn) threeBackends).lb.healthyBackends = [] := by
  refine ⟨fun h => ?_, by decide⟩
  obtain ⟨e, ⟨-, he⟩, hearly⟩ := (h 0 (by decide) rfl).1 (str "a") (by decide)
  obtain rfl : e = .invalidHeader := by
    injection he with he
    exact he.symm
  rcases hearly with h | h <;> simp at h

end FlightPulse.LoadBalancer
