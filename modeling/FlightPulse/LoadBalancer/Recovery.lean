import FlightPulse.Lib.Run
import FlightPulse.LoadBalancer.History
import Mathlib.Logic.Function.Basic

/-!
# Health checks and failed requests in any order

The probe runs without the lock, so a request can fail while a probe of the
same backend is on its way. A run is any order of three events: a probe is
sent, the answer of a probe is applied, the proxy marks a backend unhealthy.
-/

open Lib Lib.Run

namespace FlightPulse.LoadBalancer.Recovery

inductive Event where
  | send (url : Url)
  | apply (url : Url) (healthy : Bool)
  | markUnhealthy (url : Url)

structure System where
  checker : HealthChecker
  inFlight : Url → Bool

def start (urls : List Url) (required : ℤ) : System := ⟨.init urls required, fun _ => false⟩

/-- The checks of one backend never overlap: the loop waits for each answer. -/
def step (s : System) : Event → Option System
  | .send url =>
    if url ∈ s.checker.backendUrls ∧ s.inFlight url = false then
      some { s with inFlight := Function.update s.inFlight url true }
    else none
  | .apply url healthy =>
    if url ∈ s.checker.backendUrls ∧ s.inFlight url = true then
      some ⟨s.checker.applyCheck url healthy, Function.update s.inFlight url false⟩
    else none
  | .markUnhealthy url =>
    if url ∈ s.checker.backendUrls then some { s with checker := s.checker.markUnhealthy url } else none

/-- What one backend's history says since its most recent failure. -/
structure Evidence where
  failed : Bool
  inFlight : Bool
  /-- A probe was on its way when the most recent failure happened. -/
  heldOver : Bool
  /-- That probe has not been answered yet. -/
  stale : Bool
  passes : ℕ
  fresh : ℕ

namespace Evidence

def init : Evidence := ⟨false, false, false, false, 0, 0⟩

def send (ev : Evidence) : Evidence := { ev with inFlight := true, stale := false }

def pass (ev : Evidence) : Evidence :=
  { ev with
    inFlight := false
    stale := false
    passes := ev.passes + 1
    fresh := if ev.stale then ev.fresh else ev.fresh + 1 }

def fail (inFlight : Bool) : Evidence :=
  ⟨true, inFlight, inFlight, inFlight, 0, 0⟩

end Evidence

def observe (url : Url) (ev : Evidence) : Event → Evidence
  | .send u => if u = url then ev.send else ev
  | .apply u true => if u = url then ev.pass else ev
  | .apply u false => if u = url then .fail false else ev
  | .markUnhealthy u => if u = url then .fail ev.inFlight else ev

def evidence (url : Url) (es : List Event) : Evidence := es.foldl (observe url) .init

@[simp] theorem evidence_nil (url : Url) : evidence url [] = .init := rfl

theorem evidence_snoc (url : Url) (es : List Event) (e : Event) :
    evidence url (es ++ [e]) = observe url (evidence url es) e := by
  simp [evidence, List.foldl_append]

def Recovers (url : Url) (s t : System) : Prop :=
  s.checker.stateOf url ≠ some .healthy ∧ t.checker.stateOf url = some .healthy

/-! ## The invariant -/

/-- Only the probe that was on its way at the failure can be a pass that is not fresh. -/
def CountMatches (ev : Evidence) : Prop :=
  (ev.heldOver = false → ev.stale = false ∧ ev.fresh = ev.passes) ∧
  (ev.heldOver = true →
    (ev.stale = true ∧ ev.inFlight = true ∧ ev.passes = 0 ∧ ev.fresh = 0) ∨
    (ev.stale = false ∧ ev.fresh + 1 = ev.passes))

structure Inv (urls : List Url) (required : ℤ) (url : Url) (ev : Evidence) (s : System) : Prop where
  urls_eq : s.checker.backendUrls = urls
  required_eq : s.checker.recoveriesRequired = required
  inFlight_eq : s.inFlight url = ev.inFlight
  state : History.StateMatches required (ev.failed = true) ev.passes (s.checker.stateOf url) (s.checker.passesOf url)
  count : CountMatches ev

variable {urls : List Url} {required : ℤ} {url : Url}

theorem count_send {ev : Evidence} (h : CountMatches ev) (hf : ev.inFlight = false) :
    CountMatches ev.send := by
  obtain ⟨h1, h2⟩ := h
  refine ⟨fun hh => ⟨rfl, (h1 hh).2⟩, fun hh => ?_⟩
  rcases h2 hh with ⟨-, hin, -⟩ | ⟨-, hc⟩
  · rw [hf] at hin
    simp at hin
  · exact Or.inr ⟨rfl, hc⟩

theorem count_pass {ev : Evidence} (h : CountMatches ev) : CountMatches ev.pass := by
  obtain ⟨h1, h2⟩ := h
  refine ⟨fun hh => ⟨rfl, ?_⟩, fun hh => Or.inr ⟨rfl, ?_⟩⟩
  · obtain ⟨hs, hc⟩ := h1 hh
    simp [Evidence.pass, hs, hc]
  · rcases h2 hh with ⟨hs, -, hp, hc⟩ | ⟨hs, hc⟩
    · simp [Evidence.pass, hs, hp, hc]
    · simp [Evidence.pass, hs]
      omega

theorem count_fail (inFlight : Bool) : CountMatches (.fail inFlight) := by
  cases inFlight <;> simp [CountMatches, Evidence.fail]

theorem inv_start (h : url ∈ urls) : Inv urls required url .init (start urls required) where
  urls_eq := rfl
  required_eq := rfl
  inFlight_eq := rfl
  state := by simp [History.StateMatches, Evidence.init, start, HealthChecker.stateOf_init h]
  count := by simp [CountMatches, Evidence.init]

section

variable {ev : Evidence} {s t : System}

theorem inv_elsewhere (hi : Inv urls required url ev s) {checker : HealthChecker} {inFlight : Url → Bool} {u : Url}
    (hf : s.checker.Frame checker u) (hu : url ≠ u) (hin : inFlight url = s.inFlight url) :
    Inv urls required url ev ⟨checker, inFlight⟩ := by
  obtain ⟨hstate, hpasses⟩ := hf.elsewhere url hu
  refine ⟨hf.backendUrls.trans hi.urls_eq, hf.recoveriesRequired.trans hi.required_eq,
    hin.trans hi.inFlight_eq, ?_, hi.count⟩
  simp only [hstate, hpasses]
  exact hi.state

theorem inv_send (hi : Inv urls required url ev s) (hin : s.inFlight url = false) :
    Inv urls required url ev.send { s with inFlight := Function.update s.inFlight url true } :=
  ⟨hi.urls_eq, hi.required_eq, by simp [Evidence.send], hi.state, count_send hi.count (hi.inFlight_eq ▸ hin)⟩

theorem inv_pass (hurl : url ∈ urls) (hi : Inv urls required url ev s) :
    Inv urls required url ev.pass ⟨s.checker.applyCheck url true, Function.update s.inFlight url false⟩ := by
  have hmem : url ∈ s.checker.backendUrls := hi.urls_eq ▸ hurl
  obtain ⟨state, hstate⟩ := Option.isSome_iff_exists.mp ((s.checker.stateOf_isSome url).mpr hmem)
  obtain ⟨hstate', hpasses'⟩ := HealthChecker.applyCheck_pass hstate
  have hframe := s.checker.applyCheck_frame url true
  have hst := hi.state
  rw [hstate] at hst
  refine ⟨hframe.backendUrls.trans hi.urls_eq, hframe.recoveriesRequired.trans hi.required_eq,
    by simp [Evidence.pass], ?_, count_pass hi.count⟩
  simp only [hstate', hpasses', hi.required_eq]
  exact History.matches_pass hst

theorem inv_fail (hi : Inv urls required url ev s) {checker : HealthChecker} {inFlight : Url → Bool}
    (hf : s.checker.Frame checker url) (hstate : checker.stateOf url = some .unhealthy) :
    Inv urls required url (.fail (inFlight url)) ⟨checker, inFlight⟩ := by
  refine ⟨hf.backendUrls.trans hi.urls_eq, hf.recoveriesRequired.trans hi.required_eq, rfl, ?_, count_fail _⟩
  simp only [hstate]
  exact History.matches_fail rfl

theorem inv_step (hurl : url ∈ urls) {e : Event} (hi : Inv urls required url ev s)
    (h : step s e = some t) : Inv urls required url (observe url ev e) t := by
  have hmem : url ∈ s.checker.backendUrls := hi.urls_eq ▸ hurl
  cases e with
  | send u =>
    simp only [step] at h
    split at h <;> cases h
    next hu =>
    simp only [observe]
    split
    · next hue =>
      subst hue
      exact inv_send hi hu.2
    · next hue =>
      exact inv_elsewhere hi (s.checker.frame_refl u) (Ne.symm hue) (Function.update_of_ne (Ne.symm hue) ..)
  | apply u healthy =>
    simp only [step] at h
    split at h <;> cases h
    have hframe := s.checker.applyCheck_frame u healthy
    by_cases hue : u = url
    · subst hue
      cases healthy with
      | true => simpa [observe] using inv_pass hurl hi
      | false =>
        have hfail : Inv urls required u (.fail (Function.update s.inFlight u false u)) _ :=
          inv_fail hi hframe (HealthChecker.applyCheck_fail hmem).1
        simpa [observe] using hfail
    · have hobs : observe url ev (.apply u healthy) = ev := by
        cases healthy <;> simp [observe, hue]
      rw [hobs]
      exact inv_elsewhere hi hframe (Ne.symm hue) (Function.update_of_ne (Ne.symm hue) ..)
  | markUnhealthy u =>
    simp only [step] at h
    split at h <;> cases h
    have hframe := s.checker.markUnhealthy_frame u
    simp only [observe]
    split
    · next hue =>
      subst hue
      rw [← hi.inFlight_eq]
      exact inv_fail hi hframe (HealthChecker.markUnhealthy_self hmem).1
    · next hue => exact inv_elsewhere hi hframe (Ne.symm hue) rfl

end

theorem inv_run (hurl : url ∈ urls) {es : List Event} {s : System}
    (h : exec step (start urls required) es = some s) :
    Inv urls required url (evidence url es) s := by
  refine exec_induction (P := fun es s => Inv urls required url (evidence url es) s)
    (inv_start hurl) ?_ h
  intro es s e t _ hi ht
  rw [evidence_snoc]
  exact inv_step hurl hi ht

/-! ## Recoveries -/

/-- Only an applied pass recovers a backend, and it is the pass that completes the required number. -/
theorem recovers_cases (hR : 2 ≤ required) {ev : Evidence} {s t : System} {e : Event}
    (hi : Inv urls required url ev s) (hurl : url ∈ urls) (h : step s e = some t)
    (hrec : Recovers url s t) :
    e = .apply url true ∧ 1 ≤ ev.passes ∧ (ev.passes : ℤ) + 1 = required := by
  have hmem : url ∈ s.checker.backendUrls := hi.urls_eq ▸ hurl
  obtain ⟨hne, heq⟩ := hrec
  have ht := inv_step hurl hi h
  obtain ⟨hs1, hs2⟩ := hi.state
  obtain ⟨ht1, ht2⟩ := ht.state
  have hfailed : ev.failed = true := by
    by_contra hf
    exact hne (hs1 (by simpa using hf))
  -- In every other case the evidence that goes with the new state is that of the old one, or none.
  have hsame : observe url ev e = ev ∨ observe url ev e = ev.send → False := by
    intro hobs
    have hp : (observe url ev e).passes = ev.passes ∧ (observe url ev e).failed = true := by
      rcases hobs with ho | ho <;> simp [ho, Evidence.send, hfailed]
    rcases ht2 hp.2 with ⟨-, h'⟩ | ⟨-, -, h', -⟩ | ⟨h', -⟩
    · rw [heq] at h'; simp at h'
    · rw [heq] at h'; simp at h'
    · rw [hp.1] at h'
      rcases hs2 hfailed with ⟨h0, -⟩ | ⟨-, hlt, -⟩ | ⟨-, h''⟩
      · rw [h0] at h'; push_cast at h'; omega
      · omega
      · exact hne h''
  have hnone : ∀ b, observe url ev e = .fail b → False := by
    intro b hobs
    rw [hobs] at ht2
    rcases ht2 rfl with ⟨-, h'⟩ | ⟨h', -⟩ | ⟨h', -⟩
    · rw [heq] at h'; simp at h'
    · simp [Evidence.fail] at h'
    · simp only [Evidence.fail] at h'; push_cast at h'; omega
  cases e with
  | send u =>
    by_cases hue : u = url
    · exact (hsame (Or.inr (by simp [observe, hue]))).elim
    · exact (hsame (Or.inl (by simp [observe, hue]))).elim
  | apply u healthy =>
    by_cases hue : u = url
    · subst hue
      cases healthy with
      | false => exact (hnone false (by simp [observe])).elim
      | true =>
        refine ⟨rfl, ?_⟩
        unfold observe at ht2
        simp only [if_true, Evidence.pass] at ht2
        rcases ht2 hfailed with ⟨-, h'⟩ | ⟨-, -, h', -⟩ | ⟨h', -⟩
        · rw [heq] at h'; simp at h'
        · rw [heq] at h'; simp at h'
        · push_cast at h'
          rcases hs2 hfailed with ⟨h0, -⟩ | ⟨h1, hlt, -⟩ | ⟨-, h''⟩
          · rw [h0] at h'; push_cast at h'; omega
          · exact ⟨h1, by omega⟩
          · exact (hne h'').elim
    · exact (hsame (Or.inl (by cases healthy <;> simp [observe, hue]))).elim
  | markUnhealthy u =>
    by_cases hue : u = url
    · exact (hnone _ (by simp [observe, hue]; rfl)).elim
    · exact (hsame (Or.inl (by simp [observe, hue]))).elim

theorem recovery_fresh_iff (hR : 2 ≤ required) (hurl : url ∈ urls) {es : List Event} {e : Event}
    {s t : System} (h : exec step (start urls required) es = some s) (ht : step s e = some t)
    (hrec : Recovers url s t) :
    required ≤ (evidence url (es ++ [e])).fresh ↔ (evidence url es).heldOver = false := by
  have hi := inv_run hurl h
  obtain ⟨rfl, hp, hlast⟩ := recovers_cases hR hi hurl ht hrec
  obtain ⟨hc1, hc2⟩ := hi.count
  rw [evidence_snoc]
  unfold observe
  simp only [if_true, Evidence.pass]
  cases hh : (evidence url es).heldOver with
  | false =>
    obtain ⟨hs, hc⟩ := hc1 hh
    simp only [hs, Bool.false_eq_true, if_false, iff_true, hc]
    push_cast
    omega
  | true =>
    rcases hc2 hh with ⟨-, -, h0, -⟩ | ⟨hs, hc⟩
    · omega
    · simp only [hs, Bool.false_eq_true, if_false, Bool.true_eq_false, iff_false]
      push_cast
      omega

/-! ## Fresh evidence over whole runs -/

/-- Every recovery in the run rests on `required` probes sent and answered 200 after the failure. -/
def FreshRecoveries (required : ℤ) (url : Url) (s₀ : System) (es : List Event) : Prop :=
  ∀ pre e suf s t, es = pre ++ e :: suf → exec step s₀ pre = some s → step s e = some t →
    Recovers url s t → required ≤ (evidence url (pre ++ [e])).fresh

/-- The failure that a recovery ends never happened while a probe was on its way. -/
def NoProbeHeldOver (url : Url) (s₀ : System) (es : List Event) : Prop :=
  ∀ pre e suf s t, es = pre ++ e :: suf → exec step s₀ pre = some s → step s e = some t →
    Recovers url s t → (evidence url pre).heldOver = false

/-- No request to the backend fails while a probe of it is on its way. -/
def QuietProbes (url : Url) (s : System) : Event → Prop
  | .markUnhealthy u => u = url → s.inFlight url = false
  | _ => True

theorem heldOver_of_quiet (hurl : url ∈ urls) {es : List Event} {s : System}
    (h : exec step (start urls required) es = some s)
    (hq : Meets step (QuietProbes url) (start urls required) es) :
    (evidence url es).heldOver = false := by
  refine meets_induction (P := fun es _ => (evidence url es).heldOver = false) rfl ?_ h hq
  intro es s e t hs ih hc ht
  have hi := inv_run hurl hs
  rw [evidence_snoc]
  cases e with
  | send u =>
    by_cases hue : u = url <;> simp [observe, hue, Evidence.send, ih]
  | apply u healthy =>
    by_cases hue : u = url <;> cases healthy <;>
      simp [observe, hue, Evidence.pass, Evidence.fail, ih]
  | markUnhealthy u =>
    by_cases hue : u = url
    · have hin := hc hue
      rw [hi.inFlight_eq] at hin
      simp [observe, hue, Evidence.fail, hin]
    · simp [observe, hue, ih]

/-- The recoveries of a run are fresh exactly when none of them follows a failure that a probe was
held over. Requests that never fail during a probe are enough for that. -/
theorem fresh_recoveries_iff (urls : List Url) (required : ℤ) (hR : 2 ≤ required) (url : Url)
    (hurl : url ∈ urls) (es : List Event) :
    (FreshRecoveries required url (start urls required) es ↔
      NoProbeHeldOver url (start urls required) es) ∧
    (Meets step (QuietProbes url) (start urls required) es →
      FreshRecoveries required url (start urls required) es) := by
  have hiff : FreshRecoveries required url (start urls required) es ↔
      NoProbeHeldOver url (start urls required) es := by
    constructor
    · intro h pre e suf s t hes hpre ht hrec
      exact (recovery_fresh_iff hR hurl hpre ht hrec).mp (h pre e suf s t hes hpre ht hrec)
    · intro h pre e suf s t hes hpre ht hrec
      exact (recovery_fresh_iff hR hurl hpre ht hrec).mpr (h pre e suf s t hes hpre ht hrec)
  refine ⟨hiff, fun hq => hiff.mpr ?_⟩
  intro pre e suf s t hes hpre _ _
  rw [hes] at hq
  exact heldOver_of_quiet hurl hpre (meets_of_append hq)

theorem fresh_recoveries_of_two_probes :
    FreshRecoveries 2 (Python.str "a") (start [Python.str "a"] 2)
      [.markUnhealthy (Python.str "a"), .send (Python.str "a"), .apply (Python.str "a") true,
        .send (Python.str "a"), .apply (Python.str "a") true] :=
  (fresh_recoveries_iff [Python.str "a"] 2 (by decide) (Python.str "a") (by decide) _).2
    (by simp [Meets, QuietProbes, start])

/-- A probe sent before the failure and answered after it stands in for one of the two. -/
theorem held_over_probe_recovers :
    ¬ FreshRecoveries 2 (Python.str "a") (start [Python.str "a"] 2)
      [.send (Python.str "a"), .markUnhealthy (Python.str "a"), .apply (Python.str "a") true,
        .send (Python.str "a"), .apply (Python.str "a") true] := by
  intro h
  have hfresh := h [.send (Python.str "a"), .markUnhealthy (Python.str "a"),
    .apply (Python.str "a") true, .send (Python.str "a")] (.apply (Python.str "a") true) [] _ _ rfl
    rfl rfl ⟨by decide, by decide⟩
  revert hfresh
  decide

end FlightPulse.LoadBalancer.Recovery
