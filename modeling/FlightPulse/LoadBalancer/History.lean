import FlightPulse.LoadBalancer.Health
import Mathlib.Data.List.DropRight

/-!
# What the state of a backend says about its history

Answers of probes and failed requests arrive in any order, about any of the
backends. The state of a backend is read off the passes since its last failure.
-/

open Lib Lib.Python

namespace FlightPulse.LoadBalancer.History

inductive Event where
  | check (url : Url) (healthy : Bool)
  | markUnhealthy (url : Url)

namespace Event

def url : Event → Url
  | .check url _ => url
  | .markUnhealthy url => url

def fails (u : Url) : Event → Bool
  | .check url healthy => url = u && !healthy
  | .markUnhealthy url => url = u

def passes (u : Url) : Event → Bool
  | .check url healthy => url = u && healthy
  | .markUnhealthy _ => false

end Event

def record (hc : HealthChecker) : Event → HealthChecker
  | .check url healthy => hc.applyCheck url healthy
  | .markUnhealthy url => hc.markUnhealthy url

def run (urls : List Url) (required : ℤ) (es : List Event) : HealthChecker :=
  es.foldl record (.init urls required)

def Failed (url : Url) (es : List Event) : Prop := ∃ e ∈ es, e.fails url

/-- The passing checks after the last failure, or all of them where there is none. -/
def passesSince (url : Url) (es : List Event) : ℕ :=
  (es.rtakeWhile fun e => !e.fails url).countP fun e => e.passes url

theorem run_snoc (urls : List Url) (required : ℤ) (es : List Event) (e : Event) :
    run urls required (es ++ [e]) = record (run urls required es) e := by
  simp [run, List.foldl_append]

/-! ## What one event adds to a history -/

variable {url : Url}

theorem failed_snoc {es : List Event} {e : Event} :
    Failed url (es ++ [e]) ↔ Failed url es ∨ e.fails url := by
  simp [Failed, or_and_right, exists_or]

theorem passesSince_failure {es : List Event} {e : Event} (h : e.fails url) :
    passesSince url (es ++ [e]) = 0 := by
  unfold passesSince
  rw [List.rtakeWhile_concat_neg _ _ _ (by simp [h])]
  rfl

theorem passesSince_snoc {es : List Event} {e : Event} (h : e.fails url = false) :
    passesSince url (es ++ [e]) = passesSince url es + if e.passes url then 1 else 0 := by
  unfold passesSince
  rw [List.rtakeWhile_concat_pos _ _ _ (by simp [h]), List.countP_append, List.countP_singleton]

theorem elsewhere_event {e : Event} (h : e.url ≠ url) : e.fails url = false ∧ e.passes url = false := by
  cases e <;> simp_all [Event.url, Event.fails, Event.passes]

/-! ## The invariant -/

/-- The first pass after a failure only leads to RECOVERING, so one pass is never enough. -/
def StateMatches (required : ℤ) (failed : Prop) (passes : ℕ) (state : Option BackendState) (n : ℕ) : Prop :=
  (¬ failed → state = some .healthy) ∧
  (failed →
    (passes = 0 ∧ state = some .unhealthy) ∨
    (1 ≤ passes ∧ (passes : ℤ) < max required 2 ∧ state = some .recovering ∧ n = passes) ∨
    (max required 2 ≤ passes ∧ state = some .healthy))

variable {required : ℤ} {failed : Prop} {passes n : ℕ}

theorem matches_fail (hf : failed) : StateMatches required failed 0 (some .unhealthy) n :=
  ⟨fun h => absurd hf h, fun _ => Or.inl ⟨rfl, rfl⟩⟩

theorem matches_pass {s : BackendState} (h : StateMatches required failed passes (some s) n) :
    StateMatches required failed (passes + 1) (some (HealthChecker.passNext required s n).1)
      (HealthChecker.passNext required s n).2 := by
  obtain ⟨h1, h2⟩ := h
  refine ⟨fun hf => ?_, fun hf => ?_⟩
  · obtain rfl := Option.some.inj (h1 hf)
    rfl
  rcases h2 hf with ⟨hp, hs⟩ | ⟨hp, hlt, hs, rfl⟩ | ⟨hp, hs⟩
  · obtain rfl := Option.some.inj hs
    right; left
    unfold HealthChecker.passNext
    exact ⟨by omega, by omega, rfl, by simp [hp]⟩
  · obtain rfl := Option.some.inj hs
    right
    unfold HealthChecker.passNext
    simp only
    -- The counter is at least one, so the bound of the code is also that of `max required 2`.
    split
    · right
      exact ⟨by omega, rfl⟩
    · left
      exact ⟨by omega, by omega, rfl, rfl⟩
  · obtain rfl := Option.some.inj hs
    right; right
    exact ⟨by omega, rfl⟩

def Inv (urls : List Url) (required : ℤ) (url : Url) (es : List Event) (hc : HealthChecker) : Prop :=
  hc.backendUrls = urls ∧ hc.recoveriesRequired = required ∧
    StateMatches required (Failed url es) (passesSince url es) (hc.stateOf url) (hc.passesOf url)

theorem record_frame (hc : HealthChecker) (e : Event) : hc.Frame (record hc e) e.url := by
  cases e with
  | check url healthy => exact hc.applyCheck_frame url healthy
  | markUnhealthy url => exact hc.markUnhealthy_frame url

variable {urls : List Url} {es : List Event} {hc : HealthChecker}

theorem inv_elsewhere (hi : Inv urls required url es hc) {e : Event} (hne : e.url ≠ url) :
    Inv urls required url (es ++ [e]) (record hc e) := by
  obtain ⟨hurls, hreq, hst⟩ := hi
  obtain ⟨hfails, hpasses⟩ := elsewhere_event hne
  have hframe := record_frame hc e
  obtain ⟨hstate, hcount⟩ := hframe.elsewhere url (Ne.symm hne)
  refine ⟨hframe.backendUrls.trans hurls, hframe.recoveriesRequired.trans hreq, ?_⟩
  rw [hstate, hcount, failed_snoc, passesSince_snoc hfails, hfails, hpasses]
  simpa using hst

theorem inv_pass (hurl : url ∈ urls) (hi : Inv urls required url es hc) :
    Inv urls required url (es ++ [.check url true]) (record hc (.check url true)) := by
  obtain ⟨hurls, hreq, hst⟩ := hi
  have hframe := record_frame hc (.check url true)
  have hmem : url ∈ hc.backendUrls := hurls ▸ hurl
  obtain ⟨s, hs⟩ := Option.isSome_iff_exists.mp ((hc.stateOf_isSome url).mpr hmem)
  obtain ⟨hstate, hcount⟩ := HealthChecker.applyCheck_pass hs
  rw [hs] at hst
  have hfails : Event.fails url (.check url true) = false := by simp [Event.fails]
  have hpasses : Event.passes url (.check url true) = true := by simp [Event.passes]
  refine ⟨hframe.backendUrls.trans hurls, hframe.recoveriesRequired.trans hreq, ?_⟩
  rw [failed_snoc, passesSince_snoc hfails, hfails, hpasses]
  unfold record
  simp only [hstate, hcount, hreq, Bool.false_eq_true, or_false, if_true]
  exact matches_pass hst

theorem inv_failure (hi : Inv urls required url es hc) {e : Event} (hfails : e.fails url)
    (hstate : (record hc e).stateOf url = some .unhealthy) :
    Inv urls required url (es ++ [e]) (record hc e) := by
  obtain ⟨hurls, hreq, -⟩ := hi
  have hframe := record_frame hc e
  refine ⟨hframe.backendUrls.trans hurls, hframe.recoveriesRequired.trans hreq, ?_⟩
  rw [hstate, passesSince_failure hfails]
  exact matches_fail (failed_snoc.mpr (Or.inr hfails))

theorem inv_step (hurl : url ∈ urls) (hi : Inv urls required url es hc) (e : Event) :
    Inv urls required url (es ++ [e]) (record hc e) := by
  by_cases hne : e.url = url
  · subst hne
    have hmem : e.url ∈ hc.backendUrls := hi.1 ▸ hurl
    match e, hmem with
    | .check u true, _ => exact inv_pass hurl hi
    | .check u false, hmem =>
      exact inv_failure hi (by simp [Event.fails, Event.url]) (HealthChecker.applyCheck_fail hmem).1
    | .markUnhealthy u, hmem =>
      exact inv_failure hi (by simp [Event.fails, Event.url]) (HealthChecker.markUnhealthy_self hmem).1
  · exact inv_elsewhere hi hne

theorem inv_run (hurl : url ∈ urls) (es : List Event) : Inv urls required url es (run urls required es) := by
  induction es using List.reverseRecOn with
  | nil =>
    refine ⟨rfl, rfl, fun _ => HealthChecker.stateOf_init hurl, fun h => ?_⟩
    simp [Failed] at h
  | append_singleton es e ih =>
    rw [run_snoc]
    exact inv_step hurl ih e

/-! ## The three states -/

theorem state_of_matches {state : Option BackendState} (h : StateMatches required failed passes state n) :
    (state = some .healthy ↔ ¬ failed ∨ max required 2 ≤ passes) ∧
    (state = some .unhealthy ↔ failed ∧ passes = 0) ∧
    (state = some .recovering ↔ failed ∧ 0 < passes ∧ (passes : ℤ) < max required 2) := by
  obtain ⟨h1, h2⟩ := h
  by_cases hf : failed
  · simp only [hf, not_true_eq_false, false_or, true_and]
    rcases h2 hf with ⟨hp, rfl⟩ | ⟨hp, hlt, rfl, -⟩ | ⟨hp, rfl⟩
    · simp [hp]
    · simp only [Option.some.injEq, reduceCtorEq, false_iff, true_iff]
      omega
    · simp only [Option.some.injEq, reduceCtorEq, false_iff, true_iff]
      omega
  · simp [h1 hf, hf]

/-- The state of a backend after any events, and that the events of one backend leave the others alone. -/
theorem state_of_history (urls : List Url) (required : ℤ) (es : List Event) :
    (∀ url ∈ urls,
      ((run urls required es).stateOf url = some .healthy ↔
        ¬ Failed url es ∨ max required 2 ≤ passesSince url es) ∧
      ((run urls required es).stateOf url = some .unhealthy ↔ Failed url es ∧ passesSince url es = 0) ∧
      ((run urls required es).stateOf url = some .recovering ↔
        Failed url es ∧ 0 < passesSince url es ∧ (passesSince url es : ℤ) < max required 2)) ∧
    (∀ e : Event, ∀ url, url ≠ e.url →
      (run urls required (es ++ [e])).stateOf url = (run urls required es).stateOf url ∧
      (run urls required (es ++ [e])).passesOf url = (run urls required es).passesOf url) := by
  refine ⟨fun url hurl => state_of_matches (inv_run hurl es).2.2, fun e url hne => ?_⟩
  rw [run_snoc]
  exact (record_frame _ e).elsewhere url hne

/-- The passes of `a` before its last failure do not count, nor do those of `b`. -/
theorem state_of_history_recovering :
    (run [Python.str "a", Python.str "b"] 2
      [.markUnhealthy (Python.str "a"), .check (Python.str "a") true, .check (Python.str "a") false,
        .check (Python.str "b") true, .check (Python.str "a") true]).stateOf (Python.str "a") =
      some .recovering :=
  ((state_of_history _ 2 _).1 (Python.str "a") (by decide)).2.2.mpr
    ⟨⟨.markUnhealthy (Python.str "a"), by simp, by decide⟩, by decide, by decide⟩

end FlightPulse.LoadBalancer.History
