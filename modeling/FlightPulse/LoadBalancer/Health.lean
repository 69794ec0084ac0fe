import FlightPulse.LoadBalancer.Metrics

/-!
# Backend health checking (`load_balancer/health.py`)

The checker keeps two dictionaries with one entry for each backend. The probe
itself runs outside the lock, so `_check_one` is two steps here: the answer of
a probe arrives as a `Bool`, and `applyCheck` is what happens under the lock.
-/

open Lib Lib.Python

namespace FlightPulse.LoadBalancer

inductive BackendState where
  | healthy
  | unhealthy
  | recovering
deriving DecidableEq

structure HealthChecker where
  backendUrls : List Url
  recoveriesRequired : ℤ
  state : Dict Url BackendState
  consecutivePasses : Dict Url ℕ
  state_keys : ∀ url, url ∈ state.keys ↔ url ∈ backendUrls
  passes_keys : ∀ url, url ∈ consecutivePasses.keys ↔ url ∈ backendUrls

namespace HealthChecker

/-- Optimistic: every backend is healthy until a check says otherwise. -/
def init (backendUrls : List Url) (recoveriesRequired : ℤ) : HealthChecker where
  backendUrls := backendUrls
  recoveriesRequired := recoveriesRequired
  state := Dict.ofPairs (backendUrls.map fun url => (url, .healthy))
  consecutivePasses := Dict.ofPairs (backendUrls.map fun url => (url, 0))
  state_keys := fun url => by simp [Dict.mem_keys_ofPairs]
  passes_keys := fun url => by simp [Dict.mem_keys_ofPairs]

def stateOf (hc : HealthChecker) (url : Url) : Option BackendState := hc.state.get? url

def passesOf (hc : HealthChecker) (url : Url) : ℕ := (hc.consecutivePasses.get? url).getD 0

/-- `self._state[url] = s` and `self._consecutive_passes[url] = n`, for a backend of the list. -/
def write (hc : HealthChecker) (url : Url) (h : url ∈ hc.backendUrls) (s : BackendState) (n : ℕ) :
    HealthChecker :=
  { hc with
    state := hc.state.set url s
    consecutivePasses := hc.consecutivePasses.set url n
    state_keys := fun u => by
      rw [Dict.keys_set_of_mem _ _ ((hc.state_keys url).mpr h), hc.state_keys]
    passes_keys := fun u => by
      rw [Dict.keys_set_of_mem _ _ ((hc.passes_keys url).mpr h), hc.passes_keys] }

/-- `_check_one` under the lock. A URL that is not a backend is a KeyError. -/
def applyCheck (hc : HealthChecker) (url : Url) (healthy : Bool) : HealthChecker :=
  if h : url ∈ hc.backendUrls then
    if healthy then
      match hc.stateOf url with
      | some .unhealthy => hc.write url h .recovering 1
      | some .recovering =>
        if hc.recoveriesRequired ≤ hc.passesOf url + 1 then hc.write url h .healthy 0
        else hc.write url h .recovering (hc.passesOf url + 1)
      | _ => hc
    else hc.write url h .unhealthy 0
  else hc

def markUnhealthy (hc : HealthChecker) (url : Url) : HealthChecker :=
  if h : url ∈ hc.backendUrls then hc.write url h .unhealthy 0 else hc

def healthyBackends (hc : HealthChecker) : List Url :=
  (hc.state.entries.filter fun p => p.2 = .healthy).map Prod.fst

def snapshot (hc : HealthChecker) : Dict Url BackendState := hc.state

/-! ## One backend -/

@[simp] theorem write_backendUrls (hc : HealthChecker) (url : Url) (h : url ∈ hc.backendUrls)
    (s : BackendState) (n : ℕ) : (hc.write url h s n).backendUrls = hc.backendUrls := rfl

@[simp] theorem write_recoveriesRequired (hc : HealthChecker) (url : Url) (h : url ∈ hc.backendUrls)
    (s : BackendState) (n : ℕ) :
    (hc.write url h s n).recoveriesRequired = hc.recoveriesRequired := rfl

theorem stateOf_write (hc : HealthChecker) (url u : Url) (h : url ∈ hc.backendUrls)
    (s : BackendState) (n : ℕ) :
    (hc.write url h s n).stateOf u = if url = u then some s else hc.stateOf u :=
  Dict.get?_set hc.state url u s

theorem passesOf_write (hc : HealthChecker) (url u : Url) (h : url ∈ hc.backendUrls)
    (s : BackendState) (n : ℕ) :
    (hc.write url h s n).passesOf u = if url = u then n else hc.passesOf u := by
  unfold passesOf write
  simp only [Dict.get?_set]
  split <;> rfl

theorem stateOf_isSome (hc : HealthChecker) (url : Url) :
    (hc.stateOf url).isSome ↔ url ∈ hc.backendUrls := by
  rw [← hc.state_keys, ← Dict.get?_isSome]
  rfl

theorem mem_healthyBackends (hc : HealthChecker) (url : Url) :
    url ∈ hc.healthyBackends ↔ hc.stateOf url = some .healthy := by
  unfold healthyBackends
  simp only [List.mem_map, List.mem_filter, decide_eq_true_eq]
  constructor
  · rintro ⟨⟨u, s⟩, ⟨hmem, rfl⟩, rfl⟩
    exact (hc.state.mem_entries_iff u .healthy).mp hmem
  · intro h
    exact ⟨(url, .healthy), ⟨(hc.state.mem_entries_iff url .healthy).mpr h, rfl⟩, rfl⟩

theorem mem_backendUrls_of_healthy {hc : HealthChecker} {url : Url}
    (h : url ∈ hc.healthyBackends) : url ∈ hc.backendUrls := by
  rw [mem_healthyBackends] at h
  rw [← stateOf_isSome, h]
  rfl

theorem stateOf_init {urls : List Url} {required : ℤ} {url : Url} (h : url ∈ urls) :
    (init urls required).stateOf url = some .healthy := by
  simp [stateOf, init, Dict.get?_ofPairs_const, h]

/-! ## The transitions of one backend

What a check or a failed request does to the state and the counter of the
backend it is about, and that it does nothing to the others.
-/

def passNext (required : ℤ) : BackendState → ℕ → BackendState × ℕ
  | .healthy, n => (.healthy, n)
  | .unhealthy, _ => (.recovering, 1)
  | .recovering, n => if required ≤ n + 1 then (.healthy, 0) else (.recovering, n + 1)

theorem passNext_ne_unhealthy (required : ℤ) (s : BackendState) (n : ℕ) : (passNext required s n).1 ≠ .unhealthy := by
  unfold passNext
  split
  · simp
  · simp
  · split <;> simp

variable {hc : HealthChecker} {url : Url}

theorem applyCheck_pass {s : BackendState} (hs : hc.stateOf url = some s) :
    (hc.applyCheck url true).stateOf url = some (passNext hc.recoveriesRequired s (hc.passesOf url)).1 ∧
    (hc.applyCheck url true).passesOf url = (passNext hc.recoveriesRequired s (hc.passesOf url)).2 := by
  have h : url ∈ hc.backendUrls := by rw [← stateOf_isSome, hs]; rfl
  cases s with
  | healthy => simp [applyCheck, h, hs, passNext]
  | unhealthy => simp [applyCheck, h, hs, passNext, stateOf_write, passesOf_write]
  | recovering =>
    by_cases hr : hc.recoveriesRequired ≤ (hc.passesOf url : ℤ) + 1 <;>
      simp [applyCheck, h, hs, passNext, hr, stateOf_write, passesOf_write]

theorem applyCheck_fail (h : url ∈ hc.backendUrls) :
    (hc.applyCheck url false).stateOf url = some .unhealthy ∧
    (hc.applyCheck url false).passesOf url = 0 := by
  simp [applyCheck, h, stateOf_write, passesOf_write]

theorem markUnhealthy_self (h : url ∈ hc.backendUrls) :
    (hc.markUnhealthy url).stateOf url = some .unhealthy ∧ (hc.markUnhealthy url).passesOf url = 0 := by
  simp [markUnhealthy, h, stateOf_write, passesOf_write]

/-- Every backend but one, and the settings, are as they were. -/
structure Frame (hc hc' : HealthChecker) (url : Url) : Prop where
  backendUrls : hc'.backendUrls = hc.backendUrls
  recoveriesRequired : hc'.recoveriesRequired = hc.recoveriesRequired
  elsewhere : ∀ u, u ≠ url → hc'.stateOf u = hc.stateOf u ∧ hc'.passesOf u = hc.passesOf u

theorem frame_refl (hc : HealthChecker) (url : Url) : Frame hc hc url :=
  ⟨rfl, rfl, fun _ _ => ⟨rfl, rfl⟩⟩

theorem write_frame (h : url ∈ hc.backendUrls) (s : BackendState) (n : ℕ) : Frame hc (hc.write url h s n) url := by
  refine ⟨rfl, rfl, fun u hu => ?_⟩
  simp [stateOf_write, passesOf_write, Ne.symm hu]

theorem applyCheck_frame (hc : HealthChecker) (url : Url) (healthy : Bool) :
    Frame hc (hc.applyCheck url healthy) url := by
  unfold applyCheck
  split
  · next h =>
    split
    · split
      · exact write_frame h _ _
      · split
        · exact write_frame h _ _
        · exact write_frame h _ _
      · exact frame_refl hc url
    · exact write_frame h _ _
  · exact frame_refl hc url

theorem markUnhealthy_frame (hc : HealthChecker) (url : Url) : Frame hc (hc.markUnhealthy url) url := by
  unfold markUnhealthy
  split
  · exact write_frame _ _ _
  · exact frame_refl hc url

end HealthChecker

end FlightPulse.LoadBalancer
