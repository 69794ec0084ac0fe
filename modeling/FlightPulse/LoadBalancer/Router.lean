import FlightPulse.Lib.Rotation
import FlightPulse.LoadBalancer.Health

/-!
# Round-robin selection (`load_balancer/router.py`)

`itertools.cycle` is the list and the index of its next item. The model of the
code comes first, then its refinement to the walk of a rotation, and what
follows for a run of calls.
-/

open Lib Lib.Python

namespace FlightPulse.LoadBalancer

structure RoundRobinRouter where
  backendUrls : List Url
  nonempty : backendUrls ≠ []
  cursor : ℕ
  cursor_lt : cursor < backendUrls.length

namespace RoundRobinRouter

/-- The constructor; an empty list is a ValueError. -/
def init (backendUrls : List Url) : Option RoundRobinRouter :=
  if h : backendUrls = [] then none
  else some ⟨backendUrls, h, 0, List.length_pos_iff.mpr h⟩

def current (r : RoundRobinRouter) : Url := r.backendUrls.get ⟨r.cursor, r.cursor_lt⟩

/-- `next(self._cycle)`: the router behind the item that it returns. -/
def advance (r : RoundRobinRouter) : RoundRobinRouter :=
  { r with
    cursor := (r.cursor + 1) % r.backendUrls.length
    cursor_lt := Nat.mod_lt _ (List.length_pos_iff.mpr r.nonempty) }

/-- Advance until the candidate is healthy, `fuel` times at most. -/
def advanceTo (healthy : List Url) : ℕ → RoundRobinRouter → Option Url × RoundRobinRouter
  | 0, r => (none, r)
  | fuel + 1, r =>
    if r.current ∈ healthy then (some r.current, r.advance) else advanceTo healthy fuel r.advance

def nextBackend (r : RoundRobinRouter) : Option HealthChecker → Option Url × RoundRobinRouter
  | none => (some r.current, r.advance)
  | some hc =>
    let healthy := hc.healthyBackends
    if healthy = [] then (none, r) else advanceTo healthy r.backendUrls.length r

/-! ## One call is one scan of the rotation -/

def rotation (r : RoundRobinRouter) : Rotation Url := ⟨r.backendUrls, r.nonempty⟩

@[simp] theorem advance_backendUrls (r : RoundRobinRouter) : r.advance.backendUrls = r.backendUrls := rfl

@[simp] theorem advance_rotation (r : RoundRobinRouter) : r.advance.rotation = r.rotation := rfl

theorem current_eq (r : RoundRobinRouter) : r.current = r.rotation.item r.cursor :=
  (r.rotation.item_eq r.cursor_lt (Nat.mod_eq_of_lt r.cursor_lt)).symm

theorem ext_cursor {r r' : RoundRobinRouter} (h : r.backendUrls = r'.backendUrls)
    (hc : r.cursor = r'.cursor) : r = r' := by
  cases r; cases r'
  simp only at h hc
  subst h hc
  rfl

/-- The router with the cursor at a position of the rotation. -/
def moved (r : RoundRobinRouter) (p : ℕ) : RoundRobinRouter :=
  { r with
    cursor := p % r.backendUrls.length
    cursor_lt := Nat.mod_lt _ (List.length_pos_iff.mpr r.nonempty) }

@[simp] theorem moved_backendUrls (r : RoundRobinRouter) (p : ℕ) :
    (r.moved p).backendUrls = r.backendUrls := rfl

@[simp] theorem moved_rotation (r : RoundRobinRouter) (p : ℕ) : (r.moved p).rotation = r.rotation := rfl

@[simp] theorem moved_cursor (r : RoundRobinRouter) (p : ℕ) :
    (r.moved p).cursor = p % r.rotation.size := rfl

theorem moved_self (r : RoundRobinRouter) : r.moved r.cursor = r :=
  ext_cursor rfl (Nat.mod_eq_of_lt r.cursor_lt)

theorem moved_current (r : RoundRobinRouter) (p : ℕ) : (r.moved p).current = r.rotation.item p := by
  rw [current_eq, moved_rotation, moved_cursor, Rotation.item_mod]

theorem moved_advance (r : RoundRobinRouter) (p : ℕ) : (r.moved p).advance = r.moved (p + 1) := by
  apply ext_cursor (show (r.moved p).advance.backendUrls = (r.moved (p + 1)).backendUrls from rfl)
  simp [advance, moved, Nat.add_mod]

theorem moved_add_length (r : RoundRobinRouter) (p : ℕ) :
    r.moved (p + r.backendUrls.length) = r.moved p :=
  ext_cursor rfl (by simp [moved])

def wants (healthy : List Url) (url : Url) : Bool := url ∈ healthy

theorem advanceTo_moved (r : RoundRobinRouter) (healthy : List Url) (fuel p : ℕ) :
    advanceTo healthy fuel (r.moved p) =
      match r.rotation.scan (wants healthy) p fuel with
      | some q => (some (r.rotation.item q), r.moved (q + 1))
      | none => (none, r.moved (p + fuel)) := by
  induction fuel generalizing p with
  | zero => rfl
  | succ fuel ih =>
    unfold advanceTo
    rw [moved_current, moved_advance, Rotation.scan]
    by_cases h : r.rotation.item p ∈ healthy
    · simp [wants, h]
    · simp only [wants, h, if_false, decide_false, Bool.false_eq_true]
      rw [ih, Nat.add_assoc, Nat.add_comm 1 fuel]

theorem nextBackend_moved (r : RoundRobinRouter) (hc : HealthChecker) (p : ℕ) :
    (r.moved p).nextBackend (some hc) =
      ((r.rotation.scan (wants hc.healthyBackends) p r.rotation.size).map r.rotation.item,
        r.moved (Rotation.after p (r.rotation.scan (wants hc.healthyBackends) p r.rotation.size))) := by
  have hscan : hc.healthyBackends = [] →
      r.rotation.scan (wants hc.healthyBackends) p r.rotation.size = none := by
    intro h
    rw [Rotation.scan_size_eq_none, h]
    intro b _
    rfl
  simp only [nextBackend]
  split
  · next h =>
    rw [hscan h]
    rfl
  · rw [moved_backendUrls, advanceTo_moved]
    change _ = ((r.rotation.scan (wants hc.healthyBackends) p r.backendUrls.length).map r.rotation.item,
      r.moved (Rotation.after p (r.rotation.scan (wants hc.healthyBackends) p r.backendUrls.length)))
    cases r.rotation.scan (wants hc.healthyBackends) p r.backendUrls.length with
    | some q => rfl
    | none => exact Prod.ext rfl (r.moved_add_length p)

/-! ## A run of calls

`hc k` is the health checker as call `k` reads it.
-/

def before (r : RoundRobinRouter) (hc : ℕ → HealthChecker) : ℕ → RoundRobinRouter
  | 0 => r
  | k + 1 => ((before r hc k).nextBackend (some (hc k))).2

def returned (r : RoundRobinRouter) (hc : ℕ → HealthChecker) (k : ℕ) : Option Url :=
  ((r.before hc k).nextBackend (some (hc k))).1

def wanted (hc : ℕ → HealthChecker) (k : ℕ) : Url → Bool := wants (hc k).healthyBackends

variable (r : RoundRobinRouter) (hc : ℕ → HealthChecker)

theorem before_eq_walk (k : ℕ) : r.before hc k = r.moved (r.rotation.walk (wanted hc) r.cursor k) := by
  induction k with
  | zero => exact r.moved_self.symm
  | succ k ih =>
    unfold before
    rw [ih, nextBackend_moved]
    rfl

theorem returned_eq_found (k : ℕ) :
    r.returned hc k = (r.rotation.found (wanted hc) r.cursor k).map r.rotation.item := by
  unfold returned
  rw [before_eq_walk, nextBackend_moved]
  rfl

theorem returned_eq_none_iff (h : ∀ k, ∀ url ∈ (hc k).healthyBackends, url ∈ r.backendUrls) (k : ℕ) :
    r.returned hc k = none ↔ (hc k).healthyBackends = [] := by
  rw [returned_eq_found, Option.map_eq_none_iff, Rotation.found, Rotation.scan_size_eq_none]
  constructor
  · intro hall
    rw [List.eq_nil_iff_forall_not_mem]
    intro url hurl
    have := hall url (h k url hurl)
    simp [wanted, wants, hurl] at this
  · intro hnil url _
    simp [wanted, wants, hnil]

theorem returned_mem {k : ℕ} {url : Url} (h : r.returned hc k = some url) :
    url ∈ (hc k).healthyBackends := by
  rw [returned_eq_found, Option.map_eq_some_iff] at h
  obtain ⟨q, hq, rfl⟩ := h
  simpa [wanted, wants] using (r.rotation.scan_some _ hq).2.2.1

/-- Round robin is complete and starves no backend: a call fails only without a healthy backend, a
backend that stays healthy is returned within `n` calls, and between two of its returns no other
backend has more turns than places in the list. -/
theorem round_robin (h : ∀ k, ∀ url ∈ (hc k).healthyBackends, url ∈ r.backendUrls) :
    (∀ k, (r.returned hc k = none ↔ (hc k).healthyBackends = []) ∧
      ∀ url, r.returned hc k = some url → url ∈ (hc k).healthyBackends) ∧
    (∀ b k, (∀ j, k ≤ j → j < k + r.backendUrls.length → b ∈ (hc j).healthyBackends) →
      ∃ j, k ≤ j ∧ j < k + r.backendUrls.length ∧ r.returned hc j = some b) ∧
    (∀ b i j, i < j → r.returned hc i = some b → r.returned hc j = some b →
      (∀ m, i < m → m < j → r.returned hc m ≠ some b) →
      (∀ m, i ≤ m → m ≤ j → b ∈ (hc m).healthyBackends) →
      ∀ c, ((Finset.Ioo i j).filter fun m => r.returned hc m = some c).card ≤ r.backendUrls.count c) := by
  refine ⟨fun k => ⟨r.returned_eq_none_iff hc h k, fun url => r.returned_mem hc⟩, ?_, ?_⟩
  · intro b k hb
    have hpos : 0 < r.backendUrls.length := List.length_pos_iff.mpr r.nonempty
    have hmem : b ∈ r.rotation.items := h k b (hb k (le_refl _) (by omega))
    have hwanted : ∀ j, k ≤ j → j < k + r.rotation.size → wanted hc j b = true := by
      intro j h1 h2
      simpa [wanted, wants] using hb j h1 h2
    obtain ⟨j, h1, h2, h3⟩ := r.rotation.found_within_turn r.cursor hmem hwanted
    exact ⟨j, h1, h2, by rw [returned_eq_found, h3]⟩
  · intro b i j hij hi hj hno hb c
    simp only [returned_eq_found] at hi hj hno ⊢
    obtain ⟨qi, hqi, hbi⟩ := Option.map_eq_some_iff.mp hi
    obtain ⟨qj, hqj, -⟩ := Option.map_eq_some_iff.mp hj
    have hw : ∀ m, i < m → m ≤ j → wanted hc m b = true := by
      intro m h1 h2
      simpa [wanted, wants] using hb m (by omega) h2
    exact Rotation.found_between hij hqi hbi hqj hw hno

/-- The first of three backends is down in every other call. -/
def flapping (k : ℕ) : HealthChecker :=
  let hc := HealthChecker.init [str "a", str "b", str "c"] 2
  if k % 2 = 0 then hc else hc.markUnhealthy (str "a")

theorem flapping_listed (k : ℕ) : ∀ url ∈ (flapping k).healthyBackends, url ∈ [str "a", str "b", str "c"] := by
  intro url hurl
  have hmem := HealthChecker.mem_backendUrls_of_healthy hurl
  unfold flapping at hmem
  dsimp only at hmem
  split at hmem
  · exact hmem
  · rwa [(HealthChecker.markUnhealthy_frame _ _).backendUrls] at hmem

theorem flapping_third (k : ℕ) : str "c" ∈ (flapping k).healthyBackends := by
  unfold flapping
  dsimp only
  split <;> decide

theorem round_robin_flapping :
    let r : RoundRobinRouter := ⟨[str "a", str "b", str "c"], by decide, 0, by decide⟩
    (∃ j, 3 ≤ j ∧ j < 3 + 3 ∧ r.returned flapping j = some (str "c")) ∧
    ((Finset.Ioo 2 4).filter fun m => r.returned flapping m = some (str "b")).card ≤ 1 := by
  intro r
  obtain ⟨-, hreturns, hbetween⟩ := round_robin r flapping flapping_listed
  refine ⟨hreturns (str "c") 3 fun j _ _ => flapping_third j, ?_⟩
  refine hbetween (str "c") 2 4 (by decide) (by decide) (by decide) ?_ (fun m _ _ => flapping_third m) (str "b")
  intro m hlo hhi
  obtain rfl : m = 3 := by omega
  decide

end RoundRobinRouter

end FlightPulse.LoadBalancer
