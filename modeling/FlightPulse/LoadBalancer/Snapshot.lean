import FlightPulse.Lib.OrderStatistic
import FlightPulse.Lib.Rounding
import FlightPulse.LoadBalancer.Metrics

/-!
# What a snapshot says (`load_balancer/metrics.py`)

The latencies are exact, and only the rank of a percentile is computed on floats. It
comes out as it would on exact numbers, since neither 0.95 nor 0.99 is rounded up.
-/

open Lib Lib.Python Lib.Rounding Lib.OrderStatistic

namespace FlightPulse.LoadBalancer

/-- `xs[i]`, where a negative index counts from the end; `none` is the IndexError. -/
def item (xs : List ℚ) (i : ℤ) : Option ℚ :=
  if 0 ≤ i then xs[i.toNat]?
  else if -i ≤ xs.length then xs[(xs.length + i).toNat]?
  else none

structure Snapshot where
  totalRequests : ℕ
  successfulRequests : ℕ
  failedRequests : ℕ
  retriedRequests : ℕ
  avgLatencyMs : ℚ
  p50LatencyMs : ℚ
  p95LatencyMs : ℚ
  p99LatencyMs : ℚ
  minLatencyMs : ℚ
  maxLatencyMs : ℚ
  sampleCount : ℕ
  backendSelectionCounts : Dict Url ℕ
  healthCheckFailures : Dict Url ℕ
  activeBackendCount : ℤ

namespace Metrics

/-- `math.ceil((pct / 100.0) * n)`. -/
def ceilRank (pct : ℚ) (n : ℕ) : ℤ := ⌈binary64 (binary64 (pct / 100) * n)⌉

def percentile (sortedValues : List ℚ) (pct : ℚ) : Option ℚ :=
  if sortedValues.isEmpty then some 0
  else
    let n := sortedValues.length
    let rank := max 1 (ceilRank pct n)
    let index := min rank n - 1
    item sortedValues index

def snapshot (m : Metrics) (activeBackendCount : ℤ) : Option Snapshot := do
  let latencies := m.latenciesMs.insertionSort (· ≤ ·)
  let avgLatency := if latencies.isEmpty then 0 else latencies.sum / latencies.length
  let p50 ← percentile latencies 50
  let p95 ← percentile latencies 95
  let p99 ← percentile latencies 99
  let minLatency ← if latencies.isEmpty then some 0 else (item latencies 0).map (toDigits 2)
  let maxLatency ← if latencies.isEmpty then some 0 else (item latencies (-1)).map (toDigits 2)
  some {
    totalRequests := m.totalRequests
    successfulRequests := m.successfulRequests
    failedRequests := m.failedRequests
    retriedRequests := m.retriedRequests
    avgLatencyMs := toDigits 2 avgLatency
    p50LatencyMs := toDigits 2 p50
    p95LatencyMs := toDigits 2 p95
    p99LatencyMs := toDigits 2 p99
    minLatencyMs := minLatency
    maxLatencyMs := maxLatency
    sampleCount := latencies.length
    backendSelectionCounts := m.backendSelectionCounts
    healthCheckFailures := m.healthCheckFailures
    activeBackendCount := activeBackendCount }

end Metrics

/-! ## Runs -/

/-- The arguments of a call of `record_request`. -/
structure Recorded where
  backendUrl : Url
  success : Bool
  latencyMs : ℚ
  retried : Bool

inductive Event where
  | request (call : Recorded)
  | healthCheckFailure (backendUrl : Url)

namespace Metrics

def handle (m : Metrics) : Event → Metrics
  | .request c => m.recordRequest c.backendUrl c.success c.latencyMs c.retried
  | .healthCheckFailure url => m.recordHealthCheckFailure url

def recorded (events : List Event) : Metrics := events.foldl handle init

end Metrics

def Event.request? : Event → Option Recorded
  | .request c => some c
  | .healthCheckFailure _ => none

def requests (events : List Event) : List Recorded := events.filterMap Event.request?

/-- The latencies of the last `n` requests. -/
def latest (n : ℕ) (calls : List Recorded) : List ℚ := (calls.map Recorded.latencyMs).drop (calls.length - n)

/-- The least sample that `pct` percent of the samples do not exceed, rounded to two digits. -/
def Reported (samples : List ℚ) (pct : ℕ) (shown : ℚ) : Prop :=
  ∃ v, NearestRank samples ⌈(pct * samples.length / 100 : ℚ)⌉₊ v ∧ shown = toDigits 2 v

/-- What a snapshot says of the samples, each value rounded to two digits. -/
structure Snapshot.Describes (s : Snapshot) (samples : List ℚ) : Prop where
  count : s.sampleCount = samples.length
  mean : samples ≠ [] → s.avgLatencyMs = toDigits 2 (samples.sum / samples.length)
  p50 : samples ≠ [] → Reported samples 50 s.p50LatencyMs
  p95 : samples ≠ [] → Reported samples 95 s.p95LatencyMs
  p99 : samples ≠ [] → Reported samples 99 s.p99LatencyMs
  least : samples ≠ [] → ∃ v, IsLeast {x | x ∈ samples} v ∧ s.minLatencyMs = toDigits 2 v
  greatest : samples ≠ [] → ∃ v, IsGreatest {x | x ∈ samples} v ∧ s.maxLatencyMs = toDigits 2 v
  ordered : samples ≠ [] → s.minLatencyMs ≤ s.p50LatencyMs ∧ s.p50LatencyMs ≤ s.p95LatencyMs ∧
    s.p95LatencyMs ≤ s.p99LatencyMs ∧ s.p99LatencyMs ≤ s.maxLatencyMs

/-! ## The rank -/

namespace Metrics

theorem binary64_percent {pct : ℕ} {k : ℤ} (hlow : 50 ≤ pct) (hhigh : pct < 100)
    (hk : (k : ℚ) ≤ pct / 100 * 2 ^ 53) (hnear : (pct / 100 * 2 ^ 53 : ℚ) < k + 1 / 2) :
    binary64 (pct / 100) ≤ pct / 100 := by
  have h50 : (50 : ℚ) ≤ pct := by exact_mod_cast hlow
  have h100 : (pct : ℚ) < 100 := by exact_mod_cast hhigh
  rw [binary64_of_bits (by linarith) (by linarith) hk hnear, div_le_iff₀ (by positivity)]
  exact hk

/-- A percentage that is not rounded up. -/
structure Percentage (pct : ℕ) : Prop where
  half_le : 50 ≤ pct
  lt : pct < 100
  below : binary64 (pct / 100) ≤ pct / 100

theorem percentage_50 : Percentage 50 :=
  ⟨by decide, by decide, binary64_percent (k := 2 ^ 52) (by decide) (by decide) (by norm_num) (by norm_num)⟩

theorem percentage_95 : Percentage 95 :=
  ⟨by decide, by decide,
    binary64_percent (k := 8556839292003942) (by decide) (by decide) (by norm_num) (by norm_num)⟩

theorem percentage_99 : Percentage 99 :=
  ⟨by decide, by decide,
    binary64_percent (k := 8917127262193582) (by decide) (by decide) (by norm_num) (by norm_num)⟩

namespace Percentage

variable {pct n : ℕ}

theorem half (h : Percentage pct) : (1 / 2 : ℚ) ≤ pct / 100 := by
  have hle : (50 : ℚ) ≤ pct := by exact_mod_cast h.half_le
  linarith

theorem le_one (h : Percentage pct) : (pct / 100 : ℚ) ≤ 1 := by
  have hlt : (pct : ℚ) < 100 := by exact_mod_cast h.lt
  linarith

/-- Each of the two operations loses less than one part in `2 ^ 53`. -/
theorem sub_le (h : Percentage pct) (hn : 0 < n) (hwindow : n ≤ 1000) :
    (pct / 100 * n - 1 / 200 : ℚ) ≤ binary64 (binary64 (pct / 100) * n) := by
  have hn1 : (1 : ℚ) ≤ n := by exact_mod_cast hn
  have hn1000 : (n : ℚ) ≤ 1000 := by exact_mod_cast hwindow
  have hhalf := h.half
  have hone := h.le_one
  have hnormal : (2 : ℚ) ^ (-1022 : ℤ) ≤ 1 / 4 := by
    rw [show (1 / 4 : ℚ) = 2 ^ (-2 : ℤ) by norm_num]
    exact zpow_le_zpow_right₀ one_le_two (by norm_num)
  have hfactor : (pct / 100 - 1 / 2 ^ 53 : ℚ) ≤ binary64 (pct / 100) := by
    have hloss := sub_le_binary64 (hnormal.trans (by linarith : (1 / 4 : ℚ) ≤ pct / 100))
    linarith
  have hbelow := h.below
  -- from here on the two factors are any numbers this close to each other
  generalize binary64 (pct / 100 : ℚ) = f at hfactor hbelow ⊢
  generalize (pct / 100 : ℚ) = q at hhalf hone hfactor hbelow ⊢
  have hlow : q * n - 1000 / 2 ^ 53 ≤ f * n := by
    have hmul := mul_le_mul_of_nonneg_right hfactor (zero_le_one.trans hn1)
    rw [sub_mul] at hmul
    linarith
  have hhigh : f * n ≤ 1000 := by
    calc f * n ≤ 1 * n := mul_le_mul_of_nonneg_right (hbelow.trans hone) (zero_le_one.trans hn1)
      _ ≤ 1000 := by linarith
  have hquarter : 1 / 4 ≤ f * n := by
    calc (1 / 4 : ℚ) ≤ f * 1 := by linarith
      _ ≤ f * n := mul_le_mul_of_nonneg_left hn1 (by linarith)
  have hloss := sub_le_binary64 (hnormal.trans hquarter)
  linarith

theorem ceil_le (h : Percentage pct) : ⌈(pct * n / 100 : ℚ)⌉₊ ≤ n := by
  apply Nat.ceil_le.mpr
  calc (pct * n / 100 : ℚ) = pct / 100 * n := by ring
    _ ≤ 1 * n := mul_le_mul_of_nonneg_right h.le_one (Nat.cast_nonneg n)
    _ = n := one_mul _

theorem ceilRank_le (h : Percentage pct) (hwindow : n ≤ 1000) :
    ceilRank pct n ≤ ⌈(pct * n / 100 : ℚ)⌉₊ := by
  apply Int.ceil_le.mpr
  have hnonneg : 0 ≤ binary64 (pct / 100 : ℚ) := binary64_nonneg (by positivity)
  have hbelow : binary64 (pct / 100) * n ≤ (⌈(pct * n / 100 : ℚ)⌉₊ : ℚ) := by
    calc binary64 (pct / 100) * n ≤ pct / 100 * n := mul_le_mul_of_nonneg_right h.below (Nat.cast_nonneg n)
      _ = pct * n / 100 := by ring
      _ ≤ _ := Nat.le_ceil _
  have hsmall : ⌈(pct * n / 100 : ℚ)⌉₊ < 2 ^ 53 :=
    (h.ceil_le.trans hwindow).trans_lt (by norm_num)
  exact_mod_cast binary64_le_natCast (by positivity) hbelow hsmall

/-- On exact numbers the rank is above any smaller one by a hundredth at least. -/
theorem le_ceilRank (h : Percentage pct) (hn : 0 < n) (hwindow : n ≤ 1000) :
    (⌈(pct * n / 100 : ℚ)⌉₊ : ℤ) ≤ ceilRank pct n := by
  have hceil : (⌈(pct * n / 100 : ℚ)⌉₊ : ℚ) < pct * n / 100 + 1 := Nat.ceil_lt_add_one (by positivity)
  have hloss := h.sub_le hn hwindow
  generalize ⌈(pct * n / 100 : ℚ)⌉₊ = c at hceil ⊢
  have hgap : 100 * c + 1 ≤ pct * n + 100 := by
    have hlt : (100 * c : ℚ) < pct * n + 100 := by linarith
    exact_mod_cast hlt
  have hgap' : (100 * c + 1 : ℚ) ≤ pct * n + 100 := by exact_mod_cast hgap
  apply Int.le_ceil_iff.mpr
  push_cast
  linarith

theorem ceilRank_eq (h : Percentage pct) (hn : 0 < n) (hwindow : n ≤ 1000) :
    ceilRank pct n = ⌈(pct * n / 100 : ℚ)⌉₊ :=
  le_antisymm (h.ceilRank_le hwindow) (h.le_ceilRank hn hwindow)

theorem ceil_pos (h : Percentage pct) (hn : 0 < n) : 0 < ⌈(pct * n / 100 : ℚ)⌉₊ := by
  have hpct : (0 : ℚ) < pct := by
    have hhalf := h.half
    linarith
  have hn' : (0 : ℚ) < n := by exact_mod_cast hn
  exact Nat.ceil_pos.mpr (by positivity)

end Percentage

/-! ## The percentiles -/

theorem item_natCast (xs : List ℚ) (i : ℕ) : item xs i = xs[i]? := by
  rw [item, if_pos (Int.natCast_nonneg i), Int.toNat_natCast]

theorem percentile_isSome (sortedValues : List ℚ) (pct : ℚ) : (percentile sortedValues pct).isSome := by
  unfold percentile
  split
  · rfl
  · next hne =>
    have hlen : 0 < sortedValues.length := List.length_pos_iff.mpr (by simpa using hne)
    dsimp only
    generalize ceilRank pct sortedValues.length = rank
    have hindex : min (max 1 rank) (sortedValues.length : ℤ) - 1 =
        ((min (max 1 rank) (sortedValues.length : ℤ) - 1).toNat : ℕ) := by omega
    rw [hindex, item_natCast, List.getElem?_eq_getElem (by omega)]
    rfl

theorem percentile_nearestRank {pct : ℕ} (h : Percentage pct) {l : List ℚ} (hl : l.Pairwise (· ≤ ·))
    (hne : l ≠ []) (hwindow : l.length ≤ 1000) :
    ∃ v, percentile l pct = some v ∧ NearestRank l ⌈(pct * l.length / 100 : ℚ)⌉₊ v := by
  have hlen := List.length_pos_iff.mpr hne
  have hrank := h.ceilRank_eq hlen hwindow
  have hpos := h.ceil_pos hlen
  have hle : ⌈(pct * l.length / 100 : ℚ)⌉₊ ≤ l.length := h.ceil_le
  generalize ⌈(pct * l.length / 100 : ℚ)⌉₊ = c at hrank hpos hle ⊢
  obtain ⟨k, rfl⟩ := Nat.exists_eq_succ_of_ne_zero hpos.ne'
  have hindex : min (max 1 ((k + 1 : ℕ) : ℤ)) l.length - 1 = (k : ℤ) := by omega
  refine ⟨l[k], ?_, nearestRank_getElem hl hle⟩
  rw [percentile, if_neg (by simpa using hne)]
  dsimp only
  rw [hrank, hindex, item_natCast, List.getElem?_eq_getElem hle]

theorem ceil_mono {a b n : ℕ} (hab : a ≤ b) : ⌈(a * n / 100 : ℚ)⌉₊ ≤ ⌈(b * n / 100 : ℚ)⌉₊ := by
  have hcast : (a : ℚ) ≤ b := by exact_mod_cast hab
  exact Nat.ceil_mono (by gcongr)

/-! ## One snapshot -/

theorem item_last {l : List ℚ} (hne : l ≠ []) : item l (-1) = some (l.getLast hne) := by
  have hlen := List.length_pos_iff.mpr hne
  have hindex : ((l.length : ℤ) + -1).toNat = l.length - 1 := by omega
  rw [item, if_neg (by decide), if_pos (by omega), hindex, List.getLast_eq_getElem,
    List.getElem?_eq_getElem (by omega)]

theorem isLeast_head {l : List ℚ} (hl : l.Pairwise (· ≤ ·)) (hlen : 0 < l.length) :
    IsLeast {x | x ∈ l} l[0] :=
  isLeast_of_nearestRank le_rfl (nearestRank_getElem hl hlen)

theorem isGreatest_last {l : List ℚ} (hl : l.Pairwise (· ≤ ·)) (hne : l ≠ []) :
    IsGreatest {x | x ∈ l} (l.getLast hne) := by
  have hlen := List.length_pos_iff.mpr hne
  rw [List.getLast_eq_getElem]
  apply isGreatest_of_nearestRank
  have hlast := nearestRank_getElem hl (k := l.length - 1) (by omega)
  rwa [Nat.sub_add_cancel hlen] at hlast

theorem reported_perm {l l' : List ℚ} {pct : ℕ} {shown : ℚ} (h : Reported l pct shown) (hp : l.Perm l') :
    Reported l' pct shown := by
  obtain ⟨v, hv, hshown⟩ := h
  rw [hp.length_eq] at hv
  exact ⟨v, hv.perm hp, hshown⟩

theorem describes_perm {s : Snapshot} {l l' : List ℚ} (h : s.Describes l) (hp : l.Perm l') : s.Describes l' := by
  have hlength := hp.length_eq
  have hne : l' ≠ [] → l ≠ [] := fun hl' hl => hl' (List.nil_perm.mp (hl ▸ hp))
  have hmem : {x | x ∈ l} = {x | x ∈ l'} := by
    ext x
    exact hp.mem_iff
  constructor
  case count => rw [h.count, hlength]
  case mean =>
    intro hl
    rw [h.mean (hne hl), hp.sum_eq, hlength]
  case p50 => exact fun hl => reported_perm (h.p50 (hne hl)) hp
  case p95 => exact fun hl => reported_perm (h.p95 (hne hl)) hp
  case p99 => exact fun hl => reported_perm (h.p99 (hne hl)) hp
  case least =>
    rw [← hmem]
    exact fun hl => h.least (hne hl)
  case greatest =>
    rw [← hmem]
    exact fun hl => h.greatest (hne hl)
  case ordered => exact fun hl => h.ordered (hne hl)

theorem snapshot_describes (m : Metrics) (activeBackendCount : ℤ) (hwindow : m.latenciesMs.length ≤ 1000) :
    ∃ s, m.snapshot activeBackendCount = some s ∧ s.Describes m.latenciesMs ∧
      s.totalRequests = m.totalRequests ∧ s.successfulRequests = m.successfulRequests ∧
      s.failedRequests = m.failedRequests ∧ s.backendSelectionCounts = m.backendSelectionCounts := by
  have hperm := List.perm_insertionSort (· ≤ ·) m.latenciesMs
  have hsorted := List.pairwise_insertionSort (· ≤ ·) m.latenciesMs
  rw [← hperm.length_eq] at hwindow
  suffices h : ∃ s, m.snapshot activeBackendCount = some s ∧ s.Describes (m.latenciesMs.insertionSort (· ≤ ·)) ∧
      s.totalRequests = m.totalRequests ∧ s.successfulRequests = m.successfulRequests ∧
      s.failedRequests = m.failedRequests ∧ s.backendSelectionCounts = m.backendSelectionCounts by
    obtain ⟨s, hs, hdescribes, hcounters⟩ := h
    exact ⟨s, hs, describes_perm hdescribes hperm, hcounters⟩
  unfold snapshot
  generalize m.latenciesMs.insertionSort (· ≤ ·) = l at hsorted hwindow ⊢
  rcases eq_or_ne l [] with rfl | hne
  · simp only [percentile, List.isEmpty_nil, if_true, Option.bind_eq_bind, Option.bind_some,
      Option.some.injEq, exists_eq_left', and_self, and_true]
    constructor <;> simp
  · have hlen := List.length_pos_iff.mpr hne
    have hisEmpty : ¬ l.isEmpty = true := by simpa using hne
    obtain ⟨p50, h50, hrank50⟩ := percentile_nearestRank percentage_50 hsorted hne hwindow
    obtain ⟨p95, h95, hrank95⟩ := percentile_nearestRank percentage_95 hsorted hne hwindow
    obtain ⟨p99, h99, hrank99⟩ := percentile_nearestRank percentage_99 hsorted hne hwindow
    have hhead : item l 0 = some l[0] := (item_natCast l 0).trans (List.getElem?_eq_getElem hlen)
    have hleast := isLeast_head hsorted hlen
    have hgreatest := isGreatest_last hsorted hne
    rw [Nat.cast_ofNat] at h50 h95 h99
    simp only [h50, h95, h99, hhead, item_last hne, if_neg hisEmpty, Option.map_some, Option.bind_eq_bind,
      Option.bind_some, Option.some.injEq, exists_eq_left', and_self, and_true]
    refine ⟨rfl, fun _ => rfl, fun _ => ⟨p50, hrank50, rfl⟩, fun _ => ⟨p95, hrank95, rfl⟩,
      fun _ => ⟨p99, hrank99, rfl⟩, fun _ => ⟨_, hleast, rfl⟩, fun _ => ⟨_, hgreatest, rfl⟩, fun _ => ?_⟩
    exact ⟨toDigits_mono 2 (hleast.2 hrank50.1.1), toDigits_mono 2 (hrank50.mono hrank95 (ceil_mono (by decide))),
      toDigits_mono 2 (hrank95.mono hrank99 (ceil_mono (by decide))), toDigits_mono 2 (hgreatest.2 hrank99.1.1)⟩

end Metrics

/-! ## Runs -/

namespace Metrics

theorem window_latest (calls : List Recorded) (c : Recorded) :
    window (latest 1000 calls ++ [c.latencyMs]) = latest 1000 (calls ++ [c]) := by
  have hlength : (latest 1000 calls ++ [c.latencyMs]).length = min calls.length 1000 + 1 := by
    simp only [latest, List.length_append, List.length_drop, List.length_map, List.length_singleton]
    omega
  have hjoin : latest 1000 calls ++ [c.latencyMs] =
      ((calls ++ [c]).map Recorded.latencyMs).drop (calls.length - 1000) := by
    rw [List.map_append, List.drop_append_of_le_length (by simp)]
    rfl
  rw [window, hlength, hjoin, List.drop_drop, latest, List.length_append, List.length_singleton]
  split
  · next hfull =>
    have hdropped : calls.length - 1000 + (min calls.length 1000 + 1 - 1000) = calls.length + 1 - 1000 := by omega
    rw [hdropped]
  · next hfree =>
    have hdropped : calls.length - 1000 = calls.length + 1 - 1000 := by omega
    rw [hdropped]

/-- What the counters say about the calls so far. -/
structure Counted (m : Metrics) (calls : List Recorded) : Prop where
  total : m.totalRequests = calls.length
  outcomes : m.totalRequests = m.successfulRequests + m.failedRequests
  selections : m.totalRequests = (m.backendSelectionCounts.entries.map Prod.snd).sum
  latencies : m.latenciesMs = latest 1000 calls

theorem counted_init : Counted init [] := ⟨rfl, rfl, rfl, rfl⟩

theorem sum_increment (counts : Dict Url ℕ) (url : Url) :
    ((increment counts url).entries.map Prod.snd).sum = (counts.entries.map Prod.snd).sum + 1 :=
  Dict.sum_assign_add url 1 counts.entries

variable {m : Metrics} {calls : List Recorded}

theorem Counted.request (h : Counted m calls) (c : Recorded) :
    Counted (m.handle (.request c)) (calls ++ [c]) where
  total := by simp [handle, recordRequest, h.total]
  outcomes := by
    have houtcomes := h.outcomes
    simp only [handle, recordRequest]
    split <;> omega
  selections := by
    simp only [handle, recordRequest, sum_increment]
    rw [← h.selections]
  latencies := by
    rw [← window_latest, ← h.latencies]
    rfl

theorem Counted.handle (h : Counted m calls) (e : Event) : Counted (m.handle e) (calls ++ e.request?.toList) := by
  cases e with
  | request c => exact h.request c
  | healthCheckFailure url =>
    rw [Event.request?, Option.toList_none, List.append_nil]
    exact ⟨h.total, h.outcomes, h.selections, h.latencies⟩

theorem recorded_counted (events : List Event) : Counted (recorded events) (requests events) := by
  induction events using List.reverseRecOn with
  | nil => exact counted_init
  | append_singleton events e ih =>
    have hrequests : requests (events ++ [e]) = requests events ++ e.request?.toList := by
      rw [requests, List.filterMap_append]
      cases e <;> rfl
    rw [recorded, List.foldl_append, hrequests]
    exact ih.handle e

end Metrics

/-- In every run, and a snapshot never fails, whatever is sorted. -/
theorem snapshot_describes_window (events : List Event) (activeBackendCount : ℤ) :
    (∀ sortedValues pct, (Metrics.percentile sortedValues pct).isSome) ∧
      ∃ s, (Metrics.recorded events).snapshot activeBackendCount = some s ∧
        s.totalRequests = (requests events).length ∧
        s.totalRequests = s.successfulRequests + s.failedRequests ∧
        s.totalRequests = (s.backendSelectionCounts.entries.map Prod.snd).sum ∧
        s.Describes (latest (min s.totalRequests 1000) (requests events)) := by
  have hcounted := Metrics.recorded_counted events
  have hwindow : (Metrics.recorded events).latenciesMs.length ≤ 1000 := by
    rw [hcounted.latencies, latest, List.length_drop, List.length_map]
    omega
  obtain ⟨s, hs, hdescribes, htotal, hsuccessful, hfailed, hselections⟩ :=
    Metrics.snapshot_describes (Metrics.recorded events) activeBackendCount hwindow
  refine ⟨Metrics.percentile_isSome, s, hs, ?_, ?_, ?_, ?_⟩
  · rw [htotal, hcounted.total]
  · rw [htotal, hsuccessful, hfailed, hcounted.outcomes]
  · rw [htotal, hselections, hcounted.selections]
  · have hlatest : latest (min s.totalRequests 1000) (requests events) = latest 1000 (requests events) := by
      have hdropped : (requests events).length - min (requests events).length 1000 =
          (requests events).length - 1000 := by omega
      rw [htotal, hcounted.total, latest, latest, hdropped]
    rw [hlatest, ← hcounted.latencies]
    exact hdescribes

end FlightPulse.LoadBalancer
