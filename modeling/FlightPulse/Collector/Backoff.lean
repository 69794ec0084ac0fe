import FlightPulse.Collector.OpenSkyClient
import Mathlib.Tactic.Linarith

/-!
# How long the collector stays away after a 429 (`collector/producer.py`)

`get_states` reads `Retry-After` and answers `None`. `run_forever` pauses for the poll
interval after every cycle, whatever the cycle came to.
-/

open Lib Lib.Python

namespace FlightPulse.Collector

/-- The seconds that a 429 asks for. -/
def StatesAnswer.retryAfter? : StatesAnswer → Option ℤ
  | .response statusCode retryAfter _ => if statusCode = 429 then retryAfterSeconds retryAfter else none
  | _ => none

/-- No states request is sent before the seconds of an earlier 429 have passed. -/
def HonoursRetryAfter (sent : List StatesRequest) : Prop :=
  sent.Pairwise fun x y : StatesRequest => ∀ r, x.answer.retryAfter? = some r → x.answeredAt + r ≤ y.sentAt

/-! ## `run_forever` -/

/-- One pass of the loop in `run_forever`. -/
structure Cycle where
  attempts : ℕ → Attempt
  /-- What `run_once` needs after `get_states`, to its return or to its exception. -/
  rest : ℚ≥0
  /-- How much longer than asked for `time.sleep` takes. -/
  overshoot : ℚ≥0

namespace Cycle

def call (cycle : Cycle) (c : Client) : Call := c.getStates 1 cycle.attempts

/-- From the end of `get_states` to the start of the next cycle. -/
def pause (pollIntervalSeconds : ℤ) (cycle : Cycle) : ℚ := cycle.rest + pollIntervalSeconds + cycle.overshoot

def after (pollIntervalSeconds : ℤ) (cycle : Cycle) (c : Client) : Client :=
  ⟨(cycle.call c).client.manager, (cycle.call c).client.clock + cycle.pause pollIntervalSeconds⟩

end Cycle

/-- The states requests of a run. A negative interval ends it, since `time.sleep` raises. -/
def runForever (pollIntervalSeconds : ℤ) : Client → List Cycle → List StatesRequest
  | _, [] => []
  | c, cycle :: cycles =>
    (cycle.call c).sent ++
      if 0 ≤ pollIntervalSeconds then runForever pollIntervalSeconds (cycle.after pollIntervalSeconds c) cycles else []

/-! ## The time until the next request -/

namespace Client

/-- From now to the moment that the pass has its token, or that it fails to get one. -/
def untilToken (c : Client) (a : Attempt) : ℚ :=
  a.before + if c.manager.isAuthenticated && (c.manager.cached (c.clock + a.before)).isNone then a.tokenTime else 0

/-- The pass gets as far as the states request. -/
def getsToken (c : Client) (a : Attempt) : Bool := (c.manager.getToken (c.clock + a.before) a).token.isSome

/-- What passes before the next states request of the cycles, if there is one. -/
def lull (pollIntervalSeconds : ℤ) : Client → List Cycle → Option ℚ
  | _, [] => none
  | c, cycle :: cycles =>
    let a := cycle.attempts 0
    if c.getsToken a then some (c.untilToken a)
    else if 0 ≤ pollIntervalSeconds then
      (lull pollIntervalSeconds (cycle.after pollIntervalSeconds c) cycles).map fun d =>
        c.untilToken a + cycle.pause pollIntervalSeconds + d
    else none

end Client

/-- Each `Retry-After` is over by the time that the cycle, the pause and the next token have taken. -/
def LongEnough (pollIntervalSeconds : ℤ) : Client → List Cycle → Prop
  | _, [] => True
  | c, cycle :: cycles =>
    0 ≤ pollIntervalSeconds →
      (∀ x ∈ (cycle.call c).sent.getLast?, ∀ r, x.answer.retryAfter? = some r →
        ∀ d ∈ (cycle.after pollIntervalSeconds c).lull pollIntervalSeconds cycles,
          r ≤ cycle.pause pollIntervalSeconds + d) ∧
      LongEnough pollIntervalSeconds (cycle.after pollIntervalSeconds c) cycles

/-! ## One call -/

namespace Client

variable {c : Client} {a : Attempt}

theorem getToken_clock (c : Client) (a : Attempt) :
    (c.manager.getToken (c.clock + a.before) a).clock = c.clock + c.untilToken a := by
  unfold untilToken TokenManager.getToken
  by_cases hauth : c.manager.isAuthenticated
  · cases hcached : c.manager.cached (c.clock + a.before) with
    | some t => simp [hauth]
    | none =>
      have hclock : (c.manager.refresh (c.clock + a.before) a).clock = c.clock + a.before + a.tokenTime := by
        unfold TokenManager.refresh
        split
        · rfl
        · split <;> rfl
      simp [hauth, hclock, add_assoc]
  · simp [hauth]

theorem untilToken_nonneg (c : Client) (a : Attempt) : 0 ≤ c.untilToken a := by
  have hbefore : (0 : ℚ) ≤ a.before := a.before.2
  have htime : (0 : ℚ) ≤ a.tokenTime := a.tokenTime.2
  unfold untilToken
  split
  · exact add_nonneg hbefore htime
  · rwa [NNRat.coe_zero, add_zero]

theorem retryAfter_of_unauthorized {answer : StatesAnswer} (h : answer.isUnauthorized) : answer.retryAfter? = none := by
  cases answer with
  | requestException => rfl
  | otherException => rfl
  | response statusCode retryAfter json =>
    have h401 : statusCode = 401 := by simpa [StatesAnswer.isUnauthorized] using h
    simp [StatesAnswer.retryAfter?, h401]

theorem pass_of_no_token (mayRetry : Bool) (h : c.getsToken a = false) :
    (c.pass mayRetry a).sent = none ∧ (c.pass mayRetry a).result.isSome ∧
      (c.pass mayRetry a).client.clock = c.clock + c.untilToken a := by
  have hclock := c.getToken_clock a
  unfold getsToken at h
  unfold pass
  generalize c.manager.getToken (c.clock + a.before) a = got at h hclock ⊢
  obtain ⟨manager, clock, granted, token⟩ := got
  obtain rfl : token = none := by simpa using h
  exact ⟨rfl, rfl, hclock⟩

theorem pass_of_token (mayRetry : Bool) (h : c.getsToken a) :
    ∃ y, (c.pass mayRetry a).sent = some y ∧ y.sentAt = c.clock + c.untilToken a ∧ y.sentAt ≤ y.answeredAt ∧
      (c.pass mayRetry a).client.clock = y.answeredAt ∧
      ((c.pass mayRetry a).result = none → y.answer.retryAfter? = none) := by
  have hclock := c.getToken_clock a
  unfold getsToken at h
  unfold pass
  generalize c.manager.getToken (c.clock + a.before) a = got at h hclock ⊢
  obtain ⟨manager, clock, granted, token⟩ := got
  obtain ⟨token, rfl⟩ : ∃ t, token = some t := Option.isSome_iff_exists.mp h
  dsimp only at hclock ⊢
  have hle : clock ≤ clock + a.answerTime := le_add_of_nonneg_right a.answerTime.2
  refine ⟨⟨clock, authHeaders token, a.statesAnswer, clock + a.answerTime⟩, ?_⟩
  split_ifs with hretry
  · rw [Bool.and_eq_true] at hretry
    exact ⟨rfl, hclock, hle, rfl, fun _ => retryAfter_of_unauthorized hretry.1⟩
  · exact ⟨rfl, hclock, hle, rfl, fun h => by cases h⟩

/-- What one call of the loop says about times. -/
structure Timed (c : Client) (a : Attempt) (call : Call) : Prop where
  silent : c.getsToken a = false → call.sent = [] ∧ call.client.clock = c.clock + c.untilToken a
  first : c.getsToken a → ∃ y later, call.sent = y :: later ∧ y.sentAt = c.clock + c.untilToken a
  sentAt : ∀ y ∈ call.sent, c.clock + c.untilToken a ≤ y.sentAt
  clock : c.clock + c.untilToken a ≤ call.client.clock
  answeredAt : ∀ x ∈ call.sent, ∀ r, x.answer.retryAfter? = some r →
    call.sent.getLast? = some x ∧ call.client.clock = x.answeredAt
  others : call.sent.Pairwise fun x _ => x.answer.retryAfter? = none

theorem timed_of_pass (c : Client) (mayRetry : Bool) (a : Attempt) (granted : List PyStr) (result : Fetched) :
    Timed c a ⟨(c.pass mayRetry a).client, granted, (c.pass mayRetry a).sent.toList, result⟩ := by
  cases htoken : c.getsToken a with
  | false =>
    obtain ⟨hsent, -, hclock⟩ := pass_of_no_token mayRetry htoken
    rw [hsent]
    exact {
      silent := fun _ => ⟨rfl, hclock⟩
      first := fun h => by simp [htoken] at h
      sentAt := by simp
      clock := hclock.ge
      answeredAt := by simp
      others := List.Pairwise.nil }
  | true =>
    obtain ⟨y, hsent, hat, hle, hclock, -⟩ := pass_of_token mayRetry htoken
    rw [hsent]
    exact {
      silent := fun h => by simp [htoken] at h
      first := fun _ => ⟨y, [], rfl, hat⟩
      sentAt := by simp [hat]
      clock := by
        dsimp only
        rw [hclock, ← hat]
        exact hle
      answeredAt := by simp [hclock]
      others := List.pairwise_singleton _ y }

theorem timed_of_retry {rest : Call} {a' : Attempt} (granted : List PyStr) (hresult : (c.pass true a).result = none)
    (h : Timed (c.pass true a).client a' rest) :
    Timed c a ⟨rest.client, granted, (c.pass true a).sent.toList ++ rest.sent, rest.result⟩ := by
  have hnonneg := (c.pass true a).client.untilToken_nonneg a'
  cases htoken : c.getsToken a with
  | false =>
    obtain ⟨-, hsome, -⟩ := pass_of_no_token true htoken
    simp [hresult] at hsome
  | true =>
    obtain ⟨y, hsent, hat, hle, hclock, hnone⟩ := pass_of_token true htoken
    have hlast : y.answer.retryAfter? = none := hnone hresult
    have hsentAt : ∀ z ∈ rest.sent, y.answeredAt ≤ z.sentAt := fun z hz => by
      linarith [h.sentAt z hz]
    have hfinal : y.answeredAt ≤ rest.client.clock := by linarith [h.clock]
    rw [hsent]
    exact {
      silent := fun h' => by simp [htoken] at h'
      first := fun _ => ⟨y, rest.sent, rfl, hat⟩
      sentAt := fun z hz => by
        rcases List.mem_cons.mp hz with rfl | hz
        · exact hat.ge
        · linarith [hsentAt z hz]
      clock := by
        dsimp only
        linarith
      answeredAt := fun x hx r hr => by
        rcases List.mem_cons.mp hx with rfl | hx
        · simp [hlast] at hr
        · obtain ⟨hget, hat'⟩ := h.answeredAt x hx r hr
          refine ⟨?_, hat'⟩
          simp [List.getLast?_cons, hget]
      others := List.pairwise_cons.mpr ⟨fun _ _ => hlast, h.others⟩ }

theorem passes_timed (c : Client) (attempts : ℕ → Attempt) (left n : ℕ) :
    Timed c (attempts n) (c.passes attempts left n) := by
  induction left generalizing c n with
  | zero => exact timed_of_pass c false (attempts n) _ _
  | succ left ih =>
    simp only [passes]
    split
    · exact timed_of_pass c true (attempts n) _ _
    · next hresult => exact timed_of_retry _ hresult (ih _ (n + 1))

end Client

/-! ## A whole run -/

section

variable {pollIntervalSeconds : ℤ}

theorem pause_nonneg (hpoll : 0 ≤ pollIntervalSeconds) (cycle : Cycle) : 0 ≤ cycle.pause pollIntervalSeconds := by
  have hrest : (0 : ℚ) ≤ cycle.rest := cycle.rest.2
  have hover : (0 : ℚ) ≤ cycle.overshoot := cycle.overshoot.2
  have hpoll' : (0 : ℚ) ≤ pollIntervalSeconds := by exact_mod_cast hpoll
  unfold Cycle.pause
  linarith

theorem call_timed (cycle : Cycle) (c : Client) : Client.Timed c (cycle.attempts 0) (cycle.call c) :=
  c.passes_timed cycle.attempts 1 0

theorem runForever_ge (c : Client) (cycles : List Cycle) :
    ∀ y ∈ runForever pollIntervalSeconds c cycles, c.clock ≤ y.sentAt := by
  induction cycles generalizing c with
  | nil => simp [runForever]
  | cons cycle cycles ih =>
    have htimed := call_timed cycle c
    have htoken := c.untilToken_nonneg (cycle.attempts 0)
    intro y hy
    unfold runForever at hy
    rcases List.mem_append.mp hy with hy | hy
    · linarith [htimed.sentAt y hy]
    · split_ifs at hy with hpoll
      · have hpause := pause_nonneg hpoll cycle
        have hnext : (cycle.call c).client.clock + cycle.pause pollIntervalSeconds ≤ y.sentAt := ih _ y hy
        linarith [htimed.clock]
      · cases hy

/-- All requests of a run are late enough exactly when the first one is. -/
theorem forall_sentAt_iff (T : ℚ) (c : Client) (cycles : List Cycle) :
    (∀ y ∈ runForever pollIntervalSeconds c cycles, T ≤ y.sentAt) ↔
      ∀ d ∈ c.lull pollIntervalSeconds cycles, T ≤ c.clock + d := by
  induction cycles generalizing c with
  | nil => simp [runForever, Client.lull]
  | cons cycle cycles ih =>
    have htimed := call_timed cycle c
    unfold runForever Client.lull
    by_cases htoken : c.getsToken (cycle.attempts 0)
    · obtain ⟨y, later, hsent, hat⟩ := htimed.first htoken
      simp only [htoken, if_true, Option.mem_def, Option.some.injEq, forall_eq']
      constructor
      · intro h
        rw [← hat]
        exact h y (by simp [hsent])
      · intro h x hx
        rcases List.mem_append.mp hx with hx | hx
        · exact h.trans (htimed.sentAt x hx)
        · split_ifs at hx with hpoll
          · have hpause := pause_nonneg hpoll cycle
            have hnext : (cycle.call c).client.clock + cycle.pause pollIntervalSeconds ≤ x.sentAt :=
              runForever_ge _ _ x hx
            linarith [htimed.clock]
          · cases hx
    · rw [Bool.not_eq_true] at htoken
      obtain ⟨hsent, hclock⟩ := htimed.silent htoken
      simp only [htoken, hsent, List.nil_append, Bool.false_eq_true, if_false]
      split_ifs with hpoll
      · have hafter : (cycle.after pollIntervalSeconds c).clock =
            c.clock + (c.untilToken (cycle.attempts 0) + cycle.pause pollIntervalSeconds) := by
          unfold Cycle.after
          rw [hclock, add_assoc]
        rw [ih, hafter]
        simp [add_assoc]
      · simp

/-- A request with a `Retry-After` is the last one of its cycle, and the cycles after it set the rest. -/
theorem honoured_later_iff {c : Client} {cycle : Cycle} (cycles : List Cycle) {x : StatesRequest}
    (hx : x ∈ (cycle.call c).sent) {r : ℤ} (hr : x.answer.retryAfter? = some r) :
    (cycle.call c).sent.getLast? = some x ∧
      ((∀ y ∈ runForever pollIntervalSeconds (cycle.after pollIntervalSeconds c) cycles,
          x.answeredAt + r ≤ y.sentAt) ↔
        ∀ d ∈ (cycle.after pollIntervalSeconds c).lull pollIntervalSeconds cycles,
          r ≤ cycle.pause pollIntervalSeconds + d) := by
  obtain ⟨hlast, hclock⟩ := (call_timed cycle c).answeredAt x hx r hr
  have hstart : (cycle.after pollIntervalSeconds c).clock = x.answeredAt + cycle.pause pollIntervalSeconds := by
    unfold Cycle.after
    rw [hclock]
  refine ⟨hlast, ?_⟩
  rw [forall_sentAt_iff, hstart]
  simp only [add_assoc, add_le_add_iff_left]

/-- The collector honours every `Retry-After` exactly when each is over by the time the next cycle has its token. -/
theorem honoursRetryAfter_iff (pollIntervalSeconds : ℤ) (c : Client) (cycles : List Cycle) :
    HonoursRetryAfter (runForever pollIntervalSeconds c cycles) ↔ LongEnough pollIntervalSeconds c cycles := by
  induction cycles generalizing c with
  | nil => simp [runForever, LongEnough, HonoursRetryAfter]
  | cons cycle cycles ih =>
    have hcall : HonoursRetryAfter (cycle.call c).sent :=
      (call_timed cycle c).others.imp fun hnone r hr => by simp [hnone] at hr
    unfold runForever LongEnough
    split_ifs with hpoll
    · unfold HonoursRetryAfter
      rw [List.pairwise_append]
      simp only [hpoll, forall_const]
      constructor
      · rintro ⟨-, hlater, hcross⟩
        refine ⟨fun x hx r hr => ?_, (ih _).mp hlater⟩
        have hmem : x ∈ (cycle.call c).sent := List.mem_of_getLast? hx
        exact (honoured_later_iff cycles hmem hr).2.mp fun y hy => hcross x hmem y hy r hr
      · rintro ⟨hlong, hrest⟩
        refine ⟨hcall, (ih _).mpr hrest, fun x hx y hy r hr => ?_⟩
        obtain ⟨hlast, hiff⟩ := honoured_later_iff cycles hx hr
        exact hiff.mpr (hlong x hlast r hr) y hy
    · simpa [hpoll] using hcall

end

/-! ## A rate limit that the interval undercuts -/

/-- An anonymous cycle that takes no time and gets `answer`. -/
def quickCycle (answer : StatesAnswer) : Cycle := ⟨fun _ => ⟨0, .raised, 0, answer, 0⟩, 0, 0⟩

def rateLimited : StatesAnswer := .response 429 (some (str "60")) none

def StatesRequest.times (x : StatesRequest) : Option ℤ × ℚ × ℚ := (x.answer.retryAfter?, x.sentAt, x.answeredAt)

theorem two_rate_limited_cycles :
    (runForever 30 ⟨.init none none, 0⟩ [quickCycle rateLimited, quickCycle rateLimited]).map StatesRequest.times =
      [(some 60, 0, 0), (some 60, 30, 30)] := by
  decide +kernel

theorem retry_after_ignored :
    ¬ ∀ (pollIntervalSeconds : ℤ) (c : Client) (cycles : List Cycle),
      HonoursRetryAfter (runForever pollIntervalSeconds c cycles) := by
  intro h
  have hhonours := h 30 ⟨.init none none, 0⟩ [quickCycle rateLimited, quickCycle rateLimited]
  obtain ⟨x, y, hsent⟩ := List.length_eq_two.mp (by simpa using congrArg List.length two_rate_limited_cycles)
  have htimes := two_rate_limited_cycles
  rw [hsent] at htimes
  unfold HonoursRetryAfter at hhonours
  rw [hsent, List.pairwise_pair] at hhonours
  simp only [List.map_cons, List.map_nil, List.cons.injEq, StatesRequest.times, Prod.mk.injEq] at htimes
  have hlate := hhonours 60 htimes.1.1
  rw [htimes.1.2.2, htimes.2.1.2.1] at hlate
  norm_num at hlate

end FlightPulse.Collector
