import FlightPulse.Lib.Strings
import Mathlib.Algebra.Field.Rat

/-!
# The OpenSky client (`collector/opensky_client.py`)

Times are seconds on one clock. How long the client waits for the servers, and what
they answer, comes in as one `Attempt` for each pass of the loop in `get_states`.
-/

open Lib Lib.Python

namespace FlightPulse.Collector

/-! ## The two servers -/

inductive ExpiresIn where
  | missing
  | seconds (q : ℚ)
  /-- It is no number, or no date is that late. -/
  | invalid

/-- `data.get("expires_in", 1800)`. -/
def ExpiresIn.seconds? : ExpiresIn → Option ℚ
  | .missing => some 1800
  | .seconds q => some q
  | .invalid => none

inductive TokenAnswer where
  /-- The request or `raise_for_status` raised, or there is no `access_token`. -/
  | raised
  | granted (accessToken : PyStr) (expiresIn : ExpiresIn)

inductive StatesAnswer where
  | requestException
  | otherException
  /-- `json` is `none` when `resp.json()` raises. -/
  | response (statusCode : ℕ) (retryAfter : Option PyStr) (json : Option PyVal)

structure Attempt where
  /-- From the end of the attempt before to the reading of the clock. -/
  before : ℚ≥0
  tokenAnswer : TokenAnswer
  tokenTime : ℚ≥0
  statesAnswer : StatesAnswer
  answerTime : ℚ≥0

/-! ## `TokenManager` -/

def tokenRefreshMarginSeconds : ℚ := 30

structure TokenManager where
  clientId : Option PyStr
  clientSecret : Option PyStr
  token : Option PyStr
  expiresAt : Option ℚ

namespace TokenManager

def init (clientId clientSecret : Option PyStr) : TokenManager := ⟨clientId, clientSecret, none, none⟩

def isAuthenticated (mgr : TokenManager) : Bool :=
  (mgr.clientId.getD []) ≠ [] && (mgr.clientSecret.getD []) ≠ []

/-- The cached token, as long as it has not expired. -/
def cached (mgr : TokenManager) (now : ℚ) : Option PyStr :=
  match mgr.token, mgr.expiresAt with
  | some t, some e => if t ≠ [] ∧ now < e then some t else none
  | _, _ => none

/-- What a call of `get_token` leaves; `token` is `none` when it raises. -/
structure Got where
  manager : TokenManager
  clock : ℚ
  granted : Option PyStr
  token : Option (Option PyStr)

/-- The token is stored before the lifetime is looked at. -/
def refresh (mgr : TokenManager) (now : ℚ) (a : Attempt) : Got :=
  let clock := now + a.tokenTime
  match a.tokenAnswer with
  | .raised => ⟨mgr, clock, none, none⟩
  | .granted t expiresIn =>
    match expiresIn.seconds? with
    | none => ⟨{ mgr with token := some t }, clock, some t, none⟩
    | some s =>
      ⟨{ mgr with token := some t, expiresAt := some (clock + (s - tokenRefreshMarginSeconds)) }, clock, some t,
        some (some t)⟩

def getToken (mgr : TokenManager) (now : ℚ) (a : Attempt) : Got :=
  if mgr.isAuthenticated then
    match mgr.cached now with
    | some t => ⟨mgr, now, none, some (some t)⟩
    | none => mgr.refresh now a
  else ⟨mgr, now, none, some none⟩

end TokenManager

/-- The token of the `Authorization` header, if there is one. -/
def authHeaders (token : Option PyStr) : Option PyStr := token.filter fun t => t ≠ []

/-! ## `get_states` -/

/-- What the call of the client returns: `None` is `.returned .none`. -/
inductive Fetched where
  | raised
  | returned (raw : PyVal)

structure StatesRequest where
  sentAt : ℚ
  token : Option PyStr
  answer : StatesAnswer
  answeredAt : ℚ

/-- `int(resp.headers.get("Retry-After", 60))`. -/
def retryAfterSeconds (header : Option PyStr) : Option ℤ :=
  match header with
  | none => some 60
  | some s => intOf s

namespace StatesAnswer

def isUnauthorized : StatesAnswer → Bool
  | .response statusCode _ _ => statusCode = 401
  | _ => false

/-- What `get_states` makes of an answer that it does not retry. -/
def result : StatesAnswer → Fetched
  | .requestException => .returned .none
  | .otherException => .raised
  | .response statusCode retryAfter json =>
    if statusCode = 200 then
      match json with
      | some v => .returned v
      | none => .raised
    else if statusCode = 429 then
      match retryAfterSeconds retryAfter with
      | some _ => .returned .none
      | none => .raised
    else .returned .none

end StatesAnswer

structure Client where
  manager : TokenManager
  clock : ℚ

/-- One pass of the loop: what the servers saw, and the result unless it goes on. -/
structure Pass where
  client : Client
  granted : Option PyStr
  sent : Option StatesRequest
  result : Option Fetched

structure Call where
  client : Client
  granted : List PyStr
  sent : List StatesRequest
  result : Fetched

namespace Client

def pass (c : Client) (mayRetry : Bool) (a : Attempt) : Pass :=
  let got := c.manager.getToken (c.clock + a.before) a
  match got.token with
  | none => ⟨⟨got.manager, got.clock⟩, got.granted, none, some .raised⟩
  | some token =>
    let sent : StatesRequest := ⟨got.clock, authHeaders token, a.statesAnswer, got.clock + a.answerTime⟩
    if a.statesAnswer.isUnauthorized && mayRetry then
      ⟨⟨{ got.manager with token := none }, sent.answeredAt⟩, got.granted, some sent, none⟩
    else ⟨⟨got.manager, sent.answeredAt⟩, got.granted, some sent, some a.statesAnswer.result⟩

/-- The loop from pass `attempt` on, with `left` passes behind that one. -/
def passes (attempts : ℕ → Attempt) : (left attempt : ℕ) → Client → Call
  | 0, attempt, c =>
    let p := c.pass false (attempts attempt)
    ⟨p.client, p.granted.toList, p.sent.toList, p.result.getD (.returned .none)⟩
  | left + 1, attempt, c =>
    let p := c.pass true (attempts attempt)
    match p.result with
    | some result => ⟨p.client, p.granted.toList, p.sent.toList, result⟩
    | none =>
      let rest := passes attempts left (attempt + 1) p.client
      ⟨rest.client, p.granted.toList ++ rest.granted, p.sent.toList ++ rest.sent, rest.result⟩

def getStates (c : Client) (maxRetries : ℕ) (attempts : ℕ → Attempt) : Call := passes attempts maxRetries 0 c

end Client

/-! ## What a pass does -/

namespace TokenManager

variable {mgr : TokenManager} {now : ℚ}

theorem cached_eq_some {t : PyStr} :
    mgr.cached now = some t ↔ mgr.token = some t ∧ t ≠ [] ∧ ∃ e, mgr.expiresAt = some e ∧ now < e := by
  unfold cached
  split
  · next t' e ht he =>
    split_ifs with h
    · simp only [ht, he, Option.some.injEq, exists_eq_left']
      constructor
      · rintro rfl
        exact ⟨rfl, h⟩
      · exact fun h => h.1
    · simp only [ht, he, Option.some.injEq, exists_eq_left', false_iff]
      rintro ⟨rfl, h'⟩
      exact h h'
  · next hnot =>
    simp only [reduceCtorEq, false_iff]
    rintro ⟨ht, -, e, he, -⟩
    exact hnot t e ht he

/-- The ways a call of `get_token` can go. -/
inductive Gets (mgr : TokenManager) (now : ℚ) (a : Attempt) : Got → Prop
  | anonymous : mgr.isAuthenticated = false → Gets mgr now a ⟨mgr, now, none, some none⟩
  | fromCache {t} : mgr.isAuthenticated → mgr.cached now = some t → Gets mgr now a ⟨mgr, now, none, some (some t)⟩
  | failed : mgr.isAuthenticated → mgr.cached now = none → Gets mgr now a ⟨mgr, now + a.tokenTime, none, none⟩
  | noLifetime {t} : mgr.isAuthenticated → mgr.cached now = none →
      Gets mgr now a ⟨{ mgr with token := some t }, now + a.tokenTime, some t, none⟩
  | refreshed {t e} : mgr.isAuthenticated → mgr.cached now = none →
      Gets mgr now a
        ⟨{ mgr with token := some t, expiresAt := some e }, now + a.tokenTime, some t, some (some t)⟩

theorem getToken_gets (mgr : TokenManager) (now : ℚ) (a : Attempt) : Gets mgr now a (mgr.getToken now a) := by
  unfold getToken
  split
  · next hauth =>
    split
    · next t ht => exact .fromCache hauth ht
    · next hnone =>
      unfold refresh
      split
      · exact .failed hauth hnone
      · split
        · exact .noLifetime hauth hnone
        · exact .refreshed hauth hnone
  · next hauth => exact .anonymous (by simpa using hauth)

end TokenManager

namespace Client

variable {c : Client} {a : Attempt} {mayRetry : Bool}

/-- The request of a pass that has got a token. -/
def requestWith (got : TokenManager.Got) (token : Option PyStr) (a : Attempt) : StatesRequest :=
  ⟨got.clock, authHeaders token, a.statesAnswer, got.clock + a.answerTime⟩

/-- The ways a pass can go. -/
inductive Passes (c : Client) (mayRetry : Bool) (a : Attempt) : Pass → Prop
  | noToken {got} : TokenManager.Gets c.manager (c.clock + a.before) a got → got.token = none →
      Passes c mayRetry a ⟨⟨got.manager, got.clock⟩, got.granted, none, some .raised⟩
  | retried {got token} : TokenManager.Gets c.manager (c.clock + a.before) a got → got.token = some token →
      a.statesAnswer.isUnauthorized → mayRetry →
      Passes c mayRetry a
        ⟨⟨{ got.manager with token := none }, got.clock + a.answerTime⟩, got.granted,
          some (requestWith got token a), none⟩
  | answered {got token} : TokenManager.Gets c.manager (c.clock + a.before) a got → got.token = some token →
      (a.statesAnswer.isUnauthorized → mayRetry = false) →
      Passes c mayRetry a
        ⟨⟨got.manager, got.clock + a.answerTime⟩, got.granted, some (requestWith got token a),
          some a.statesAnswer.result⟩

theorem pass_passes (c : Client) (mayRetry : Bool) (a : Attempt) : Passes c mayRetry a (c.pass mayRetry a) := by
  have hgets := TokenManager.getToken_gets c.manager (c.clock + a.before) a
  unfold pass
  generalize c.manager.getToken (c.clock + a.before) a = got at hgets ⊢
  obtain ⟨manager, clock, granted, token⟩ := got
  cases token with
  | none => exact .noToken hgets rfl
  | some token =>
    by_cases h : a.statesAnswer.isUnauthorized && mayRetry
    · rw [Bool.and_eq_true] at h
      obtain ⟨hun, rfl⟩ := h
      simp only [hun, Bool.and_self, if_true]
      exact .retried hgets rfl hun rfl
    · simp only [h]
      exact .answered hgets rfl fun h' => by simpa [h'] using h

end Client

end FlightPulse.Collector
