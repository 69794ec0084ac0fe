import FlightPulse.Collector.OpenSkyClient
import FlightPulse.Lib.Run

/-!
# Rejected tokens (`collector/opensky_client.py`)

A 401 rejects the token of its request. The loop of `get_states` drops that token
only when it goes on, so a 401 on the last attempt leaves it in the cache.
-/

open Lib Lib.Python Lib.Run

namespace FlightPulse.Collector

namespace StatesRequest

/-- The request carried `t` and was answered 401. -/
def Rejects (x : StatesRequest) (t : PyStr) : Prop := x.answer.isUnauthorized ∧ x.token = some t

end StatesRequest

/-- Once a token is rejected, no later request carries it. -/
def NeverAgain (sent : List StatesRequest) : Prop :=
  sent.Pairwise fun x y => ∀ t, x.Rejects t → y.token ≠ some t

/-! ## Calls one after the other -/

structure CallInput where
  maxRetries : ℕ
  attempts : ℕ → Attempt

/-- A client, and what the two servers have seen of it. -/
structure Session where
  client : Client
  granted : List PyStr
  sent : List StatesRequest

namespace Session

def init (clientId clientSecret : Option PyStr) (clock : ℚ) : Session :=
  ⟨⟨.init clientId clientSecret, clock⟩, [], []⟩

def attempt (s : Session) (mayRetry : Bool) (a : Attempt) : Session :=
  let p := s.client.pass mayRetry a
  ⟨p.client, s.granted ++ p.granted.toList, s.sent ++ p.sent.toList⟩

def passes (s : Session) (attempts : ℕ → Attempt) (left attempt : ℕ) : Session :=
  let c := s.client.passes attempts left attempt
  ⟨c.client, s.granted ++ c.granted, s.sent ++ c.sent⟩

/-- One call of `get_states`. The token endpoint grants no token twice. -/
def call (s : Session) (i : CallInput) : Option Session :=
  let c := s.client.getStates i.maxRetries i.attempts
  let granted := s.granted ++ c.granted
  if granted.Nodup then some ⟨c.client, granted, s.sent ++ c.sent⟩ else none

/-- A token that the last attempt of a call found rejected has expired before the next call. -/
def Expired (s : Session) (i : CallInput) : Prop :=
  ∀ x ∈ s.sent.getLast?, ∀ t, x.Rejects t → s.client.manager.token = some t →
    ∀ e, s.client.manager.expiresAt = some e → e ≤ s.client.clock + (i.attempts 0).before

/-- `get_token` would not return a rejected token at `now`. -/
def Settled (s : Session) (now : ℚ) : Prop :=
  ∀ x ∈ s.sent, ∀ t, x.Rejects t → s.client.manager.cached now ≠ some t

/-- Where the tokens of a session come from. -/
structure Known (s : Session) : Prop where
  cached : ∀ t, s.client.manager.token = some t → s.client.manager.isAuthenticated ∧ t ∈ s.granted
  sent : ∀ x ∈ s.sent, ∀ t, x.token = some t → t ≠ [] ∧ t ∈ s.granted

end Session

/-! ## One attempt -/

section

variable {mgr : TokenManager} {now : ℚ} {a : Attempt} {got : TokenManager.Got} {t : PyStr}

theorem cached_of_le {now' : ℚ} (hle : now ≤ now') (h : mgr.cached now' = some t) : mgr.cached now = some t := by
  rw [TokenManager.cached_eq_some] at h ⊢
  obtain ⟨ht, hne, e, he, hlt⟩ := h
  exact ⟨ht, hne, e, he, lt_of_le_of_lt hle hlt⟩

theorem cached_of_token {t' : PyStr} (ht : mgr.token = some t') (hne : t' ≠ t) : mgr.cached now ≠ some t := by
  intro h
  have heq := (TokenManager.cached_eq_some.mp h).1
  rw [ht, Option.some.injEq] at heq
  exact hne heq

theorem gets_settled (h : TokenManager.Gets mgr now a got) (ht : mgr.cached now ≠ some t)
    (hnew : got.granted ≠ some t) :
    got.manager.cached got.clock ≠ some t ∧ ∀ token, got.token = some token → token ≠ some t := by
  cases h with
  | anonymous _ => exact ⟨ht, by simp⟩
  | fromCache _ hcached =>
    rw [hcached] at ht
    exact ⟨by rwa [hcached], by simpa using ht⟩
  | failed _ _ =>
    have hle : now ≤ now + a.tokenTime := le_add_of_nonneg_right a.tokenTime.2
    exact ⟨fun hc => ht (cached_of_le hle hc), by simp⟩
  | noLifetime _ _ => exact ⟨cached_of_token rfl (by simpa using hnew), by simp⟩
  | refreshed _ _ => exact ⟨cached_of_token rfl (by simpa using hnew), by simpa using hnew⟩

theorem gets_known {g : List PyStr} (h : TokenManager.Gets mgr now a got)
    (hmgr : ∀ t, mgr.token = some t → mgr.isAuthenticated ∧ t ∈ g) :
    (∀ t, got.manager.token = some t → got.manager.isAuthenticated ∧ t ∈ g ++ got.granted.toList) ∧
      ∀ t, got.token = some (some t) → t ∈ g ++ got.granted.toList := by
  cases h with
  | anonymous _ => exact ⟨by simpa using hmgr, by simp⟩
  | fromCache _ hcached =>
    have hmem := (hmgr _ (TokenManager.cached_eq_some.mp hcached).1).2
    exact ⟨by simpa using hmgr, by simpa using hmem⟩
  | failed _ _ => exact ⟨by simpa using hmgr, by simp⟩
  | noLifetime hauth _ =>
    refine ⟨fun t ht => ⟨hauth, ?_⟩, by simp⟩
    simp only [Option.some.injEq] at ht
    simp [ht]
  | refreshed hauth _ =>
    refine ⟨fun t ht => ⟨hauth, ?_⟩, by simp⟩
    simp only [Option.some.injEq] at ht
    simp [ht]

theorem authHeaders_eq_some {token : Option PyStr} : authHeaders token = some t ↔ token = some t ∧ t ≠ [] := by
  unfold authHeaders
  simp [Option.filter_eq_some_iff]

end

namespace Client

variable {c : Client} {a : Attempt} {mayRetry : Bool} {t : PyStr}

theorem pass_settled {p : Pass} (h : Passes c mayRetry a p)
    (ht : c.manager.cached (c.clock + a.before) ≠ some t) (hnew : p.granted ≠ some t) :
    p.client.manager.cached p.client.clock ≠ some t ∧ ∀ y ∈ p.sent, y.token ≠ some t := by
  have htime : (0 : ℚ) ≤ a.answerTime := a.answerTime.2
  cases h with
  | noToken hgets _ => exact ⟨(gets_settled hgets ht hnew).1, by simp⟩
  | retried hgets htoken _ _ =>
    refine ⟨by simp [TokenManager.cached], fun y hy hy' => ?_⟩
    rw [Option.mem_some_iff] at hy
    subst hy
    exact (gets_settled hgets ht hnew).2 _ htoken (authHeaders_eq_some.mp hy').1
  | answered hgets htoken _ =>
    refine ⟨fun hc => ?_, fun y hy hy' => ?_⟩
    · exact (gets_settled hgets ht hnew).1 (cached_of_le (le_add_of_nonneg_right htime) hc)
    · rw [Option.mem_some_iff] at hy
      subst hy
      exact (gets_settled hgets ht hnew).2 _ htoken (authHeaders_eq_some.mp hy').1

theorem pass_drops {p : Pass} (h : Passes c true a p) {y : StatesRequest} (hy : y ∈ p.sent) (hr : y.Rejects t) :
    p.client.manager.cached p.client.clock ≠ some t := by
  cases h with
  | noToken _ _ => cases hy
  | retried _ _ _ _ => simp [TokenManager.cached]
  | answered _ _ hdone =>
    rw [Option.mem_some_iff] at hy
    subst hy
    cases hdone hr.1

theorem pass_known {p : Pass} {g : List PyStr} (h : Passes c mayRetry a p)
    (hc : ∀ t, c.manager.token = some t → c.manager.isAuthenticated ∧ t ∈ g) :
    (∀ t, p.client.manager.token = some t → p.client.manager.isAuthenticated ∧ t ∈ g ++ p.granted.toList) ∧
      ∀ y ∈ p.sent, ∀ t, y.token = some t → t ≠ [] ∧ t ∈ g ++ p.granted.toList := by
  cases h with
  | noToken hgets _ => exact ⟨(gets_known hgets hc).1, by simp⟩
  | retried hgets htoken _ _ =>
    refine ⟨by simp, fun y hy t ht => ?_⟩
    rw [Option.mem_some_iff] at hy
    subst hy
    obtain ⟨rfl, hne⟩ := authHeaders_eq_some.mp ht
    exact ⟨hne, (gets_known hgets hc).2 t htoken⟩
  | answered hgets htoken _ =>
    refine ⟨(gets_known hgets hc).1, fun y hy t ht => ?_⟩
    rw [Option.mem_some_iff] at hy
    subst hy
    obtain ⟨rfl, hne⟩ := authHeaders_eq_some.mp ht
    exact ⟨hne, (gets_known hgets hc).2 t htoken⟩

theorem pass_of_cached (mayRetry : Bool) (hauth : c.manager.isAuthenticated)
    (h : c.manager.cached (c.clock + a.before) = some t) :
    ∃ y ∈ (c.pass mayRetry a).sent, y.token = some t := by
  have hne : t ≠ [] := (TokenManager.cached_eq_some.mp h).2.1
  have hgot : c.manager.getToken (c.clock + a.before) a = ⟨c.manager, c.clock + a.before, none, some (some t)⟩ := by
    unfold TokenManager.getToken
    simp [hauth, h]
  have hheaders : authHeaders (some t) = some t := authHeaders_eq_some.mpr ⟨rfl, hne⟩
  unfold pass
  simp only [hgot, hheaders]
  split_ifs <;> simp

end Client

/-! ## One call -/

namespace Session

variable {s : Session} {a : Attempt} {mayRetry : Bool}

theorem attempt_known (h : s.Known) : (s.attempt mayRetry a).Known := by
  obtain ⟨hclient, hsent⟩ := Client.pass_known (s.client.pass_passes mayRetry a) h.cached
  refine ⟨hclient, fun x hx t ht => ?_⟩
  rcases List.mem_append.mp hx with hx | hx
  · exact ⟨(h.sent x hx t ht).1, List.mem_append_left _ (h.sent x hx t ht).2⟩
  · exact hsent x (by simpa using hx) t ht

theorem passes_succ (attempts : ℕ → Attempt) (left n : ℕ) :
    s.passes attempts (left + 1) n =
      if (s.client.pass true (attempts n)).result.isSome then s.attempt true (attempts n)
      else (s.attempt true (attempts n)).passes attempts left (n + 1) := by
  unfold passes attempt
  simp only [Client.passes]
  cases (s.client.pass true (attempts n)).result with
  | some r => rfl
  | none => simp [List.append_assoc]

/-- Between calls only the last request can have been rejected with its token still in the cache. -/
structure Kept (s : Session) : Prop where
  known : s.Known
  never : NeverAgain s.sent
  settled : ∀ x ∈ s.sent.dropLast, ∀ t, x.Rejects t → s.client.manager.cached s.client.clock ≠ some t

theorem Settled.later {now now' : ℚ} (h : s.Settled now) (hle : now ≤ now') : s.Settled now' :=
  fun x hx t hr hc => h x hx t hr (cached_of_le hle hc)

theorem attempt_kept (h : s.Kept) (hset : s.Settled (s.client.clock + a.before))
    (hnew : ∀ t ∈ s.granted, (s.client.pass mayRetry a).granted ≠ some t) : (s.attempt mayRetry a).Kept := by
  have hpass := s.client.pass_passes mayRetry a
  have hold : ∀ x ∈ s.sent, ∀ t, x.Rejects t → _ := fun x hx t hr =>
    Client.pass_settled hpass (hset x hx t hr) (hnew t (h.known.sent x hx t hr.2).2)
  refine ⟨attempt_known h.known, ?_, fun x hx t hr => ?_⟩
  · unfold NeverAgain attempt
    refine List.pairwise_append.mpr ⟨h.never, ?_, fun x hx y hy t hr => (hold x hx t hr).2 y (by simpa using hy)⟩
    cases (s.client.pass mayRetry a).sent with
    | none => exact List.Pairwise.nil
    | some y => exact List.pairwise_singleton _ y
  · have hmem : x ∈ s.sent := by
      unfold attempt at hx
      cases hsent : (s.client.pass mayRetry a).sent with
      | none =>
        simp only [hsent, Option.toList_none, List.append_nil] at hx
        exact List.dropLast_subset _ hx
      | some y => simpa [hsent] using hx
    exact (hold x hmem t hr).1

theorem attempt_settled (h : s.Kept) (hset : s.Settled (s.client.clock + a.before))
    (hnew : ∀ t ∈ s.granted, (s.client.pass true a).granted ≠ some t) :
    (s.attempt true a).Settled (s.attempt true a).client.clock := by
  have hpass := s.client.pass_passes true a
  intro x hx t hr
  rcases List.mem_append.mp hx with hx | hx
  · exact (Client.pass_settled hpass (hset x hx t hr) (hnew t (h.known.sent x hx t hr.2).2)).1
  · exact Client.pass_drops hpass (by simpa using hx) hr

theorem new_of_nodup {g r : List PyStr} {granted : Option PyStr} (h : (g ++ (granted.toList ++ r)).Nodup) :
    ∀ t ∈ g, granted ≠ some t := by
  rintro t ht rfl
  exact (List.nodup_append.mp h).2.2 t ht t (by simp) rfl

theorem passes_known (h : s.Known) (attempts : ℕ → Attempt) (left n : ℕ) : (s.passes attempts left n).Known := by
  induction left generalizing s n with
  | zero => exact attempt_known h
  | succ left ih =>
    rw [passes_succ]
    split_ifs
    · exact attempt_known h
    · exact ih (attempt_known h) (n + 1)

theorem passes_kept (h : s.Kept) (attempts : ℕ → Attempt) (left n : ℕ)
    (hset : s.Settled (s.client.clock + (attempts n).before))
    (hnodup : (s.passes attempts left n).granted.Nodup) : (s.passes attempts left n).Kept := by
  induction left generalizing s n with
  | zero => exact attempt_kept h hset (new_of_nodup (r := []) (by simpa [passes, Client.passes] using hnodup))
  | succ left ih =>
    rw [passes_succ] at hnodup ⊢
    split_ifs at hnodup ⊢ with hdone
    · exact attempt_kept h hset (new_of_nodup (r := []) (by simpa [attempt] using hnodup))
    · have hnew := new_of_nodup (by simpa [attempt, passes, List.append_assoc] using hnodup)
      have hnext := attempt_settled h hset hnew
      exact ih (attempt_kept h hset hnew) (n + 1)
        (hnext.later (le_add_of_nonneg_right (attempts (n + 1)).before.2)) hnodup

/-! ## Every call of a run -/

variable {i : CallInput}

theorem call_eq_some {u : Session} :
    s.call i = some u ↔ (s.passes i.attempts i.maxRetries 0).granted.Nodup ∧
      s.passes i.attempts i.maxRetries 0 = u := by
  unfold call passes Client.getStates
  simp only [Option.ite_none_right_eq_some, Option.some.injEq]

theorem settled_of_expired (h : s.Kept) (hexp : s.Expired i) :
    s.Settled (s.client.clock + (i.attempts 0).before) := by
  have hle : s.client.clock ≤ s.client.clock + (i.attempts 0).before := le_add_of_nonneg_right (i.attempts 0).before.2
  intro x hx t hr hc
  by_cases hlast : x ∈ s.sent.getLast?
  · obtain ⟨htoken, -, e, he, hlt⟩ := TokenManager.cached_eq_some.mp hc
    exact absurd (hexp x hlast t hr htoken e he) (not_le.mpr hlt)
  · have hne : ∀ h, x ≠ s.sent.getLast h := by
      rintro hnil rfl
      exact hlast (List.getLast?_eq_some_getLast hnil)
    exact h.settled x (List.mem_dropLast_of_mem_of_ne_getLast hx (hne _)) t hr (cached_of_le hle hc)

theorem kept_init (clientId clientSecret : Option PyStr) (clock : ℚ) : (init clientId clientSecret clock).Kept where
  known := ⟨by simp [init, TokenManager.init], by simp [init]⟩
  never := List.Pairwise.nil
  settled := by simp [init]

theorem call_kept {u : Session} (h : s.Kept) (hexp : s.Expired i) (hu : s.call i = some u) : u.Kept := by
  obtain ⟨hnodup, rfl⟩ := call_eq_some.mp hu
  exact passes_kept h i.attempts i.maxRetries 0 (settled_of_expired h hexp) hnodup

theorem call_known {u : Session} (h : s.Known) (hu : s.call i = some u) : u.Known := by
  obtain ⟨-, rfl⟩ := call_eq_some.mp hu
  exact passes_known h i.attempts i.maxRetries 0

theorem call_sent {u : Session} (hu : s.call i = some u) : s.sent <+: u.sent := by
  obtain ⟨-, rfl⟩ := call_eq_some.mp hu
  exact List.prefix_append _ _

theorem exec_sent {u : Session} {calls : List CallInput} (h : exec call s calls = some u) : s.sent <+: u.sent :=
  exec_invariant (I := fun v => s.sent <+: v.sent) (fun _ _ _ hv hcall => hv.trans (call_sent hcall))
    (List.prefix_refl _) h

theorem exists_pass_sent (c : Client) (attempts : ℕ → Attempt) (left n : ℕ) :
    ∃ mayRetry, ∀ y ∈ (c.pass mayRetry (attempts n)).sent, y ∈ (c.passes attempts left n).sent := by
  cases left with
  | zero => exact ⟨false, fun y hy => by simpa [Client.passes] using hy⟩
  | succ left =>
    refine ⟨true, fun y hy => ?_⟩
    rw [Option.mem_def] at hy
    simp only [Client.passes]
    split <;> simp [hy]

/-- A call that finds a rejected token in the cache presents it. -/
theorem not_never_of_not_expired {u : Session} (h : s.Known) (hexp : ¬ s.Expired i) (hu : s.call i = some u) :
    ¬ NeverAgain u.sent := by
  obtain ⟨-, rfl⟩ := call_eq_some.mp hu
  unfold Expired at hexp
  push Not at hexp
  obtain ⟨x, hx, t, hr, htoken, e, he, hlt⟩ := hexp
  have hmem : x ∈ s.sent := List.mem_of_getLast? hx
  have hcached : s.client.manager.cached (s.client.clock + (i.attempts 0).before) = some t :=
    TokenManager.cached_eq_some.mpr ⟨htoken, (h.sent x hmem t hr.2).1, e, he, hlt⟩
  obtain ⟨mayRetry, hfirst⟩ := exists_pass_sent s.client i.attempts i.maxRetries 0
  obtain ⟨y, hy, hyt⟩ := Client.pass_of_cached mayRetry (h.cached t htoken).1 hcached
  intro hnever
  exact (List.pairwise_append.mp hnever).2.2 x hmem y (hfirst y hy) t hr hyt

end Session

/-- A rejected token comes back exactly when a call starts before it has expired. -/
theorem rejected_token_never_again_iff (clientId clientSecret : Option PyStr) (clock : ℚ) (calls : List CallInput)
    {s : Session} (h : exec Session.call (.init clientId clientSecret clock) calls = some s) :
    NeverAgain s.sent ↔ Meets Session.call Session.Expired (.init clientId clientSecret clock) calls := by
  have hinit := Session.kept_init clientId clientSecret clock
  constructor
  · intro hnever
    refine meets_of_split h fun pre i suf u hcalls hu => ?_
    rw [hcalls] at h
    obtain ⟨u', v, hu', hv, hs⟩ := exec_split h
    obtain rfl : u = u' := Option.some.inj (hu.symm.trans hu')
    have hknown : u.Known := exec_invariant (fun _ _ _ hk hcall => Session.call_known hk hcall) hinit.known hu
    by_contra hexp
    exact Session.not_never_of_not_expired hknown hexp hv (hnever.sublist (Session.exec_sent hs).sublist)
  · intro hmeets
    have hkept : s.Kept := meets_invariant (fun _ _ _ hk he hcall => Session.call_kept hk he hcall) hinit h hmeets
    exact hkept.never

/-! ## A token that is presented again -/

/-- The token endpoint grants `token`, and `answer` is the answer to the states request. -/
def quickAttempt (token : PyStr) (answer : StatesAnswer) : Attempt := ⟨0, .granted token .missing, 0, answer, 0⟩

/-- One call without retries, answered 401. -/
def rejectedCall (token : PyStr) : CallInput := ⟨0, fun _ => quickAttempt token (.response 401 none none)⟩

/-- What a request says of its token. -/
def StatesRequest.report (x : StatesRequest) : Bool × Option PyStr := (x.answer.isUnauthorized, x.token)

theorem two_rejected_calls :
    (exec Session.call (.init (some (str "id")) (some (str "secret")) 0)
        [rejectedCall (str "a"), rejectedCall (str "b")]).map (fun s => s.sent.map StatesRequest.report) =
      some [(true, some (str "a")), (true, some (str "a"))] := by
  decide +kernel

theorem rejected_token_presented_again :
    ¬ ∀ (clientId clientSecret : Option PyStr) (clock : ℚ) (calls : List CallInput) (s : Session),
      exec Session.call (.init clientId clientSecret clock) calls = some s → NeverAgain s.sent := by
  intro h
  obtain ⟨s, hs, hreport⟩ := Option.map_eq_some_iff.mp two_rejected_calls
  obtain ⟨x, y, hsent⟩ : ∃ x y, s.sent = [x, y] :=
    List.length_eq_two.mp (by simpa using congrArg List.length hreport)
  have hnever := h _ _ _ _ s hs
  simp only [hsent, List.map_cons, List.map_nil, List.cons.injEq, StatesRequest.report, Prod.mk.injEq] at hreport
  unfold NeverAgain at hnever
  rw [hsent, List.pairwise_pair] at hnever
  exact hnever (str "a") ⟨hreport.1.1, hreport.1.2⟩ hreport.2.1.2

/-- Three calls with four requests. The first token is refreshed within its call, the second is found
rejected by a last attempt and has expired before the third call. -/
def renewingCalls : List CallInput :=
  [⟨1, fun
      | 0 => quickAttempt (str "a") (.response 401 none none)
      | _ => quickAttempt (str "b") (.response 200 none (some .none))⟩,
    rejectedCall (str "c"),
    ⟨0, fun _ => { quickAttempt (str "c") (.response 200 none (some .none)) with before := 1800 }⟩]

theorem rejected_token_never_again_iff_renewed :
    ∃ s, exec Session.call (.init (some (str "id")) (some (str "secret")) 0) renewingCalls = some s ∧
      s.sent.map StatesRequest.report =
        [(true, some (str "a")), (false, some (str "b")), (true, some (str "b")), (false, some (str "c"))] ∧
      NeverAgain s.sent ∧
      Meets Session.call Session.Expired (.init (some (str "id")) (some (str "secret")) 0) renewingCalls := by
  obtain ⟨s, hs, hreport⟩ : ∃ s, exec Session.call (.init (some (str "id")) (some (str "secret")) 0) renewingCalls =
      some s ∧ s.sent.map StatesRequest.report =
        [(true, some (str "a")), (false, some (str "b")), (true, some (str "b")), (false, some (str "c"))] :=
    Option.map_eq_some_iff.mp (by decide +kernel)
  have hnever : NeverAgain s.sent := by
    have hpairs : (s.sent.map StatesRequest.report).Pairwise fun x y => x.1 = true → y.2 ≠ x.2 := by
      rw [hreport]
      decide
    rw [List.pairwise_map] at hpairs
    refine hpairs.imp fun hxy t hx => ?_
    rw [← hx.2]
    exact hxy hx.1
  exact ⟨s, hs, hreport, hnever, (rejected_token_never_again_iff _ _ _ _ hs).mp hnever⟩

end FlightPulse.Collector
