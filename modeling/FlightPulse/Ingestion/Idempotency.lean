import FlightPulse.Ingestion.Acknowledgement

/-!
# `Idempotency-Key` on one instance

The cache is read before the body arrives and written after the job is in the
queue. A second request that looks in between is processed like the first.
-/

open Lib Lib.Run Lib.Python Lib.Pydantic

namespace FlightPulse.Ingestion

open Instance

variable {cfg : Config} {k : PyStr} {s t : Instance}

/-! ## The promise and its condition -/

/-- The requests with this (non-empty) value of the header. -/
def Keyed (cfg : Config) (k : PyStr) (i : ℕ) : Prop := (cfg.calls i).key? = some k

def jobsUnder (cfg : Config) (k : PyStr) (s : Instance) : List (ℕ × Job) :=
  s.queue.filter fun p => (cfg.calls p.1).key? = some k

/-- At most one job, and the same reply to every request with the key. -/
def OneJobOneReply (cfg : Config) (k : PyStr) (s : Instance) : Prop :=
  (jobsUnder cfg k s).length ≤ 1 ∧
    ∀ i j r r', Keyed cfg k i → Keyed cfg k j → s.handler i = .replied r → s.handler j = .replied r' → r = r'

/-- The reply to request `i` when it is processed and nothing that it awaits raises. -/
def answer (cfg : Config) (i : ℕ) : Reply :=
  match cfg.parsed (cfg.calls i) with
  | none => .serverError
  | some raw =>
    match TelemetryBatch.modelValidate cfg.lax raw with
    | .ok batch => .accepted (response batch)
    | .invalid errors => .unprocessable errors

/-- A request that starts without a cached response finds none in flight or done with its key, except
where both are refused in the same way. -/
def LooksUpAlone (cfg : Config) (k : PyStr) (s : Instance) (e : Event) : Prop :=
  ∀ i, e = .start i → Keyed cfg k i → s.idempotencyCache.get? k = none →
    ∀ j, Keyed cfg k j → s.handler j ≠ .waiting →
      answer cfg i = answer cfg j ∧ ∀ resp, answer cfg i ≠ .accepted resp

theorem answer_of_validates {i : ℕ} {batch : TelemetryBatch} (h : Validates cfg i batch) :
    answer cfg i = .accepted (response batch) := by
  obtain ⟨raw, hraw, hb⟩ := h
  simp [answer, hraw, hb]

/-! ## A request that is processed -/

/-- Request `i` was not answered from the cache and is on its way to `answer`. -/
def Processing (cfg : Config) (i : ℕ) : Handler → Prop
  | .waiting => False
  | .readingBody => True
  | .validating raw => cfg.parsed (cfg.calls i) = some raw
  | .acquiringLock work | .creatingPool work | .enqueueing work =>
    ∃ batch, work = .telemetry batch ∧ Validates cfg i batch
  | .replied r => r = answer cfg i

theorem carries_processing {i : ℕ} {h : Handler} {work : Work} (hc : h.carries work) :
    Processing cfg i h ↔ ∃ batch, work = .telemetry batch ∧ Validates cfg i batch := by
  rcases hc with rfl | rfl | rfl <;> exact Iff.rfl

theorem moves_processing {cache cache' : Dict PyStr IngestResponse} {i : ℕ} {h h' : Handler} {jobs : List Job}
    (hm : Moves cfg (cfg.calls i) cache h true h' cache' jobs) (hp : Processing cfg i h) :
    Processing cfg i h' := by
  cases hm with
  | cached => exact hp.elim
  | missed => exact hp.elim
  | logged => exact hp.elim
  | parsed hraw => exact hraw
  | unparsable hraw => simp [Processing, answer, hraw]
  | valid hb hcarries => exact (carries_processing hcarries).mpr ⟨_, rfl, _, hp, hb⟩
  | @invalid raw errors hb =>
    have hraw : cfg.parsed (cfg.calls i) = some raw := hp
    simp [Processing, answer, hraw, hb]
  | onward hcarries hcarries' => exact (carries_processing hcarries').mpr ((carries_processing hcarries).mp hp)
  | enqueued =>
    obtain ⟨batch, rfl, hv⟩ := hp
    exact (answer_of_validates hv).symm

theorem moves_waiting {cache cache' : Dict PyStr IngestResponse} {i : ℕ} {h : Handler} {ok : Bool}
    {jobs : List Job}
    (hk : Keyed cfg k i) (hm : Moves cfg (cfg.calls i) cache .waiting ok h cache' jobs) :
    cache' = cache ∧ jobs = [] ∧
      ((∃ resp, cache.get? k = some resp ∧ h = .replied (.accepted resp)) ∨
        cache.get? k = none ∧ h = .readingBody) := by
  unfold Keyed at hk
  cases hm with
  | @cached _ _ k' resp hcall hkey hget =>
    rw [hk, Option.some.injEq] at hkey
    exact ⟨rfl, rfl, .inl ⟨resp, hkey ▸ hget, rfl⟩⟩
  | missed hcall hget => exact ⟨rfl, rfl, .inr ⟨hget k hk, rfl⟩⟩
  | logged hcall => simp [hcall, Call.key?] at hk
  | onward hcarries => rcases hcarries with hc | hc | hc <;> cases hc
  | raised hstarted => exact absurd rfl hstarted

theorem moves_effect {call : Call} {cache cache' : Dict PyStr IngestResponse} {h h' : Handler} {ok : Bool}
    {jobs : List Job} (hm : Moves cfg call cache h ok h' cache' jobs) :
    cache' = cache ∧ jobs = [] ∨
      ∃ work, h = .enqueueing work ∧ h' = .replied work.reply ∧ cache' = call.remember work cache ∧
        jobs = [work.job] := by
  cases hm with
  | @enqueued work => exact .inr ⟨work, rfl, rfl, rfl, rfl⟩
  | _ => exact .inl ⟨rfl, rfl⟩

theorem remember_keyed {i : ℕ} {batch : TelemetryBatch} {cache : Dict PyStr IngestResponse}
    (hk : Keyed cfg k i) : ((cfg.calls i).remember (.telemetry batch) cache).get? k = some (response batch) := by
  unfold Keyed at hk
  simp [Call.remember, hk]

theorem remember_unkeyed {i : ℕ} {work : Work} {cache : Dict PyStr IngestResponse} (hk : ¬ Keyed cfg k i) :
    ((cfg.calls i).remember work cache).get? k = cache.get? k := by
  unfold Keyed at hk
  unfold Call.remember
  split
  · next batch k' hk' =>
    refine Dict.get?_set_of_ne _ _ ?_
    rintro rfl
    exact hk hk'
  · rfl

theorem jobsUnder_keyed {i : ℕ} {jobs : List Job} (hk : Keyed cfg k i)
    (hqueue : t.queue = s.queue ++ jobs.map (Prod.mk i)) :
    jobsUnder cfg k t = jobsUnder cfg k s ++ jobs.map (Prod.mk i) := by
  unfold Keyed at hk
  simp [jobsUnder, hqueue, List.filter_append, List.filter_eq_self, hk]

theorem jobsUnder_unkeyed {i : ℕ} {jobs : List Job} (hk : ¬ Keyed cfg k i)
    (hqueue : t.queue = s.queue ++ jobs.map (Prod.mk i)) : jobsUnder cfg k t = jobsUnder cfg k s := by
  unfold Keyed at hk
  simp [jobsUnder, hqueue, List.filter_append, List.filter_eq_nil_iff, hk]

/-! ## Runs whose lookups are alone keep the promise -/

/-- Nothing is cached: no job yet, and at most one request unless all are refused in the same way. -/
structure Undecided (cfg : Config) (k : PyStr) (s : Instance) : Prop where
  cache : s.idempotencyCache.get? k = none
  jobs : jobsUnder cfg k s = []
  processing : ∀ i, Keyed cfg k i → s.handler i ≠ .waiting → Processing cfg i (s.handler i)
  alike : ∀ i j, i ≠ j → Keyed cfg k i → Keyed cfg k j → s.handler i ≠ .waiting → s.handler j ≠ .waiting →
    answer cfg i = answer cfg j ∧ ∀ resp, answer cfg i ≠ .accepted resp

/-- A response is cached: one job, and every request has got that response. -/
structure Decided (cfg : Config) (k : PyStr) (resp : IngestResponse) (s : Instance) : Prop where
  cache : s.idempotencyCache.get? k = some resp
  jobs : (jobsUnder cfg k s).length = 1
  replies : ∀ i, Keyed cfg k i → s.handler i ≠ .waiting → s.handler i = .replied (.accepted resp)

def KeyInv (cfg : Config) (k : PyStr) (s : Instance) : Prop := Undecided cfg k s ∨ ∃ resp, Decided cfg k resp s

theorem undecided_init : Undecided cfg k init where
  cache := rfl
  jobs := rfl
  processing := fun _ _ h => absurd rfl h
  alike := fun _ _ _ _ _ h => absurd rfl h

theorem keyInv_unkeyed {e : Event} (hs : KeyInv cfg k s) (hk : ¬ Keyed cfg k e.request)
    (h : cfg.step s e = some t) : KeyInv cfg k t := by
  obtain ⟨jobs, hmove, hqueue, hframe⟩ := step_moves h
  have hjobs := jobsUnder_unkeyed hk hqueue
  have hcache : t.idempotencyCache.get? k = s.idempotencyCache.get? k := by
    rcases moves_effect hmove with ⟨hc, -⟩ | ⟨work, -, -, hc, -⟩
    · rw [hc]
    · rw [hc, remember_unkeyed hk]
  have hhandler : ∀ i, Keyed cfg k i → t.handler i = s.handler i := by
    intro i hi
    apply hframe i
    rintro rfl
    exact hk hi
  rcases hs with hs | ⟨resp, hs⟩
  · refine .inl ⟨by rw [hcache, hs.cache], by rw [hjobs, hs.jobs], fun i hi => ?_, fun i j hij hi hj => ?_⟩
    · rw [hhandler i hi]
      exact hs.processing i hi
    · rw [hhandler i hi, hhandler j hj]
      exact hs.alike i j hij hi hj
  · refine .inr ⟨resp, by rw [hcache, hs.cache], by rw [hjobs, hs.jobs], fun i hi => ?_⟩
    rw [hhandler i hi]
    exact hs.replies i hi

theorem undecided_missed {i : ℕ} (hs : Undecided cfg k s) (hk : Keyed cfg k i)
    (halone : LooksUpAlone cfg k s (.start i))
    (hi : t.handler i = .readingBody) (hcache : t.idempotencyCache = s.idempotencyCache)
    (hjobs : jobsUnder cfg k t = jobsUnder cfg k s) (hframe : ∀ j ≠ i, t.handler j = s.handler j) :
    Undecided cfg k t := by
  have hothers := halone i rfl hk hs.cache
  refine ⟨by rw [hcache, hs.cache], by rw [hjobs, hs.jobs], fun j hj hstarted => ?_, fun j j' hne hj hj' => ?_⟩
  · rcases eq_or_ne j i with rfl | hji
    · rw [hi]
      trivial
    · rw [hframe j hji] at hstarted ⊢
      exact hs.processing j hj hstarted
  · intro hstarted hstarted'
    rcases eq_or_ne j i with rfl | hji
    · rw [hframe j' hne.symm] at hstarted'
      exact hothers j' hj' hstarted'
    · rw [hframe j hji] at hstarted
      rcases eq_or_ne j' i with rfl | hji'
      · obtain ⟨heq, hrefused⟩ := hothers j hj hstarted
        exact ⟨heq.symm, heq ▸ hrefused⟩
      · rw [hframe j' hji'] at hstarted'
        exact hs.alike j j' hne hj hj' hstarted hstarted'

theorem decided_enqueued {i : ℕ} {work : Work} (hs : Undecided cfg k s) (hk : Keyed cfg k i)
    (hi : s.handler i = .enqueueing work) (hi' : t.handler i = .replied work.reply)
    (hcache : t.idempotencyCache = (cfg.calls i).remember work s.idempotencyCache)
    (hqueue : t.queue = s.queue ++ [work.job].map (Prod.mk i)) (hframe : ∀ j ≠ i, t.handler j = s.handler j) :
    ∃ resp, Decided cfg k resp t := by
  have hstarted : s.handler i ≠ .waiting := by simp [hi]
  obtain ⟨batch, rfl, hv⟩ : ∃ batch, work = .telemetry batch ∧ Validates cfg i batch := by
    have hp := hs.processing i hk hstarted
    rwa [hi] at hp
  refine ⟨response batch, by rw [hcache, remember_keyed hk], ?_, fun j hj hj' => ?_⟩
  · rw [jobsUnder_keyed hk hqueue, hs.jobs]
    rfl
  · rcases eq_or_ne j i with rfl | hji
    · exact hi'
    · rw [hframe j hji] at hj'
      obtain ⟨-, hrefused⟩ := hs.alike i j hji.symm hk hj hstarted hj'
      exact absurd (answer_of_validates hv) (hrefused _)

theorem keyInv_undecided {e : Event} (hs : Undecided cfg k s) (hk : Keyed cfg k e.request) (hok : e.ok = true)
    (halone : LooksUpAlone cfg k s e) (h : cfg.step s e = some t) : KeyInv cfg k t := by
  obtain ⟨jobs, hmove, hqueue, hframe⟩ := step_moves h
  rw [hok] at hmove
  by_cases hwaiting : s.handler e.request = .waiting
  · rw [hwaiting] at hmove
    obtain ⟨hcache, rfl, ⟨resp, hget, -⟩ | ⟨-, hi⟩⟩ := moves_waiting hk hmove
    · simp [hs.cache] at hget
    · have he : e = .start e.request := start_of_waiting hwaiting h
      rw [he] at halone
      exact .inl (undecided_missed hs hk halone hi hcache (by rw [jobsUnder_keyed hk hqueue]; simp) hframe)
  · rcases moves_effect hmove with ⟨hcache, rfl⟩ | ⟨work, hi, hi', hcache, rfl⟩
    · have hjobs : jobsUnder cfg k t = jobsUnder cfg k s := by simpa using jobsUnder_keyed hk hqueue
      have hstarted : ∀ j, t.handler j ≠ .waiting → s.handler j ≠ .waiting := by
        intro j hj
        rcases eq_or_ne j e.request with rfl | hji
        · exact hwaiting
        · rwa [hframe j hji] at hj
      refine .inl ⟨by rw [hcache, hs.cache], by rw [hjobs, hs.jobs], fun j hj hj' => ?_,
        fun i j hne hi hj hi' hj' => ?_⟩
      · have hp := hs.processing j hj (hstarted j hj')
        rcases eq_or_ne j e.request with rfl | hji
        · exact moves_processing hmove hp
        · rwa [hframe j hji]
      · exact hs.alike i j hne hi hj (hstarted i hi') (hstarted j hj')
    · exact .inr (decided_enqueued hs hk hi hi' hcache hqueue hframe)

theorem keyInv_decided {e : Event} {resp : IngestResponse} (hs : Decided cfg k resp s)
    (hk : Keyed cfg k e.request) (h : cfg.step s e = some t) : KeyInv cfg k t := by
  obtain ⟨jobs, hmove, hqueue, hframe⟩ := step_moves h
  by_cases hwaiting : s.handler e.request = .waiting
  · rw [hwaiting] at hmove
    obtain ⟨hcache, rfl, ⟨resp', hget, hi⟩ | ⟨hget, -⟩⟩ := moves_waiting hk hmove
    · rw [hs.cache, Option.some.injEq] at hget
      subst hget
      refine .inr ⟨resp, by rw [hcache, hs.cache], ?_, fun j hj hj' => ?_⟩
      · rw [jobsUnder_keyed hk hqueue]
        simpa using hs.jobs
      · rcases eq_or_ne j e.request with rfl | hji
        · exact hi
        · rw [hframe j hji] at hj' ⊢
          exact hs.replies j hj hj'
    · simp [hs.cache] at hget
  · rw [hs.replies _ hk hwaiting] at hmove
    exact (replied_moves hmove).elim

theorem keyInv_step {e : Event} (hs : KeyInv cfg k s) (hok : Keyed cfg k e.request → e.ok = true)
    (halone : LooksUpAlone cfg k s e) (h : cfg.step s e = some t) : KeyInv cfg k t := by
  by_cases hk : Keyed cfg k e.request
  · rcases hs with hs | ⟨resp, hs⟩
    · exact keyInv_undecided hs hk (hok hk) halone h
    · exact keyInv_decided hs hk h
  · exact keyInv_unkeyed hs hk h

theorem oneJobOneReply_of_keyInv (hs : KeyInv cfg k s) : OneJobOneReply cfg k s := by
  rcases hs with hs | ⟨resp, hs⟩
  · refine ⟨by simp [hs.jobs], fun i j r r' hi hj hr hr' => ?_⟩
    have hpi := hs.processing i hi (by simp [hr])
    have hpj := hs.processing j hj (by simp [hr'])
    rw [hr] at hpi
    rw [hr'] at hpj
    rcases eq_or_ne i j with rfl | hij
    · exact Eq.trans hpi hpj.symm
    · obtain ⟨halike, -⟩ := hs.alike i j hij hi hj (by simp [hr]) (by simp [hr'])
      calc r = answer cfg i := hpi
        _ = answer cfg j := halike
        _ = r' := Eq.symm hpj
  · refine ⟨hs.jobs.le, fun i j r r' hi hj hr hr' => ?_⟩
    have hri := hs.replies i hi (by simp [hr])
    have hrj := hs.replies j hj (by simp [hr'])
    rw [hr, Handler.replied.injEq] at hri
    rw [hr', Handler.replied.injEq] at hrj
    rw [hri, hrj]

/-! ## Two lookups before the first write break it -/

def Uninterrupted (cfg : Config) (k : PyStr) (es : List Event) : Prop :=
  ∀ i, Keyed cfg k i → Event.resume i false ∉ es

theorem ok_of_uninterrupted {es : List Event} {e : Event} (h : Uninterrupted cfg k es) (he : e ∈ es)
    (hk : Keyed cfg k e.request) : e.ok = true := by
  cases e with
  | resume i ok =>
    cases ok with
    | true => rfl
    | false => exact absurd he (h i hk)
  | start i => rfl
  | acquired i => rfl

theorem Uninterrupted.of_subset {es fs : List Event} (h : Uninterrupted cfg k es) (hsub : fs ⊆ es) :
    Uninterrupted cfg k fs := fun i hi he => h i hi (hsub he)

def Tracked (cfg : Config) (i : ℕ) (s : Instance) : Prop :=
  Processing cfg i (s.handler i) ∧ ∀ resp, s.handler i = .replied (.accepted resp) → ∃ job, (i, job) ∈ s.queue

theorem moves_accepted {call : Call} {cache cache' : Dict PyStr IngestResponse} {h h' : Handler}
    {resp : IngestResponse} {ok : Bool} {jobs : List Job} (hm : Moves cfg call cache h ok h' cache' jobs)
    (hh : h' = .replied (.accepted resp)) : h = .waiting ∨ ∃ job, jobs = [job] := by
  cases hm with
  | cached => exact .inl rfl
  | missed => exact .inl rfl
  | logged => exact .inl rfl
  | enqueued => exact .inr ⟨_, rfl⟩
  | valid hb hcarries => rcases hcarries with rfl | rfl | rfl <;> cases hh
  | onward _ hcarries => rcases hcarries with rfl | rfl | rfl <;> cases hh
  | _ => cases hh

theorem tracked_step {e : Event} {i : ℕ} (hs : Tracked cfg i s) (hok : e.request = i → e.ok = true)
    (h : cfg.step s e = some t) : Tracked cfg i t := by
  obtain ⟨jobs, hmove, hqueue, hframe⟩ := step_moves h
  rcases eq_or_ne i e.request with rfl | hne
  · rw [hok rfl] at hmove
    refine ⟨moves_processing hmove hs.1, fun resp hresp => ?_⟩
    rcases moves_accepted hmove hresp with hwaiting | ⟨job, rfl⟩
    · have hp := hs.1
      rw [hwaiting] at hp
      exact hp.elim
    · exact ⟨job, by simp [hqueue]⟩
  · unfold Tracked
    rw [hframe i hne]
    refine ⟨hs.1, fun resp hresp => ?_⟩
    obtain ⟨job, hjob⟩ := hs.2 resp hresp
    exact ⟨job, by simp [hqueue, hjob]⟩

theorem tracked_run {es : List Event} {i : ℕ} (hk : Keyed cfg k i) (hs : Tracked cfg i s)
    (hes : Uninterrupted cfg k es) (h : exec cfg.step s es = some t) : Tracked cfg i t := by
  refine exec_induction (P := fun es t => Uninterrupted cfg k es → Tracked cfg i t) (fun _ => hs) ?_ h hes
  intro es t e u _ ih hu hes
  refine tracked_step (ih (hes.of_subset (by simp))) (fun he => ?_) hu
  exact ok_of_uninterrupted hes (by simp) (he ▸ hk)

theorem cached_step {e : Event} (hs : (s.idempotencyCache.get? k).isSome) (h : cfg.step s e = some t) :
    (t.idempotencyCache.get? k).isSome := by
  obtain ⟨jobs, hmove, -, -⟩ := step_moves h
  rcases moves_effect hmove with ⟨hc, -⟩ | ⟨work, -, -, hc, -⟩
  · rwa [hc]
  · rw [hc]
    unfold Call.remember
    split
    · rw [Dict.get?_set]
      split
      · rfl
      · exact hs
    · exact hs

def MissInv (cfg : Config) (k : PyStr) (s : Instance) : Prop :=
  ∀ i, Keyed cfg k i → s.handler i ≠ .waiting → Tracked cfg i s ∨ (s.idempotencyCache.get? k).isSome

theorem missInv_step {e : Event} (hs : MissInv cfg k s) (hok : Keyed cfg k e.request → e.ok = true)
    (h : cfg.step s e = some t) : MissInv cfg k t := by
  intro i hi hstarted
  by_cases hwaiting : s.handler i = .waiting
  · obtain ⟨jobs, hmove, hqueue, hframe⟩ := step_moves h
    rcases eq_or_ne i e.request with rfl | hne
    · rw [hwaiting] at hmove
      obtain ⟨hcache, rfl, ⟨resp, hget, -⟩ | ⟨-, hread⟩⟩ := moves_waiting hi hmove
      · exact .inr (by rw [hcache, hget]; rfl)
      · exact .inl ⟨by rw [hread]; trivial, by simp [hread]⟩
    · rw [hframe i hne] at hstarted
      exact absurd hwaiting hstarted
  · rcases hs i hi hwaiting with htracked | hcached
    · exact .inl (tracked_step htracked (fun he => hok (he ▸ hi)) h)
    · exact .inr (cached_step hcached h)

theorem missInv_run {es : List Event} (hes : Uninterrupted cfg k es) (h : exec cfg.step init es = some s) :
    MissInv cfg k s := by
  refine exec_induction (P := fun es s => Uninterrupted cfg k es → MissInv cfg k s)
    (fun _ i _ hi => absurd rfl hi) ?_ h hes
  intro es t e u _ ih hu hes
  exact missInv_step (ih (hes.of_subset (by simp))) (ok_of_uninterrupted hes (by simp)) hu

theorem keyInv_run {es : List Event} (hes : Uninterrupted cfg k es) (h : exec cfg.step init es = some s)
    (halone : Meets cfg.step (LooksUpAlone cfg k) init es) : KeyInv cfg k s := by
  refine meets_induction (P := fun es s => Uninterrupted cfg k es → KeyInv cfg k s)
    (fun _ => .inl undecided_init) ?_ h halone hes
  intro es t e u _ ih halone hu hes
  exact keyInv_step (ih (hes.of_subset (by simp))) (ok_of_uninterrupted hes (by simp)) halone hu

theorem eq_of_length_le_one {α : Type} {l : List α} {a b : α} (h : l.length ≤ 1) (ha : a ∈ l) (hb : b ∈ l) :
    a = b := by
  match l with
  | [] => cases ha
  | [x] => rw [List.mem_singleton.mp ha, List.mem_singleton.mp hb]
  | x :: y :: l => simp at h

def Complete (cfg : Config) (k : PyStr) (s : Instance) : Prop :=
  ∀ i, Keyed cfg k i → s.handler i ≠ .waiting → ∃ r, s.handler i = .replied r

theorem alike_of_promise {i j : ℕ} (hcomplete : Complete cfg k s) (hp : OneJobOneReply cfg k s) (hij : i ≠ j)
    (hi : Keyed cfg k i) (hj : Keyed cfg k j) (hti : Tracked cfg i s) (htj : Tracked cfg j s) :
    answer cfg i = answer cfg j ∧ ∀ resp, answer cfg i ≠ .accepted resp := by
  have hreply : ∀ n, Keyed cfg k n → Tracked cfg n s → s.handler n = .replied (answer cfg n) := by
    intro n hn htn
    have hpn := htn.1
    obtain ⟨r, hr⟩ := hcomplete n hn (by rintro hw; simp [hw, Processing] at hpn)
    rw [hr] at hpn ⊢
    exact congrArg _ hpn
  have heq := hp.2 i j _ _ hi hj (hreply i hi hti) (hreply j hj htj)
  refine ⟨heq, fun resp hresp => hij ?_⟩
  obtain ⟨job, hjob⟩ := hti.2 resp (by rw [hreply i hi hti, hresp])
  obtain ⟨job', hjob'⟩ := htj.2 resp (by rw [hreply j hj htj, ← heq, hresp])
  have hmem : (i, job) ∈ jobsUnder cfg k s := List.mem_filter.mpr ⟨hjob, decide_eq_true hi⟩
  have hmem' : (j, job') ∈ jobsUnder cfg k s := List.mem_filter.mpr ⟨hjob', decide_eq_true hj⟩
  exact congrArg Prod.fst (eq_of_length_le_one hp.1 hmem hmem')

theorem alone_of_promise {es : List Event} (hes : Uninterrupted cfg k es) (h : exec cfg.step init es = some s)
    (hcomplete : Complete cfg k s) (hp : OneJobOneReply cfg k s) :
    Meets cfg.step (LooksUpAlone cfg k) init es := by
  apply meets_of_split h
  rintro pre e suf u rfl hu i rfl hi hnone j hj hstarted
  obtain ⟨u', v, hu', hv, hrest⟩ := exec_split h
  rw [hu, Option.some.injEq] at hu'
  subst hu'
  have htj : Tracked cfg j u := by
    rcases missInv_run (hes.of_subset (by simp)) hu j hj hstarted with ht | hc
    · exact ht
    · simp [hnone] at hc
  have hwaiting : u.handler i = .waiting := by
    simp only [Config.step] at hv
    split at hv
    · assumption
    · cases hv
  have hne : i ≠ j := by
    rintro rfl
    exact hstarted hwaiting
  have hti : Tracked cfg i v := by
    obtain ⟨jobs, hmove, -, -⟩ := step_moves hv
    unfold Event.request at hmove
    simp only [hwaiting] at hmove
    obtain ⟨-, -, ⟨resp, hget, -⟩ | ⟨-, hread⟩⟩ := moves_waiting hi hmove
    · simp [hnone] at hget
    · exact ⟨by rw [hread]; trivial, by simp [hread]⟩
  have hsuf : Uninterrupted cfg k suf := hes.of_subset fun e he => by simp [he]
  have htjv := tracked_step (e := .start i) htj (fun he => absurd he hne) hv
  exact alike_of_promise hcomplete hp hne hi hj (tracked_run hi hti hsuf hrest) (tracked_run hj htjv hsuf hrest)

/-! ## When the key deduplicates -/

/-- The promise holds in every run whose lookups are alone, and in no other run that is complete. -/
theorem oneJobOneReply_iff {es : List Event} (h : exec cfg.step init es = some s) (hes : Uninterrupted cfg k es) :
    (Meets cfg.step (LooksUpAlone cfg k) init es → OneJobOneReply cfg k s) ∧
      (Complete cfg k s → (OneJobOneReply cfg k s ↔ Meets cfg.step (LooksUpAlone cfg k) init es)) := by
  have halone : Meets cfg.step (LooksUpAlone cfg k) init es → OneJobOneReply cfg k s :=
    fun hm => oneJobOneReply_of_keyInv (keyInv_run hes h hm)
  exact ⟨halone, fun hcomplete => ⟨alone_of_promise hes h hcomplete, halone⟩⟩

theorem oneJobOneReply_afterReply : ∃ s, exec duplicates.step init duplicateAfterReply = some s ∧
    (∃ r, s.handler 1 = .replied r) ∧ OneJobOneReply duplicates (str "k") s := by
  have hrun : ∃ s, exec duplicates.step init duplicateAfterReply = some s ∧ ∃ r, s.handler 1 = .replied r :=
    ⟨_, rfl, _, rfl⟩
  obtain ⟨s, hs, hreply⟩ := hrun
  refine ⟨s, hs, hreply, (oneJobOneReply_iff hs (by simp [Uninterrupted, duplicateAfterReply])).1 ?_⟩
  unfold duplicateAfterReply
  refine (meets_cons rfl).mpr ⟨fun i _ _ _ j _ hj => absurd rfl hj, ?_⟩
  refine (meets_cons rfl).mpr ⟨(by rintro i he; cases he), ?_⟩
  refine (meets_cons rfl).mpr ⟨(by rintro i he; cases he), ?_⟩
  refine (meets_cons rfl).mpr ⟨(by rintro i he; cases he), ?_⟩
  refine (meets_cons rfl).mpr ⟨(by rintro i he; cases he), ?_⟩
  exact (meets_cons rfl).mpr ⟨fun i _ _ hnone => absurd hnone (Option.some_ne_none _), trivial⟩

/-- Both requests look before either of them has enqueued: two jobs. -/
theorem oneJobOneReply_broken : ∃ s, exec duplicates.step init duplicateInFlight = some s ∧
    Uninterrupted duplicates (str "k") duplicateInFlight ∧ (jobsUnder duplicates (str "k") s).length = 2 ∧
    ¬ OneJobOneReply duplicates (str "k") s := by
  have hrun : ∃ s, exec duplicates.step init duplicateInFlight = some s ∧
      (jobsUnder duplicates (str "k") s).length = 2 := ⟨_, rfl, rfl⟩
  obtain ⟨s, hs, hjobs⟩ := hrun
  refine ⟨s, hs, by simp [Uninterrupted, duplicateInFlight], hjobs, fun hp => ?_⟩
  have hle := hp.1
  omega

end FlightPulse.Ingestion
