import FlightPulse.Ingestion.Routes

/-!
# The lock around the lazy creation of the queue pool

`_arq_pool_lock` is a lock of threads that a coroutine keeps over an `await`. A
second caller that finds it taken stops the loop thread, and with it the holder.
-/

open Lib Lib.Run Lib.Python Lib.Pydantic

namespace FlightPulse.Ingestion

open Instance

/-! ## Stuck states -/

/-- The loop thread waits for a lock whose holder is suspended. -/
def Stuck (s : Instance) : Prop :=
  ∃ i j work work', s.blocked = some i ∧ s.handler i = .acquiringLock work ∧
    s.arqPoolLock = some j ∧ s.handler j = .creatingPool work'

def Handler.Unfinished (h : Handler) : Prop := ∀ reply, h ≠ .replied reply

variable {cfg : Config} {s t : Instance}

theorem stuck_step (h : Stuck s) (e : Event) : cfg.step s e = none := by
  obtain ⟨i, j, work, work', hblocked, -, hlock, -⟩ := h
  cases e <;> simp [Config.step, hblocked, hlock]

/-- What a run must keep to: no state on its way is stuck, and a request without a reply can go on. -/
def Live (cfg : Config) (es : List Event) : Prop :=
  ∀ pre t, pre <+: es → exec cfg.step init pre = some t →
    ¬ Stuck t ∧ ∀ i, (t.handler i).Unfinished → ∃ e u, cfg.step t e = some u

def CallsGetArqPool (cfg : Config) (s : Instance) : Event → Prop
  | .start i => ∃ entry, cfg.calls i = .postExtractionLog entry
  | .resume i true =>
    ∃ raw batch, s.handler i = .validating raw ∧ TelemetryBatch.modelValidate cfg.lax raw = .ok batch
  | _ => False

/-- Nobody calls `_get_arq_pool` while another request is creating the pool. -/
def PoolQuiet (cfg : Config) (s : Instance) (e : Event) : Prop :=
  CallsGetArqPool cfg s e → s.arqPool = false → s.arqPoolLock = none

/-! ## Who holds the lock and who waits for it -/

structure LockInv (s : Instance) : Prop where
  holder : ∀ i, s.arqPoolLock = some i ↔ ∃ work, s.handler i = .creatingPool work
  waiter : ∀ i, s.blocked = some i ↔ ∃ work, s.handler i = .acquiringLock work
  held : s.blocked.isSome → s.arqPoolLock.isSome

def Handler.Outside (h : Handler) : Prop :=
  (∀ work, h ≠ .creatingPool work) ∧ ∀ work, h ≠ .acquiringLock work

theorem lockInv_init : LockInv init := ⟨by simp [init], by simp [init], by simp [init]⟩

theorem lockInv_put (hs : LockInv s) {i : ℕ} {h : Handler} (hi : (s.handler i).Outside) (hh : h.Outside) :
    LockInv (s.put i h) := by
  refine ⟨fun j => ?_, fun j => ?_, hs.held⟩
  · rcases eq_or_ne j i with rfl | hj
    · simpa [put, hh.1] using mt (hs.holder j).mp (by simp [hi.1])
    · simpa [put, hj] using hs.holder j
  · rcases eq_or_ne j i with rfl | hj
    · simpa [put, hh.2] using mt (hs.waiter j).mp (by simp [hi.2])
    · simpa [put, hj] using hs.waiter j

theorem lockInv_insideLock (hs : LockInv s) {i : ℕ} (work : Work) (hi : (s.handler i).Outside)
    (hlock : s.arqPoolLock = none) : LockInv (s.insideLock i work) := by
  unfold Instance.insideLock
  split
  · exact lockInv_put hs hi (by simp [Handler.Outside])
  · have hholder : ∀ j w, s.handler j ≠ .creatingPool w := by
      intro j w hw
      exact absurd ((hs.holder j).mpr ⟨w, hw⟩) (by simp [hlock])
    refine ⟨fun j => ?_, fun j => ?_, fun _ => rfl⟩
    · rcases eq_or_ne j i with rfl | hj
      · simp [put]
      · simp [put, hj, hholder, hj.symm]
    · rcases eq_or_ne j i with rfl | hj
      · simpa [put] using mt (hs.waiter j).mp (by simp [hi.2])
      · simpa [put, hj] using hs.waiter j

theorem lockInv_getArqPool (hs : LockInv s) {i : ℕ} (work : Work) (hi : (s.handler i).Outside)
    (hblocked : s.blocked = none) : LockInv (s.getArqPool i work) := by
  unfold Instance.getArqPool
  split
  · exact lockInv_put hs hi (by simp [Handler.Outside])
  · split
    · next hlock => exact lockInv_insideLock hs work hi hlock
    · next j hlock =>
      have hwaiter : ∀ j w, s.handler j ≠ .acquiringLock w := by
        intro j w hw
        exact absurd ((hs.waiter j).mpr ⟨w, hw⟩) (by simp [hblocked])
      refine ⟨fun k => ?_, fun k => ?_, fun _ => by simp [put, hlock]⟩
      · rcases eq_or_ne k i with rfl | hk
        · simpa [put] using mt (hs.holder k).mp (by simp [hi.1])
        · simpa [put, hk] using hs.holder k
      · rcases eq_or_ne k i with rfl | hk
        · simp [put]
        · simp [put, hk, hwaiter, hk.symm]

theorem lockInv_release (hs : LockInv s) {i : ℕ} {work : Work} {h : Handler} {pool : Bool}
    (hi : s.handler i = .creatingPool work) (hh : h.Outside) (hblocked : s.blocked = none) :
    LockInv { s.put i h with arqPool := pool, arqPoolLock := none } := by
  have hlock := (hs.holder i).mpr ⟨work, hi⟩
  refine ⟨fun j => ?_, fun j => ?_, by simp [put, hblocked]⟩
  · rcases eq_or_ne j i with rfl | hj
    · simp [put, hh.1]
    · have hne := mt (hs.holder j).mpr (by simpa [hlock] using hj.symm)
      simpa [put, hj] using hne
  · rcases eq_or_ne j i with rfl | hj
    · simpa [put, hblocked] using hh.2
    · simpa [put, hj] using hs.waiter j

theorem lockInv_start (hs : LockInv s) {i : ℕ} (call : Call) (hi : s.handler i = .waiting)
    (hblocked : s.blocked = none) : LockInv (s.start i call) := by
  have hout : (s.handler i).Outside := by simp [hi, Handler.Outside]
  unfold Instance.start
  split
  · split
    · exact lockInv_put hs hout (by simp [Handler.Outside])
    · exact lockInv_put hs hout (by simp [Handler.Outside])
  · exact lockInv_getArqPool hs _ hout hblocked

theorem lockInv_proceed (hs : LockInv s) {i : ℕ} (hblocked : s.blocked = none)
    (h : cfg.proceed s i = some t) : LockInv t := by
  unfold Config.proceed at h
  split at h
  · next hi =>
    have hout : (s.handler i).Outside := by simp [hi, Handler.Outside]
    split at h <;> cases h
    · exact lockInv_put hs hout (by simp [Handler.Outside])
    · exact lockInv_put hs hout (by simp [Handler.Outside])
  · next raw hi =>
    have hout : (s.handler i).Outside := by simp [hi, Handler.Outside]
    split at h <;> cases h
    · exact lockInv_getArqPool hs _ hout hblocked
    · exact lockInv_put hs hout (by simp [Handler.Outside])
  · next work hi =>
    cases h
    exact lockInv_release hs hi (by simp [Handler.Outside]) hblocked
  · next work hi =>
    cases h
    have hout : (s.handler i).Outside := by simp [hi, Handler.Outside]
    have hput := lockInv_put (h := .replied work.reply) hs hout (by simp [Handler.Outside])
    exact ⟨hput.holder, hput.waiter, hput.held⟩
  · cases h

theorem lockInv_abort (hs : LockInv s) {i : ℕ} (hblocked : s.blocked = none)
    (h : s.abort i = some t) : LockInv t := by
  have hreply : (Handler.replied .serverError).Outside := by simp [Handler.Outside]
  unfold Instance.abort at h
  split at h <;> cases h
  · next hi => exact lockInv_put hs (by simp [hi, Handler.Outside]) hreply
  · next hi => exact lockInv_put hs (by simp [hi, Handler.Outside]) hreply
  · next hi => exact lockInv_put hs (by simp [hi, Handler.Outside]) hreply
  · next hi => exact lockInv_release hs hi hreply hblocked

theorem lockInv_step {e : Event} (hs : LockInv s) (h : cfg.step s e = some t) : LockInv t := by
  cases e with
  | start i =>
    simp only [Config.step] at h
    split at h <;> cases h
    next hblocked hi => exact lockInv_start hs _ hi hblocked
  | resume i ok =>
    simp only [Config.step] at h
    split at h
    · next hblocked =>
      cases ok with
      | true => exact lockInv_proceed hs hblocked h
      | false => exact lockInv_abort hs hblocked h
    · cases h
  | acquired i =>
    simp only [Config.step] at h
    split at h
    · next j work hblocked hlock hi => exact absurd (hs.held (by simp [hblocked])) (by simp [hlock])
    · cases h

theorem lockInv_run {es : List Event} (h : exec cfg.step init es = some s) : LockInv s :=
  exec_invariant (fun _ _ _ hs h => lockInv_step hs h) lockInv_init h

theorem stuck_iff (hs : LockInv s) : Stuck s ↔ s.blocked ≠ none := by
  constructor
  · rintro ⟨i, j, work, work', hblocked, -⟩
    simp [hblocked]
  · intro h
    obtain ⟨i, hi⟩ := Option.ne_none_iff_exists'.mp h
    obtain ⟨j, hj⟩ := Option.isSome_iff_exists.mp (hs.held (by simp [hi]))
    obtain ⟨work, hwork⟩ := (hs.waiter i).mp hi
    obtain ⟨work', hwork'⟩ := (hs.holder j).mp hj
    exact ⟨i, j, work, work', hi, hwork, hj, hwork'⟩

/-! ## When the loop thread stops -/

theorem insideLock_blocked (s : Instance) (i : ℕ) (work : Work) :
    (s.insideLock i work).blocked = s.blocked := by
  unfold Instance.insideLock
  split <;> rfl

theorem getArqPool_blocked {i : ℕ} (work : Work) (hblocked : s.blocked = none) :
    (s.getArqPool i work).blocked = none ↔ (s.arqPool = false → s.arqPoolLock = none) := by
  unfold Instance.getArqPool
  split
  · next hpool => simp [put, hpool, hblocked]
  · next hpool =>
    split
    · next hlock => simp [insideLock_blocked, hblocked, hlock]
    · next j hlock => simp [hpool, hlock]

theorem start_blocked {i : ℕ} (hblocked : s.blocked = none) :
    (s.start i (cfg.calls i)).blocked = none ↔ PoolQuiet cfg s (.start i) := by
  unfold Instance.start
  split
  · next key body hcall =>
    have hquiet : PoolQuiet cfg s (.start i) := by
      rintro ⟨entry, hentry⟩
      simp [hcall] at hentry
    split <;> simp [put, hblocked, hquiet]
  · next entry hcall =>
    rw [getArqPool_blocked _ hblocked]
    simp [PoolQuiet, CallsGetArqPool, hcall]

theorem proceed_blocked {i : ℕ} (hblocked : s.blocked = none) (h : cfg.proceed s i = some t) :
    t.blocked = none ↔ PoolQuiet cfg s (.resume i true) := by
  unfold Config.proceed at h
  split at h
  · next hi => split at h <;> cases h <;> simp [put, hblocked, PoolQuiet, CallsGetArqPool, hi]
  · next raw hi =>
    split at h <;> cases h
    · next batch hbatch =>
      rw [getArqPool_blocked _ hblocked]
      simp [PoolQuiet, CallsGetArqPool, hi, hbatch]
    · next errors hbatch => simp [put, hblocked, PoolQuiet, CallsGetArqPool, hi, hbatch]
  · next work hi => cases h; simp [put, hblocked, PoolQuiet, CallsGetArqPool, hi]
  · next work hi => cases h; simp [finish, put, hblocked, PoolQuiet, CallsGetArqPool, hi]
  · cases h

theorem abort_blocked {i : ℕ} (h : s.abort i = some t) : t.blocked = s.blocked := by
  unfold Instance.abort at h
  split at h <;> cases h <;> rfl

theorem step_blocked {e : Event} (hs : LockInv s) (h : cfg.step s e = some t) :
    t.blocked = none ↔ PoolQuiet cfg s e := by
  cases e with
  | start i =>
    simp only [Config.step] at h
    split at h <;> cases h
    next hblocked _ => exact start_blocked hblocked
  | resume i ok =>
    simp only [Config.step] at h
    split at h
    · next hblocked =>
      cases ok with
      | true => exact proceed_blocked hblocked h
      | false => simp [abort_blocked h, hblocked, PoolQuiet, CallsGetArqPool]
    · cases h
  | acquired i =>
    simp only [Config.step] at h
    split at h
    · next j work hblocked hlock hi => exact absurd (hs.held (by simp [hblocked])) (by simp [hlock])
    · cases h

theorem proceed_isSome (cfg : Config) {i : ℕ} (hi : (s.handler i).Unfinished) (hstarted : s.handler i ≠ .waiting)
    (hlock : ∀ work, s.handler i ≠ .acquiringLock work) : ∃ t, cfg.proceed s i = some t := by
  unfold Config.proceed
  split
  · split <;> exact ⟨_, rfl⟩
  · split <;> exact ⟨_, rfl⟩
  · exact ⟨_, rfl⟩
  · exact ⟨_, rfl⟩
  · cases h : s.handler i <;> simp_all [Handler.Unfinished]

theorem progress (hs : LockInv s) (hblocked : s.blocked = none) {i : ℕ}
    (hi : (s.handler i).Unfinished) : ∃ e t, cfg.step s e = some t := by
  by_cases hstarted : s.handler i = .waiting
  · exact ⟨.start i, s.start i (cfg.calls i), by simp [Config.step, hblocked, hstarted]⟩
  · have hlock : ∀ work, s.handler i ≠ .acquiringLock work := by
      intro work hw
      exact absurd ((hs.waiter i).mpr ⟨work, hw⟩) (by simp [hblocked])
    obtain ⟨t, ht⟩ := proceed_isSome cfg hi hstarted hlock
    exact ⟨.resume i true, t, by simp [Config.step, hblocked, ht]⟩

theorem live_of_append {pre es : List Event} (h : pre <+: es) (hlive : Live cfg es) : Live cfg pre :=
  fun pre' t hpre => hlive pre' t (hpre.trans h)

theorem quiet_of_live {es : List Event} (h : exec cfg.step init es = some s) (hlive : Live cfg es) :
    Meets cfg.step (PoolQuiet cfg) init es := by
  refine exec_induction (P := fun es _ => Live cfg es → Meets cfg.step (PoolQuiet cfg) init es)
    (fun _ => trivial) ?_ h hlive
  intro es t e u ht ih hu hlive
  rw [meets_snoc ht]
  refine ⟨ih (live_of_append (List.prefix_append es [e]) hlive), ?_⟩
  have hrun : exec cfg.step init (es ++ [e]) = some u := exec_snoc.mpr ⟨t, ht, hu⟩
  obtain ⟨hstuck, -⟩ := hlive _ u (List.prefix_refl _) hrun
  rw [stuck_iff (lockInv_run hrun), not_not] at hstuck
  exact (step_blocked (lockInv_run ht) hu).mp hstuck

theorem blocked_of_quiet {es : List Event} (h : exec cfg.step init es = some s)
    (hquiet : Meets cfg.step (PoolQuiet cfg) init es) : s.blocked = none := by
  have key : LockInv s ∧ s.blocked = none := by
    refine meets_invariant (I := fun s => LockInv s ∧ s.blocked = none) ?_ ⟨lockInv_init, rfl⟩ h hquiet
    rintro s e t ⟨hs, -⟩ hq hstep
    exact ⟨lockInv_step hs hstep, (step_blocked hs hstep).mpr hq⟩
  exact key.2

theorem live_of_quiet {es : List Event} (hquiet : Meets cfg.step (PoolQuiet cfg) init es) : Live cfg es := by
  rintro pre t ⟨suf, rfl⟩ ht
  have hblocked := blocked_of_quiet ht (meets_of_append hquiet)
  have hinv := lockInv_run ht
  exact ⟨fun hstuck => (stuck_iff hinv).mp hstuck hblocked, fun i hi => progress hinv hblocked hi⟩

/-- The lazy creation cannot deadlock exactly in the runs where nobody asks for the pool while it is
being created. -/
theorem getArqPool_live_iff {es : List Event} (h : exec cfg.step init es = some s) :
    Live cfg es ↔ Meets cfg.step (PoolQuiet cfg) init es :=
  ⟨quiet_of_live h, live_of_quiet⟩

def oneAfterAnother : List Event :=
  [.start 0, .resume 0 true, .resume 0 true, .resume 0 true, .resume 0 true,
    .start 1, .resume 1 true, .resume 1 true, .resume 1 true]

theorem getArqPool_live_sequential : Live (emptyBatches none) oneAfterAnother := by
  have hrun : ∃ s, exec (emptyBatches none).step init oneAfterAnother = some s := ⟨_, rfl⟩
  obtain ⟨s, hs⟩ := hrun
  refine (getArqPool_live_iff hs).mpr ?_
  unfold oneAfterAnother
  refine (meets_cons rfl).mpr ⟨fun _ _ => rfl, ?_⟩
  refine (meets_cons rfl).mpr ⟨fun _ _ => rfl, ?_⟩
  refine (meets_cons rfl).mpr ⟨fun _ _ => rfl, ?_⟩
  refine (meets_cons rfl).mpr ⟨(by rintro ⟨_, _, hi, -⟩; cases hi), ?_⟩
  refine (meets_cons rfl).mpr ⟨fun _ _ => rfl, ?_⟩
  refine (meets_cons rfl).mpr ⟨fun _ _ => rfl, ?_⟩
  refine (meets_cons rfl).mpr ⟨fun _ _ => rfl, ?_⟩
  refine (meets_cons rfl).mpr ⟨fun _ _ => rfl, ?_⟩
  exact (meets_cons rfl).mpr ⟨fun _ _ => rfl, trivial⟩

/-- A second request asks for the pool while the first one creates it. -/
theorem getArqPool_deadlocks : ∃ cfg es s, exec (Config.step cfg) init es = some s ∧
    Stuck s ∧ (s.handler 0).Unfinished ∧ (s.handler 1).Unfinished ∧ ∀ e, cfg.step s e = none := by
  have hrun : ∃ s work work', exec (emptyBatches none).step init
      [.start 0, .resume 0 true, .resume 0 true, .start 1, .resume 1 true, .resume 1 true] = some s ∧
      s.blocked = some 1 ∧ s.handler 1 = .acquiringLock work ∧
      s.arqPoolLock = some 0 ∧ s.handler 0 = .creatingPool work' :=
    ⟨_, _, _, rfl, rfl, rfl, rfl, rfl⟩
  obtain ⟨s, work, work', hs, hblocked, h1, hlock, h0⟩ := hrun
  have hstuck : Stuck s := ⟨1, 0, work, work', hblocked, h1, hlock, h0⟩
  exact ⟨_, _, s, hs, hstuck, by simp [Handler.Unfinished, h0], by simp [Handler.Unfinished, h1],
    stuck_step hstuck⟩

end FlightPulse.Ingestion
