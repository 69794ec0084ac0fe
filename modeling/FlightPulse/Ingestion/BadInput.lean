import FlightPulse.Ingestion.Routes
import FlightPulse.Lib.JsonRender

/-!
# What becomes of a bad body

`post_telemetry` reads and validates the body itself. A reply that it returns, or the
detail of its `HTTPException`, is rendered as strict JSON in UTF-8 afterwards.
-/

open Lib Lib.Run Lib.Python Lib.Pydantic

namespace FlightPulse.Ingestion

open Instance

/-- The status that the client sees. An exception while the reply is rendered is a 500 as well. -/
def Reply.statusCode (depth : ℕ) : Reply → ℕ
  | .accepted resp => if (resp.status :: resp.ingestionIds).all encodable then 200 else 500
  | .logAccepted requestId => if encodable requestId then 200 else 500
  | .unprocessable errors => if errors.all fun e => strictJson encodable depth e.input then 422 else 500
  | .serverError => 500

namespace BadInput

/-! ## What the handler makes of a body -/

/-- The reply to a body, and the jobs that it enqueues. -/
def outcome (cfg : Config) (body : Bytes) : Reply × List Job :=
  match cfg.loads body with
  | none => (.serverError, [])
  | some raw =>
    match TelemetryBatch.modelValidate cfg.lax raw with
    | .ok batch => ((Work.telemetry batch).reply, [(Work.telemetry batch).job])
    | .invalid errors => (.unprocessable errors, [])

def jobsOf (queue : List (ℕ × Job)) (i : ℕ) : List Job := (queue.filter fun p => p.1 = i).map Prod.snd

/-- Nothing that request `i` awaits fails, and its key is not in the cache. -/
def Undisturbed (cfg : Config) (i : ℕ) (s : Instance) (e : Event) : Prop :=
  e ≠ .resume i false ∧ (e = .start i → (cfg.calls i).key?.bind s.idempotencyCache.get? = none)

def Reached (cfg : Config) (body : Bytes) : Handler → List Job → Prop
  | .waiting, jobs | .readingBody, jobs => jobs = []
  | .validating raw, jobs => jobs = [] ∧ cfg.loads body = some raw
  | .acquiringLock work, jobs | .creatingPool work, jobs | .enqueueing work, jobs =>
    jobs = [] ∧ outcome cfg body = (work.reply, [work.job])
  | .replied reply, jobs => outcome cfg body = (reply, jobs)

variable {cfg : Config} {s t : Instance} {i : ℕ} {key : Option PyStr} {body : Bytes}

theorem jobsOf_append_self (queue : List (ℕ × Job)) (i : ℕ) (jobs : List Job) :
    jobsOf (queue ++ jobs.map (Prod.mk i)) i = jobsOf queue i ++ jobs := by
  unfold jobsOf
  rw [List.filter_append, List.map_append]
  congr 1
  have hall : (jobs.map (Prod.mk i)).filter (fun p => p.1 = i) = jobs.map (Prod.mk i) := by
    rw [List.filter_eq_self]
    intro p hp
    obtain ⟨job, -, rfl⟩ := List.mem_map.mp hp
    simp
  rw [hall, List.map_map]
  exact List.map_id jobs

theorem jobsOf_append_of_ne (queue : List (ℕ × Job)) {i j : ℕ} (h : i ≠ j) (jobs : List Job) :
    jobsOf (queue ++ jobs.map (Prod.mk j)) i = jobsOf queue i := by
  unfold jobsOf
  rw [List.filter_append, List.map_append]
  have hnone : (jobs.map (Prod.mk j)).filter (fun p => p.1 = i) = [] := by
    rw [List.filter_eq_nil_iff]
    intro p hp
    obtain ⟨job, -, rfl⟩ := List.mem_map.mp hp
    simp [Ne.symm h]
  rw [hnone, List.map_nil, List.append_nil]

theorem carries_reached {work : Work} {h : Handler} {jobs : List Job} (hc : h.carries work) :
    Reached cfg body h jobs ↔ jobs = [] ∧ outcome cfg body = (work.reply, [work.job]) := by
  rcases hc with rfl | rfl | rfl <;> exact Iff.rfl

theorem moves_reached {cache cache' : Dict PyStr IngestResponse} {h h' : Handler} {jobs js : List Job}
    (hm : Moves cfg (.postTelemetry key body) cache h true h' cache' js)
    (hmiss : h = .waiting → (Call.postTelemetry key body).key?.bind cache.get? = none)
    (hr : Reached cfg body h jobs) : Reached cfg body h' (jobs ++ js) := by
  cases hm with
  | cached hcall hkey hget =>
    have hnone := hmiss rfl
    rw [hkey, Option.bind_some, hget] at hnone
    cases hnone
  | missed hcall hget => simpa [Reached] using hr
  | logged hcall hcarries => cases hcall
  | parsed hraw => exact ⟨by simpa [Reached] using hr, hraw⟩
  | unparsable hraw =>
    have hloads : cfg.loads body = none := hraw
    obtain rfl : jobs = [] := hr
    simp [Reached, outcome, hloads]
  | valid hb hcarries =>
    obtain ⟨rfl, hraw⟩ := hr
    exact (carries_reached hcarries).mpr ⟨rfl, by simp [outcome, hraw, hb]⟩
  | invalid hb =>
    obtain ⟨rfl, hraw⟩ := hr
    simp [Reached, outcome, hraw, hb]
  | onward hcarries hcarries' =>
    rw [List.append_nil, carries_reached hcarries']
    exact (carries_reached hcarries).mp hr
  | enqueued =>
    obtain ⟨rfl, hout⟩ := hr
    simpa [Reached] using hout

theorem reached_step (hcall : cfg.calls i = .postTelemetry key body) {e : Event}
    (hr : Reached cfg body (s.handler i) (jobsOf s.queue i)) (hu : Undisturbed cfg i s e)
    (h : cfg.step s e = some t) : Reached cfg body (t.handler i) (jobsOf t.queue i) := by
  obtain ⟨jobs, hmove, hqueue, hframe⟩ := step_moves h
  rcases eq_or_ne i e.request with rfl | hne
  · have hok : e.ok = true := by
      cases e with
      | resume j ok =>
        cases ok with
        | true => rfl
        | false => exact absurd rfl hu.1
      | start j => rfl
      | acquired j => rfl
    rw [hok, hcall] at hmove
    rw [hqueue, jobsOf_append_self]
    refine moves_reached hmove (fun hw => ?_) hr
    rw [← hcall]
    exact hu.2 (start_of_waiting hw h)
  · rw [hframe i hne, hqueue, jobsOf_append_of_ne _ hne]
    exact hr

theorem reached_run (hcall : cfg.calls i = .postTelemetry key body) {es : List Event}
    (h : exec cfg.step init es = some s) (hu : Meets cfg.step (Undisturbed cfg i) init es) :
    Reached cfg body (s.handler i) (jobsOf s.queue i) :=
  meets_invariant (I := fun s => Reached cfg body (s.handler i) (jobsOf s.queue i))
    (fun _ _ _ hr hc h => reached_step hcall hr hc h) (show Reached cfg body .waiting [] from rfl) h hu

/-! ## A request alone is answered -/

theorem start_alone (hcall : cfg.calls i = .postTelemetry key body) :
    cfg.step init (.start i) = some (init.put i .readingBody) := by
  have hmiss : (cfg.calls i).key?.bind init.idempotencyCache.get? = none := by
    cases (cfg.calls i).key? <;> rfl
  rw [hcall] at hmiss
  simp only [Config.step, hcall, Instance.start, hmiss]
  rfl

theorem undisturbed_resume (hcall : cfg.calls i = .postTelemetry key body) (n : ℕ) :
    Meets cfg.step (Undisturbed cfg i) init (.start i :: List.replicate n (.resume i true)) := by
  rw [meets_cons (start_alone hcall)]
  refine ⟨⟨by simp, fun _ => by cases (cfg.calls i).key? <;> rfl⟩, ?_⟩
  generalize init.put i .readingBody = s
  induction n generalizing s with
  | zero => trivial
  | succ n ih => exact ⟨⟨by simp, by simp⟩, fun t _ => ih t⟩

/-- The reply comes with the last await, of which there are one, two or four. -/
theorem run_alone (hcall : cfg.calls i = .postTelemetry key body) :
    ∃ n reply, (exec cfg.step init (.start i :: List.replicate n (.resume i true))).map (fun s => s.handler i) =
      some (.replied reply) := by
  have hparsed : cfg.parsed (cfg.calls i) = cfg.loads body := by rw [hcall]; rfl
  simp only [exec_cons, start_alone hcall, Option.bind_some]
  cases hraw : cfg.loads body with
  | none =>
    refine ⟨1, .serverError, ?_⟩
    simp [List.replicate, exec_cons, Config.step, Config.proceed, put, init, hparsed, hraw]
  | some raw =>
    cases hb : TelemetryBatch.modelValidate cfg.lax raw with
    | invalid errors =>
      refine ⟨2, .unprocessable errors, ?_⟩
      simp [List.replicate, exec_cons, Config.step, Config.proceed, put, init, hparsed, hraw, hb]
    | ok batch =>
      refine ⟨4, (Work.telemetry batch).reply, ?_⟩
      simp [List.replicate, exec_cons, Config.step, Config.proceed, put, init, hparsed, hraw, hb, getArqPool,
        insideLock, finish]

theorem answered_alone (hcall : cfg.calls i = .postTelemetry key body) :
    ∃ es s reply, exec cfg.step init es = some s ∧ Meets cfg.step (Undisturbed cfg i) init es ∧
      s.handler i = .replied reply := by
  obtain ⟨n, reply, hrun⟩ := run_alone hcall
  obtain ⟨s, hs, hreply⟩ := Option.map_eq_some_iff.mp hrun
  exact ⟨_, s, reply, hs, undisturbed_resume hcall n, hreply⟩

/-! ## Client errors -/

/-- The body is JSON in UTF-8, and a valid batch. -/
def Accepts (cfg : Config) (utf8Json : Bytes → Option PyVal) (body : Bytes) : Prop :=
  ∃ raw batch, utf8Json body = some raw ∧ TelemetryBatch.modelValidate cfg.lax raw = .ok batch

/-- The reply is 200 for the bodies to accept, and otherwise 422 without a job. -/
def ClientErrors (cfg : Config) (utf8Json : Bytes → Option PyVal) (depth i : ℕ) (body : Bytes) : Prop :=
  ∀ es s reply, exec cfg.step init es = some s → Meets cfg.step (Undisturbed cfg i) init es →
    s.handler i = .replied reply →
    (reply.statusCode depth = 200 ↔ Accepts cfg utf8Json body) ∧
    (reply.statusCode depth ≠ 200 → reply.statusCode depth = 422 ∧ jobsOf s.queue i = [])

/-- The parser does not raise, and what is left to render is strict JSON. -/
def Routed (cfg : Config) (utf8Json : Bytes → Option PyVal) (depth : ℕ) (body : Bytes) : Prop :=
  ∃ raw, cfg.loads body = some raw ∧
    (∀ batch, TelemetryBatch.modelValidate cfg.lax raw = .ok batch →
      utf8Json body = some raw ∧ batch.ids.all encodable) ∧
    (∀ errors, TelemetryBatch.modelValidate cfg.lax raw = .invalid errors →
      ∀ e ∈ errors, strictJson encodable depth e.input)

variable {utf8Json : Bytes → Option PyVal} {depth : ℕ}

theorem accepts_iff (hutf8 : ∀ body raw, utf8Json body = some raw → cfg.loads body = some raw)
    {raw : PyVal} (hraw : cfg.loads body = some raw) :
    Accepts cfg utf8Json body ↔
      utf8Json body = some raw ∧ ∃ batch, TelemetryBatch.modelValidate cfg.lax raw = .ok batch := by
  constructor
  · rintro ⟨raw', batch, hjson, hb⟩
    have heq := hutf8 body raw' hjson
    rw [hraw, Option.some.injEq] at heq
    subst heq
    exact ⟨hjson, batch, hb⟩
  · rintro ⟨hjson, batch, hb⟩
    exact ⟨raw, batch, hjson, hb⟩

theorem statusCode_unprocessable (depth : ℕ) (errors : List ErrorDetail) :
    (Reply.unprocessable errors).statusCode depth = 422 ∧ (∀ e ∈ errors, strictJson encodable depth e.input) ∨
    (Reply.unprocessable errors).statusCode depth = 500 ∧ ¬ ∀ e ∈ errors, strictJson encodable depth e.input := by
  simp only [Reply.statusCode]
  split
  · next h => exact Or.inl ⟨rfl, List.all_eq_true.mp h⟩
  · next h => exact Or.inr ⟨rfl, fun hall => h (List.all_eq_true.mpr hall)⟩

theorem statusCode_accepted (depth : ℕ) (batch : TelemetryBatch) :
    (Work.telemetry batch).reply.statusCode depth = 200 ∧ batch.ids.all encodable ∨
    (Work.telemetry batch).reply.statusCode depth = 500 ∧ ¬ batch.ids.all encodable := by
  have haccepted : encodable (str "accepted") = true := by decide
  have hall : (str "accepted" :: batch.ids).all encodable = batch.ids.all encodable := by
    rw [List.all_cons, haccepted, Bool.true_and]
  unfold Work.reply response Reply.statusCode
  simp only [hall]
  split
  · next h => exact Or.inl ⟨rfl, h⟩
  · next h => exact Or.inr ⟨rfl, h⟩

theorem verdict_iff (hutf8 : ∀ body raw, utf8Json body = some raw → cfg.loads body = some raw) :
    (((outcome cfg body).1.statusCode depth = 200 ↔ Accepts cfg utf8Json body) ∧
      ((outcome cfg body).1.statusCode depth ≠ 200 →
        (outcome cfg body).1.statusCode depth = 422 ∧ (outcome cfg body).2 = [])) ↔
      Routed cfg utf8Json depth body := by
  unfold Routed
  cases hraw : cfg.loads body with
  | none =>
    have hout : outcome cfg body = (.serverError, []) := by simp [outcome, hraw]
    simp [hout, Reply.statusCode]
  | some raw =>
    rw [accepts_iff hutf8 hraw]
    simp only [Option.some.injEq, exists_eq_left']
    cases hb : TelemetryBatch.modelValidate cfg.lax raw with
    | invalid errors =>
      have hout : outcome cfg body = (.unprocessable errors, []) := by simp [outcome, hraw, hb]
      rw [hout]
      rcases statusCode_unprocessable depth errors with ⟨hstatus, hstrict⟩ | ⟨hstatus, hstrict⟩
      · simpa [hstatus] using hstrict
      · simpa [hstatus] using hstrict
    | ok batch =>
      have hout : outcome cfg body = ((Work.telemetry batch).reply, [(Work.telemetry batch).job]) := by
        simp [outcome, hraw, hb]
      rw [hout]
      rcases statusCode_accepted depth batch with ⟨hstatus, hids⟩ | ⟨hstatus, hids⟩
      · simp only [hstatus, hids, true_iff, ne_eq, not_true_eq_false, false_implies, and_true,
          Validated.ok.injEq, forall_eq', exists_eq', reduceCtorEq, implies_true]
      · simp only [hstatus, hids, Validated.ok.injEq, forall_eq', Bool.false_eq_true, and_false, false_and,
          iff_false, not_and]
        intro _ hwrong
        exact absurd (hwrong (by omega)).1 (by omega)

/-- A request is answered when it runs alone; and its answer is 200 or 422 as it should be, in every
run, exactly when its body is routed. -/
theorem client_errors_iff (cfg : Config) (utf8Json : Bytes → Option PyVal) (depth i : ℕ)
    (key : Option PyStr) (body : Bytes)
    (hutf8 : ∀ body raw, utf8Json body = some raw → cfg.loads body = some raw)
    (hcall : cfg.calls i = .postTelemetry key body) :
    (∃ es s reply, exec cfg.step init es = some s ∧ Meets cfg.step (Undisturbed cfg i) init es ∧
      s.handler i = .replied reply) ∧
    (ClientErrors cfg utf8Json depth i body ↔ Routed cfg utf8Json depth body) := by
  refine ⟨answered_alone hcall, ?_⟩
  rw [← verdict_iff hutf8]
  constructor
  · intro h
    obtain ⟨es, s, reply, hs, hu, hreply⟩ := answered_alone hcall
    have hout := reached_run hcall hs hu
    rw [hreply] at hout
    have hverdict := h es s reply hs hu hreply
    rw [show outcome cfg body = (reply, jobsOf s.queue i) from hout]
    exact hverdict
  · intro h es s reply hs hu hreply
    have hout := reached_run hcall hs hu
    rw [hreply] at hout
    rw [show outcome cfg body = (reply, jobsOf s.queue i) from hout] at h
    exact h

/-- A batch without events, and an object without a batch. -/
def soundBodies : Config where
  loads := fun body =>
    if body = emptyBody then some (.dict [(str "events", .list [])])
    else if body = bytes "\x7b\x7d" then some (.dict [])
    else none
  lax := .strict
  calls := fun i => .postTelemetry none (if i = 0 then emptyBody else bytes "\x7b\x7d")

theorem client_errors_of_soundBodies :
    ClientErrors soundBodies soundBodies.loads 990 0 emptyBody ∧
    ClientErrors soundBodies soundBodies.loads 990 1 (bytes "\x7b\x7d") := by
  have hvalid : TelemetryBatch.modelValidate .strict (.dict [(str "events", .list [])]) = .ok ⟨[]⟩ := rfl
  have hinvalid : TelemetryBatch.modelValidate .strict (.dict []) =
      .invalid [⟨.missing, [.field (str "events")], .dict []⟩] := rfl
  constructor
  · refine (client_errors_iff soundBodies soundBodies.loads 990 0 none emptyBody (fun _ _ h => h) rfl).2.mpr
      ⟨.dict [(str "events", .list [])], rfl, fun batch hb => ?_, fun errors hb => ?_⟩
    · obtain rfl := Validated.ok.inj (hvalid.symm.trans hb)
      exact ⟨rfl, rfl⟩
    · cases hvalid.symm.trans hb
  · refine (client_errors_iff soundBodies soundBodies.loads 990 1 none (bytes "\x7b\x7d") (fun _ _ h => h) rfl).2.mpr
      ⟨.dict [], rfl, fun batch hb => ?_, fun errors hb => ?_⟩
    · cases hinvalid.symm.trans hb
    · obtain rfl := Validated.invalid.inj (hinvalid.symm.trans hb)
      decide

/-- The second body is a batch with `NaN` for its event. -/
def badBodies : Config where
  loads := fun body =>
    if body = bytes "\x7b\"events\": [NaN]\x7d" then some (.dict [(str "events", .list [.float .nan])]) else none
  lax := .strict
  calls := fun i => .postTelemetry none (bytes (if i = 0 then "no json" else "\x7b\"events\": [NaN]\x7d"))

/-- A body that is no JSON is answered with 500, and so is one whose errors show a `NaN`. -/
theorem bad_bodies_are_server_errors :
    ¬ ClientErrors badBodies badBodies.loads 990 0 (bytes "no json") ∧
    ¬ ClientErrors badBodies badBodies.loads 990 1 (bytes "\x7b\"events\": [NaN]\x7d") := by
  constructor
  · intro h
    have hwrong := (h [.start 0, .resume 0 true] _ .serverError rfl
      (by simp [Meets, Undisturbed, badBodies, Call.key?]) rfl).2 (by decide)
    exact absurd hwrong.1 (by decide)
  · intro h
    have hwrong := (h [.start 1, .resume 1 true, .resume 1 true] _
      (.unprocessable [⟨.modelType, [.field (str "events"), .index 0], .float .nan⟩]) rfl
      (by simp [Meets, Undisturbed, badBodies, Call.key?]) rfl).2 (by decide)
    exact absurd hwrong.1 (by decide)

end BadInput

end FlightPulse.Ingestion
