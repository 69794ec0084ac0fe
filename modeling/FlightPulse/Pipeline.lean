import FlightPulse.Ingestion.Handover
import FlightPulse.Worker.Batching
import FlightPulse.Worker.Queue

/-!
# From a request to the tables

Several instances of the ingestion service put jobs into one queue, and executions of
these jobs run side by side against one database. The queue delivers a job any number
of times, so an execution takes any job that was ever enqueued. A step of the pipeline
is a step of one instance or of one execution.
-/

open Lib Lib.Run Lib.Python Lib.Pydantic Lib.Postgres Lib.Transactions

namespace FlightPulse.Pipeline

open Ingestion Worker

/-! ## Executions -/

/-- What an execution was given: the job, and the time of its transaction. -/
structure Delivery where
  job : Job
  now : Timestamptz

namespace Delivery

variable (env : Env)

def batch? (d : Delivery) : Option TelemetryBatch :=
  match d.job with
  | .processTelemetryBatch payload =>
    match TelemetryBatch.modelValidate env.lax payload with
    | .ok batch => some batch
    | .invalid _ => none
  | .processExtractionLog _ => none

def entry? (d : Delivery) : Option ExtractionLogEntry :=
  match d.job with
  | .processTelemetryBatch _ => none
  | .processExtractionLog payload =>
    match ExtractionLogEntry.modelValidate env.lax payload with
    | .ok entry => some entry
    | .invalid _ => none

/-- The rows that the execution passes to `raw_telemetry`. -/
def telemetryRows (d : Delivery) : List DbRow :=
  match d.batch? env with
  | some batch => env.passedRows ⟨batch, d.now⟩
  | none => []

/-- It reaches its commit only if every row can be built and is accepted. -/
def telemetryCommits (d : Delivery) : Bool :=
  match d.batch? env with
  | some batch => (env.executionRows ⟨batch, d.now⟩).isSome
  | none => false

def logRow (d : Delivery) : Option LogRow := (d.entry? env).bind (env.admitLog d.now)

end Delivery

/-! ## The system -/

structure State (ν ι : Type*) where
  instances : ν → Instance
  /-- The executions that have started, each with what it was given. -/
  taken : ι → Option Delivery
  telemetry : Store ι DbRow
  log : Store ι LogRow
  /-- The payloads that were dead-lettered because they failed their validation. -/
  deadLetter : List PyVal

inductive Event (ν ι : Type*) where
  | ingest (v : ν) (e : Ingestion.Event)
  /-- Execution `i` takes the job that instance `v` enqueued as its `n`-th. -/
  | take (i : ι) (v : ν) (n : ℕ) (now : Timestamptz)
  | insert (i : ι)
  | commit (i : ι)
  | abort (i : ι)

section

variable {ν ι : Type*} [DecidableEq ν] [Fintype ι] [DecidableEq ι] (env : Env)

def telemetryRows (taken : ι → Option Delivery) (i : ι) : List DbRow :=
  ((taken i).map (Delivery.telemetryRows env)).getD []

def telemetryCommits (taken : ι → Option Delivery) (i : ι) : Bool :=
  ((taken i).map (Delivery.telemetryCommits env)).getD false

def logRow (taken : ι → Option Delivery) (i : ι) : Option LogRow := (taken i).bind (Delivery.logRow env)

def stepTelemetry (taken : ι → Option Delivery) : Store ι DbRow → Transactions.Event ι → Option (Store ι DbRow) :=
  stepIf DbRow.ingestionId (telemetryRows env taken) (telemetryCommits env taken)

def stepLog (taken : ι → Option Delivery) : Store ι LogRow → Transactions.Event ι → Option (Store ι LogRow) :=
  stepIf LogRow.requestId (fun i => (logRow env taken i).toList) fun i => (logRow env taken i).isSome

namespace State

def init (telemetry : RawTelemetry) (log : ExtractionLog) : State ν ι where
  instances := fun _ => .init
  taken := fun _ => none
  telemetry := .init telemetry.rows
  log := .init log.rows
  deadLetter := []

/-- One step of a started execution, on the table that its job is about. -/
def work (s : State ν ι) (i : ι) (e : Transactions.Event ι) : Option (State ν ι) :=
  match s.taken i with
  | some ⟨.processTelemetryBatch _, _⟩ =>
    (stepTelemetry env s.taken s.telemetry e).map fun telemetry => { s with telemetry := telemetry }
  | some ⟨.processExtractionLog _, _⟩ =>
    (stepLog env s.taken s.log e).map fun log => { s with log := log }
  | none => none

/-- The start of an execution: the payload is validated, and the transaction begins. -/
def start (s : State ν ι) (i : ι) (d : Delivery) : Option (State ν ι) :=
  let s' : State ν ι := { s with taken := Function.update s.taken i (some d) }
  match env.validationErrors d.job with
  | some _ => some { s' with deadLetter := s'.deadLetter ++ [jobPayload d.job] }
  | none => s'.work env i (.start i)

end State

def step (cfg : ν → Config) (s : State ν ι) : Event ν ι → Option (State ν ι)
  | .ingest v e =>
    ((cfg v).step (s.instances v) e).map fun t => { s with instances := Function.update s.instances v t }
  | .take i v n now =>
    match s.taken i, (s.instances v).queue[n]? with
    | none, some (_, job) => s.start env i ⟨job, now⟩
    | _, _ => none
  | .insert i => s.work env i (.insert i)
  | .commit i => s.work env i (.commit i)
  | .abort i => s.work env i (.abort i)

end

/-! ## What one step does -/

variable {ν ι : Type*} [DecidableEq ν] [Fintype ι] [DecidableEq ι] {env : Env} {cfg : ν → Config}
  {s t u : State ν ι}

/-- Instance `v` has enqueued the job. -/
def Queued (s : State ν ι) (v : ν) (job : Job) : Prop := ∃ i, (i, job) ∈ (s.instances v).queue

/-- The execution works on `raw_telemetry`. -/
def OnTelemetry (o : Option Delivery) : Prop := ∃ payload now, o = some ⟨.processTelemetryBatch payload, now⟩

structure StepSpec (env : Env) (cfg : ν → Config) (s t : State ν ι) : Prop where
  instances : ∀ v, t.instances v = s.instances v ∨ ∃ e, (cfg v).step (s.instances v) e = some (t.instances v)
  kept : ∀ i d, s.taken i = some d → t.taken i = some d
  source : ∀ i d, t.taken i = some d → s.taken i = some d ∨ ∃ v, Queued s v d.job
  telemetry : t.telemetry = s.telemetry ∨
    ∃ e, stepTelemetry env t.taken s.telemetry e = some t.telemetry ∧ OnTelemetry (t.taken e.of)
  log : t.log = s.log ∨ ∃ e, stepLog env t.taken s.log e = some t.log ∧ (t.taken e.of).isSome
  deadLetter : t.deadLetter = s.deadLetter ∨ ∃ v job, Queued s v job ∧ (env.validationErrors job).isSome

omit [DecidableEq ν] in
theorem work_frame {i : ι} {e : Transactions.Event ι} (he : e.of = i) (h : s.work env i e = some t) :
    t.instances = s.instances ∧ t.taken = s.taken ∧ t.deadLetter = s.deadLetter ∧
      (t.telemetry = s.telemetry ∨
        ∃ e, stepTelemetry env s.taken s.telemetry e = some t.telemetry ∧ OnTelemetry (s.taken e.of)) ∧
      (t.log = s.log ∨ ∃ e, stepLog env s.taken s.log e = some t.log ∧ (s.taken e.of).isSome) := by
  unfold State.work at h
  split at h
  · next htaken =>
    obtain ⟨telemetry, hstep, rfl⟩ := Option.map_eq_some_iff.mp h
    exact ⟨rfl, rfl, rfl, .inr ⟨e, hstep, _, _, he ▸ htaken⟩, .inl rfl⟩
  · next htaken =>
    obtain ⟨log, hstep, rfl⟩ := Option.map_eq_some_iff.mp h
    exact ⟨rfl, rfl, rfl, .inl rfl, .inr ⟨e, hstep, by rw [he, htaken]; rfl⟩⟩
  · cases h

omit [DecidableEq ν] in
theorem work_spec {i : ι} {e : Transactions.Event ι} (he : e.of = i) (h : s.work env i e = some t) :
    StepSpec env cfg s t := by
  obtain ⟨hinstances, htaken, hdead, htelemetry, hlog⟩ := work_frame he h
  rw [← htaken] at htelemetry hlog
  exact ⟨fun v => .inl (congrFun hinstances v), fun i d hi => htaken ▸ hi, fun i d hi => .inl (htaken ▸ hi),
    htelemetry, hlog, .inl hdead⟩

omit [DecidableEq ν] in
theorem start_spec {i : ι} {d : Delivery} {v : ν} (hfree : s.taken i = none) (hqueued : Queued s v d.job)
    (h : s.start env i d = some t) : StepSpec env cfg s t := by
  have hkept : ∀ j x, s.taken j = some x → Function.update s.taken i (some d) j = some x := by
    intro j x hj
    have hji : j ≠ i := by
      rintro rfl
      rw [hfree] at hj
      cases hj
    rwa [Function.update_of_ne hji]
  have hsource : ∀ j x, Function.update s.taken i (some d) j = some x →
      s.taken j = some x ∨ ∃ v, Queued s v x.job := by
    intro j x hj
    rcases eq_or_ne j i with rfl | hji
    · rw [Function.update_self, Option.some.injEq] at hj
      exact .inr ⟨v, hj ▸ hqueued⟩
    · rw [Function.update_of_ne hji] at hj
      exact .inl hj
  unfold State.start at h
  split at h
  · next errors hinvalid =>
    cases h
    exact ⟨fun _ => .inl rfl, hkept, hsource, .inl rfl, .inl rfl,
      .inr ⟨v, d.job, hqueued, by rw [hinvalid]; rfl⟩⟩
  · obtain ⟨hinstances, htaken, hdead, htelemetry, hlog⟩ := work_frame (e := .start i) rfl h
    rw [← htaken] at htelemetry hlog
    exact ⟨fun v => .inl (congrFun hinstances v), htaken ▸ hkept, htaken ▸ hsource, htelemetry, hlog, .inl hdead⟩

theorem step_spec {e : Event ν ι} (h : step env cfg s e = some t) : StepSpec env cfg s t := by
  cases e with
  | ingest v e =>
    obtain ⟨inst, hstep, rfl⟩ := Option.map_eq_some_iff.mp h
    refine ⟨fun w => ?_, fun _ _ hi => hi, fun _ _ hi => .inl hi, .inl rfl, .inl rfl, .inl rfl⟩
    rcases eq_or_ne w v with rfl | hw
    · exact .inr ⟨e, by rw [hstep]; simp⟩
    · exact .inl (Function.update_of_ne hw _ _)
  | take i v n now =>
    simp only [step] at h
    split at h
    · next j job hfree hjob => exact start_spec hfree ⟨j, List.mem_of_getElem? hjob⟩ h
    · cases h
  | insert i => exact work_spec (e := .insert i) rfl h
  | commit i => exact work_spec (e := .commit i) rfl h
  | abort i => exact work_spec (e := .abort i) rfl h

/-! ## The parts of a run -/

/-- Every execution of the first is one of the second. -/
def Extends (taken taken' : ι → Option Delivery) : Prop := ∀ i d, taken i = some d → taken' i = some d

omit [Fintype ι] [DecidableEq ι] in
theorem Extends.agree {taken taken' : ι → Option Delivery} (h : Extends taken taken') {i : ι}
    (hi : (taken i).isSome) : taken i = taken' i := by
  obtain ⟨d, hd⟩ := Option.isSome_iff_exists.mp hi
  rw [hd, h i d hd]

section

variable {telemetry : RawTelemetry} {log : ExtractionLog} {es : List (Event ν ι)}

theorem instance_run (h : exec (step env cfg) (.init telemetry log) es = some s) (v : ν) :
    ∃ ds, exec (cfg v).step .init ds = some (s.instances v) :=
  exec_part (fun s : State ν ι => s.instances v) (cfg v).step
    (fun _ _ _ hstep => (step_spec hstep).instances v) h

/-- The table and its transactions run as with all the executions that were ever taken. -/
theorem telemetry_run (h : exec (step env cfg) (.init telemetry log) es = some s) :
    ∃ ds, exec (stepTelemetry env s.taken) (.init telemetry.rows) ds = some s.telemetry := by
  refine exec_part_growing State.telemetry State.taken Extends (stepTelemetry env) ?_ ?_ h s.taken
    fun _ _ hi => hi
  · exact fun s e t taken ht hext i d hi => hext i d ((step_spec ht).kept i d hi)
  · intro s e t ht
    refine (step_spec ht).telemetry.imp_right fun ⟨d, hd, _, _, hof⟩ => ⟨d, fun taken hext => ?_⟩
    have hsome : (t.taken d.of).isSome := by rw [hof]; rfl
    rw [← hd]
    unfold stepTelemetry telemetryRows telemetryCommits
    exact stepIf_congr (by rw [hext.agree hsome]) (by rw [hext.agree hsome])

theorem log_run (h : exec (step env cfg) (.init telemetry log) es = some s) :
    ∃ ds, exec (stepLog env s.taken) (.init log.rows) ds = some s.log := by
  refine exec_part_growing State.log State.taken Extends (stepLog env) ?_ ?_ h s.taken fun _ _ hi => hi
  · exact fun s e t taken ht hext i d hi => hext i d ((step_spec ht).kept i d hi)
  · intro s e t ht
    refine (step_spec ht).log.imp_right fun ⟨d, hd, hsome⟩ => ⟨d, fun taken hext => ?_⟩
    rw [← hd]
    unfold stepLog logRow
    exact stepIf_congr (by rw [hext.agree hsome]) (by rw [hext.agree hsome])

/-! ## Where the jobs come from -/

theorem queue_grows {s t : State ν ι} {e : Event ν ι} (h : step env cfg s e = some t) (v : ν) :
    (s.instances v).queue <+: (t.instances v).queue := by
  rcases (step_spec h).instances v with heq | ⟨d, hd⟩
  · rw [heq]
  · exact queue_prefix_step hd

theorem taken_queued (h : exec (step env cfg) (.init telemetry log) es = some s) {i : ι} {d : Delivery}
    (hi : s.taken i = some d) : ∃ v, Queued s v d.job := by
  refine exec_invariant (I := fun s : State ν ι => ∀ i d, s.taken i = some d → ∃ v, Queued s v d.job) ?_
    (fun i d hi => by simp [State.init] at hi) h i d hi
  intro s e t ih ht i d hi
  have hmore : (∃ v, Queued s v d.job) → ∃ v, Queued t v d.job := by
    rintro ⟨v, j, hj⟩
    exact ⟨v, j, (queue_grows ht v).subset hj⟩
  rcases (step_spec ht).source i d hi with hi | hqueued
  · exact hmore (ih i d hi)
  · exact hmore hqueued

theorem queued_asks (h : exec (step env cfg) (.init telemetry log) es = some s) {v : ν} {job : Job}
    (hjob : Queued s v job) : ∃ i, ∃ work : Work, job = work.job ∧ Asks (cfg v) i work := by
  obtain ⟨ds, hds⟩ := instance_run h v
  obtain ⟨i, hi⟩ := hjob
  exact ⟨i, (handoverInv_run hds).queue i job hi⟩

end

theorem validationErrors_job (work : Work) : env.validationErrors work.job = none := by
  cases work with
  | telemetry batch => simp [Env.validationErrors, Work.job, TelemetryBatch.modelValidate_modelDump]
  | extractionLog entry => simp [Env.validationErrors, Work.job, ExtractionLogEntry.modelValidate_modelDump]

theorem batch?_job {batch : TelemetryBatch} {now : Timestamptz} :
    Delivery.batch? env ⟨(Work.telemetry batch).job, now⟩ = some batch := by
  simp [Delivery.batch?, Work.job, TelemetryBatch.modelValidate_modelDump]

theorem entry?_job {entry : ExtractionLogEntry} {now : Timestamptz} :
    Delivery.entry? env ⟨(Work.extractionLog entry).job, now⟩ = some entry := by
  simp [Delivery.entry?, Work.job, ExtractionLogEntry.modelValidate_modelDump]

section

variable {telemetry : RawTelemetry} {log : ExtractionLog} {es : List (Event ν ι)}

theorem batch_asked (h : exec (step env cfg) (.init telemetry log) es = some s) {i : ι} {d : Delivery}
    (hi : s.taken i = some d) {batch : TelemetryBatch} (hbatch : d.batch? env = some batch) :
    ∃ v j, Validates (cfg v) j batch := by
  obtain ⟨v, hqueued⟩ := taken_queued h hi
  obtain ⟨j, work, hjob, hasks⟩ := queued_asks h hqueued
  obtain ⟨job, now⟩ := d
  obtain rfl : job = work.job := hjob
  cases work with
  | telemetry batch' =>
    rw [batch?_job, Option.some.injEq] at hbatch
    exact ⟨v, j, hbatch ▸ hasks⟩
  | extractionLog entry => simp [Delivery.batch?, Work.job] at hbatch

theorem entry_asked (h : exec (step env cfg) (.init telemetry log) es = some s) {i : ι} {d : Delivery}
    (hi : s.taken i = some d) {entry : ExtractionLogEntry} (hentry : d.entry? env = some entry) :
    ∃ v j, (cfg v).calls j = .postExtractionLog entry := by
  obtain ⟨v, hqueued⟩ := taken_queued h hi
  obtain ⟨j, work, hjob, hasks⟩ := queued_asks h hqueued
  obtain ⟨job, now⟩ := d
  obtain rfl : job = work.job := hjob
  cases work with
  | telemetry batch => simp [Delivery.entry?, Work.job] at hentry
  | extractionLog entry' =>
    rw [entry?_job, Option.some.injEq] at hentry
    exact ⟨v, j, hentry ▸ hasks⟩

/-! ## What a committed execution has stored -/

theorem committed_telemetry (h : exec (step env cfg) (.init telemetry log) es = some s) {i : ι} {n : ℕ}
    (hi : s.telemetry.phase i = .committed n) : ∃ d batch stored, s.taken i = some d ∧
      d.batch? env = some batch ∧ env.executionRows ⟨batch, d.now⟩ = some stored ∧
      telemetryRows env s.taken i = stored := by
  obtain ⟨ds, hds⟩ := telemetry_run h
  have hallowed : telemetryCommits env s.taken i = true := allowed_run hds hi
  unfold telemetryCommits at hallowed
  cases htaken : s.taken i with
  | none => simp [htaken] at hallowed
  | some d =>
    simp only [htaken, Option.map_some, Option.getD_some, Delivery.telemetryCommits] at hallowed
    split at hallowed
    · next batch hbatch =>
      obtain ⟨stored, hstored⟩ := Option.isSome_iff_exists.mp hallowed
      refine ⟨d, batch, stored, rfl, hbatch, hstored, ?_⟩
      simp only [telemetryRows, htaken, Option.map_some, Option.getD_some, Delivery.telemetryRows, hbatch]
      exact passedRows_of_accepted hstored
    · cases hallowed

theorem committed_log (h : exec (step env cfg) (.init telemetry log) es = some s) {i : ι} {n : ℕ}
    (hi : s.log.phase i = .committed n) : ∃ d entry r, s.taken i = some d ∧ d.entry? env = some entry ∧
      env.admitLog d.now entry = some r ∧ (logRow env s.taken i).toList = [r] := by
  obtain ⟨ds, hds⟩ := log_run h
  have hallowed : (logRow env s.taken i).isSome = true := allowed_run hds hi
  obtain ⟨r, hr⟩ := Option.isSome_iff_exists.mp hallowed
  have hlist : (logRow env s.taken i).toList = [r] := by rw [hr]; rfl
  obtain ⟨d, htaken, hd⟩ := Option.bind_eq_some_iff.mp hr
  obtain ⟨entry, hentry, hadmit⟩ := Option.bind_eq_some_iff.mp hd
  exact ⟨d, entry, r, htaken, hentry, hadmit, hlist⟩

/-! ## The tables hold what clients sent -/

/-- The row is what the worker makes of an event in the body of a request to `v`. -/
def SentTo (env : Env) (cfg : ν → Config) (v : ν) (r : DbRow) : Prop :=
  ∃ i batch event row now, Validates (cfg v) i batch ∧ event ∈ processed batch ∧ eventToRow event = some row ∧
    env.admitRow now row = some r

def LoggedTo (env : Env) (cfg : ν → Config) (v : ν) (r : LogRow) : Prop :=
  ∃ i entry now, (cfg v).calls i = .postExtractionLog entry ∧ env.admitLog now entry = some r

theorem stored_ids_nodup (h : exec (step env cfg) (.init telemetry log) es = some s) :
    (s.telemetry.rows.map DbRow.ingestionId).Nodup := by
  obtain ⟨ds, hds⟩ := telemetry_run h
  exact (inv_run telemetry.nodup (exec_of_imp (fun _ _ _ h => step_of_stepIf h) hds)).nodup

theorem ids_of_committed (h : exec (step env cfg) (.init telemetry log) es = some s) {k : ι} {n : ℕ}
    {now : Timestamptz} {batch : TelemetryBatch} (htaken : s.taken k = some ⟨(Work.telemetry batch).job, now⟩)
    (hk : s.telemetry.phase k = .committed n) {event : TelemetryEvent} (hevent : FirstOfKey batch.events event) :
    ∃ id, parseUuid event.ingestionId = some id ∧ id ∈ s.telemetry.rows.map DbRow.ingestionId := by
  obtain ⟨d, batch', stored, hd, hbatch, hstored, hrows⟩ := committed_telemetry h hk
  rw [htaken, Option.some.injEq] at hd
  subst hd
  rw [batch?_job, Option.some.injEq] at hbatch
  subst hbatch
  obtain ⟨rows, hbuilt, hadmitted⟩ := Option.bind_eq_some_iff.mp hstored
  obtain ⟨id, hid, hmem⟩ := mem_keys_of_commit hbuilt hadmitted (mem_processed_iff.mpr ⟨event, hevent, rfl⟩)
  rw [ingestionId_normalizeEvent] at hid
  obtain ⟨ds, hds⟩ := telemetry_run h
  have hds' := exec_of_imp (fun _ _ _ h => step_of_stepIf h) hds
  refine ⟨id, hid, (mem_keys_iff (inv_run telemetry.nodup hds') (rows_prefix_run hds') id).mpr (.inr ⟨k, n, hk, ?_⟩)⟩
  rw [hrows]
  exact hmem

/-! ## A queued batch can always still be stored -/

theorem started_onTelemetry (h : exec (step env cfg) (.init telemetry log) es = some s) (j : ι)
    (hj : s.telemetry.phase j ≠ .waiting) : OnTelemetry (s.taken j) := by
  refine exec_invariant (I := fun s : State ν ι => ∀ j, s.telemetry.phase j ≠ .waiting → OnTelemetry (s.taken j))
    ?_ (fun j hj => absurd rfl hj) h j hj
  intro s e t ih ht j hj
  have hkept : s.telemetry.phase j ≠ .waiting → OnTelemetry (t.taken j) := by
    intro hne
    obtain ⟨payload, now, htaken⟩ := ih j hne
    exact ⟨payload, now, (step_spec ht).kept j _ htaken⟩
  rcases (step_spec ht).telemetry with heq | ⟨d, hd, hof⟩
  · exact hkept (heq ▸ hj)
  · rcases eq_or_ne j d.of with rfl | hne
    · exact hof
    · exact hkept (step_phase_of_ne (step_of_stepIf hd) hne ▸ hj)

omit [DecidableEq ν] in
theorem work_onTelemetry {i : ι} {e : Transactions.Event ι} {store : Store ι DbRow} (hi : OnTelemetry (s.taken i))
    (h : stepTelemetry env s.taken s.telemetry e = some store) :
    s.work env i e = some { s with telemetry := store } := by
  obtain ⟨payload, now, htaken⟩ := hi
  simp [State.work, htaken, h]

variable (env cfg) in
theorem exec_aborts (hstarted : ∀ j, s.telemetry.phase j ≠ .waiting → OnTelemetry (s.taken j)) (js : Finset ι) :
    ∃ fs store, exec (step env cfg) s fs = some { s with telemetry := store } ∧
      (∀ j, s.telemetry.phase j = .waiting → store.phase j = .waiting) ∧
      (∀ j, store.phase j ≠ .waiting → OnTelemetry (s.taken j)) ∧
      ∀ j ∈ js, (store.phase j).inserted = [] := by
  induction js using Finset.induction_on with
  | empty => exact ⟨[], s.telemetry, rfl, fun _ hj => hj, hstarted, by simp⟩
  | insert i js _ ih =>
    obtain ⟨fs, store, hfs, hwaiting, hon, hidle⟩ := ih
    cases hi : store.phase i with
    | running todo inserted =>
      have habort : stepTelemetry env s.taken store (.abort i) = some (store.put i .aborted) := by
        simp [stepTelemetry, stepIf, Transactions.step, hi]
      have hwork : step env cfg { s with telemetry := store } (.abort i) =
          some { s with telemetry := store.put i .aborted } := work_onTelemetry (hon i (by simp [hi])) habort
      refine ⟨fs ++ [.abort i], store.put i .aborted, exec_snoc.mpr ⟨_, hfs, hwork⟩, ?_, ?_, ?_⟩
      · intro j hj
        have hji : j ≠ i := by
          rintro rfl
          rw [hwaiting j hj] at hi
          cases hi
        rw [Store.put_phase_of_ne _ _ hji, hwaiting j hj]
      · intro j hj
        rcases eq_or_ne j i with rfl | hji
        · exact hon j (by simp [hi])
        · rw [Store.put_phase_of_ne _ _ hji] at hj
          exact hon j hj
      · intro j hj
        rcases eq_or_ne j i with rfl | hji
        · simp [Phase.inserted]
        · rw [Store.put_phase_of_ne _ _ hji]
          exact hidle j ((Finset.mem_insert.mp hj).resolve_left hji)
    | _ =>
      refine ⟨fs, store, hfs, hwaiting, hon, fun j hj => ?_⟩
      rcases Finset.mem_insert.mp hj with rfl | hj
      · simp [hi, Phase.inserted]
      · exact hidle j hj

theorem exec_inserts_work {i : ι} {n : ℕ} {store : Store ι DbRow} (hi : OnTelemetry (s.taken i))
    (h : exec (stepTelemetry env s.taken) s.telemetry (List.replicate n (.insert i)) = some store) :
    exec (step env cfg) s (List.replicate n (.insert i)) = some { s with telemetry := store } := by
  induction n generalizing s with
  | zero =>
    rw [List.replicate_zero, exec_nil, Option.some.injEq] at h
    rw [← h]
    rfl
  | succ n ih =>
    rw [List.replicate_succ, exec_cons] at h ⊢
    obtain ⟨next, hnext, hrest⟩ := Option.bind_eq_some_iff.mp h
    have hwork : step env cfg s (.insert i) = some { s with telemetry := next } := work_onTelemetry hi hnext
    rw [hwork, Option.bind_some]
    exact ih (s := { s with telemetry := next }) hi hrest

theorem executionRows_of_storing {batch : TelemetryBatch} (h : Storing env batch.events) (now : Timestamptz) :
    ∃ stored, env.executionRows ⟨batch, now⟩ = some stored := by
  have hall := storing_iff.mp h
  have hrows : ((processed batch).mapM eventToRow).isSome := by
    rw [mapM_isSome]
    intro event hevent
    obtain ⟨row, hrow, -⟩ := (admissible_iff now).mpr (hall event hevent)
    rw [hrow]
    rfl
  obtain ⟨rows, hrows⟩ := Option.isSome_iff_exists.mp hrows
  have hstored : ((sortRows rows).mapM (env.admitRow now)).isSome := by
    rw [mapM_isSome]
    intro row hrow
    obtain ⟨event, hevent, heq⟩ := exists_of_mem_result hrows (mem_sortRows.mp hrow)
    obtain ⟨row', hrow', hadmitted⟩ := (admissible_iff now).mpr (hall event hevent)
    rw [heq, Option.some.injEq] at hrow'
    exact hrow' ▸ hadmitted
  obtain ⟨stored, hstored⟩ := Option.isSome_iff_exists.mp hstored
  exact ⟨stored, Option.bind_eq_some_iff.mpr ⟨rows, hrows, hstored⟩⟩

variable (cfg s) in
theorem exec_taken {v : ν} {j n : ℕ} {batch : TelemetryBatch} {stored : List DbRow} {k : ι} {now : Timestamptz}
    {table : RawTelemetry} (htable : table.rows = s.telemetry.rows) (hk : s.taken k = none)
    (hwait : s.telemetry.phase k = .waiting) (hidle : ∀ j, (s.telemetry.phase j).inserted = [])
    (hn : (s.instances v).queue[n]? = some (j, (Work.telemetry batch).job))
    (hstored : env.executionRows ⟨batch, now⟩ = some stored) :
    ∃ fs u, exec (step env cfg) s fs = some u ∧ u.instances = s.instances ∧
      u.taken = Function.update s.taken k (some ⟨(Work.telemetry batch).job, now⟩) ∧
      u.telemetry = { s.telemetry.put k (.committed (table.returning stored).length) with
        rows := (table.insertRows stored).rows } := by
  let taken := Function.update s.taken k (some ⟨(Work.telemetry batch).job, now⟩)
  have hd : taken k = some ⟨(Work.telemetry batch).job, now⟩ := Function.update_self ..
  have hon : OnTelemetry (taken k) := ⟨_, _, hd⟩
  have hrows : telemetryRows env taken k = stored := by
    simp only [telemetryRows, hd, Option.map_some, Option.getD_some, Delivery.telemetryRows, batch?_job]
    exact passedRows_of_accepted hstored
  have hcommits : telemetryCommits env taken k = true := by
    simp [telemetryCommits, hd, Delivery.telemetryCommits, batch?_job, hstored]
  have halone : exec (stepTelemetry env taken) s.telemetry (alone k (telemetryRows env taken k).length) = _ :=
    exec_alone_allowed hcommits htable hwait fun j _ => hidle j
  rw [hrows, alone, exec_cons] at halone
  obtain ⟨started, hstarted, halone⟩ := Option.bind_eq_some_iff.mp halone
  rw [exec_append] at halone
  obtain ⟨passed, hpassed, halone⟩ := Option.bind_eq_some_iff.mp halone
  obtain ⟨final, hfinal, hend⟩ := Option.bind_eq_some_iff.mp halone
  rw [exec_nil, Option.some.injEq] at hend
  have htake : step env cfg s (.take k v n now) = some { s with telemetry := started, taken := taken } := by
    have hwork : State.work env { s with taken := taken } k (.start k) =
        some { s with telemetry := started, taken := taken } := work_onTelemetry hon hstarted
    simp only [step, hk, hn, State.start, validationErrors_job]
    exact hwork
  have hinserts : exec (step env cfg) { s with telemetry := started, taken := taken }
      (List.replicate stored.length (.insert k)) =
      some { s with telemetry := passed, taken := taken } := exec_inserts_work hon hpassed
  have hcommit : step env cfg { s with telemetry := passed, taken := taken } (.commit k) =
      some { s with telemetry := final, taken := taken } := work_onTelemetry hon hfinal
  refine ⟨.take k v n now :: (List.replicate stored.length (.insert k) ++ [.commit k]),
    { s with telemetry := final, taken := taken }, ?_, rfl, rfl, ?_⟩
  · rw [exec_cons, htake, Option.bind_some]
    exact exec_trans hinserts (by rw [exec_cons, hcommit, Option.bind_some, exec_nil])
  · exact hend

omit [DecidableEq ν] in
theorem work_onLog {i : ι} {e : Transactions.Event ι} {store : Store ι LogRow} {payload : PyVal} {now : Timestamptz}
    (hi : s.taken i = some ⟨.processExtractionLog payload, now⟩) (h : stepLog env s.taken s.log e = some store) :
    s.work env i e = some { s with log := store } := by
  simp [State.work, hi, h]

variable (cfg s) in
theorem exec_logged {v : ν} {j n : ℕ} {entry : ExtractionLogEntry} {r : LogRow} {k : ι} {now : Timestamptz}
    {table : ExtractionLog} (htable : table.rows = s.log.rows) (hk : s.taken k = none)
    (hwait : s.log.phase k = .waiting) (hidle : ∀ j, (s.log.phase j).inserted = [])
    (hn : (s.instances v).queue[n]? = some (j, (Work.extractionLog entry).job))
    (hr : env.admitLog now entry = some r) :
    ∃ u, exec (step env cfg) s [.take k v n now, .insert k, .commit k] = some u ∧ u.instances = s.instances ∧
      u.taken = Function.update s.taken k (some ⟨(Work.extractionLog entry).job, now⟩) ∧
      u.log = { s.log.put k (.committed (table.returning [r]).length) with rows := (table.insertRows [r]).rows } := by
  let taken := Function.update s.taken k (some ⟨(Work.extractionLog entry).job, now⟩)
  have hd : taken k = some ⟨.processExtractionLog entry.modelDump, now⟩ := Function.update_self ..
  have hrow : logRow env taken k = some r := by
    have hentry : Delivery.entry? env ⟨.processExtractionLog entry.modelDump, now⟩ = some entry := entry?_job ..
    simp [logRow, hd, Delivery.logRow, hentry, hr]
  have halone : exec (stepLog env taken) s.log [.start k, .insert k, .commit k] =
      some { s.log.put k (.committed (table.returning [r]).length) with rows := (table.insertRows [r]).rows } := by
    have hrun : exec (stepLog env taken) s.log (alone k (logRow env taken k).toList.length) = _ :=
      exec_alone_allowed (by rw [hrow]; rfl) htable hwait fun j _ => hidle j
    rw [hrow] at hrun
    exact hrun
  rw [exec_cons] at halone
  obtain ⟨started, hstarted, halone⟩ := Option.bind_eq_some_iff.mp halone
  rw [exec_cons] at halone
  obtain ⟨passed, hpassed, halone⟩ := Option.bind_eq_some_iff.mp halone
  rw [exec_cons] at halone
  obtain ⟨final, hfinal, hend⟩ := Option.bind_eq_some_iff.mp halone
  rw [exec_nil, Option.some.injEq] at hend
  have htake : step env cfg s (.take k v n now) = some { s with log := started, taken := taken } := by
    have hwork : State.work env { s with taken := taken } k (.start k) =
        some { s with log := started, taken := taken } := work_onLog hd hstarted
    simp only [step, hk, hn, State.start, validationErrors_job]
    exact hwork
  have hinsert : step env cfg { s with log := started, taken := taken } (.insert k) =
      some { s with log := passed, taken := taken } := work_onLog hd hpassed
  have hcommit : step env cfg { s with log := passed, taken := taken } (.commit k) =
      some { s with log := final, taken := taken } := work_onLog hd hfinal
  refine ⟨{ s with log := final, taken := taken }, ?_, rfl, rfl, hend⟩
  rw [exec_cons, htake, Option.bind_some, exec_cons, hinsert, Option.bind_some, exec_cons, hcommit, Option.bind_some,
    exec_nil]

end

/-! ## A request that was retried -/

def retriedBody : Bytes := bytes "body"

/-- Two instances get the same batch of one event, as after a retry of the load balancer. -/
def retried : Bool → Config := fun _ =>
  { loads := fun body => if body = retriedBody then some sampleBatch.modelDump else none
    lax := .strict
    calls := fun _ => .postTelemetry none retriedBody }

def bothEnqueue : List (Event Bool Bool) :=
  [false, true].flatMap fun v => .ingest v (.start 0) :: List.replicate 4 (.ingest v (.resume 0 true))

def sampleEntry : ExtractionLogEntry :=
  ⟨sampleId, str "opensky", none, none, none, str "2026-08-26T10:00:00Z", none, none, some 0, true, none⟩

def reporting : Bool → Config := fun _ =>
  { retried false with calls := fun _ => .postExtractionLog sampleEntry }

def oneReport : List (Event Bool Bool) :=
  [.ingest false (.start 0), .ingest false (.resume 0 true), .ingest false (.resume 0 true)]

def idle : State Bool Bool := .init emptyWorld.rawTelemetry emptyWorld.extractionLog

theorem bothEnqueue_run : ∃ s, exec (step sampleEnv retried) idle bothEnqueue = some s ∧
    (∀ v, (s.instances v).queue = [(0, (Work.telemetry sampleBatch).job)]) ∧
    (∀ v, (s.instances v).handler 0 = .replied (.accepted (response sampleBatch))) ∧
    s.taken = idle.taken ∧ s.telemetry = idle.telemetry := by
  refine ⟨_, rfl, ?_, ?_, rfl, rfl⟩ <;> intro v <;> cases v <;> rfl

/-- Both jobs are executed, and the second execution finds the row there. -/
theorem bothStored_run : ∃ s fs u, exec (step sampleEnv retried) idle bothEnqueue = some s ∧
    (∀ v, (s.instances v).handler 0 = .replied (.accepted (response sampleBatch))) ∧
    (∀ v, (s.instances v).queue = [(0, (Work.telemetry sampleBatch).job)]) ∧
    exec (step sampleEnv retried) s fs = some u ∧ u.instances = s.instances ∧ u.telemetry.rows.length = 1 ∧
    sampleEnv.executionRows ⟨sampleBatch, .at 0⟩ = some u.telemetry.rows ∧
    ∀ k, u.taken k = some ⟨(Work.telemetry sampleBatch).job, .at 0⟩ ∧ ∃ n, u.telemetry.phase k = .committed n := by
  obtain ⟨s, hs, hqueue, hreply, htaken, htelemetry⟩ := bothEnqueue_run
  obtain ⟨stored, hstored⟩ : ∃ stored, sampleEnv.executionRows ⟨sampleBatch, .at 0⟩ = some stored :=
    Option.isSome_iff_exists.mp (by decide +kernel)
  have hlength : stored.length = 1 := by
    rw [← passedRows_of_accepted hstored]
    decide +kernel
  obtain ⟨r, rfl⟩ := List.length_eq_one_iff.mp hlength
  obtain ⟨fs, t, hfs, hinst, htaken', htelemetry'⟩ := exec_taken retried s (v := false) (n := 0) (k := false)
    (show emptyWorld.rawTelemetry.rows = _ by rw [htelemetry]; rfl) (by rw [htaken]; rfl) (by rw [htelemetry]; rfl)
    (by rw [htelemetry]; exact fun _ => rfl) (by rw [hqueue]; rfl) hstored
  obtain ⟨gs, u, hgs, hinst', htaken'', htelemetry''⟩ := exec_taken retried t (v := true) (n := 0) (k := true)
    (show (emptyWorld.rawTelemetry.insertRows [r]).rows = _ by rw [htelemetry']) (by rw [htaken', htaken]; rfl)
    (by rw [htelemetry', htelemetry]; rfl)
    (by rw [htelemetry', htelemetry]; intro j; cases j <;> rfl) (by rw [hinst, hqueue]; rfl) hstored
  have hrows : u.telemetry.rows = [r] := by
    rw [htelemetry'']
    simp [UniqueTable.rows_insertRows, UniqueTable.returning, UniqueTable.keys, emptyWorld]
  refine ⟨s, fs ++ gs, u, hs, hreply, hqueue, exec_trans hfs hgs, hinst'.trans hinst, ?_, ?_, fun k => ?_⟩
  · rw [hrows]
    rfl
  · rw [hrows]
    exact hstored
  · rw [htelemetry'', htelemetry', htaken'', htaken']
    cases k <;> simp

theorem reportedTwice_run : ∃ s fs u, exec (step sampleEnv reporting) idle oneReport = some s ∧
    (s.instances false).handler 0 = .replied (.logAccepted sampleId) ∧
    (s.instances false).queue = [(0, (Work.extractionLog sampleEntry).job)] ∧
    exec (step sampleEnv reporting) s fs = some u ∧
    ∀ k, u.taken k = some ⟨(Work.extractionLog sampleEntry).job, .at 0⟩ ∧ ∃ n, u.log.phase k = .committed n := by
  obtain ⟨s, hs, hreply, hqueue, htaken, hlog⟩ : ∃ s, exec (step sampleEnv reporting) idle oneReport = some s ∧
      (s.instances false).handler 0 = .replied (.logAccepted sampleId) ∧
      (s.instances false).queue = [(0, (Work.extractionLog sampleEntry).job)] ∧
      s.taken = idle.taken ∧ s.log = idle.log := ⟨_, rfl, rfl, rfl, rfl, rfl⟩
  obtain ⟨r, hr⟩ : ∃ r, sampleEnv.admitLog (.at 0) sampleEntry = some r :=
    Option.isSome_iff_exists.mp (by decide +kernel)
  obtain ⟨t, ht, hinst, htaken', hlog'⟩ := exec_logged reporting s (v := false) (n := 0) (k := false)
    (show emptyWorld.extractionLog.rows = _ by rw [hlog]; rfl) (by rw [htaken]; rfl) (by rw [hlog]; rfl)
    (by rw [hlog]; exact fun _ => rfl) (by rw [hqueue]; rfl) hr
  obtain ⟨u, hu, -, htaken'', hlog''⟩ := exec_logged reporting t (v := false) (n := 0) (k := true)
    (show (emptyWorld.extractionLog.insertRows [r]).rows = _ by rw [hlog']) (by rw [htaken', htaken]; rfl)
    (by rw [hlog', hlog]; rfl) (by rw [hlog', hlog]; intro j; cases j <;> rfl) (by rw [hinst, hqueue]; rfl) hr
  refine ⟨s, _, u, hs, hreply, hqueue, exec_trans ht hu, fun k => ?_⟩
  rw [hlog'', hlog', htaken'', htaken']
  cases k <;> simp

section

variable {telemetry : RawTelemetry} {log : ExtractionLog} {es : List (Event ν ι)}

/-! ## What the pipeline promises -/

/-- Whatever the instances and the executions do, each new row of the two tables is what one request
sent, under an id that no other row has. -/
theorem stored_was_sent (h : exec (step env cfg) (.init telemetry log) es = some s) :
    (∀ r ∈ s.telemetry.rows, r ∈ telemetry.rows ∨ ∃ v, SentTo env cfg v r) ∧
    (s.telemetry.rows.map DbRow.ingestionId).Nodup ∧
    (∀ r ∈ s.log.rows, r ∈ log.rows ∨ ∃ v, LoggedTo env cfg v r) ∧
    (s.log.rows.map LogRow.requestId).Nodup := by
  obtain ⟨ds, hds⟩ := telemetry_run h
  obtain ⟨ls, hls⟩ := log_run h
  have hds' := exec_of_imp (fun _ _ _ h => step_of_stepIf h) hds
  have hls' := exec_of_imp (fun _ _ _ h => step_of_stepIf h) hls
  refine ⟨fun r hr => ?_, stored_ids_nodup h, fun r hr => ?_, (inv_run log.nodup hls').nodup⟩
  · refine ((sourced_run hds').rows r hr).imp_right ?_
    rintro ⟨i, n, hi, hmem⟩
    obtain ⟨d, batch, stored, htaken, hbatch, hstored, hrows⟩ := committed_telemetry h hi
    obtain ⟨v, j, hvalid⟩ := batch_asked h htaken hbatch
    obtain ⟨rows, hbuilt, hadmitted⟩ := Option.bind_eq_some_iff.mp hstored
    obtain ⟨row, hrow, hr'⟩ := exists_of_mem_result hadmitted (hrows ▸ hmem)
    obtain ⟨event, hevent, heq⟩ := exists_of_mem_result hbuilt (mem_sortRows.mp hrow)
    exact ⟨v, j, batch, event, row, d.now, hvalid, hevent, heq, hr'⟩
  · refine ((sourced_run hls').rows r hr).imp_right ?_
    rintro ⟨i, n, hi, hmem⟩
    obtain ⟨d, entry, r', htaken, hentry, hadmit, hrows⟩ := committed_log h hi
    obtain ⟨v, j, hcall⟩ := entry_asked h htaken hentry
    rw [hrows, List.mem_singleton] at hmem
    exact ⟨v, j, entry, d.now, hcall, hmem ▸ hadmit⟩

theorem stored_was_sent_retried : ∃ es s, exec (step sampleEnv retried) idle es = some s ∧
    s.telemetry.rows.length = 1 ∧ ∀ r ∈ s.telemetry.rows, ∃ v, SentTo sampleEnv retried v r := by
  obtain ⟨s, fs, u, hs, -, -, hu, -, hlength, -⟩ := bothStored_run
  refine ⟨_, u, exec_trans hs hu, hlength, fun r hr => ?_⟩
  rcases (stored_was_sent (exec_trans hs hu)).1 r hr with hinitial | hsent
  · simp [emptyWorld] at hinitial
  · exact hsent

/-- No job of the queue fails its validation in the worker, so none is dead-lettered for that. -/
theorem no_job_fails_validation (h : exec (step env cfg) (.init telemetry log) es = some s) : s.deadLetter = [] := by
  refine exec_induction (P := fun _ s => s.deadLetter = []) rfl ?_ h
  intro es t e u ht ih hu
  rcases (step_spec hu).deadLetter with heq | ⟨v, job, hqueued, hinvalid⟩
  · rw [heq, ih]
  · obtain ⟨i, work, rfl, -⟩ := queued_asks ht hqueued
    rw [validationErrors_job] at hinvalid
    cases hinvalid

theorem no_job_fails_validation_retried : ∃ es s, exec (step sampleEnv retried) idle es = some s ∧
    (∀ k, (s.taken k).isSome) ∧ s.deadLetter = [] := by
  obtain ⟨s, fs, u, hs, -, -, hu, -, -, -, hall⟩ := bothStored_run
  exact ⟨_, u, exec_trans hs hu, fun k => by rw [(hall k).1]; rfl, no_job_fails_validation (exec_trans hs hu)⟩

/-- A batch that was acknowledged is in the queue. From the commit of any execution of its job on, each of
its events is in the table once, or the one before it with the same aircraft, contact and source is. -/
theorem acknowledged_then_stored {fs : List (Event ν ι)}
    (h : exec (step env cfg) (.init telemetry log) es = some s) (hrest : exec (step env cfg) s fs = some u)
    {v : ν} {i : ℕ} {resp : IngestResponse} (hreply : (s.instances v).handler i = .replied (.accepted resp)) :
    ∃ batch : TelemetryBatch, resp.ingestionIds = batch.ids ∧ Queued s v (Work.telemetry batch).job ∧
      ∀ k n now, u.taken k = some ⟨(Work.telemetry batch).job, now⟩ → u.telemetry.phase k = .committed n →
        ∀ event ∈ batch.events, ∃ first, FirstOfKey batch.events first ∧ dedupeKey first = dedupeKey event ∧
          ∃ id, parseUuid first.ingestionId = some id ∧
            (u.telemetry.rows.map DbRow.ingestionId).count id = 1 := by
  obtain ⟨ds, hds⟩ := instance_run h v
  have hsound := (ackInv_run hds).handlers i
  rw [hreply] at hsound
  obtain ⟨j, batch, -, henqueued, rfl⟩ := hsound
  refine ⟨batch, rfl, ⟨j, henqueued.1⟩, fun k n now htaken hk event hevent => ?_⟩
  have hu := exec_trans h hrest
  obtain ⟨first, hfirst, hkey⟩ := exists_firstOfKey hevent
  obtain ⟨id, hid, hmem⟩ := ids_of_committed hu htaken hk hfirst
  exact ⟨first, hfirst, hkey, id, hid, List.count_eq_one_of_mem (stored_ids_nodup hu) hmem⟩

theorem acknowledged_then_stored_retried : ∃ es s, exec (step sampleEnv retried) idle es = some s ∧
    (∀ v, (s.instances v).handler 0 = .replied (.accepted (response sampleBatch))) ∧
    (∀ k, ∃ n, s.telemetry.phase k = .committed n) ∧
    ∃ id, parseUuid sampleId = some id ∧ (s.telemetry.rows.map DbRow.ingestionId).count id = 1 := by
  obtain ⟨s, fs, u, hs, hreply, hqueue, hu, hinst, -, -, hall⟩ := bothStored_run
  obtain ⟨batch, -, ⟨i, hqueued⟩, hstored⟩ := acknowledged_then_stored hs hu (hreply false)
  rw [hqueue, List.mem_singleton] at hqueued
  obtain rfl : batch = sampleBatch :=
    TelemetryBatch.modelDump_injective (Job.processTelemetryBatch.inj (Prod.mk.inj hqueued).2)
  obtain ⟨htaken, n, hn⟩ := hall true
  obtain ⟨first, hfirst, -, id, hid, hcount⟩ :=
    hstored true n (.at 0) htaken hn (sampleEvent sampleId) (by simp [sampleBatch])
  obtain rfl := List.mem_singleton.mp (mem_of_firstOfKey hfirst)
  exact ⟨_, u, exec_trans hs hu, hinst ▸ hreply, fun k => (hall k).2, id, hid, hcount⟩

/-- The same for an extraction log entry and its request id. -/
theorem logged_then_stored {fs : List (Event ν ι)}
    (h : exec (step env cfg) (.init telemetry log) es = some s) (hrest : exec (step env cfg) s fs = some u)
    {v : ν} {i : ℕ} {requestId : PyStr} (hreply : (s.instances v).handler i = .replied (.logAccepted requestId)) :
    ∃ entry : ExtractionLogEntry, entry.requestId = requestId ∧ Queued s v (Work.extractionLog entry).job ∧
      ∀ k n now, u.taken k = some ⟨(Work.extractionLog entry).job, now⟩ → u.log.phase k = .committed n →
        ∃ id, parseUuid requestId = some id ∧ (u.log.rows.map LogRow.requestId).count id = 1 := by
  obtain ⟨ds, hds⟩ := instance_run h v
  have hsound := (handoverInv_run hds).handlers i
  rw [hreply] at hsound
  obtain ⟨entry, -, rfl, hmem⟩ := hsound
  refine ⟨entry, rfl, ⟨i, hmem⟩, fun k n now htaken hk => ?_⟩
  have hu := exec_trans h hrest
  obtain ⟨d, entry', r, hd, hentry, hadmit, hrows⟩ := committed_log hu hk
  rw [htaken, Option.some.injEq] at hd
  subst hd
  rw [entry?_job, Option.some.injEq] at hentry
  subst hentry
  obtain ⟨ls, hls⟩ := log_run hu
  have hls' := exec_of_imp (fun _ _ _ h => step_of_stepIf h) hls
  have hinv := inv_run log.nodup hls'
  refine ⟨r.requestId, admitLog_requestId hadmit, List.count_eq_one_of_mem hinv.nodup ?_⟩
  refine (mem_keys_iff hinv (rows_prefix_run hls') r.requestId).mpr (.inr ⟨k, n, hk, ?_⟩)
  rw [hrows]
  exact List.mem_singleton_self _

theorem logged_then_stored_redelivered : ∃ es s, exec (step sampleEnv reporting) idle es = some s ∧
    (∀ k, ∃ n, s.log.phase k = .committed n) ∧
    ∃ id, parseUuid sampleId = some id ∧ (s.log.rows.map LogRow.requestId).count id = 1 := by
  obtain ⟨s, fs, u, hs, hreply, hqueue, hu, hall⟩ := reportedTwice_run
  obtain ⟨entry, -, ⟨i, hqueued⟩, hstored⟩ := logged_then_stored hs hu hreply
  rw [hqueue, List.mem_singleton] at hqueued
  obtain ⟨htaken, n, hn⟩ := hall true
  rw [← (Prod.mk.inj hqueued).2] at htaken
  exact ⟨_, u, exec_trans hs hu, fun k => (hall k).2, hstored true n (.at 0) htaken hn⟩

/-- From every reachable state a queued batch that the table accepts can still be stored: the running
executions give up, and one that has not started takes the job and comes to its commit. -/
theorem queued_can_be_stored (h : exec (step env cfg) (.init telemetry log) es = some s) {v : ν}
    {batch : TelemetryBatch} (hqueued : Queued s v (Work.telemetry batch).job)
    (hstoring : Storing env batch.events) {k : ι} (hk : s.taken k = none) (now : Timestamptz) :
    ∃ fs u n, exec (step env cfg) s fs = some u ∧ u.taken k = some ⟨(Work.telemetry batch).job, now⟩ ∧
      u.telemetry.phase k = .committed n := by
  have hwait : s.telemetry.phase k = .waiting := by
    by_contra hne
    obtain ⟨payload, time, htaken⟩ := started_onTelemetry h k hne
    rw [hk] at htaken
    cases htaken
  obtain ⟨aborts, store, haborts, hwaiting, -, hidle⟩ :=
    exec_aborts env cfg (started_onTelemetry h) Finset.univ
  have hnodup : (store.rows.map DbRow.ingestionId).Nodup := stored_ids_nodup (exec_trans h haborts)
  obtain ⟨j, hj⟩ := hqueued
  obtain ⟨n, hn⟩ := List.mem_iff_getElem?.mp hj
  obtain ⟨stored, hstored⟩ := executionRows_of_storing hstoring now
  have table : { table : RawTelemetry // table.rows = store.rows } := ⟨⟨store.rows, hnodup⟩, rfl⟩
  obtain ⟨fs, u, hfs, -, htaken, htelemetry⟩ := exec_taken cfg { s with telemetry := store } table.2
    hk (hwaiting k hwait) (fun j => hidle j (Finset.mem_univ j)) hn hstored
  refine ⟨_, u, (table.1.returning stored).length, exec_trans haborts hfs, ?_, ?_⟩
  · rw [htaken]
    exact Function.update_self ..
  · rw [htelemetry]
    exact Store.put_phase_self ..

theorem queued_can_be_stored_retried : ∃ es s n, exec (step sampleEnv retried) idle es = some s ∧
    s.telemetry.phase true = .committed n := by
  obtain ⟨s, hs, hqueue, -, htaken, -⟩ := bothEnqueue_run
  have hqueued : Queued s false (Work.telemetry sampleBatch).job := ⟨0, by simp [hqueue]⟩
  have hstoring : Storing sampleEnv sampleBatch.events := by
    intro event hevent
    obtain rfl := List.mem_singleton.mp (mem_of_firstOfKey hevent)
    exact sampleEvent_storable
  have hfree : s.taken true = none := by rw [htaken]; rfl
  obtain ⟨fs, u, n, hfs, -, hn⟩ := queued_can_be_stored hs hqueued hstoring hfree (.at 0)
  exact ⟨_, u, n, exec_trans hs hfs, hn⟩

end

end FlightPulse.Pipeline
