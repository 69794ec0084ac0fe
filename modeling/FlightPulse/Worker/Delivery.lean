import Mathlib.Tactic.FinCases
import FlightPulse.Lib.Transactions
import FlightPulse.Worker.Processor

/-!
# Executions of `process_telemetry_batch`, side by side

The queue delivers a batch again after a crash or a failure, and several workers run
at once. An execution is the one transaction of `persist_batch`: it comes as far as
the chunk with a row that the table rejects, and commits only when there is none.
-/

open Lib Lib.Python Lib.Pydantic Lib.Postgres Lib.Psycopg Lib.Run Lib.Transactions

namespace FlightPulse.Worker

open Ingestion

structure Execution where
  batch : TelemetryBatch
  now : Timestamptz

namespace Env

variable (env : Env)

/-- What the execution inserts, row by row, if every row can be built and is accepted. -/
def executionRows (x : Execution) : Option (List DbRow) :=
  ((processed x.batch).mapM eventToRow).bind fun rows => (sortRows rows).mapM (env.admitRow x.now)

/-- The rows of the chunks before the first one that is rejected. -/
def passedChunks (now : Timestamptz) : List (List Row) → List DbRow
  | [] => []
  | chunk :: rest =>
    match chunk.mapM (env.admitRow now) with
    | none => []
    | some rows => rows ++ passedChunks now rest

def passedRows (x : Execution) : List DbRow :=
  match (processed x.batch).mapM eventToRow with
  | none => []
  | some rows => env.passedChunks x.now (chunks insertChunkSize (sortRows rows))

end Env

section

variable {env : Env} {x : Execution}

theorem passedChunks_of_accepted {now : Timestamptz} {chunked : List (List Row)} {stored : List DbRow}
    (h : chunked.flatten.mapM (env.admitRow now) = some stored) : env.passedChunks now chunked = stored := by
  induction chunked generalizing stored with
  | nil =>
    obtain rfl : [] = stored := Option.some.inj h
    rfl
  | cons chunk rest ih =>
    rw [List.flatten_cons] at h
    obtain ⟨first, others, hfirst, hothers, rfl⟩ := mapM_append_eq_some h
    unfold Env.passedChunks
    rw [hfirst, ih hothers]

theorem passedRows_of_accepted {stored : List DbRow} (h : env.executionRows x = some stored) :
    env.passedRows x = stored := by
  obtain ⟨rows, hrows, hstored⟩ := Option.bind_eq_some_iff.mp h
  rw [← flatten_chunks insertChunkSize (by decide) (sortRows rows)] at hstored
  unfold Env.passedRows
  simp only [hrows]
  exact passedChunks_of_accepted hstored

theorem mem_executionRows_iff {stored : List DbRow} (h : env.executionRows x = some stored) (u : Uuid) :
    u ∈ stored.map DbRow.ingestionId ↔ ∃ event ∈ processed x.batch, parseUuid event.ingestionId = some u := by
  obtain ⟨rows, hrows, hstored⟩ := Option.bind_eq_some_iff.mp h
  constructor
  · intro hu
    obtain ⟨r, hr, rfl⟩ := List.mem_map.mp hu
    obtain ⟨row, hrow, hadmitted⟩ := exists_of_mem_result hstored hr
    obtain ⟨event, hevent, heq⟩ := exists_of_mem_result hrows (mem_sortRows.mp hrow)
    exact ⟨event, hevent, by rw [← eventToRow_ingestionId heq, admitRow_ingestionId hadmitted]⟩
  · rintro ⟨event, hevent, hu⟩
    obtain ⟨v, hv, hmem⟩ := mem_keys_of_commit hrows hstored hevent
    rw [hu, Option.some.injEq] at hv
    exact hv ▸ hmem

end

/-! ## Deliveries -/

variable {ι : Type*} [Fintype ι] [DecidableEq ι]

def Env.deliveryStep (env : Env) (x : ι → Execution) (s : Store ι DbRow) : Event ι → Option (Store ι DbRow)
  | .commit i =>
    if (env.executionRows (x i)).isSome then
      step DbRow.ingestionId (fun j => env.passedRows (x j)) s (.commit i)
    else none
  | e => step DbRow.ingestionId (fun j => env.passedRows (x j)) s e

variable {env : Env} {x : ι → Execution} {s t : Store ι DbRow}

theorem step_of_deliveryStep {e : Event ι} (h : env.deliveryStep x s e = some t) :
    step DbRow.ingestionId (fun j => env.passedRows (x j)) s e = some t := by
  cases e with
  | commit i =>
    simp only [Env.deliveryStep] at h
    split at h
    · exact h
    · cases h
  | _ => exact h

theorem exec_of_deliveries {es : List (Event ι)} (h : exec (env.deliveryStep x) s es = some t) :
    exec (step DbRow.ingestionId fun j => env.passedRows (x j)) s es = some t :=
  exec_of_imp (fun _ _ _ h => step_of_deliveryStep h) h

/-- An execution commits only when all of its rows are accepted. -/
def Accepted (env : Env) (x : ι → Execution) (s : Store ι DbRow) : Prop :=
  ∀ i n, s.phase i = .committed n → (env.executionRows (x i)).isSome

omit [Fintype ι] in
theorem accepted_put (hs : Accepted env x s) {i : ι} {p : Phase DbRow} (hp : ∀ n, p ≠ .committed n) :
    Accepted env x (s.put i p) := by
  intro j n hj
  rcases eq_or_ne j i with rfl | hji
  · rw [Store.put_phase_self] at hj
    exact absurd hj (hp n)
  · rw [Store.put_phase_of_ne _ _ hji] at hj
    exact hs j n hj

theorem accepted_step {e : Event ι} (hs : Accepted env x s) (h : env.deliveryStep x s e = some t) :
    Accepted env x t := by
  cases e with
  | commit i =>
    simp only [Env.deliveryStep, step] at h
    split at h
    · next hi =>
      split at h <;> cases h
      intro j n hj
      rcases eq_or_ne j i with rfl | hji
      · exact hi
      · rw [Store.put_phase_of_ne _ _ hji] at hj
        exact hs j n hj
    · cases h
  | _ =>
    simp only [Env.deliveryStep, step] at h
    repeat' split at h
    all_goals cases h
    all_goals exact accepted_put hs (by simp)

theorem accepted_run {rows : List DbRow} {es : List (Event ι)}
    (h : exec (env.deliveryStep x) (Store.init rows) es = some s) : Accepted env x s :=
  exec_invariant (fun _ _ _ hs h => accepted_step hs h) (fun i n hi => by simp [Store.init] at hi) h

/-! ## One execution after another -/

/-- What the job reports of the transaction that it ran. -/
def Reports (p : Phase DbRow) : JobEnd → Prop
  | .completed _ newlyInserted => p = .committed newlyInserted
  | _ => p = .aborted ∨ ∃ n, p = .committed n

omit [Fintype ι] [DecidableEq ι] in
theorem reports_persistFailed {settings : Settings} {attempt : ℕ} {e : PersistError} {p : Phase DbRow}
    (h : p = .aborted ∨ ∃ n, p = .committed n) : Reports p (Env.persistFailed settings attempt e) := by
  unfold Env.persistFailed
  cases e with
  | persistenceUnavailable => cases settings.computeBackoffSeconds attempt <;> exact h
  | escaping exn => exact h

theorem exec_committed {i : ι} {stored : List DbRow} {table : RawTelemetry}
    (hstored : env.executionRows (x i) = some stored) (htable : table.rows = s.rows) (hi : s.phase i = .waiting)
    (hidle : ∀ j, j ≠ i → (s.phase j).inserted = []) :
    exec (env.deliveryStep x) s (alone i stored.length) =
      some { s.put i (.committed (table.returning stored).length) with
        rows := (table.insertRows stored).rows } := by
  have hrows : env.passedRows (x i) = stored := passedRows_of_accepted hstored
  have hagree : ∀ e ∈ alone i stored.length, ∀ s, env.deliveryStep x s e =
      step DbRow.ingestionId (fun j => env.passedRows (x j)) s e := by
    intro e he s
    unfold alone at he
    simp only [List.mem_cons, List.mem_append, List.mem_replicate, List.not_mem_nil, or_false] at he
    rcases he with rfl | ⟨-, rfl⟩ | rfl
    · rfl
    · rfl
    · simp [Env.deliveryStep, hstored]
  rw [exec_congr hagree, ← hrows]
  exact exec_alone htable hi hidle

theorem exec_aborted {i : ι} (hi : s.phase i = .waiting) :
    exec (env.deliveryStep x) s [.start i, .abort i] = some (s.put i .aborted) := by
  simp [exec_cons, Env.deliveryStep, step, hi, put_put]

/-- An execution of the job is a run of its transaction, whatever it meets with. -/
theorem job_simulated (settings : Settings) (attempt : ℕ) {a : Attempt} {payload : PyVal} {w : World} {i : ι}
    (hvalid : TelemetryBatch.modelValidate env.lax payload = .ok (x i).batch) (hnow : a.now = (x i).now)
    (htable : w.rawTelemetry.rows = s.rows) (hi : s.phase i = .waiting)
    (hidle : ∀ j, j ≠ i → (s.phase j).inserted = []) :
    ∃ es p, exec (env.deliveryStep x) s es =
        some { s.put i p with
          rows := (env.processTelemetryBatch settings attempt a payload w).1.rawTelemetry.rows } ∧
      Reports p (env.processTelemetryBatch settings attempt a payload w).2 ∧ p.inserted = [] := by
  have haborted : ∀ r, w.rawTelemetry = r → exec (env.deliveryStep x) s [.start i, .abort i] =
      some { s.put i .aborted with rows := r.rows } := by
    rintro r rfl
    rw [exec_aborted hi, htable]
    rfl
  unfold Env.processTelemetryBatch
  simp only [hvalid, hnow]
  by_cases hne : processed (x i).batch = []
  · have hstored : env.executionRows (x i) = some [] := by simp [Env.executionRows, hne, sortRows]
    rw [hne, persistBatch_nil]
    exact ⟨_, _, exec_committed hstored htable hi hidle, rfl, rfl⟩
  · cases hrows : (processed (x i).batch).mapM eventToRow with
    | none =>
      rw [persistBatch_unbuildable hrows]
      exact ⟨_, _, haborted _ rfl, .inl rfl, rfl⟩
    | some rows =>
      by_cases hc : Commits a.fault (env.insertStatements (x i).now rows)
      · obtain ⟨stored, hstored, hrun, hend⟩ := persistBatch_commits hne hrows hc w.rawTelemetry
        have hexec : env.executionRows (x i) = some stored := by
          rw [Env.executionRows, hrows, Option.bind_some, hstored]
        rw [hrun]
        refine ⟨_, _, exec_committed hexec htable hi hidle, ?_, rfl⟩
        rcases hend with hend | ⟨f, -, hend⟩
        · rw [hend]
          rfl
        · rw [hend]
          exact reports_persistFailed (.inr ⟨_, rfl⟩)
      · obtain ⟨hrun, e, hend, -⟩ := persistBatch_rolledBack hne hrows hc w.rawTelemetry
        rw [hrun, hend]
        refine ⟨_, _, haborted _ rfl, ?_, rfl⟩
        exact reports_persistFailed (.inl rfl)

/-- The jobs in this order, each with its payload, its attempt number and what it meets with. -/
def Env.serially (env : Env) (settings : Settings) (payload : ι → PyVal) (attempt : ι → ℕ) (meets : ι → Attempt) :
    List ι → World → World × List (ι × JobEnd)
  | [], w => (w, [])
  | i :: order, w =>
    let r := env.processTelemetryBatch settings (attempt i) (meets i) (payload i) w
    let rest := serially env settings payload attempt meets order r.1
    (rest.1, (i, r.2) :: rest.2)

theorem serially_simulated {settings : Settings} {payload : ι → PyVal} {attempt : ι → ℕ} {meets : ι → Attempt}
    (hvalid : ∀ i, TelemetryBatch.modelValidate env.lax (payload i) = .ok (x i).batch)
    (hnow : ∀ i, (meets i).now = (x i).now) {order : List ι} (horder : order.Nodup) {w : World}
    (htable : w.rawTelemetry.rows = s.rows) (hwaiting : ∀ i ∈ order, s.phase i = .waiting)
    (hidle : ∀ j, (s.phase j).inserted = []) :
    ∃ es t, exec (env.deliveryStep x) s es = some t ∧
      t.rows = (env.serially settings payload attempt meets order w).1.rawTelemetry.rows ∧
      (∀ j, j ∉ order → t.phase j = s.phase j) ∧
      ∀ r ∈ (env.serially settings payload attempt meets order w).2, r.1 ∈ order ∧ Reports (t.phase r.1) r.2 := by
  induction order generalizing s w with
  | nil => exact ⟨[], s, rfl, htable.symm, fun _ _ => rfl, by simp [Env.serially]⟩
  | cons i order ih =>
    obtain ⟨hnotMem, horder⟩ := List.nodup_cons.mp horder
    obtain ⟨es, p, hfirst, hreport, hp⟩ := job_simulated settings (attempt i) (hvalid i) (hnow i) htable
      (hwaiting i List.mem_cons_self) fun j _ => hidle j
    have hne : ∀ j ∈ order, j ≠ i := by
      rintro j hj rfl
      exact hnotMem hj
    have hidle' : ∀ j, ((s.put i p).phase j).inserted = [] := by
      intro j
      rcases eq_or_ne j i with rfl | hji
      · rw [Store.put_phase_self, hp]
      · rw [Store.put_phase_of_ne _ _ hji, hidle]
    have hwaiting' : ∀ j ∈ order, (s.put i p).phase j = .waiting := by
      intro j hj
      rw [Store.put_phase_of_ne _ _ (hne j hj)]
      exact hwaiting j (List.mem_cons_of_mem _ hj)
    obtain ⟨fs, t, hrest, hrows, hphase, hreports⟩ :=
      ih (s := { s.put i p with rows := _ }) horder rfl hwaiting' hidle'
    refine ⟨es ++ fs, t, by rw [exec_append, hfirst, Option.bind_some, hrest], hrows, fun j hj => ?_, ?_⟩
    · rw [List.mem_cons, not_or] at hj
      rw [hphase j hj.2]
      exact Store.put_phase_of_ne _ _ hj.1
    · unfold Env.serially
      simp only [List.forall_mem_cons]
      refine ⟨⟨List.mem_cons_self, ?_⟩, fun r hr => ⟨List.mem_cons_of_mem _ (hreports r hr).1, (hreports r hr).2⟩⟩
      rw [hphase i hnotMem]
      simpa using hreport

/-! ## All of them together -/

/-- The effect of each batch is there once, however often it is delivered and whatever is aborted. -/
theorem exactly_once {ι β : Type*} [Fintype ι] [DecidableEq ι] (env : Env) (batches : β → TelemetryBatch)
    (of : ι → β) (now : ι → Timestamptz) (initial : RawTelemetry) (es : List (Event ι)) (s : Store ι DbRow)
    (h : exec (env.deliveryStep fun i => ⟨batches (of i), now i⟩) (Store.init initial.rows) es = some s)
    (hall : ∀ b, ∃ i n, of i = b ∧ s.phase i = .committed n) :
    (∀ u, u ∈ s.rows.map DbRow.ingestionId ↔ u ∈ initial.keys ∨
        ∃ b, ∃ event ∈ processed (batches b), parseUuid event.ingestionId = some u) ∧
      (s.rows.map DbRow.ingestionId).Nodup ∧
      (∀ pre suf t, es = pre ++ suf →
        exec (env.deliveryStep fun i => ⟨batches (of i), now i⟩) (Store.init initial.rows) pre = some t →
        t.rows <+: s.rows) ∧
      s.rows.length = initial.rows.length + ∑ i, (s.phase i).newlyInserted := by
  have hinv := inv_run initial.nodup (exec_of_deliveries h)
  have hgrown : initial.rows <+: s.rows :=
    rows_prefix_run (exec_of_deliveries h)
  have hids : ∀ i n, s.phase i = .committed n → ∀ u,
      u ∈ (env.passedRows ⟨batches (of i), now i⟩).map DbRow.ingestionId ↔
        ∃ event ∈ processed (batches (of i)), parseUuid event.ingestionId = some u := by
    intro i n hi u
    obtain ⟨stored, hstored⟩ := Option.isSome_iff_exists.mp (accepted_run h i n hi)
    rw [passedRows_of_accepted hstored]
    exact mem_executionRows_iff hstored u
  refine ⟨fun u => (mem_keys_iff hinv hgrown u).trans (or_congr_right ?_), hinv.nodup, ?_, hinv.growth⟩
  · constructor
    · rintro ⟨i, n, hi, hu⟩
      exact ⟨of i, (hids i n hi u).mp hu⟩
    · rintro ⟨b, hb⟩
      obtain ⟨i, n, rfl, hi⟩ := hall b
      exact ⟨i, n, hi, (hids i n hi u).mpr hb⟩
  · rintro pre suf t rfl ht
    rw [exec_append, ht, Option.bind_some] at h
    exact rows_prefix_run (exec_of_deliveries h)

def sampleBatch : TelemetryBatch := ⟨[sampleEvent sampleId]⟩

def sampleDeliveries : Fin 3 → Execution := fun _ => ⟨sampleBatch, .at 0⟩

/-- The first delivery is aborted, the second one stores the row, and the third one finds it there. -/
theorem exactly_once_redelivered : ∃ s : Store (Fin 3) DbRow,
    exec (sampleEnv.deliveryStep sampleDeliveries) (Store.init emptyWorld.rawTelemetry.rows)
        ([.start 0, .abort 0] ++ (alone 1 1 ++ alone 2 1)) = some s ∧
      (s.rows.map DbRow.ingestionId).Nodup ∧
      ∀ u, u ∈ s.rows.map DbRow.ingestionId ↔ parseUuid sampleId = some u := by
  obtain ⟨stored, hstored⟩ : ∃ stored, sampleEnv.executionRows ⟨sampleBatch, .at 0⟩ = some stored :=
    Option.isSome_iff_exists.mp (by decide +kernel)
  have hlength : stored.length = 1 := by
    rw [← passedRows_of_accepted hstored]
    decide +kernel
  let table := emptyWorld.rawTelemetry
  let s0 : Store (Fin 3) DbRow := (Store.init table.rows).put 0 .aborted
  let s1 : Store (Fin 3) DbRow :=
    { s0.put 1 (.committed (table.returning stored).length) with rows := (table.insertRows stored).rows }
  let s2 : Store (Fin 3) DbRow :=
    { s1.put 2 (.committed ((table.insertRows stored).returning stored).length) with
      rows := ((table.insertRows stored).insertRows stored).rows }
  have h0 : exec (sampleEnv.deliveryStep sampleDeliveries) (Store.init table.rows) [.start 0, .abort 0] =
      some s0 := exec_aborted rfl
  have h1 : exec (sampleEnv.deliveryStep sampleDeliveries) s0 (alone 1 stored.length) = some s1 :=
    exec_committed hstored rfl rfl (by intro j _; fin_cases j <;> rfl)
  have h2 : exec (sampleEnv.deliveryStep sampleDeliveries) s1 (alone 2 stored.length) = some s2 :=
    exec_committed hstored rfl rfl (by intro j _; fin_cases j <;> rfl)
  rw [hlength] at h1 h2
  have h : exec (sampleEnv.deliveryStep sampleDeliveries) (Store.init table.rows)
      ([.start 0, .abort 0] ++ (alone 1 1 ++ alone 2 1)) = some s2 := by
    rw [exec_append, h0, Option.bind_some, exec_append, h1, Option.bind_some, h2]
  obtain ⟨hids, hnodup, -, -⟩ := exactly_once sampleEnv (fun _ : Unit => sampleBatch) (fun _ => ())
    (fun _ => .at 0) table _ _ h fun _ => ⟨1, _, rfl, rfl⟩
  refine ⟨s2, h, hnodup, fun u => (hids u).trans ?_⟩
  have hprocessed : processed sampleBatch = [sampleEvent sampleId] := by decide
  simp [table, emptyWorld, UniqueTable.keys, hprocessed, sampleEvent]

end FlightPulse.Worker
