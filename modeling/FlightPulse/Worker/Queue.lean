import FlightPulse.Ingestion.Routes
import FlightPulse.Worker.Processor

/-!
# What becomes of a job

The queue runs a job again after `Retry` until its attempts are used up. Any other
end of an attempt is the end of the job.
-/

open Lib Lib.Python Lib.Pydantic Lib.Postgres Lib.Psycopg

namespace FlightPulse.Worker

open Ingestion

/-! ## The runs of a job -/

namespace Env

variable (env : Env) (settings : Settings)

def process (attempt : ℕ) (a : Attempt) : Job → World → World × JobEnd
  | .processTelemetryBatch payload => env.processTelemetryBatch settings attempt a payload
  | .processExtractionLog payload => env.processExtractionLog settings attempt a payload

/-- The job from its attempt `jobTry` on, with `left` attempts left. -/
def runFrom (attempts : ℕ → Attempt) (job : Job) : ℕ → ℕ → World → World
  | 0, _, w => w
  | left + 1, jobTry, w =>
    match env.process settings jobTry (attempts jobTry) job w with
    | (w', .retry _) => runFrom attempts job left (jobTry + 1) w'
    | (w', _) => w'

/-- The world once the queue will not run the job again. -/
def runJob (attempts : ℕ → Attempt) (job : Job) (w : World) : World :=
  env.runFrom settings attempts job settings.maxJobAttempts 1 w

/-! ## The promise -/

/-- The ids of the deduplicated events, or the request id, are in the table. -/
def EffectStored : Job → World → Prop
  | .processTelemetryBatch payload, w => ∃ batch, TelemetryBatch.modelValidate env.lax payload = .ok batch ∧
      ∀ event ∈ processed batch, ∃ u, parseUuid event.ingestionId = some u ∧ u ∈ w.rawTelemetry.keys
  | .processExtractionLog payload, w => ∃ entry, ExtractionLogEntry.modelValidate env.lax payload = .ok entry ∧
      ∃ u, parseUuid entry.requestId = some u ∧ u ∈ w.extractionLog.keys

end Env

def jobPayload : Job → PyVal
  | .processTelemetryBatch payload => payload
  | .processExtractionLog payload => payload

def DeadLettered (payload : PyVal) (before after : World) : Prop :=
  ∃ reason time text, dumps (deadLetterRecord reason time payload) = some text ∧
    after.deadLetter = before.deadLetter ++ [text]

namespace Env

variable (env : Env) (settings : Settings)

def Kept (job : Job) (before after : World) : Prop :=
  env.EffectStored job after ∨ DeadLettered (jobPayload job) before after

/-! ## The condition -/

def validationErrors : Job → Option (List ErrorDetail)
  | .processTelemetryBatch payload =>
    match TelemetryBatch.modelValidate env.lax payload with
    | .ok _ => none
    | .invalid errors => some errors
  | .processExtractionLog payload =>
    match ExtractionLogEntry.modelValidate env.lax payload with
    | .ok _ => none
    | .invalid errors => some errors

/-- The rows of a job that validates as the statements of its transaction, if there are any. -/
def HasTransaction (a : Attempt) (P : ∀ {τ : Type}, List (Statement τ) → Prop) : Job → Prop
  | .processTelemetryBatch payload => ∃ batch rows, TelemetryBatch.modelValidate env.lax payload = .ok batch ∧
      processed batch ≠ [] ∧ (processed batch).mapM eventToRow = some rows ∧ P (env.insertStatements a.now rows)
  | .processExtractionLog payload => ∃ entry, ExtractionLogEntry.modelValidate env.lax payload = .ok entry ∧
      P [env.logStatement a.now entry]

def CommitsAttempt (a : Attempt) : Job → Prop := env.HasTransaction a (Commits a.fault)

/-- An exception of the connection comes first, and before the commit is past. -/
def DisconnectsAttempt (a : Attempt) : Job → Prop := env.HasTransaction a (Disconnects a.fault)

/-- One of the allowed attempts commits, the connection failed in those before it, and none of these
is one whose delay overflows. -/
def SomeCommits (attempts : ℕ → Attempt) (job : Job) (left jobTry : ℕ) : Prop :=
  ∃ m < left, env.CommitsAttempt (attempts (jobTry + m)) job ∧
    ∀ l < m, env.DisconnectsAttempt (attempts (jobTry + l)) job ∧ jobTry + l ≤ 1024

end Env

/-- The record of the first attempt can be written and Redis takes it. -/
def Settings.PushGoesThrough (settings : Settings) (attempts : ℕ → Attempt) (job : Job) : Prop :=
  1 ≤ settings.maxJobAttempts ∧ (dumps (jobPayload job)).isSome ∧ ∀ f, (attempts 1).redisFault = some f → f.pushed

variable {env : Env} {settings : Settings} {job : Job} {w : World}

/-! ## One attempt -/

structure AttemptSpec (env : Env) (attempt : ℕ) (a : Attempt) (job : Job) (w w' : World) (jobEnd : JobEnd) :
    Prop where
  deadLetter : w'.deadLetter = w.deadLetter
  kept : env.EffectStored job w → env.EffectStored job w'
  committed : env.CommitsAttempt a job → env.EffectStored job w'
  rolledBack : ¬ env.CommitsAttempt a job → w' = w ∧
    ((∃ delay, jobEnd = .retry delay) ↔ env.DisconnectsAttempt a job ∧ attempt ≤ 1024)

theorem persistFailed_retry {attempt : ℕ} {e : PersistError} :
    (∃ delay, Env.persistFailed settings attempt e = .retry delay) ↔
      e = .persistenceUnavailable ∧ attempt ≤ 1024 := by
  have hsome : (settings.computeBackoffSeconds attempt).isSome ↔ attempt ≤ 1024 := computeBackoffSeconds_isSome
  rw [← hsome]
  cases e with
  | persistenceUnavailable =>
    unfold Env.persistFailed
    cases settings.computeBackoffSeconds attempt <;> simp
  | escaping exn => simp [Env.persistFailed]

theorem hasTransaction_telemetry {payload : PyVal} {batch : TelemetryBatch} {rows : List Row} {a : Attempt}
    {P : ∀ {τ : Type}, List (Statement τ) → Prop}
    (hvalid : TelemetryBatch.modelValidate env.lax payload = .ok batch)
    (hne : processed batch ≠ []) (hrows : (processed batch).mapM eventToRow = some rows) :
    env.HasTransaction a P (.processTelemetryBatch payload) ↔ P (env.insertStatements a.now rows) := by
  constructor
  · rintro ⟨batch', rows', hvalid', -, hrows', h⟩
    rw [hvalid, Validated.ok.injEq] at hvalid'
    subst hvalid'
    rw [hrows, Option.some.injEq] at hrows'
    exact hrows' ▸ h
  · exact fun h => ⟨batch, rows, hvalid, hne, hrows, h⟩

theorem not_hasTransaction {payload : PyVal} {batch : TelemetryBatch} {a : Attempt}
    {P : ∀ {τ : Type}, List (Statement τ) → Prop}
    (hvalid : TelemetryBatch.modelValidate env.lax payload = .ok batch)
    (h : processed batch = [] ∨ (processed batch).mapM eventToRow = none) :
    ¬ env.HasTransaction a P (.processTelemetryBatch payload) := by
  rintro ⟨batch', rows, hvalid', hne, hrows, -⟩
  rw [hvalid, Validated.ok.injEq] at hvalid'
  subst hvalid'
  rcases h with h | h
  · exact hne h
  · simp [h] at hrows

theorem processTelemetryBatch_spec {payload : PyVal} {batch : TelemetryBatch} {attempt : ℕ} {a : Attempt}
    (hvalid : TelemetryBatch.modelValidate env.lax payload = .ok batch) :
    AttemptSpec env attempt a (.processTelemetryBatch payload) w
      (env.processTelemetryBatch settings attempt a payload w).1
      (env.processTelemetryBatch settings attempt a payload w).2 := by
  unfold Env.processTelemetryBatch
  simp only [hvalid]
  by_cases hne : processed batch = []
  · have hno {P : ∀ {τ : Type}, List (Statement τ) → Prop} :=
      not_hasTransaction (a := a) (P := P) hvalid (.inl hne)
    rw [hne, persistBatch_nil]
    exact ⟨rfl, id, fun h => absurd h hno, fun _ => ⟨rfl, by simp, fun h => absurd h.1 hno⟩⟩
  cases hrows : (processed batch).mapM eventToRow with
  | none =>
    have hno {P : ∀ {τ : Type}, List (Statement τ) → Prop} :=
      not_hasTransaction (a := a) (P := P) hvalid (.inr hrows)
    rw [persistBatch_unbuildable hrows]
    exact ⟨rfl, id, fun h => absurd h hno, fun _ => ⟨rfl, by simp [Env.persistFailed], fun h => absurd h.1 hno⟩⟩
  | some rows =>
    have hcommits : env.CommitsAttempt a (.processTelemetryBatch payload) ↔ _ :=
      hasTransaction_telemetry hvalid hne hrows
    have hdisconnects : env.DisconnectsAttempt a (.processTelemetryBatch payload) ↔ _ :=
      hasTransaction_telemetry hvalid hne hrows
    by_cases hc : Commits a.fault (env.insertStatements a.now rows)
    · obtain ⟨stored, hstored, htable, -⟩ := persistBatch_commits hne hrows hc w.rawTelemetry
      have heffect : env.EffectStored (.processTelemetryBatch payload)
          { w with rawTelemetry := w.rawTelemetry.insertRows stored } := by
        refine ⟨batch, hvalid, fun event he => ?_⟩
        obtain ⟨u, hu, hmem⟩ := mem_keys_of_commit hrows hstored he
        exact ⟨u, hu, UniqueTable.mem_keys_insertRows.mpr (.inr hmem)⟩
      rw [htable]
      exact ⟨rfl, fun _ => heffect, fun _ => heffect, fun h => absurd (hcommits.mpr hc) h⟩
    · obtain ⟨htable, e, hend, hiff⟩ := persistBatch_rolledBack hne hrows hc w.rawTelemetry
      rw [htable, hend]
      refine ⟨rfl, id, fun h => absurd (hcommits.mp h) hc, fun _ => ⟨rfl, ?_⟩⟩
      exact persistFailed_retry.trans (and_congr_left' (hiff.trans hdisconnects.symm))

theorem hasTransaction_extractionLog {payload : PyVal} {entry : ExtractionLogEntry} {a : Attempt}
    {P : ∀ {τ : Type}, List (Statement τ) → Prop}
    (hvalid : ExtractionLogEntry.modelValidate env.lax payload = .ok entry) :
    env.HasTransaction a P (.processExtractionLog payload) ↔
      P [env.logStatement a.now entry] := by
  constructor
  · rintro ⟨entry', hvalid', h⟩
    rw [hvalid, Validated.ok.injEq] at hvalid'
    exact hvalid' ▸ h
  · exact fun h => ⟨entry, hvalid, h⟩

theorem processExtractionLog_spec {payload : PyVal} {entry : ExtractionLogEntry} {attempt : ℕ} {a : Attempt}
    (hvalid : ExtractionLogEntry.modelValidate env.lax payload = .ok entry) :
    AttemptSpec env attempt a (.processExtractionLog payload) w
      (env.processExtractionLog settings attempt a payload w).1
      (env.processExtractionLog settings attempt a payload w).2 := by
  have hcommits : env.CommitsAttempt a (.processExtractionLog payload) ↔ _ := hasTransaction_extractionLog hvalid
  have hdisconnects : env.DisconnectsAttempt a (.processExtractionLog payload) ↔ _ :=
    hasTransaction_extractionLog hvalid
  unfold Env.processExtractionLog
  simp only [hvalid]
  by_cases hc : Commits a.fault [env.logStatement a.now entry]
  · obtain ⟨row, hrow, htable⟩ := persistExtractionLog_commits hc w.extractionLog
    have heffect : env.EffectStored (.processExtractionLog payload)
        { w with extractionLog := w.extractionLog.insertRows [row] } :=
      ⟨entry, hvalid, row.requestId, admitLog_requestId hrow, UniqueTable.mem_keys_insertRows.mpr (.inr (by simp))⟩
    rw [htable]
    exact ⟨rfl, fun _ => heffect, fun _ => heffect, fun h => absurd (hcommits.mpr hc) h⟩
  · obtain ⟨htable, e, hend, hiff⟩ := persistExtractionLog_rolledBack hc w.extractionLog
    rw [htable, hend]
    refine ⟨rfl, id, fun h => absurd (hcommits.mp h) hc, fun _ => ⟨rfl, ?_⟩⟩
    exact persistFailed_retry.trans (and_congr_left' (hiff.trans hdisconnects.symm))

theorem process_spec (settings : Settings) (attempt : ℕ) {a : Attempt} (hvalid : env.validationErrors job = none) :
    AttemptSpec env attempt a job w (env.process settings attempt a job w).1
      (env.process settings attempt a job w).2 := by
  cases job with
  | processTelemetryBatch payload =>
    cases h : TelemetryBatch.modelValidate env.lax payload with
    | ok batch => exact processTelemetryBatch_spec h
    | invalid errors => simp [Env.validationErrors, h] at hvalid
  | processExtractionLog payload =>
    cases h : ExtractionLogEntry.modelValidate env.lax payload with
    | ok entry => exact processExtractionLog_spec h
    | invalid errors => simp [Env.validationErrors, h] at hvalid

theorem process_invalid {attempt : ℕ} {a : Attempt} {errors : List ErrorDetail}
    (hinvalid : env.validationErrors job = some errors) :
    env.process settings attempt a job w = env.deadLetterJob a (jobPayload job) errors w := by
  cases job with
  | processTelemetryBatch payload =>
    cases h : TelemetryBatch.modelValidate env.lax payload with
    | ok batch => simp [Env.validationErrors, h] at hinvalid
    | invalid errors' =>
      unfold Env.validationErrors at hinvalid
      simp only [h, Option.some.injEq] at hinvalid
      simp [Env.process, Env.processTelemetryBatch, h, hinvalid, jobPayload]
  | processExtractionLog payload =>
    cases h : ExtractionLogEntry.modelValidate env.lax payload with
    | ok entry => simp [Env.validationErrors, h] at hinvalid
    | invalid errors' =>
      unfold Env.validationErrors at hinvalid
      simp only [h, Option.some.injEq] at hinvalid
      simp [Env.process, Env.processExtractionLog, h, hinvalid, jobPayload]

theorem effectStored_invalid {errors : List ErrorDetail} (hinvalid : env.validationErrors job = some errors) :
    ¬ env.EffectStored job w := by
  cases job with
  | processTelemetryBatch payload =>
    rintro ⟨batch, h, -⟩
    simp [Env.validationErrors, h] at hinvalid
  | processExtractionLog payload =>
    rintro ⟨entry, h, -⟩
    simp [Env.validationErrors, h] at hinvalid

/-! ## All attempts -/

theorem runFrom_retry {attempts : ℕ → Attempt} {left jobTry : ℕ}
    (h : ∃ delay, (env.process settings jobTry (attempts jobTry) job w).2 = .retry delay) :
    env.runFrom settings attempts job (left + 1) jobTry w =
      env.runFrom settings attempts job left (jobTry + 1)
        (env.process settings jobTry (attempts jobTry) job w).1 := by
  obtain ⟨delay, hdelay⟩ := h
  generalize hr : env.process settings jobTry (attempts jobTry) job w = r at hdelay
  obtain ⟨w', jobEnd⟩ := r
  simp only at hdelay
  simp [Env.runFrom, hr, hdelay]

theorem runFrom_end {attempts : ℕ → Attempt} {left jobTry : ℕ}
    (h : ¬ ∃ delay, (env.process settings jobTry (attempts jobTry) job w).2 = .retry delay) :
    env.runFrom settings attempts job (left + 1) jobTry w =
      (env.process settings jobTry (attempts jobTry) job w).1 := by
  generalize hr : env.process settings jobTry (attempts jobTry) job w = r at h
  obtain ⟨w', jobEnd⟩ := r
  cases jobEnd with
  | retry delay => exact absurd ⟨delay, rfl⟩ h
  | _ => simp [Env.runFrom, hr]

theorem someCommits_succ {attempts : ℕ → Attempt} {left jobTry : ℕ} :
    env.SomeCommits attempts job (left + 1) jobTry ↔ env.CommitsAttempt (attempts jobTry) job ∨
      (env.DisconnectsAttempt (attempts jobTry) job ∧ jobTry ≤ 1024) ∧
        env.SomeCommits attempts job left (jobTry + 1) := by
  constructor
  · rintro ⟨m, hm, hc, hbefore⟩
    cases m with
    | zero => exact .inl hc
    | succ m =>
      refine .inr ⟨hbefore 0 (by omega), m, by omega, ?_, fun l hl => ?_⟩
      · rwa [Nat.add_right_comm]
      · have := hbefore (l + 1) (by omega)
        rwa [Nat.add_right_comm]
  · rintro (hc | ⟨hd, m, hm, hc, hbefore⟩)
    · exact ⟨0, by omega, hc, fun l hl => absurd hl (by omega)⟩
    · refine ⟨m + 1, by omega, ?_, fun l hl => ?_⟩
      · rwa [Nat.add_right_comm] at hc
      · cases l with
        | zero => exact hd
        | succ l =>
          have := hbefore l (by omega)
          rwa [Nat.add_right_comm] at this

theorem keep_runFrom {attempts : ℕ → Attempt} (hvalid : env.validationErrors job = none) (left jobTry : ℕ)
    (hw : env.EffectStored job w) : env.EffectStored job (env.runFrom settings attempts job left jobTry w) := by
  induction left generalizing jobTry w with
  | zero => exact hw
  | succ left ih =>
    have hspec : AttemptSpec env jobTry (attempts jobTry) job w _ _ := process_spec settings jobTry hvalid
    by_cases hretry : ∃ delay, (env.process settings jobTry (attempts jobTry) job w).2 = .retry delay
    · rw [runFrom_retry hretry]
      exact ih _ (hspec.kept hw)
    · rw [runFrom_end hretry]
      exact hspec.kept hw

theorem effectStored_runFrom {attempts : ℕ → Attempt} (hvalid : env.validationErrors job = none)
    (left jobTry : ℕ) : env.EffectStored job (env.runFrom settings attempts job left jobTry w) ↔
      env.EffectStored job w ∨ env.SomeCommits attempts job left jobTry := by
  induction left generalizing jobTry w with
  | zero =>
    refine ⟨.inl, fun h => h.resolve_right ?_⟩
    rintro ⟨m, hm, -⟩
    omega
  | succ left ih =>
    have hspec : AttemptSpec env jobTry (attempts jobTry) job w _ _ := process_spec settings jobTry hvalid
    rw [someCommits_succ]
    by_cases hc : env.CommitsAttempt (attempts jobTry) job
    · refine iff_of_true ?_ (.inr (.inl hc))
      by_cases hretry : ∃ delay, (env.process settings jobTry (attempts jobTry) job w).2 = .retry delay
      · rw [runFrom_retry hretry]
        exact keep_runFrom hvalid _ _ (hspec.committed hc)
      · rw [runFrom_end hretry]
        exact hspec.committed hc
    · obtain ⟨hworld, hiff⟩ := hspec.rolledBack hc
      by_cases hretry : ∃ delay, (env.process settings jobTry (attempts jobTry) job w).2 = .retry delay
      · rw [runFrom_retry hretry, hworld, ih]
        simp [hc, hiff.mp hretry]
      · rw [runFrom_end hretry, hworld]
        simp [hc, mt hiff.mpr hretry]

theorem deadLetter_runFrom {attempts : ℕ → Attempt} (hvalid : env.validationErrors job = none) (left jobTry : ℕ) :
    (env.runFrom settings attempts job left jobTry w).deadLetter = w.deadLetter := by
  induction left generalizing jobTry w with
  | zero => rfl
  | succ left ih =>
    have hspec : AttemptSpec env jobTry (attempts jobTry) job w _ _ := process_spec settings jobTry hvalid
    by_cases hretry : ∃ delay, (env.process settings jobTry (attempts jobTry) job w).2 = .retry delay
    · rw [runFrom_retry hretry, ih, hspec.deadLetter]
    · rw [runFrom_end hretry, hspec.deadLetter]

theorem runFrom_invalid {attempts : ℕ → Attempt} {errors : List ErrorDetail}
    (hinvalid : env.validationErrors job = some errors) (left jobTry : ℕ) :
    env.runFrom settings attempts job (left + 1) jobTry w =
      (env.deadLetterJob (attempts jobTry) (jobPayload job) errors w).1 := by
  rw [runFrom_end, process_invalid hinvalid]
  rw [process_invalid hinvalid, Env.deadLetterJob]
  rintro ⟨delay, h⟩
  split at h <;> cases h

theorem not_deadLettered_self (payload : PyVal) {w' : World} (h : w'.deadLetter = w.deadLetter) :
    ¬ DeadLettered payload w w' := by
  rintro ⟨reason, time, text, -, hpush⟩
  rw [h] at hpush
  simp at hpush

theorem kept_invalid {attempts : ℕ → Attempt} {errors : List ErrorDetail}
    (hinvalid : env.validationErrors job = some errors) :
    env.Kept job w (env.runJob settings attempts job w) ↔ settings.PushGoesThrough attempts job := by
  unfold Env.Kept
  rw [or_iff_right (effectStored_invalid hinvalid), Env.runJob, Settings.PushGoesThrough]
  cases hmax : settings.maxJobAttempts with
  | zero => exact iff_of_false (not_deadLettered_self _ rfl) (by simp)
  | succ left =>
    rw [runFrom_invalid hinvalid, Env.deadLetterJob]
    by_cases hpush : (dumps (jobPayload job)).isSome ∧ ∀ f, (attempts 1).redisFault = some f → f.pushed
    · obtain ⟨text, htext, hlist⟩ :=
        writeToDeadLetter_pushed hpush.1 hpush.2 (env.describe errors) (attempts 1).time w.deadLetter
      exact iff_of_true ⟨_, _, text, htext, hlist⟩ ⟨by omega, hpush⟩
    · exact iff_of_false (not_deadLettered_self _ (writeToDeadLetter_refused hpush _ _ _)) fun h => hpush h.2

/-! ## When nothing is lost -/

/-- The condition: a job that does not validate is pushed at its first attempt, and any other job has
its effect there already or commits in time. -/
def Env.Survives (env : Env) (settings : Settings) (attempts : ℕ → Attempt) (job : Job) (w : World) : Prop :=
  match env.validationErrors job with
  | some _ => settings.PushGoesThrough attempts job
  | none => env.EffectStored job w ∨ env.SomeCommits attempts job settings.maxJobAttempts 1

def unreachable : ℕ → Attempt := fun _ => ⟨.at 841053600000000, .finite 1787738400, some ⟨0, .poolTimeout⟩, none⟩

def sampleJob : Job := .processTelemetryBatch (TelemetryBatch.modelDump ⟨[sampleEvent sampleId]⟩)

end FlightPulse.Worker
