import FlightPulse.Collector.Normalizer
import FlightPulse.Collector.OpenSkyClient
import FlightPulse.Lib.JsonRender

/-!
# One cycle of the collector (`collector/producer.py`)

`run_once` fetches, normalizes and sends, and then posts one entry about the cycle.
Only the fetch stands in a `try`, and both posts catch `RequestException` alone.
-/

open Lib Lib.Python

namespace FlightPulse.Collector

def collectorVersion : PyStr := str "1.1.0"

/-! ## Posting JSON -/

/-- What becomes of a request that is sent, `raise_for_status` included. -/
inductive PostOutcome where
  | ok
  | requestException
  | otherException
deriving DecidableEq

structure Post where
  sent : Bool
  outcome : PostOutcome

/-- `requests` encodes the body first, and only a ValueError becomes a `RequestException` there. -/
def post (depth : ℕ) (json : PyVal) (answer : PostOutcome) : Post :=
  match jsonFault depth json with
  | none => ⟨true, answer⟩
  | some .valueError => ⟨false, .requestException⟩
  | some .recursionError => ⟨false, .otherException⟩

/-! ## The entry -/

structure LogEntry where
  requestId : PyStr
  source : PyStr
  collectorId : PyStr
  collectorVersion : PyStr
  requestScope : PyStr
  extractionStartedAt : PyStr
  extractionCompletedAt : PyStr
  sourceObservationTime : PyVal
  recordCount : ℕ
  success : Bool
  errorMessage : Option PyStr

def LogEntry.json (entry : LogEntry) : PyVal :=
  .dict
    [ (str "request_id", .str entry.requestId),
      (str "source", .str entry.source),
      (str "collector_id", .str entry.collectorId),
      (str "collector_version", .str entry.collectorVersion),
      (str "request_scope", .str entry.requestScope),
      (str "extraction_started_at", .str entry.extractionStartedAt),
      (str "extraction_completed_at", .str entry.extractionCompletedAt),
      (str "source_observation_time", entry.sourceObservationTime),
      (str "record_count", .int entry.recordCount),
      (str "success", .bool entry.success),
      (str "error_message", (entry.errorMessage.map PyVal.str).getD .none) ]

/-! ## `run_once` -/

/-- What a cycle meets outside of its source. -/
structure Surroundings where
  host : Host
  collectorId : PyStr
  requestScope : PyStr
  draws : ℕ → Draw
  requestId : PyStr
  startedAt : PyStr
  completedAt : PyStr
  /-- `str(exc)` of what `get_states` raised. -/
  exc : PyStr
  /-- The levels of nesting that the encoder has left below the first. -/
  depth : ℕ
  batchAnswer : PostOutcome
  logAnswer : PostOutcome

/-- What a cycle does; `returned` is `none` when it raises. -/
structure Outcome where
  batches : List (List PyVal × PostOutcome)
  entries : List LogEntry
  returned : Option ℕ

def batchJson (events : List PyVal) : PyVal := .dict [(str "events", .list events)]

/-- `raw.get("time")`. -/
def observationTime : PyVal → PyVal
  | .dict response => getOrNone "time" response
  | _ => .none

namespace Surroundings

variable (env : Surroundings)

/-- What leaves, and what `send_batch` returns. -/
def sendBatch (events : List PyVal) : List (List PyVal × PostOutcome) × Option Bool :=
  if events = [] then ([], some true)
  else
    let p := post (env.depth + 1) (batchJson events) env.batchAnswer
    let batches := if p.sent then [(events, p.outcome)] else []
    match p.outcome with
    | .ok => (batches, some true)
    | .requestException => (batches, some false)
    | .otherException => (batches, none)

def entry (recordCount : ℕ) (success : Bool) (errorMessage : Option PyStr) (sourceObservationTime : PyVal) :
    LogEntry where
  requestId := env.requestId
  source := str "opensky"
  collectorId := env.collectorId
  collectorVersion := collectorVersion
  requestScope := env.requestScope
  extractionStartedAt := env.startedAt
  extractionCompletedAt := env.completedAt
  sourceObservationTime := sourceObservationTime
  recordCount := recordCount
  success := success
  errorMessage := errorMessage

/-- `send_extraction_log`, and the value that `run_once` returns after it. -/
def finish (batches : List (List PyVal × PostOutcome)) (entry : LogEntry) (returned : ℕ) : Outcome :=
  let p := post (env.depth + 1) entry.json env.logAnswer
  ⟨batches, if p.sent then [entry] else [], if p.outcome = .otherException then none else some returned⟩

def runOnce : Fetched → Outcome
  | .raised => env.finish [] (env.entry 0 false (some env.exc) .none) 0
  | .returned .none =>
    env.finish [] (env.entry 0 false (some (str "No data returned from OpenSky (see client logs)")) .none) 0
  | .returned raw =>
    match env.host.normalizeBatch env.collectorId env.draws raw with
    | none => ⟨[], [], none⟩
    | some events =>
      match env.sendBatch events with
      | (batches, none) => ⟨batches, [], none⟩
      | (batches, some sentOk) =>
        let errorMessage := if sentOk then none else some (str "Failed to send telemetry batch (see logs)")
        env.finish batches (env.entry events.length sentOk errorMessage (observationTime raw))
          (if sentOk then events.length else 0)

end Surroundings

/-! ## What an entry should say -/

/-- The events of the cycle went out and were taken, or there were none. -/
def AllSent (env : Surroundings) (fetched : Fetched) (o : Outcome) : Prop :=
  ∃ raw events, fetched = .returned raw ∧ env.host.normalizeBatch env.collectorId env.draws raw = some events ∧
    (events = [] ∨ (events, .ok) ∈ o.batches)

/-- The cycle is logged by one entry, which agrees with what the cycle did and returned. -/
def LoggedOnce (env : Surroundings) (fetched : Fetched) (o : Outcome) : Prop :=
  ∃ entry, o.entries = [entry] ∧ (entry.success ↔ AllSent env fetched o) ∧
    (∀ raw events, fetched = .returned raw →
      env.host.normalizeBatch env.collectorId env.draws raw = some events → entry.recordCount = events.length) ∧
    o.returned = some (if entry.success then entry.recordCount else 0)

/-- `normalize_state_vector` does not raise. -/
def HasEvent (host : Host) (items : List PyVal) : Prop :=
  let fields := stateVectorFields.zip items
  (truthy (getOrNone "callsign" fields) → ∃ s, getOrNone "callsign" fields = .str s) ∧
    (getOrNone "last_contact" fields = .none ∨
      (host.hashed [.str (str "opensky"), getOrNone "icao24" fields, getOrNone "last_contact" fields]).isSome)

/-- The loop of `normalize_batch` passes over the state vector or makes an event of it. -/
def Normalizable (host : Host) (state : PyVal) : Prop :=
  truthy state → ∃ icao24, first state = some icao24 ∧
    (truthy icao24 → ∃ items, iterate state = some items ∧ HasEvent host items)

def NormalizableBatch (host : Host) (raw : PyVal) : Prop :=
  ∃ response, raw = .dict response ∧
    (truthy (getOrNone "states" response) →
      ∃ states, iterate (getOrNone "states" response) = some states ∧ ∀ state ∈ states, Normalizable host state)

/-- Neither `send_batch` nor the encoding of the entry goes wrong. -/
structure Sendable (env : Surroundings) (raw : PyVal) (events : List PyVal) : Prop where
  encoded : events ≠ [] → jsonFault (env.depth + 1) (batchJson events) ≠ some .recursionError
  answered : events ≠ [] → strictJson (fun _ => true) (env.depth + 1) (batchJson events) →
    env.batchAnswer ≠ .otherException
  counted : hasRepr events.length
  observed : strictJson (fun _ => true) env.depth (observationTime raw)

/-- Nothing in the cycle raises outside of the `try`, or what `requests` raises is a `RequestException`. -/
def Loggable (env : Surroundings) (fetched : Fetched) : Prop :=
  env.logAnswer ≠ .otherException ∧ ∀ raw, fetched = .returned raw → raw ≠ .none →
    NormalizableBatch env.host raw ∧
      ∀ events, env.host.normalizeBatch env.collectorId env.draws raw = some events → Sendable env raw events

/-! ## Normalizing -/

section

variable {host : Host} {collectorId : PyStr} {draws : ℕ → Draw}

theorem cleanCallsign_isSome {raw : PyVal} : (cleanCallsign raw).isSome ↔ (truthy raw → ∃ s, raw = .str s) := by
  unfold cleanCallsign
  split
  · next h =>
    split
    · simp
    · next hnot => simpa [h] using hnot
  · next h => simp [h]

theorem computeIngestionId_isSome {d : Draw} {source : PyStr} {icao24 lastContact : PyVal} :
    (host.computeIngestionId d source icao24 lastContact).isSome ↔
      lastContact = .none ∨ (host.hashed [.str source, icao24, lastContact]).isSome := by
  unfold Host.computeIngestionId
  split
  · simp
  · next hnot => exact (or_iff_right hnot).symm

theorem normalizeStateVector_isSome (collectorId : PyStr) (draw : Draw) {items : List PyVal} :
    (host.normalizeStateVector collectorId draw items).isSome ↔ HasEvent host items := by
  unfold Host.normalizeStateVector HasEvent
  dsimp only
  rw [← cleanCallsign_isSome, ← computeIngestionId_isSome (d := draw), Option.bind_eq_bind]
  cases cleanCallsign (getOrNone "callsign" (stateVectorFields.zip items)) with
  | none => simp
  | some callsign =>
    rw [Option.bind_some, Option.bind_eq_bind, Option.isSome_bind]
    simp

theorem normalizeStates_isSome (i : ℕ) (states : List PyVal) :
    (host.normalizeStates collectorId draws i states).isSome ↔ ∀ state ∈ states, Normalizable host state := by
  fun_induction Host.normalizeStates host collectorId draws i states with
  | case1 => simp
  | case2 i state states hstate ih =>
    rw [List.forall_mem_cons, ← ih]
    unfold Normalizable
    simp only [hstate, forall_const]
    cases first state with
    | none => simp
    | some icao24 =>
      simp only [Option.bind_eq_bind, Option.bind_some, Option.some.injEq, exists_eq_left']
      by_cases hicao24 : truthy icao24
      · simp only [hicao24, if_true, forall_const]
        cases iterate state with
        | none => simp
        | some items =>
          simp only [Option.bind_some, Option.some.injEq, exists_eq_left']
          rw [← normalizeStateVector_isSome collectorId (draws i)]
          cases host.normalizeStateVector collectorId (draws i) items with
          | none => simp
          | some event => simp [Option.isSome_bind]
      · simp [hicao24]
  | case3 i state states hstate ih =>
    rw [List.forall_mem_cons, ← ih]
    unfold Normalizable
    simp [hstate]

theorem normalizeBatch_isSome {raw : PyVal} :
    (host.normalizeBatch collectorId draws raw).isSome ↔ NormalizableBatch host raw := by
  unfold Host.normalizeBatch NormalizableBatch
  split
  · next response =>
    simp only [PyVal.dict.injEq, exists_eq_left']
    split_ifs with hstates
    · simp only [hstates, forall_const]
      cases iterate (getOrNone "states" response) with
      | none => simp
      | some states => simp [normalizeStates_isSome]
    · simp [hstates]
  · next hnot =>
    simp only [Option.isSome_none, Bool.false_eq_true, false_iff]
    rintro ⟨response, rfl, -⟩
    exact hnot response rfl

end

/-! ## The two posts -/

theorem post_cases (depth : ℕ) (json : PyVal) (answer : PostOutcome) :
    (strictJson (fun _ => true) depth json ∧ post depth json answer = ⟨true, answer⟩) ∨
      (jsonFault depth json = some .valueError ∧ post depth json answer = ⟨false, .requestException⟩) ∨
      (jsonFault depth json = some .recursionError ∧ post depth json answer = ⟨false, .otherException⟩) := by
  unfold post
  cases h : jsonFault depth json with
  | none => exact .inl ⟨(jsonFault_eq_none _ _).mp h, rfl⟩
  | some fault =>
    cases fault with
    | valueError => exact .inr (.inl ⟨rfl, rfl⟩)
    | recursionError => exact .inr (.inr ⟨rfl, rfl⟩)

theorem LogEntry.json_strict (entry : LogEntry) (depth : ℕ) :
    strictJson (fun _ => true) (depth + 1) entry.json ↔
      hasRepr entry.recordCount ∧ strictJson (fun _ => true) depth entry.sourceObservationTime := by
  have herror : strictJson (fun _ => true) depth ((entry.errorMessage.map PyVal.str).getD .none) := by
    cases entry.errorMessage <;> simp [strictJson]
  simp [LogEntry.json, strictJson, strictEntries, herror, and_comm]

namespace Surroundings

variable {env : Surroundings}

theorem sendBatch_raises_iff {events : List PyVal} :
    (env.sendBatch events).2 = none ↔
      ¬ ((events ≠ [] → jsonFault (env.depth + 1) (batchJson events) ≠ some .recursionError) ∧
        (events ≠ [] → strictJson (fun _ => true) (env.depth + 1) (batchJson events) →
          env.batchAnswer ≠ .otherException)) := by
  unfold sendBatch
  split_ifs with hnil
  · simp [hnil]
  · rcases post_cases (env.depth + 1) (batchJson events) env.batchAnswer with
      ⟨hstrict, hpost⟩ | ⟨hfault, hpost⟩ | ⟨hfault, hpost⟩
    · have hnone := (jsonFault_eq_none _ _).mpr hstrict
      rw [hpost]
      cases env.batchAnswer <;> simp [hnil, hstrict, hnone]
    · have hnot : ¬ strictJson (fun _ => true) (env.depth + 1) (batchJson events) := by
        rw [← jsonFault_eq_none, hfault]
        simp
      simp [hpost, hfault, hnot]
    · simp [hpost, hfault, hnil]

theorem sendBatch_sent_iff {events : List PyVal} {sentOk : Bool} (h : (env.sendBatch events).2 = some sentOk) :
    sentOk ↔ events = [] ∨ (events, .ok) ∈ (env.sendBatch events).1 := by
  unfold sendBatch at h ⊢
  split_ifs at h ⊢ with hnil
  · cases h
    simp [hnil]
  · rcases post_cases (env.depth + 1) (batchJson events) env.batchAnswer with
      ⟨-, hpost⟩ | ⟨-, hpost⟩ | ⟨-, hpost⟩
    · rw [hpost] at h ⊢
      cases hanswer : env.batchAnswer <;> simp_all
    · simp_all
    · simp [hpost] at h

/-- An entry that agrees with the cycle is posted when it can be encoded and its post raises nothing else. -/
theorem finish_loggedOnce_iff {fetched : Fetched} {batches : List (List PyVal × PostOutcome)} {entry : LogEntry}
    {returned : ℕ} (hsuccess : entry.success ↔ AllSent env fetched (env.finish batches entry returned))
    (hcount : ∀ raw events, fetched = .returned raw →
      env.host.normalizeBatch env.collectorId env.draws raw = some events → entry.recordCount = events.length)
    (hreturned : returned = if entry.success then entry.recordCount else 0) :
    LoggedOnce env fetched (env.finish batches entry returned) ↔
      env.logAnswer ≠ .otherException ∧ hasRepr entry.recordCount ∧
        strictJson (fun _ => true) env.depth entry.sourceObservationTime := by
  rw [← entry.json_strict]
  have hlost (fault : JsonFault) (hfault : jsonFault (env.depth + 1) entry.json = some fault)
      (hentries : (env.finish batches entry returned).entries = []) :
      LoggedOnce env fetched (env.finish batches entry returned) ↔
        env.logAnswer ≠ .otherException ∧ strictJson (fun _ => true) (env.depth + 1) entry.json := by
    rw [← jsonFault_eq_none, hfault]
    unfold LoggedOnce
    simp [hentries]
  rcases post_cases (env.depth + 1) entry.json env.logAnswer with ⟨hstrict, hpost⟩ | ⟨hfault, hpost⟩ | ⟨hfault, hpost⟩
  · have hentries : (env.finish batches entry returned).entries = [entry] := by simp [finish, hpost]
    have hreturn : (env.finish batches entry returned).returned =
        if env.logAnswer = .otherException then none else some returned := by simp [finish, hpost]
    constructor
    · rintro ⟨e, -, -, -, hreturns⟩
      refine ⟨fun hother => ?_, hstrict⟩
      simp [hreturn, hother] at hreturns
    · rintro ⟨hanswer, -⟩
      refine ⟨entry, hentries, hsuccess, hcount, ?_⟩
      rw [hreturn, if_neg hanswer, hreturned]
  · exact hlost _ hfault (by simp [finish, hpost])
  · exact hlost _ hfault (by simp [finish, hpost])

theorem runOnce_of_some {raw : PyVal} (hraw : raw ≠ .none) {events : List PyVal}
    (hevents : env.host.normalizeBatch env.collectorId env.draws raw = some events) :
    env.runOnce (.returned raw) =
      match env.sendBatch events with
      | (batches, none) => ⟨batches, [], none⟩
      | (batches, some sentOk) =>
        let errorMessage := if sentOk then none else some (str "Failed to send telemetry batch (see logs)")
        env.finish batches (env.entry events.length sentOk errorMessage (observationTime raw))
          (if sentOk then events.length else 0) := by
  cases raw with
  | none => exact absurd rfl hraw
  | _ => simp [runOnce, hevents]

theorem runOnce_of_none {raw : PyVal} (hraw : raw ≠ .none)
    (hevents : env.host.normalizeBatch env.collectorId env.draws raw = none) :
    env.runOnce (.returned raw) = ⟨[], [], none⟩ := by
  cases raw with
  | none => exact absurd rfl hraw
  | _ => simp [runOnce, hevents]

theorem loggable_returned_iff {raw : PyVal} (hraw : raw ≠ .none) :
    Loggable env (.returned raw) ↔ env.logAnswer ≠ .otherException ∧ NormalizableBatch env.host raw ∧
      ∀ events, env.host.normalizeBatch env.collectorId env.draws raw = some events → Sendable env raw events := by
  unfold Loggable
  simp [hraw]

theorem not_loggedOnce_of_entries {fetched : Fetched} {o : Outcome} (h : o.entries = []) :
    ¬ LoggedOnce env fetched o := by
  rintro ⟨entry, hentry, -⟩
  simp [h] at hentry

theorem finish_failed_iff {fetched : Fetched} (hfetched : ∀ raw, fetched = .returned raw → raw = .none)
    (errorMessage : Option PyStr) :
    LoggedOnce env fetched (env.finish [] (env.entry 0 false errorMessage .none) 0) ↔ Loggable env fetched := by
  have hnone : env.host.normalizeBatch env.collectorId env.draws .none = none := rfl
  have hno : ∀ raw events, fetched = .returned raw →
      env.host.normalizeBatch env.collectorId env.draws raw = some events → False := by
    intro raw events hraw hevents
    rw [hfetched raw hraw, hnone] at hevents
    cases hevents
  have hsuccess : (env.entry 0 false errorMessage .none).success ↔
      AllSent env fetched (env.finish [] (env.entry 0 false errorMessage .none) 0) := by
    constructor
    · intro h
      simp [entry] at h
    · rintro ⟨raw, events, hraw, hevents, -⟩
      exact (hno raw events hraw hevents).elim
  refine (finish_loggedOnce_iff hsuccess (fun raw events hraw hevents => (hno raw events hraw hevents).elim)
    rfl).trans ?_
  have hzero : hasRepr (0 : ℕ) := decide_eq_true (Nat.pow_pos (by decide))
  have hstrict : strictJson (fun _ => true) env.depth .none := by simp [strictJson]
  unfold Loggable entry
  constructor
  · rintro ⟨hanswer, -⟩
    exact ⟨hanswer, fun raw hraw hne => absurd (hfetched raw hraw) hne⟩
  · rintro ⟨hanswer, -⟩
    exact ⟨hanswer, hzero, hstrict⟩

theorem sendable_iff {raw : PyVal} {events : List PyVal} :
    Sendable env raw events ↔ (env.sendBatch events).2 ≠ none ∧ hasRepr events.length ∧
      strictJson (fun _ => true) env.depth (observationTime raw) := by
  rw [ne_eq, sendBatch_raises_iff, not_not]
  exact ⟨fun h => ⟨⟨h.encoded, h.answered⟩, h.counted, h.observed⟩, fun h => ⟨h.1.1, h.1.2, h.2.1, h.2.2⟩⟩

theorem normalized_loggedOnce_iff {raw : PyVal} (hraw : raw ≠ .none) {events : List PyVal}
    (hevents : env.host.normalizeBatch env.collectorId env.draws raw = some events) :
    LoggedOnce env (.returned raw) (env.runOnce (.returned raw)) ↔
      env.logAnswer ≠ .otherException ∧ Sendable env raw events := by
  rw [runOnce_of_some hraw hevents, sendable_iff]
  have honly : ∀ raw' events', Fetched.returned raw = .returned raw' →
      env.host.normalizeBatch env.collectorId env.draws raw' = some events' → events' = events := by
    rintro raw' events' hraw' hevents'
    cases hraw'
    rw [hevents, Option.some.injEq] at hevents'
    exact hevents'.symm
  have hsent : ∀ sentOk, (env.sendBatch events).2 = some sentOk → _ := fun sentOk h => sendBatch_sent_iff h
  generalize env.sendBatch events = sending at hsent ⊢
  obtain ⟨batches, result⟩ := sending
  cases result with
  | none => simpa using not_loggedOnce_of_entries rfl
  | some sentOk =>
    refine (finish_loggedOnce_iff ?_ (fun raw' events' hraw' hevents' => ?_) rfl).trans ?_
    · refine (hsent sentOk rfl).trans ⟨fun h => ⟨raw, events, rfl, hevents, h⟩, ?_⟩
      rintro ⟨raw', events', hraw', hevents', h⟩
      rwa [honly raw' events' hraw' hevents'] at h
    · rw [honly raw' events' hraw' hevents']
      rfl
    · simp [entry]

/-- One entry is posted for the cycle, and it is right, exactly when the cycle is loggable. -/
theorem runOnce_loggedOnce_iff (env : Surroundings) (fetched : Fetched) :
    LoggedOnce env fetched (env.runOnce fetched) ↔ Loggable env fetched := by
  cases fetched with
  | raised => exact finish_failed_iff (fun raw h => by cases h) _
  | returned raw =>
    by_cases hraw : raw = .none
    · subst hraw
      exact finish_failed_iff (fun raw h => by cases h; rfl) _
    · rw [loggable_returned_iff hraw, ← normalizeBatch_isSome]
      cases hevents : env.host.normalizeBatch env.collectorId env.draws raw with
      | none =>
        have hentries : (env.runOnce (.returned raw)).entries = [] := by rw [runOnce_of_none hraw hevents]
        simpa using not_loggedOnce_of_entries hentries
      | some events =>
        rw [normalized_loggedOnce_iff hraw hevents]
        simp

end Surroundings

/-! ## A cycle that is not logged -/

def sampleSurroundings : Surroundings where
  host := sampleHost
  collectorId := str "collector-1"
  requestScope := str "global"
  draws := fun _ => ⟨str "2026-08-24T00:00:00Z", sampleUuid⟩
  requestId := str "r"
  startedAt := str "2026-08-24T00:00:00+00:00"
  completedAt := str "2026-08-24T00:00:01+00:00"
  exc := []
  depth := 900
  batchAnswer := .ok
  logAnswer := .ok

/-- One state vector, with a number where the callsign should be. -/
def numberAsCallsign : PyVal :=
  .dict [(str "time", .int 1), (str "states", .list [.list [.str (str "abc123"), .int 5]])]

theorem cycle_not_logged :
    ¬ ∀ (env : Surroundings) (fetched : Fetched), LoggedOnce env fetched (env.runOnce fetched) := by
  intro h
  have hentries : (sampleSurroundings.runOnce (.returned numberAsCallsign)).entries = [] := by decide
  exact Surroundings.not_loggedOnce_of_entries hentries (h sampleSurroundings (.returned numberAsCallsign))

end FlightPulse.Collector
