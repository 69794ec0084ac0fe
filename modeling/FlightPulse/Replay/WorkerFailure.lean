import Mathlib.Algebra.Order.Archimedean.Basic
import Mathlib.Data.Rat.Cast.Order
import FlightPulse.Lib.Run
import FlightPulse.Replay.Player

/-!
# The verdict on a worker failure (`replay/fault_injection.py`)

The scenario replays a fixture, kills a worker and polls. It looks for what arq
recorded in attributes, where arq pickles a plain dict: it never sees a result.
-/

open Lib.Python Lib.Postgres Lib.Run
open scoped List

namespace FlightPulse.Replay

open Collector

/-! ## `sum_newly_inserted_since` -/

/-- What `pickle.loads` makes of a value. -/
inductive Unpickled where
  | dict (items : List (PyStr × PyVal))
  /-- An `arq.jobs.JobResult`, its time in seconds. -/
  | jobResult (finishTime : ℚ) (result : PyVal)

namespace Unpickled

/-- `getattr(job_result, "finish_time", None)`: the keys of a dict are no attributes. -/
def finishTime : Unpickled → Option ℚ
  | .dict _ => none
  | .jobResult finishTime _ => some finishTime

/-- `getattr(job_result, "result", None)`. -/
def result : Unpickled → PyVal
  | .dict _ => .none
  | .jobResult _ result => result

end Unpickled

/-- `result["newly_inserted"]`, where the result is a dict with that key. -/
def newlyInserted : PyVal → Option PyVal
  | .dict items => PyVal.get? (str "newly_inserted") items
  | _ => none

/-- One turn of the loop over the keys; `none` is a key that is gone, or a value that does not unpickle. -/
def countKey (since : ℚ) (acc : ℕ × ℤ) : Option Unpickled → ℕ × ℤ
  | none => acc
  | some jobResult =>
    if jobResult.finishTime.any fun t => t < since then acc
    else
      match newlyInserted jobResult.result with
      | some (.int n) => (acc.1 + 1, acc.2 + n)
      | _ => acc

/-- `jobs_counted` and `total`. -/
def sumNewlyInsertedSince (since : ℚ) (keys : List (Option Unpickled)) : ℕ × ℤ :=
  keys.foldl (countKey since) (0, 0)

/-! ## What arq records -/

/-- How a job of `process_telemetry_batch` ended, by arq's own record. -/
structure JobRecord where
  success : Bool
  /-- `newly_inserted` of what the job returned; a job that failed returned nothing. -/
  inserted : Option ℕ
  finishedMs : ℕ
  /-- The batch of the fixture that the job was for, if it was one of the replay. -/
  batch : Option ℕ

/-- The entries about the outcome of the dict that arq's `serialize_result` pickles. -/
def JobRecord.serializeResult (r : JobRecord) : Unpickled :=
  let returned : PyVal :=
    match r.inserted with
    | some n => .dict [(str "newly_inserted", .int n)]
    | none => .none
  .dict [(str "s", .bool r.success), (str "r", returned), (str "ft", .int r.finishedMs)]

/-- A key `arq:result:*`. -/
inductive ResultKey where
  /-- It expired between `KEYS` and `GET`. -/
  | gone
  | record (r : JobRecord)

def ResultKey.unpickled : ResultKey → Option Unpickled
  | .gone => none
  | .record r => some r.serializeResult

/-! ## `run_worker_failure_scenario` -/

/-- What a run of the scenario is given. The replay gathers every future once. -/
structure Scenario (δ : Type) where
  workerPids : List ℕ
  codec : Codec δ
  host : Host
  draw : FreshDraw
  fixture : Option PyStr
  outcome : ℕ → Outcome
  completed : List ℕ
  completed_perm : completed ~ List.range
    (runReplay codec host .fresh draw fixture 2000 outcome completed).1.length
  scenarioStartEpoch : ℚ
  baselineCount : Option ℕ
  /-- The count that is read before the polling. -/
  firstCount : Option ℕ

/-- What one turn of the polling finds beside the results. `replayDone` says whether the thread has stored what
`run_replay` returned. -/
structure Reading where
  finalCount : Option ℕ
  replayDone : Bool

structure Poll extends Reading where
  keys : List ResultKey

structure Watch where
  finalCount : Option ℕ
  keys : List ResultKey
  jobsCounted : ℕ
  groundTruthInserted : ℤ
  reachedTarget : Bool

inductive Verdict where
  | silent
  | pass
  | gap
  | unresolved
deriving DecidableEq

namespace Scenario

variable {δ : Type} (sc : Scenario δ)

def replay : List (List PyVal) × ReplayEnd :=
  runReplay sc.codec sc.host .fresh sc.draw sc.fixture 2000 sc.outcome sc.completed

/-- `replay_summary.get("batches_sent", 0)`. -/
def batchesSent (replayDone : Bool) : ℕ :=
  if replayDone then
    match sc.replay.2 with
    | .summary s => s.batchesSent
    | _ => 0
  else 0

/-- With fewer than two workers the scenario exits. -/
def start : Option Watch := if sc.workerPids.length < 2 then none else some ⟨sc.firstCount, [], 0, 0, false⟩

/-- The loop breaks when it has reached its target. -/
def poll (w : Watch) (p : Poll) : Option Watch :=
  if w.reachedTarget then none
  else
    let (jobsCounted, groundTruthInserted) :=
      sumNewlyInsertedSince sc.scenarioStartEpoch (p.keys.map ResultKey.unpickled)
    let reachedTarget :=
      match sc.baselineCount, p.finalCount with
      | some baseline, some final =>
        baseline + groundTruthInserted ≤ final && sc.batchesSent p.replayDone ≤ jobsCounted
      | _, _ => false
    some ⟨p.finalCount, p.keys, jobsCounted, groundTruthInserted, reachedTarget⟩

def verdict (w : Watch) : Verdict :=
  match sc.baselineCount, w.finalCount with
  | some baseline, some final =>
    if w.reachedTarget then .pass
    else if final < baseline + w.groundTruthInserted then .gap
    else .unresolved
  | _, _ => .silent

end Scenario

/-! ## What a PASS should mean -/

/-- The rows that a job inserted since the start, and its batch. -/
def ResultKey.reported (since : ℚ) : ResultKey → Option (ℕ × Option ℕ)
  | .gone => none
  | .record r =>
    if r.success ∧ since * 1000 ≤ r.finishedMs then r.inserted.map fun n => (n, r.batch) else none

namespace Scenario

variable {δ : Type} (sc : Scenario δ)

/-- The batches that the fixture is cut into. -/
def batches : ℕ :=
  match sc.fixture.bind sc.codec.loadFixture with
  | some events => (chunks 2000 events).length
  | none => 0

def reported (keys : List ResultKey) : List (ℕ × Option ℕ) :=
  keys.filterMap (ResultKey.reported sc.scenarioStartEpoch)

/-- Each batch has a result of its own job, and the rows are those that the results report. -/
def Sound (w : Watch) : Prop :=
  (∀ b < sc.batches, some b ∈ (sc.reported w.keys).map Prod.snd) ∧
    ∃ baseline final, sc.baselineCount = some baseline ∧ w.finalCount = some final ∧
      final = baseline + ((sc.reported w.keys).map Prod.fst).sum

/-- The replay has returned its summary. -/
def Summarized (r : Reading) : Prop := r.replayDone ∧ ∃ s, sc.replay.2 = .summary s

/-- A count is not there, or rows are missing from the baseline, or the replay has returned its summary. -/
def Withheld (r : Reading) : Prop :=
  ∀ baseline final, sc.baselineCount = some baseline → r.finalCount = some final →
    final < baseline ∨ sc.Summarized r

end Scenario

/-! ## What the scrape adds up -/

/-- Of what arq records, nothing is counted. -/
theorem countKey_unpickled (since : ℚ) (acc : ℕ × ℤ) (key : ResultKey) : countKey since acc key.unpickled = acc := by
  cases key with
  | gone => rfl
  | record r => rfl

theorem sumNewlyInsertedSince_unpickled (since : ℚ) (keys : List ResultKey) :
    sumNewlyInsertedSince since (keys.map ResultKey.unpickled) = (0, 0) := by
  unfold sumNewlyInsertedSince
  induction keys with
  | nil => rfl
  | cons key keys ih => rw [List.map_cons, List.foldl_cons, countKey_unpickled, ih]

namespace Scenario

variable {δ : Type} {sc : Scenario δ} {s u v w : Watch} {p : Poll} {polls : List Poll}

theorem batchesSent_eq_zero {r : Reading} : sc.batchesSent r.replayDone = 0 ↔ ¬ sc.Summarized r := by
  unfold batchesSent Summarized
  cases hdone : r.replayDone with
  | false => simp
  | true =>
    cases hend : sc.replay.2 with
    | summary summary =>
      have hpos := runReplay_batchesSent_pos sc.completed_perm hend
      simp only [if_true, ReplayEnd.summary.injEq, exists_eq', and_self, not_true_eq_false, iff_false]
      omega
    | exited => simp
    | raised => simp

theorem withheld_iff {r : Reading} {baseline final : ℕ} (hbaseline : sc.baselineCount = some baseline)
    (hfinal : r.finalCount = some final) : sc.Withheld r ↔ final < baseline ∨ sc.Summarized r := by
  unfold Withheld
  rw [hbaseline, hfinal]
  simp

/-! ## One turn of the polling -/

/-- What a turn leaves behind; it is the last one unless the verdict is withheld, whatever was recorded. -/
theorem poll_spec (h : sc.poll w p = some v) : w.reachedTarget = false ∧ v.finalCount = p.finalCount ∧ v.keys = p.keys ∧
    (v.reachedTarget = true ↔ ¬ sc.Withheld p.toReading) := by
  unfold poll at h
  rw [sumNewlyInsertedSince_unpickled] at h
  split at h
  · cases h
  · next hreached =>
    obtain rfl := Option.some.inj h
    refine ⟨by simpa using hreached, rfl, rfl, ?_⟩
    cases hbaseline : sc.baselineCount with
    | none => simp [Withheld, hbaseline]
    | some baseline =>
      cases hfinal : p.finalCount with
      | none => simp [Withheld, hfinal]
      | some final =>
        rw [withheld_iff hbaseline hfinal]
        simp only [Bool.and_eq_true, decide_eq_true_eq, Nat.le_zero, batchesSent_eq_zero, not_or, add_zero,
          Nat.cast_le, not_lt]

/-- Other results in the place of those that were found change no turn but the last. -/
theorem poll_keys (h : sc.poll w p = some v) (keys : List ResultKey) :
    sc.poll w { p with keys := keys } = some { v with keys := keys } := by
  unfold poll at h ⊢
  rw [sumNewlyInsertedSince_unpickled] at h ⊢
  split at h
  · cases h
  · next hreached =>
    rw [if_neg hreached]
    obtain rfl := Option.some.inj h
    rfl

theorem verdict_pass : sc.verdict w = .pass ↔
    w.reachedTarget = true ∧ sc.baselineCount.isSome ∧ w.finalCount.isSome := by
  unfold verdict
  cases sc.baselineCount with
  | none => simp
  | some baseline =>
    cases w.finalCount with
    | none => simp
    | some final =>
      cases w.reachedTarget with
      | true => simp
      | false =>
        simp only [Bool.false_eq_true, if_false, false_and, iff_false]
        split <;> simp

/-! ## The verdict -/

theorem start_silent (h : sc.start = some w) : w.reachedTarget = false := by
  unfold start at h
  split at h
  · cases h
  · obtain rfl := Option.some.inj h
    rfl

theorem reached_of_exec (hs : s.reachedTarget = false) (h : exec sc.poll s polls = some w) :
    w.reachedTarget = true ↔ ∃ p ∈ polls, ¬ sc.Withheld p.toReading := by
  refine exec_induction (P := fun polls w => w.reachedTarget = true ↔ ∃ p ∈ polls, ¬ sc.Withheld p.toReading) ?_ ?_ h
  · simp [hs]
  · intro polls u p v _ ih hpoll
    obtain ⟨hgoes, -, -, hreached⟩ := poll_spec hpoll
    have hbefore : ¬ ∃ p ∈ polls, ¬ sc.Withheld p.toReading := by
      rw [← ih, hgoes]
      exact Bool.false_ne_true
    rw [hreached]
    constructor
    · exact fun hp => ⟨p, by simp, hp⟩
    · rintro ⟨q, hq, hheld⟩
      rcases List.mem_append.mp hq with hq | hq
      · exact absurd ⟨q, hq, hheld⟩ hbefore
      · exact List.mem_singleton.mp hq ▸ hheld

theorem counts_of_reached (hlast : sc.poll u p = some w) (hreached : w.reachedTarget = true) :
    ∃ baseline final, sc.baselineCount = some baseline ∧ w.finalCount = some final := by
  obtain ⟨-, hfinal, -, htarget⟩ := poll_spec hlast
  have hheld := htarget.mp hreached
  unfold Withheld at hheld
  push Not at hheld
  obtain ⟨baseline, final, hbaseline, hcount, -⟩ := hheld
  exact ⟨baseline, final, hbaseline, hfinal.trans hcount⟩

theorem verdict_pass_iff (hs : s.reachedTarget = false) (h : exec sc.poll s polls = some w) :
    sc.verdict w = .pass ↔ ∃ p ∈ polls, ¬ sc.Withheld p.toReading := by
  rw [verdict_pass, reached_of_exec hs h]
  refine ⟨And.left, fun hheld => ⟨hheld, ?_⟩⟩
  obtain rfl | ⟨polls, q, rfl⟩ := List.eq_nil_or_concat' polls
  · simp at hheld
  · obtain ⟨u, -, hlast⟩ := exec_snoc.mp h
    obtain ⟨baseline, final, hbaseline, hfinal⟩ := counts_of_reached hlast ((reached_of_exec hs h).mpr hheld)
    rw [hbaseline, hfinal]
    exact ⟨rfl, rfl⟩

/-- Results in the place of those of the last turn, with which a PASS is wrong. -/
theorem unsound_results (h : exec sc.poll s polls = some w) (hreached : w.reachedTarget = true)
    (hs : s.reachedTarget = false) : ∃ polls' w', polls'.map Poll.toReading = polls.map Poll.toReading ∧
      exec sc.poll s polls' = some w' ∧ ¬ sc.Sound w' := by
  obtain rfl | ⟨polls, q, rfl⟩ := List.eq_nil_or_concat' polls
  · obtain rfl := Option.some.inj h
    rw [hs] at hreached
    cases hreached
  obtain ⟨u, hu, hlast⟩ := exec_snoc.mp h
  obtain ⟨baseline, final, hbaseline, hfinal⟩ := counts_of_reached hlast hreached
  -- A job of no batch, which reports more rows than there are.
  obtain ⟨ms, hlate⟩ := exists_nat_ge (sc.scenarioStartEpoch * 1000)
  let other : JobRecord := ⟨true, some (final + 1), ms, none⟩
  have hreported : sc.reported [.record other] = [(final + 1, none)] := by
    simp [reported, ResultKey.reported, other, hlate]
  refine ⟨_, _, ?_, exec_snoc.mpr ⟨u, hu, poll_keys hlast [.record other]⟩, ?_⟩
  · simp
  · rintro ⟨-, baseline', final', -, hfinal', hequal⟩
    simp only [hreported, List.map_cons, List.map_nil, List.sum_cons, List.sum_nil] at hequal
    rw [hfinal, Option.some.injEq] at hfinal'
    omega

/-- Whatever is recorded, a run ends in a PASS just when the verdict is not withheld at some turn; and its PASS is
sound for all that may be recorded just when there is none. -/
theorem pass_sound_iff (sc : Scenario δ) (polls : List Poll) {s w : Watch} (hstart : sc.start = some s)
    (h : exec sc.poll s polls = some w) :
    (sc.verdict w = .pass ↔ ∃ p ∈ polls, ¬ sc.Withheld p.toReading) ∧
    ((∀ polls' w', polls'.map Poll.toReading = polls.map Poll.toReading → exec sc.poll s polls' = some w' →
      sc.verdict w' = .pass → sc.Sound w') ↔ ∀ p ∈ polls, sc.Withheld p.toReading) := by
  have hs := start_silent hstart
  have hsame : ∀ polls' w', polls'.map Poll.toReading = polls.map Poll.toReading →
      exec sc.poll s polls' = some w' → (sc.verdict w' = .pass ↔ ∃ p ∈ polls, ¬ sc.Withheld p.toReading) := by
    intro polls' w' hreadings h'
    have hmap : ∀ qs : List Poll, (∃ p ∈ qs, ¬ sc.Withheld p.toReading) ↔
        ∃ r ∈ qs.map Poll.toReading, ¬ sc.Withheld r := by simp
    rw [verdict_pass_iff hs h', hmap, hmap, hreadings]
  refine ⟨verdict_pass_iff hs h, fun hsound => ?_, fun hheld polls' w' hreadings h' hpass => ?_⟩
  · by_contra hnot
    push Not at hnot
    obtain ⟨polls', w', hreadings, h', hunsound⟩ := unsound_results h ((reached_of_exec hs h).mpr hnot) hs
    exact hunsound (hsound polls' w' hreadings h' ((hsame polls' w' hreadings h').mpr hnot))
  · obtain ⟨p, hp, hnot⟩ := (hsame polls' w' hreadings h').mp hpass
    exact absurd (hheld p hp) hnot

end Scenario

/-! ## One event -/

def sampleFile : PyStr := (sampleCodec.exportFixture .lf [sampleRow]).1

theorem sampleFile_loaded : sampleCodec.loadFixture sampleFile = some [sampleRow.payload] := by
  have hrow : ∀ row ∈ [sampleRow], row ∈ sampleRows := by simp [sampleRows]
  obtain ⟨file, hexport⟩ : ∃ file, sampleCodec.exportFixture .lf [sampleRow] = (file, some 1) :=
    exportFixture_total fun row h => sampleRows_dumps row (hrow row h)
  have hfile : sampleFile = file := congrArg Prod.fst hexport
  rw [hfile]
  exact loadFixture_exportFixture sampleRepr_printable (fun row h => sampleCodec_loads row (hrow row h)) hexport

theorem sampleRow_prepared : (prepareEvent sampleHost (sampleDraw.nowIso 0) (uuidStr sampleDraw.runSalt)
    (sampleDraw.uuid4 0 0) sampleRow.payload).isSome := by
  simp [prepareEvent, sampleRow, getOrNone, PyVal.get?, str_inj, freshIngestionId]

theorem sampleFile_replayed : ∃ prepared s,
    runReplay sampleCodec sampleHost .fresh sampleDraw (some sampleFile) 2000 (fun _ => .returned true) [0] =
      ([prepared], .summary s) := by
  have hchunks : chunks 2000 [sampleRow.payload] = [[sampleRow.payload]] := rfl
  obtain ⟨p, hp⟩ := Option.isSome_iff_exists.mp sampleRow_prepared
  have hsubmitted : submitBatches sampleHost .fresh sampleDraw 0 [[sampleRow.payload]] = ([[p]], true) := by
    simp [submitBatches, prepareBatch, hp]
  rw [runReplay_loaded sampleFile_loaded (by simp) _ _ _ (by decide), hchunks, hsubmitted]
  exact ⟨_, _, rfl⟩

def sampleScenario : Scenario PyStr where
  workerPids := [4101, 4102]
  codec := sampleCodec
  host := sampleHost
  draw := sampleDraw
  fixture := some sampleFile
  outcome := fun _ => .returned true
  completed := [0]
  completed_perm := by
    obtain ⟨prepared, s, hreplay⟩ := sampleFile_replayed
    rw [hreplay]
    exact List.Perm.refl _
  scenarioStartEpoch := 0
  baselineCount := some 0
  firstCount := some 0

theorem sampleScenario_batches : sampleScenario.batches = 1 := by
  have hfile : sampleScenario.fixture = some sampleFile := rfl
  have hload : sampleScenario.codec.loadFixture sampleFile = some [sampleRow.payload] := sampleFile_loaded
  have hchunks : chunks 2000 [sampleRow.payload] = [[sampleRow.payload]] := rfl
  unfold Scenario.batches
  simp only [hfile, Option.bind_some, hload, hchunks, List.length_singleton]

def answered : ResultKey := .record ⟨true, some 1, 1000, some 0⟩

/-- At the first turn the row is not there; at the second the replay is back. -/
theorem pass_sound_summarized : ∃ s w, sampleScenario.start = some s ∧
    exec sampleScenario.poll s [⟨⟨none, false⟩, []⟩, ⟨⟨some 1, true⟩, [answered]⟩] = some w ∧
    ∀ polls' w', polls'.map Poll.toReading = [⟨none, false⟩, ⟨some 1, true⟩] →
      exec sampleScenario.poll s polls' = some w' → sampleScenario.verdict w' = .pass → sampleScenario.Sound w' := by
  obtain ⟨v, hv⟩ : ∃ v, sampleScenario.poll ⟨some 0, [], 0, 0, false⟩ ⟨⟨none, false⟩, []⟩ = some v := ⟨_, rfl⟩
  obtain ⟨w, hw⟩ : ∃ w, sampleScenario.poll v ⟨⟨some 1, true⟩, [answered]⟩ = some w := by
    obtain rfl := Option.some.inj hv
    exact ⟨_, rfl⟩
  have hexec : exec sampleScenario.poll ⟨some 0, [], 0, 0, false⟩
      [⟨⟨none, false⟩, []⟩, ⟨⟨some 1, true⟩, [answered]⟩] = some w := by
    rw [exec_cons, hv, Option.bind_some, exec_cons, hw]
    rfl
  refine ⟨_, w, rfl, hexec, (sampleScenario.pass_sound_iff _ rfl hexec).2.mpr fun p hp => ?_⟩
  obtain ⟨prepared, summary, hreplay⟩ := sampleFile_replayed
  rcases List.mem_pair.mp hp with rfl | rfl
  · rintro baseline final - ⟨⟩
  · exact fun _ _ _ _ => .inr ⟨rfl, summary, congrArg Prod.snd hreplay⟩

/-- The replay has not returned, so no result is asked for. -/
theorem pass_without_results : ∃ s w, sampleScenario.start = some s ∧
    exec sampleScenario.poll s [⟨⟨some 0, false⟩, []⟩] = some w ∧ sampleScenario.verdict w = .pass ∧
      ¬ sampleScenario.Sound w := by
  refine ⟨_, _, rfl, rfl, rfl, fun hsound => ?_⟩
  exact List.not_mem_nil (hsound.1 0 (by rw [sampleScenario_batches]; exact one_pos))

end FlightPulse.Replay
