import Mathlib.Algebra.BigOperators.Group.List.Basic
import Mathlib.Algebra.Order.Floor.Div
import FlightPulse.Collector.Normalizer
import FlightPulse.Lib.Dict
import FlightPulse.Replay.Fixture

/-!
# The replay engine (`replay/player.py`)

The batches of a fixture are submitted to a thread pool, and their outcomes are
counted as they complete, in whatever order that is. Pacing is left out.
-/

open Lib.Python Lib.Postgres
open scoped List

namespace FlightPulse.Replay

open Collector

inductive Mode where
  | replay
  | fresh

/-- What a run in fresh mode draws: the salt, and for each batch the clock and an id for each event. -/
structure FreshDraw where
  runSalt : Uuid
  nowIso : ℕ → PyStr
  uuid4 : ℕ → ℕ → Uuid

/-! ## `prepare_batch` -/

section

variable (host : Host)

def freshIngestionId (uuid4 : Uuid) (source icao24 lastContact : PyVal) (runSalt : PyStr) : Option PyStr :=
  match lastContact with
  | .none => some (uuidStr uuid4)
  | _ => host.hashed [.str runSalt, source, icao24, lastContact]

/-- One turn of the loop. `dict(ev)` is modelled for an object, which is all that a fixture holds. -/
def prepareEvent (nowIso runSalt : PyStr) (uuid4 : Uuid) : PyVal → Option PyVal
  | .dict ev => do
    let source := (PyVal.get? (str "source") ev).getD (.str (str "opensky"))
    let id ← freshIngestionId host uuid4 source (getOrNone "icao24" ev) (getOrNone "last_contact" ev) runSalt
    some <| .dict <|
      Lib.Dict.assign (str "ingested_at") (.str nowIso) (Lib.Dict.assign (str "ingestion_id") (.str id) ev)
  | _ => none

def prepareBatch (mode : Mode) (draw : FreshDraw) (i : ℕ) (events : List PyVal) : Option (List PyVal) :=
  match mode with
  | .replay => some events
  | .fresh =>
    events.zipIdx.mapM fun p => prepareEvent host (draw.nowIso i) (uuidStr draw.runSalt) (draw.uuid4 i p.2) p.1

/-! ## Submitting and counting -/

/-- The batches that are submitted from batch `i` on, and whether the loop came to its end. -/
def submitBatches (mode : Mode) (draw : FreshDraw) : ℕ → List (List PyVal) → List (List PyVal) × Bool
  | _, [] => ([], true)
  | i, batch :: rest =>
    match prepareBatch host mode draw i batch with
    | none => ([], false)
    | some prepared =>
      let r := submitBatches mode draw (i + 1) rest
      (prepared :: r.1, r.2)

end

/-- How `send_batch` ended for one batch. -/
inductive Outcome where
  | returned (ok : Bool)
  | raised

def Outcome.ok : Outcome → Bool
  | .returned ok => ok
  | .raised => false

structure Summary where
  batchesSent : ℕ
  eventsSent : ℕ
  failedBatches : ℕ
deriving DecidableEq

/-- The body of the loop over `as_completed(futures)`. -/
def Summary.count (s : Summary) (batchLen : ℕ) (outcome : Outcome) : Summary :=
  if outcome.ok then { s with batchesSent := s.batchesSent + 1, eventsSent := s.eventsSent + batchLen }
  else { s with batchesSent := s.batchesSent + 1, failedBatches := s.failedBatches + 1 }

def batchLen (submitted : List (List PyVal)) (i : ℕ) : ℕ := (submitted.getD i []).length

def gather (submitted : List (List PyVal)) (outcome : ℕ → Outcome) (completed : List ℕ) : Summary :=
  completed.foldl (fun s i => s.count (batchLen submitted i) (outcome i)) ⟨0, 0, 0⟩

inductive ReplayEnd where
  /-- `sys.exit(1)`. -/
  | exited
  | raised
  | summary (s : Summary)

/-- The batches that `run_replay` submits, and how it ends. A missing fixture file is `none`. -/
def runReplay {δ : Type} (codec : Codec δ) (host : Host) (mode : Mode) (draw : FreshDraw) (fixture : Option PyStr)
    (batchSize : ℕ) (outcome : ℕ → Outcome) (completed : List ℕ) : List (List PyVal) × ReplayEnd :=
  match fixture.map codec.loadFixture with
  | none => ([], .exited)
  | some none => ([], .raised)
  | some (some events) =>
    if events = [] then ([], .exited)
    else if batchSize = 0 then ([], .raised)
    else
      let r := submitBatches host mode draw 0 (chunks batchSize events)
      (r.1, if r.2 then .summary (gather r.1 outcome completed) else .raised)

/-! ## What is submitted -/

theorem submitBatches_replay (host : Host) (draw : FreshDraw) (i : ℕ) (batches : List (List PyVal)) :
    submitBatches host .replay draw i batches = (batches, true) := by
  induction batches generalizing i with
  | nil => rfl
  | cons batch rest ih => simp only [submitBatches, prepareBatch, ih]

theorem submitBatches_length {host : Host} {mode : Mode} {draw : FreshDraw} {i : ℕ}
    {batches submitted : List (List PyVal)} (h : submitBatches host mode draw i batches = (submitted, true)) :
    submitted.length = batches.length := by
  induction batches generalizing i submitted with
  | nil =>
    obtain rfl := (Prod.mk.inj h).1
    rfl
  | cons batch rest ih =>
    unfold submitBatches at h
    split at h
    · simp at h
    · obtain ⟨rfl, htrue⟩ := Prod.mk.inj h
      rw [List.length_cons, List.length_cons, ih (i := i + 1) (Prod.ext rfl htrue)]

theorem runReplay_loaded {δ : Type} {codec : Codec δ} {file : PyStr} {events : List PyVal}
    (h : codec.loadFixture file = some events) (hne : events ≠ []) (host : Host) (mode : Mode) (draw : FreshDraw)
    {batchSize : ℕ} (hsize : batchSize ≠ 0) (outcome : ℕ → Outcome) (completed : List ℕ) :
    runReplay codec host mode draw (some file) batchSize outcome completed =
      ((submitBatches host mode draw 0 (chunks batchSize events)).1,
        if (submitBatches host mode draw 0 (chunks batchSize events)).2 then
          .summary (gather (submitBatches host mode draw 0 (chunks batchSize events)).1 outcome completed)
        else .raised) := by
  unfold runReplay
  simp only [Option.map_some, h, hne, hsize, if_false]

theorem length_chunks {α : Type*} (size : ℕ) (xs : List α) : (chunks size xs).length = xs.length ⌈/⌉ size := by
  unfold chunks
  rw [List.length_map, List.length_range, Nat.ceilDiv_eq_add_pred_div]

theorem chunk_bounds {α : Type*} {size : ℕ} (hsize : 0 < size) {xs chunk : List α} (h : chunk ∈ chunks size xs) :
    chunk ≠ [] ∧ chunk.length ≤ size := by
  obtain ⟨i, hi, rfl⟩ := List.mem_map.mp h
  rw [List.mem_range, Nat.lt_div_iff_mul_lt hsize] at hi
  have hlt : i * size < xs.length := by omega
  rw [← List.length_pos_iff, List.length_take, List.length_drop]
  omega

/-! ## What is counted -/

/-- The events of the batches that failed, among those that completed. -/
def failedEvents (submitted : List (List PyVal)) (outcome : ℕ → Outcome) (completed : List ℕ) : ℕ :=
  ((completed.filter fun i => !(outcome i).ok).map (batchLen submitted)).sum

theorem foldl_count (submitted : List (List PyVal)) (outcome : ℕ → Outcome) (completed : List ℕ) (s : Summary) :
    let t := completed.foldl (fun s i => s.count (batchLen submitted i) (outcome i)) s
    t.batchesSent = s.batchesSent + completed.length ∧
      t.failedBatches = s.failedBatches + completed.countP (fun i => !(outcome i).ok) ∧
      t.eventsSent + failedEvents submitted outcome completed =
        s.eventsSent + (completed.map (batchLen submitted)).sum := by
  induction completed generalizing s with
  | nil => exact ⟨rfl, rfl, rfl⟩
  | cons i rest ih =>
    obtain ⟨hsent, hfailed, hevents⟩ := ih (s.count (batchLen submitted i) (outcome i))
    unfold failedEvents at hevents ⊢
    rw [List.foldl_cons, List.length_cons, List.countP_cons, List.map_cons, List.sum_cons, List.filter_cons]
    unfold Summary.count at hsent hfailed hevents ⊢
    cases hok : (outcome i).ok with
    | true =>
      simp only [hok, if_true, Bool.not_true, Bool.false_eq_true, if_false] at hsent hfailed hevents ⊢
      omega
    | false =>
      simp only [hok, if_true, Bool.not_false, Bool.false_eq_true, if_false, List.map_cons, List.sum_cons]
        at hsent hfailed hevents ⊢
      omega

theorem sum_batchLen (submitted : List (List PyVal)) :
    ((List.range submitted.length).map (batchLen submitted)).sum = submitted.flatten.length := by
  have hlengths : (List.range submitted.length).map (batchLen submitted) = submitted.map List.length := by
    apply List.ext_getElem
    · simp
    · intro i _ hi
      rw [List.length_map] at hi
      unfold batchLen
      simp [hi]
  rw [hlengths, List.length_flatten]

theorem failedEvents_perm {submitted : List (List PyVal)} {outcome : ℕ → Outcome} {completed completed' : List ℕ}
    (h : completed ~ completed') :
    failedEvents submitted outcome completed = failedEvents submitted outcome completed' := by
  unfold failedEvents
  exact ((h.filter _).map _).sum_eq

/-- Whatever the order of completion, the counters are those of the outcomes. -/
theorem gather_spec {submitted : List (List PyVal)} (outcome : ℕ → Outcome) {completed : List ℕ}
    (h : completed ~ List.range submitted.length) :
    (gather submitted outcome completed).batchesSent = submitted.length ∧
      (gather submitted outcome completed).failedBatches =
        (List.range submitted.length).countP (fun i => !(outcome i).ok) ∧
      (gather submitted outcome completed).eventsSent +
        failedEvents submitted outcome (List.range submitted.length) = submitted.flatten.length := by
  obtain ⟨hsent, hfailed, hevents⟩ := foldl_count submitted outcome completed ⟨0, 0, 0⟩
  rw [h.length_eq, List.length_range, Nat.zero_add] at hsent
  rw [h.countP_eq, Nat.zero_add] at hfailed
  rw [failedEvents_perm h, (h.map _).sum_eq, sum_batchLen, Nat.zero_add] at hevents
  exact ⟨hsent, hfailed, hevents⟩

theorem runReplay_batchesSent_pos {δ : Type} {codec : Codec δ} {host : Host} {mode : Mode} {draw : FreshDraw}
    {fixture : Option PyStr} {batchSize : ℕ} {outcome : ℕ → Outcome} {completed : List ℕ} {s : Summary}
    (hcompleted : completed ~ List.range
      (runReplay codec host mode draw fixture batchSize outcome completed).1.length)
    (h : (runReplay codec host mode draw fixture batchSize outcome completed).2 = .summary s) :
    0 < s.batchesSent := by
  unfold runReplay at h hcompleted
  cases fixture with
  | none => cases h
  | some text =>
    rw [Option.map_some] at h hcompleted
    cases hload : codec.loadFixture text with
    | none =>
      rw [hload] at h
      cases h
    | some events =>
      simp only [hload] at h hcompleted
      split_ifs at h hcompleted with hnil hsize hdone
      obtain rfl := ReplayEnd.summary.inj h
      rw [(gather_spec outcome hcompleted).1, submitBatches_length (Prod.ext rfl hdone), List.length_pos_iff]
      intro hchunks
      have hflat := flatten_chunks batchSize (Nat.pos_of_ne_zero hsize) events
      rw [hchunks] at hflat
      exact hnil hflat.symm

/-! ## Export, then replay -/

section

variable {δ : Type} (codec : Codec δ) (host : Host) (linesep : Linesep) (draw : FreshDraw)

/-- A replay of what was exported submits every payload once, in order, and counts what became of it. -/
theorem replay_of_export (hfloat : ∀ q, printable (codec.floatRepr q)) (rows : List (FixtureRow δ)) (file : PyStr)
    (n : ℕ) (hloads : ∀ row ∈ rows, ∀ text, jsonDumps codec.floatRepr (codec.record row) = some text →
      codec.loads text = some (codec.record row))
    (hexport : codec.exportFixture linesep rows = (file, some n)) (batchSize : ℕ) (hsize : 0 < batchSize) :
    let payloads := rows.map FixtureRow.payload
    codec.loadFixture file = some payloads ∧
      (payloads ≠ [] → ∀ outcome completed, completed ~ List.range (payloads.length ⌈/⌉ batchSize) →
        ∃ batches summary,
          runReplay codec host .replay draw (some file) batchSize outcome completed = (batches, .summary summary) ∧
          (∀ batch ∈ batches, batch ≠ [] ∧ batch.length ≤ batchSize) ∧ batches.flatten = payloads ∧
          summary.batchesSent = payloads.length ⌈/⌉ batchSize ∧
          summary.failedBatches = (List.range batches.length).countP (fun i => !(outcome i).ok) ∧
          summary.eventsSent + failedEvents batches outcome (List.range batches.length) = payloads.length) ∧
      (payloads = [] → ∀ outcome completed,
        runReplay codec host .replay draw (some file) batchSize outcome completed = ([], .exited)) := by
  intro payloads
  have hload : codec.loadFixture file = some payloads := loadFixture_exportFixture hfloat hloads hexport
  refine ⟨hload, fun hne outcome completed hperm => ?_, fun hnil outcome completed => ?_⟩
  · have hflat : (chunks batchSize payloads).flatten = payloads := flatten_chunks batchSize hsize payloads
    rw [← length_chunks] at hperm ⊢
    obtain ⟨hsent, hfailed, hevents⟩ := gather_spec outcome hperm
    refine ⟨chunks batchSize payloads, gather (chunks batchSize payloads) outcome completed, ?_,
      fun batch hbatch => chunk_bounds hsize hbatch, hflat, hsent, hfailed, by rw [hevents, hflat]⟩
    rw [runReplay_loaded hload hne _ _ _ (Nat.ne_of_gt hsize), submitBatches_replay]
    rfl
  · unfold runReplay
    simp only [Option.map_some, hload, hnil, if_true]

end

/-! ## A sample -/

def sampleDraw : FreshDraw := ⟨sampleUuid, fun _ => [], fun _ _ => sampleUuid⟩

/-- The payload has a newline, a carriage return and a line separator. -/
def sampleRow : FixtureRow PyStr where
  ingestionId := sampleUuid
  source := str "opensky"
  icao24 := str "4b1814"
  collectorId := none
  payload := .dict [(str "callsign", .str [0x41, 10, 0x42, 13, 0x2028])]
  receivedAt := str "2026-08-26T10:00:00+00:00"
  ingestedAt := str "2026-08-26T10:00:00+00:00"
  processedAt := none

def sampleRows : List (FixtureRow PyStr) :=
  [ sampleRow,
    { sampleRow with payload := .dict [(str "callsign", .none), (str "longitude", .float (.finite (33 / 4)))] },
    { sampleRow with payload := .dict [(str "latitude", .float (.finite (95 / 2))), (str "on_ground", .bool true)] } ]

/-- `repr` of the floats of the samples. -/
def sampleRepr (q : ℚ) : PyStr :=
  if q = 33 / 4 then str "8.25" else if q = 95 / 2 then str "47.5" else str "0.0"

theorem sampleRepr_printable (q : ℚ) : printable (sampleRepr q) := by
  unfold sampleRepr
  split_ifs <;> rfl

/-- `loads` of the lines of these rows. -/
def linesCodec (rows : List (FixtureRow PyStr)) : Codec PyStr where
  floatRepr := sampleRepr
  isoformat := id
  loads := fun s =>
    let codec : Codec PyStr := ⟨sampleRepr, fun _ => none, id⟩
    (rows.find? fun row => jsonDumps codec.floatRepr (codec.record row) = some s).map codec.record

theorem linesCodec_loads {rows : List (FixtureRow PyStr)}
    (h : (rows.map fun row => jsonDumps sampleRepr ((linesCodec rows).record row)).Nodup) :
    ∀ row ∈ rows, ∀ text, jsonDumps (linesCodec rows).floatRepr ((linesCodec rows).record row) = some text →
      (linesCodec rows).loads text = some ((linesCodec rows).record row) := by
  intro row hrow text htext
  have hfind : rows.find? (fun row => jsonDumps sampleRepr ((linesCodec rows).record row) = some text) = some row := by
    cases hfound : rows.find? (fun row => jsonDumps sampleRepr ((linesCodec rows).record row) = some text) with
    | none =>
      have hnone := List.find?_eq_none.mp hfound row hrow
      rw [decide_eq_true_eq] at hnone
      exact absurd htext hnone
    | some row' =>
      have htext' := List.find?_some hfound
      rw [decide_eq_true_eq] at htext'
      rw [List.inj_on_of_nodup_map h (List.mem_of_find?_eq_some hfound) hrow (htext'.trans htext.symm)]
  exact congrArg (Option.map _) hfind

def sampleCodec : Codec PyStr := linesCodec sampleRows

theorem sampleRows_dumps :
    ∀ row ∈ sampleRows, (jsonDumps sampleCodec.floatRepr (sampleCodec.record row)).isSome := by
  decide +kernel

theorem sampleCodec_loads : ∀ row ∈ sampleRows, ∀ text,
    jsonDumps sampleCodec.floatRepr (sampleCodec.record row) = some text →
      sampleCodec.loads text = some (sampleCodec.record row) :=
  linesCodec_loads (by decide +kernel)

/-- The first batch fails, and the second one has completed before. -/
def sampleOutcome (i : ℕ) : Outcome := if i = 0 then .raised else .returned true

/-- Three rows are two batches, the second of one row. -/
theorem replay_of_export_sample : ∃ file batches summary,
    sampleCodec.exportFixture .crlf sampleRows = (file, some 3) ∧
      sampleCodec.loadFixture file = some (sampleRows.map FixtureRow.payload) ∧
      runReplay sampleCodec sampleHost .replay sampleDraw (some file) 2 sampleOutcome [1, 0] =
        (batches, .summary summary) ∧ batches.map List.length = [2, 1] ∧
      batches.flatten = sampleRows.map FixtureRow.payload ∧ summary = ⟨2, 1, 1⟩ := by
  obtain ⟨file, hexport⟩ : ∃ file, sampleCodec.exportFixture .crlf sampleRows = (file, some 3) :=
    exportFixture_total sampleRows_dumps
  obtain ⟨hload, hrun, -⟩ := replay_of_export sampleCodec sampleHost .crlf sampleDraw sampleRepr_printable sampleRows
    file 3 sampleCodec_loads hexport 2 (by decide)
  obtain ⟨batches, summary, hend, -, hflat, -⟩ := hrun (by simp [sampleRows]) sampleOutcome [1, 0] (by decide)
  have hbatches := runReplay_loaded hload (by simp [sampleRows]) sampleHost .replay sampleDraw two_ne_zero
    sampleOutcome [1, 0]
  rw [submitBatches_replay, hend] at hbatches
  obtain ⟨rfl, hsummary⟩ := Prod.mk.inj hbatches
  obtain rfl := ReplayEnd.summary.inj hsummary
  exact ⟨file, _, _, hexport, hload, hend, rfl, hflat, rfl⟩

/-- An export without rows is a fixture that is refused. -/
theorem replay_of_empty_export : ∃ file, sampleCodec.exportFixture .lf [] = (file, some 0) ∧
    ∀ outcome, ¬ ∃ batches summary,
      runReplay sampleCodec sampleHost .replay sampleDraw (some file) 8000 outcome [] =
        (batches, .summary summary) := by
  refine ⟨[], rfl, fun outcome => ?_⟩
  rintro ⟨batches, summary, hrun⟩
  cases hrun

end FlightPulse.Replay
