import FlightPulse.Lib.LockOrder
import FlightPulse.Worker.Delivery

/-!
# Concurrent inserts

Every transaction of `persist_batch` passes over its rows in the order of their ids,
through all of its chunks. That is what keeps two of them from waiting for each other.
-/

open Lib Lib.Python Lib.Pydantic Lib.Postgres Lib.Psycopg Lib.Run Lib.Transactions

namespace FlightPulse.Worker

open Ingestion

structure PersistCall where
  events : List TelemetryEvent
  now : Timestamptz

/-- The rows that the transaction of `persist_batch` passes over. -/
def Env.transactionRows (env : Env) (call : PersistCall) : List DbRow :=
  match call.events.mapM eventToRow with
  | none => []
  | some rows => env.passedChunks call.now (chunks insertChunkSize (sortRows rows))

variable {env : Env}

theorem passedRows_eq (x : Execution) : env.passedRows x = env.transactionRows ⟨processed x.batch, x.now⟩ := rfl

/-- The spelling that `str(uuid)` gives. -/
def CanonicalId (e : TelemetryEvent) : Prop := ∃ u, e.ingestionId = uuidStr u

/-! ## The order of the rows -/

variable (env) in
theorem exists_passed (now : Timestamptz) (chunked : List (List Row)) :
    ∃ passed, passed <+: chunked.flatten ∧ passed.mapM (env.admitRow now) = some (env.passedChunks now chunked) := by
  induction chunked with
  | nil => exact ⟨[], List.prefix_refl _, rfl⟩
  | cons chunk rest ih =>
    unfold Env.passedChunks
    cases hchunk : chunk.mapM (env.admitRow now) with
    | none => exact ⟨[], List.nil_prefix, rfl⟩
    | some rows =>
      obtain ⟨passed, hpre, hpassed⟩ := ih
      refine ⟨chunk ++ passed, ?_, ?_⟩
      · rw [List.flatten_cons]
        exact (List.prefix_append_right_inj chunk).mpr hpre
      · rw [List.mapM_append, hchunk, hpassed]
        rfl

theorem pairwise_of_mapM {α β : Type*} {f : α → Option β} {R : α → α → Prop} {S : β → β → Prop} {xs : List α}
    {ys : List β} (h : xs.mapM f = some ys) (hR : xs.Pairwise R)
    (hRS : ∀ a ∈ xs, ∀ b ∈ xs, R a b → ∀ a' b', f a = some a' → f b = some b' → S a' b') : ys.Pairwise S := by
  induction xs generalizing ys with
  | nil =>
    obtain rfl : [] = ys := Option.some.inj h
    exact .nil
  | cons x xs ih =>
    obtain ⟨y, ys', hy, hys, rfl⟩ := mapM_cons_eq_some.mp h
    obtain ⟨hx, hxs⟩ := List.pairwise_cons.mp hR
    refine List.pairwise_cons.mpr ⟨fun z hz => ?_, ih hys hxs fun a ha b hb =>
      hRS a (List.mem_cons_of_mem _ ha) b (List.mem_cons_of_mem _ hb)⟩
    obtain ⟨w, hw, hwz⟩ := exists_of_mem_result hys hz
    exact hRS x List.mem_cons_self w (List.mem_cons_of_mem _ hw) (hx w hw) y z hy hwz

theorem pairwise_transactionRows {call : PersistCall} (h : ∀ e ∈ call.events, CanonicalId e) :
    (env.transactionRows call).Pairwise fun a b => uuidStr a.ingestionId ≤ uuidStr b.ingestionId := by
  unfold Env.transactionRows
  cases hrows : call.events.mapM eventToRow with
  | none => exact .nil
  | some rows =>
    obtain ⟨passed, hpre, hpassed⟩ := exists_passed env call.now (chunks insertChunkSize (sortRows rows))
    rw [flatten_chunks insertChunkSize (by decide)] at hpre
    have hcanonical : ∀ row ∈ passed, ∀ r, env.admitRow call.now row = some r →
        row.ingestionId = uuidStr r.ingestionId := by
      intro row hrow r hr
      obtain ⟨e, he, heq⟩ := exists_of_mem_result hrows (mem_sortRows.mp (hpre.subset hrow))
      obtain ⟨u, hu⟩ := h e he
      have hparsed := admitRow_ingestionId hr
      rw [eventToRow_ingestionId heq, hu, parseUuid_uuidStr, Option.some.injEq] at hparsed
      rw [eventToRow_ingestionId heq, hu, hparsed]
    refine pairwise_of_mapM hpassed ((pairwise_sortRows rows).sublist hpre.sublist) ?_
    intro a ha b hb hab a' b' ha' hb'
    rw [← hcanonical a ha a' ha', ← hcanonical b hb b' hb']
    exact hab

/-! ## No deadlock -/

variable {ι : Type*} [Fintype ι] [DecidableEq ι]

/-- However many of them run over whatever tables, none waits for itself through others. -/
theorem inserts_never_deadlock (env : Env) (calls : ι → PersistCall)
    (hcanonical : ∀ i, ∀ e ∈ (calls i).events, CanonicalId e) (initial : RawTelemetry) (es : List (Event ι))
    (s : Store ι DbRow)
    (h : exec (step DbRow.ingestionId fun i => env.transactionRows (calls i)) (Store.init initial.rows) es = some s)
    (i : ι) : ¬ Relation.TransGen (s.locks DbRow.ingestionId).Waits i i :=
  no_deadlock uuidStr_injective (fun i => pairwise_transactionRows (hcanonical i)) initial.nodup h i

theorem canonicalId_sample : CanonicalId (sampleEvent sampleId) := by
  have hspelled : (parseUuid sampleId).map uuidStr = some sampleId := by decide +kernel
  obtain ⟨u, -, hu⟩ := Option.map_eq_some_iff.mp hspelled
  exact ⟨u, hu.symm⟩

def sampleCalls : Fin 2 → PersistCall := fun _ => ⟨[sampleEvent sampleId], .at 0⟩

/-- The second waits for the first, and the first for nobody. -/
theorem inserts_never_deadlock_waiting : ∃ s : Store (Fin 2) DbRow,
    exec (step DbRow.ingestionId fun i => sampleEnv.transactionRows (sampleCalls i))
        (Store.init emptyWorld.rawTelemetry.rows) [.start 0, .start 1, .insert 0] = some s ∧
      (s.locks DbRow.ingestionId).Waits 1 0 ∧
      ∀ i, ¬ Relation.TransGen (s.locks DbRow.ingestionId).Waits i i := by
  obtain ⟨r, hr⟩ : ∃ r, sampleEnv.transactionRows ⟨[sampleEvent sampleId], .at 0⟩ = [r] :=
    List.length_eq_one_iff.mp (by decide +kernel)
  let s0 : Store (Fin 2) DbRow := (Store.init emptyWorld.rawTelemetry.rows).put 0 (.running [r] [])
  let s1 : Store (Fin 2) DbRow := s0.put 1 (.running [r] [])
  let s : Store (Fin 2) DbRow := s1.put 0 (.running [] [r])
  have hfree : ¬ Held DbRow.ingestionId s1 0 r.ingestionId := by
    rintro ⟨j, hj, hmem⟩
    obtain rfl : j = 1 := by omega
    simp [s1, Phase.inserted] at hmem
  have hinsert :
      step DbRow.ingestionId (fun i => sampleEnv.transactionRows (sampleCalls i)) s1 (.insert 0) = some s := by
    have hphase : s1.phase 0 = .running [r] [] := rfl
    unfold step
    simp only [hphase]
    rw [if_neg hfree, if_neg (by simp [s1, s0, emptyWorld, Store.init])]
    rfl
  have h : exec (step DbRow.ingestionId fun i => sampleEnv.transactionRows (sampleCalls i))
      (Store.init emptyWorld.rawTelemetry.rows) [.start 0, .start 1, .insert 0] = some s := by
    have hstart : ∀ i, sampleEnv.transactionRows (sampleCalls i) = [r] := fun _ => hr
    simp only [exec_cons]
    rw [show step _ _ _ (.start 0) = some s0 by simp only [step, Store.init, hstart]; rfl, Option.bind_some,
      show step _ _ _ (.start 1) = some s1 by simp only [step, hstart]; rfl, Option.bind_some, hinsert]
    rfl
  refine ⟨s, h, ⟨by decide, r.ingestionId, ⟨r, [], [], rfl, rfl⟩, List.mem_singleton_self _⟩, fun i => ?_⟩
  exact inserts_never_deadlock sampleEnv sampleCalls
    (fun i e he => by rw [List.mem_singleton.mp he]; exact canonicalId_sample) emptyWorld.rawTelemetry _ s h i

/-- A cycle is what could stop them all: one of those that run can always go on. -/
theorem inserts_always_move (env : Env) (calls : ι → PersistCall)
    (hcanonical : ∀ i, ∀ e ∈ (calls i).events, CanonicalId e) (initial : RawTelemetry) (es : List (Event ι))
    (s : Store ι DbRow)
    (h : exec (step DbRow.ingestionId fun i => env.transactionRows (calls i)) (Store.init initial.rows) es = some s)
    (i : ι) (todo inserted : List DbRow) (hi : s.phase i = .running todo inserted) :
    ∃ j e t, (e = .insert j ∨ e = .commit j) ∧
      step DbRow.ingestionId (fun i => env.transactionRows (calls i)) s e = some t :=
  someone_moves
    (no_deadlock uuidStr_injective (fun i => pairwise_transactionRows (hcanonical i)) initial.nodup h) hi

theorem canonicalId_processed {batch : TelemetryBatch} (h : ∀ e ∈ batch.events, CanonicalId e) {e : TelemetryEvent}
    (he : e ∈ processed batch) : CanonicalId e := by
  obtain ⟨e', he', rfl⟩ := mem_of_mem_processed he
  unfold normalizeEvent
  split
  · exact h e' he'
  · exact h e' he'

theorem deliveries_never_deadlock (env : Env) (x : ι → Execution)
    (hcanonical : ∀ i, ∀ e ∈ (x i).batch.events, CanonicalId e) (initial : RawTelemetry) (es : List (Event ι))
    (s : Store ι DbRow) (h : exec (env.deliveryStep x) (Store.init initial.rows) es = some s) (i : ι) :
    ¬ Relation.TransGen (s.locks DbRow.ingestionId).Waits i i := by
  have hsorted : ∀ i, (env.passedRows (x i)).Pairwise
      fun a b => uuidStr a.ingestionId ≤ uuidStr b.ingestionId := by
    intro i
    rw [passedRows_eq]
    exact pairwise_transactionRows fun e he => canonicalId_processed (hcanonical i) he
  exact no_deadlock uuidStr_injective hsorted initial.nodup (exec_of_deliveries h) i

end FlightPulse.Worker
