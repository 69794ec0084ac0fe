import FlightPulse.Ingestion.Acknowledgement

/-!
# What an instance hands to the queue

Every job carries the dump of a model that one of the requests validated to, so it
validates again wherever it is taken up. A reply with a request id says that the
entry with that id has been handed over.
-/

open Lib Lib.Run Lib.Python Lib.Pydantic

namespace FlightPulse.Ingestion

open Instance

variable {cfg : Config} {s t : Instance}

/-- The work that request `i` asks for. -/
def Asks (cfg : Config) (i : ℕ) : Work → Prop
  | .telemetry batch => Validates cfg i batch
  | .extractionLog entry => cfg.calls i = .postExtractionLog entry

/-- What is true of request `i` in each place that its handler can be. -/
def HandsOver (cfg : Config) (queue : List (ℕ × Job)) (i : ℕ) : Handler → Prop
  | .validating raw => cfg.parsed (cfg.calls i) = some raw
  | .acquiringLock work | .creatingPool work | .enqueueing work => Asks cfg i work
  | .replied (.logAccepted requestId) => ∃ entry, cfg.calls i = .postExtractionLog entry ∧
      entry.requestId = requestId ∧ (i, (Work.extractionLog entry).job) ∈ queue
  | _ => True

structure HandoverInv (cfg : Config) (s : Instance) : Prop where
  handlers : ∀ i, HandsOver cfg s.queue i (s.handler i)
  queue : ∀ i job, (i, job) ∈ s.queue → ∃ work : Work, job = work.job ∧ Asks cfg i work

theorem carries_handsOver {queue : List (ℕ × Job)} {i : ℕ} {h : Handler} {work : Work} (hc : h.carries work) :
    HandsOver cfg queue i h ↔ Asks cfg i work := by
  rcases hc with rfl | rfl | rfl <;> exact Iff.rfl

theorem HandsOver.append {queue : List (ℕ × Job)} (more : List (ℕ × Job)) {i : ℕ} {h : Handler}
    (hs : HandsOver cfg queue i h) : HandsOver cfg (queue ++ more) i h := by
  unfold HandsOver at hs ⊢
  split
  · exact hs
  · exact hs
  · exact hs
  · exact hs
  · obtain ⟨entry, hcall, hid, hmem⟩ := hs
    exact ⟨entry, hcall, hid, List.mem_append_left _ hmem⟩
  · trivial

theorem moves_handsOver {queue : List (ℕ × Job)} {cache cache' : Dict PyStr IngestResponse} {i : ℕ}
    {h h' : Handler} {ok : Bool} {jobs : List Job} (hm : Moves cfg (cfg.calls i) cache h ok h' cache' jobs)
    (hs : HandsOver cfg queue i h) : HandsOver cfg (queue ++ jobs.map (Prod.mk i)) i h' ∧
      ∀ job ∈ jobs, ∃ work : Work, job = work.job ∧ Asks cfg i work := by
  cases hm with
  | cached _ _ _ => exact ⟨trivial, by simp⟩
  | missed _ _ => exact ⟨trivial, by simp⟩
  | logged hcall hcarries => exact ⟨(carries_handsOver hcarries).mpr hcall, by simp⟩
  | parsed hraw => exact ⟨hraw, by simp⟩
  | unparsable _ => exact ⟨trivial, by simp⟩
  | valid hb hcarries => exact ⟨(carries_handsOver hcarries).mpr ⟨_, hs, hb⟩, by simp⟩
  | invalid _ => exact ⟨trivial, by simp⟩
  | onward hcarries hcarries' =>
    exact ⟨(carries_handsOver hcarries').mpr ((carries_handsOver hcarries).mp hs), by simp⟩
  | @enqueued work =>
    refine ⟨?_, fun job hjob => ⟨work, List.mem_singleton.mp hjob, hs⟩⟩
    cases work with
    | telemetry batch => trivial
    | extractionLog entry => exact ⟨entry, hs, rfl, by simp⟩
  | raised _ _ => exact ⟨trivial, by simp⟩

theorem handoverInv_step {e : Event} (hs : HandoverInv cfg s) (h : cfg.step s e = some t) :
    HandoverInv cfg t := by
  obtain ⟨jobs, hmove, hqueue, hframe⟩ := step_moves h
  obtain ⟨hmoved, hjobs⟩ := moves_handsOver hmove (hs.handlers e.request)
  refine ⟨fun i => ?_, fun i job hmem => ?_⟩
  · rcases eq_or_ne i e.request with rfl | hi
    · rw [hqueue]
      exact hmoved
    · rw [hframe i hi, hqueue]
      exact (hs.handlers i).append _
  · rw [hqueue, List.mem_append] at hmem
    rcases hmem with hmem | hmem
    · exact hs.queue i job hmem
    · obtain ⟨job', hjob', heq⟩ := List.mem_map.mp hmem
      obtain ⟨rfl, rfl⟩ := Prod.mk.inj heq
      exact hjobs _ hjob'

theorem handoverInv_init : HandoverInv cfg init :=
  ⟨fun _ => trivial, fun i job hmem => by simp [init] at hmem⟩

theorem handoverInv_run {es : List Event} (h : exec cfg.step init es = some s) : HandoverInv cfg s :=
  exec_invariant (fun _ _ _ hs h => handoverInv_step hs h) handoverInv_init h

theorem queue_prefix_step {e : Event} (h : cfg.step s e = some t) : s.queue <+: t.queue := by
  obtain ⟨jobs, -, hqueue, -⟩ := step_moves h
  exact hqueue ▸ List.prefix_append _ _

end FlightPulse.Ingestion
