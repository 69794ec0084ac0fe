import FlightPulse.Ingestion.BadInput
import FlightPulse.Ingestion.Outage
import FlightPulse.LoadBalancer.Failover

/-!
# The verdict on a Redis failure (`replay/fault_injection.py`)

The scenario stops Redis, posts probes through the load balancer, and compares what the
balancer says of its backends before and meanwhile. Then it starts Redis again, restarts
nothing else and posts one more probe.
-/

open Lib Lib.Run Lib.Python

namespace FlightPulse.Replay.RedisFailure

open LoadBalancer Ingestion

/-! ## `probe_telemetry_endpoint` -/

/-- The clock is read three times, and `ingestion_id` is a new UUID. -/
structure ProbeDraw where
  timePosition : ℤ
  lastContact : ℤ
  nowIso : PyStr
  ingestionId : PyStr

def payload (d : ProbeDraw) : PyVal :=
  .dict
    [ (str "events",
        .list
          [ .dict
              [ (str "source", .str (str "opensky")),
                (str "icao24", .str (str "000000")),
                (str "callsign", .str (str "FAULTPROBE")),
                (str "origin_country", .str (str "test")),
                (str "time_position", .int d.timePosition),
                (str "last_contact", .int d.lastContact),
                (str "longitude", .float (.finite 0)),
                (str "latitude", .float (.finite 0)),
                (str "baro_altitude_m", .float (.finite 0)),
                (str "geo_altitude_m", .float (.finite 0)),
                (str "velocity_mps", .float (.finite 0)),
                (str "true_track_deg", .float (.finite 0)),
                (str "vertical_rate_mps", .float (.finite 0)),
                (str "on_ground", .bool false),
                (str "ingested_at", .str d.nowIso),
                (str "ingestion_id", .str d.ingestionId),
                (str "collector_id", .str (str "fault_injection_probe")) ] ]) ]

/-- The batch that the payload is validated to. -/
def probeBatch (d : ProbeDraw) : TelemetryBatch where
  events :=
    [ { source := str "opensky"
        icao24 := str "000000"
        callsign := some (str "FAULTPROBE")
        originCountry := some (str "test")
        timePosition := some d.timePosition
        lastContact := some d.lastContact
        longitude := some (.finite 0)
        latitude := some (.finite 0)
        baroAltitudeM := some (.finite 0)
        geoAltitudeM := some (.finite 0)
        velocityMps := some (.finite 0)
        trueTrackDeg := some (.finite 0)
        verticalRateMps := some (.finite 0)
        onGround := some false
        ingestedAt := d.nowIso
        ingestionId := d.ingestionId
        collectorId := some (str "fault_injection_probe") } ]

theorem payload_valid (lax : Pydantic.Lax) (d : ProbeDraw) :
    TelemetryBatch.modelValidate lax (payload d) = .ok (probeBatch d) :=
  TelemetryBatch.modelValidate_modelDump lax (probeBatch d)

inductive Probe where
  | response (statusCode : ℕ)
  | timeout
  | exception
deriving DecidableEq

namespace Probe

/-- `outcome == "response" and 200 <= status_code < 300`. -/
def succeeds : Probe → Bool
  | .response statusCode => 200 ≤ statusCode && statusCode < 300
  | _ => false

def failsVisibly : Probe → Bool
  | .response statusCode => 500 ≤ statusCode
  | _ => true

/-- The probe reports the reply, or it could not wait for it. -/
def Reports (reply : Option LoadBalancer.Reply) : Probe → Prop
  | .response statusCode => reply.map LoadBalancer.Reply.statusCode = some statusCode
  | _ => True

end Probe

/-! ## `run_redis_failure_scenario` -/

inductive Verdict where
  | fail
  | pass
  | inconclusive
deriving DecidableEq

def silentSuccess (probes : List Probe) : Bool := probes.any Probe.succeeds

def gotVisibleFailure (probes : List Probe) : Bool := probes.any Probe.failsVisibly

def verdict (probesDuringOutage : List Probe) : Verdict :=
  if silentSuccess probesDuringOutage then .fail
  else if gotVisibleFailure probesDuringOutage then .pass
  else .inconclusive

/-- `none` stands for an answer that `_fetch_json` did not get. -/
def backendFalselyUnhealthy (baseline during : Option (Dict Url BackendState)) : Bool :=
  match baseline, during with
  | some baseline, some during =>
    during.entries.any fun p => baseline.get? p.1 = some .healthy && p.2 = .unhealthy
  | _, _ => false

/-! ## The instances behind the balancer -/

/-- An instance at the moment when Redis stops. -/
structure Backend where
  cfg : Config
  before : List Ingestion.Event
  found : Instance
  reached : exec cfg.step .init before = some found

namespace Backend

/-- Request `i` is a probe. -/
def Posts (b : Backend) (i : ℕ) (d : ProbeDraw) (body : Bytes) : Prop :=
  (∃ key, b.cfg.calls i = .postTelemetry (some key) body) ∧ b.cfg.loads body = some (payload d)

/-- A probe that came while Redis was down, under a new key, is answered with that status. -/
def AnswersDown (b : Backend) (depth : ℕ) (body : Bytes) (statusCode : ℕ) : Prop :=
  ∃ es u i d reply, exec b.cfg.step b.found es = some u ∧ Meets b.cfg.step RedisDown b.found es ∧
    b.Posts i d body ∧ b.found.handler i = .waiting ∧
    (b.cfg.calls i).key?.bind b.found.idempotencyCache.get? = none ∧
    u.handler i = .replied reply ∧ statusCode = reply.statusCode depth

/-- The same with Redis back. -/
def AnswersUp (b : Backend) (depth : ℕ) (body : Bytes) (statusCode : ℕ) : Prop :=
  ∃ es u i d reply, exec b.cfg.step .init (b.before ++ es) = some u ∧
    Meets b.cfg.step (BadInput.Undisturbed b.cfg i) .init (b.before ++ es) ∧
    b.Posts i d body ∧ encodable d.ingestionId ∧ u.handler i = .replied reply ∧ statusCode = reply.statusCode depth

variable {b : Backend} {depth statusCode : ℕ} {body : Bytes}

theorem answersDown_eq (h : b.AnswersDown depth body statusCode) : statusCode = 500 := by
  obtain ⟨es, u, i, d, reply, hu, hdown, ⟨⟨key, hcall⟩, hloads⟩, hwaiting, hfresh, hreply, rfl⟩ := h
  rcases (unclaimed_run b.reached hu hdown).replies i reply hreply with hbefore | houtage
  · rw [hwaiting] at hbefore
    cases hbefore
  · cases reply with
    | accepted resp =>
      obtain ⟨k, -, -, hkey, -, hget, -⟩ := houtage
      rw [hkey, Option.bind_some, hget] at hfresh
      cases hfresh
    | logAccepted requestId => exact houtage.elim
    | unprocessable errors =>
      obtain ⟨raw, hraw, hinvalid⟩ := houtage
      rw [hcall] at hraw
      have heq : raw = payload d := Option.some.inj (hraw.symm.trans hloads)
      rw [heq, payload_valid] at hinvalid
      cases hinvalid
    | serverError => rfl

theorem answersUp_eq (h : b.AnswersUp depth body statusCode) : statusCode = 200 := by
  obtain ⟨es, u, i, d, reply, hu, hundisturbed, ⟨⟨key, hcall⟩, hloads⟩, hid, hreply, rfl⟩ := h
  have hreached := BadInput.reached_run hcall hu hundisturbed
  rw [hreply] at hreached
  have houtcome : BadInput.outcome b.cfg body = (reply, BadInput.jobsOf u.queue i) := hreached
  have hbatch := payload_valid b.cfg.lax d
  have haccepted : BadInput.outcome b.cfg body =
      ((Work.telemetry (probeBatch d)).reply, [(Work.telemetry (probeBatch d)).job]) := by
    simp [BadInput.outcome, hloads, hbatch]
  rw [haccepted, Prod.mk.injEq] at houtcome
  rw [← houtcome.1]
  rcases BadInput.statusCode_accepted depth (probeBatch d) with ⟨hstatus, -⟩ | ⟨-, hnot⟩
  · exact hstatus
  · exact absurd (by simpa [TelemetryBatch.ids, probeBatch] using hid) hnot

end Backend

/-! ## The probes behind the balancer -/

/-- A request that reaches the instances as a probe does, where it reaches them. -/
def ProbesDown (backends : Url → Backend) (depth : ℕ) (c : LoadBalancer.Call) : Prop :=
  ∀ k b r, (c.turns k).answer (forwardOnce c.req b) = .response r →
    (backends b).AnswersDown depth c.req.body r.statusCode

def ProbesUp (backends : Url → Backend) (depth : ℕ) (c : LoadBalancer.Call) : Prop :=
  ∀ k b r, (c.turns k).answer (forwardOnce c.req b) = .response r →
    (backends b).AnswersUp depth c.req.body r.statusCode

section

variable {backends : Url → Backend} {depth : ℕ} {lb : Balancer} {maxRetries : ℤ}

theorem statusCode_own {reply : LoadBalancer.Reply} (h : ∀ resp, reply ≠ .relayed resp) :
    reply.statusCode = 500 ∨ reply.statusCode = 502 ∨ reply.statusCode = 503 := by
  cases reply with
  | noHealthyBackend => exact .inr (.inr rfl)
  | badGateway => exact .inr (.inl rfl)
  | relayed resp => exact absurd rfl (h resp)
  | raised => exact .inl rfl

theorem probe_failsVisibly {calls : List LoadBalancer.Call} {s : LoadBalancer.Served} {p : Probe}
    (hs : s ∈ (serve maxRetries calls lb).1)
    (hprobe : ProbesDown backends depth s.call) (hp : p.Reports s.left.reply) :
    p.succeeds = false ∧ p.failsVisibly = true := by
  cases p with
  | timeout => exact ⟨rfl, rfl⟩
  | exception => exact ⟨rfl, rfl⟩
  | response statusCode =>
    obtain ⟨reply, hreply, rfl⟩ := Option.map_eq_some_iff.mp hp
    have hstatus : reply.statusCode = 500 ∨ reply.statusCode = 502 ∨ reply.statusCode = 503 := by
      by_cases hrelayed : ∃ resp, reply = .relayed resp
      · obtain ⟨resp, rfl⟩ := hrelayed
        rw [served_left hs] at hreply
        obtain ⟨k, b, r, hr, rfl⟩ := proxy_relayed hreply
        exact .inl (Backend.answersDown_eq (hprobe k b r hr))
      · exact statusCode_own fun resp h => hrelayed ⟨resp, h⟩
    rcases hstatus with h | h | h <;> rw [h] <;> decide

theorem verdict_pass {probes : List Probe} (hne : probes ≠ [])
    (h : ∀ p ∈ probes, p.succeeds = false ∧ p.failsVisibly = true) : verdict probes = .pass := by
  have hsilent : silentSuccess probes = false := by
    unfold silentSuccess
    rw [List.any_eq_false]
    intro p hp
    simp [(h p hp).1]
  obtain ⟨p, hp⟩ := List.exists_mem_of_ne_nil probes hne
  have hvisible : gotVisibleFailure probes = true := List.any_eq_true.mpr ⟨p, hp, (h p hp).2⟩
  simp [verdict, hsilent, hvisible]

/-! ## Backends that are shown UNHEALTHY -/

/-- What has happened to the backends between the two looks at `/lb-status`. -/
def window (maxRetries : ℤ) (calls : List LoadBalancer.Call) (answers : List (Url × Bool)) (lb : Balancer) :
    List Action :=
  serveActions maxRetries calls lb ++ checks answers

theorem backendFalselyUnhealthy_iff (maxRetries : ℤ) (calls : List LoadBalancer.Call) (answers : List (Url × Bool))
    (lb : Balancer) :
    backendFalselyUnhealthy (some (lbStatus lb))
        (some (lbStatus ((serve maxRetries calls lb).2.checkAll answers))) = true ↔
      ∃ u ∈ lb.healthyBackends, (∃ a ∈ window maxRetries calls answers lb, a.fails u = true) ∧
        passesBehind u (window maxRetries calls answers lb) = 0 := by
  have hchecker : ((serve maxRetries calls lb).2.checkAll answers).healthChecker =
      replay lb.healthChecker (window maxRetries calls answers lb) := by
    unfold window
    rw [replay_checks, replay_serve, replay_append]
  unfold backendFalselyUnhealthy
  rw [List.any_eq_true]
  constructor
  · rintro ⟨⟨u, state⟩, hmem, hfalsely⟩
    simp only [Bool.and_eq_true, decide_eq_true_eq] at hfalsely
    obtain ⟨hbefore, rfl⟩ := hfalsely
    have hnow : ((serve maxRetries calls lb).2.checkAll answers).healthChecker.stateOf u = some .unhealthy :=
      (Dict.mem_entries_iff _ _ _).mp hmem
    rw [hchecker] at hnow
    exact ⟨u, (mem_healthy lb u).mpr hbefore, (unhealthy_replay hbefore _).2.mp hnow⟩
  · rintro ⟨u, hu, hfailed⟩
    have hbefore := (mem_healthy lb u).mp hu
    have hnow := (unhealthy_replay hbefore _).2.mpr hfailed
    rw [← hchecker] at hnow
    refine ⟨(u, .unhealthy), (Dict.mem_entries_iff _ _ _).mpr hnow, ?_⟩
    simp only [Bool.and_eq_true, decide_eq_true_eq]
    exact ⟨hbefore, trivial⟩

/-! ## The probe after the restart -/

/-- While every backend is live, the first pass is the last one. -/
theorem relayed_of_live {req : Request} {turns : ℕ → Turn} (h : Outage (fun _ => true) req turns)
    (hretries : 0 ≤ maxRetries) (hhealthy : lb.healthyBackends ≠ []) :
    ∃ resp, (proxy maxRetries req turns lb).reply = some (.relayed resp) := by
  obtain ⟨u, hu⟩ := List.exists_mem_of_ne_nil _ hhealthy
  have hstill := (steady_selecting h (Loop.start lb) 0).up u rfl hu
  obtain ⟨n, hallowed⟩ : ∃ n, attemptsAllowed maxRetries req = n + 1 := by
    refine ⟨attemptsAllowed maxRetries req - 1, ?_⟩
    unfold attemptsAllowed
    split <;> omega
  cases hsel : ((Loop.start lb).selecting (turns 0)).selected with
  | none =>
    rw [(Balancer.selected_eq_none_iff _).mp hsel] at hstill
    cases hstill
  | some b =>
    obtain ⟨r, hr⟩ := h.up 0 b rfl
    have hfirst : (passes req (n + 1) turns lb 1).reply = some (.relayed (relay r)) := by
      -- nothing has been tried, so nothing is skipped
      have hskips : (Loop.start lb).skips (turns 0) b = false := rfl
      have hrun : Running req (n + 1) turns lb 0 := rfl
      rw [passes_succ hrun]
      unfold Loop.pass
      simp only [passes, hsel, hskips, Bool.false_eq_true, if_false, Loop.forward, hr]
    have hended : ¬ Running req (n + 1) turns lb 1 := by
      unfold Running
      simp [hfirst]
    refine ⟨relay r, ?_⟩
    unfold proxy
    dsimp only
    rw [hallowed, passes_frozen hended (Nat.le_add_left 1 n), hfirst]
    rfl

theorem recovery_succeeds_iff {recovery : LoadBalancer.Call} {statusCode : ℕ} (hup : ProbesUp backends depth recovery)
    (hp : (Probe.response statusCode).Reports (proxy maxRetries recovery.req recovery.turns lb).reply) :
    (Probe.response statusCode).succeeds = true ↔
      ∃ resp, (proxy maxRetries recovery.req recovery.turns lb).reply = some (.relayed resp) := by
  obtain ⟨reply, hreply, rfl⟩ := Option.map_eq_some_iff.mp hp
  rw [hreply]
  by_cases hrelayed : ∃ resp, reply = .relayed resp
  · obtain ⟨resp, rfl⟩ := hrelayed
    obtain ⟨k, b, r, hr, rfl⟩ := proxy_relayed hreply
    have h200 : (LoadBalancer.Reply.relayed (relay r)).statusCode = 200 := Backend.answersUp_eq (hup k b r hr)
    rw [h200]
    exact iff_of_true (by decide) ⟨_, rfl⟩
  · refine iff_of_false ?_ fun ⟨resp, h⟩ => hrelayed ⟨resp, Option.some.inj h⟩
    rcases statusCode_own fun resp h => hrelayed ⟨resp, h⟩ with h | h | h <;> rw [h] <;> decide

/-! ## The summary -/

/-- Whatever passes through the balancer while Redis is down, and whatever becomes of it there, the scenario
passes. It calls a backend falsely unhealthy just when a forward to it or a probe of it has failed, and no probe
has passed since. The probe after the restart succeeds just when an answer is relayed to it, as it is where some
backend is HEALTHY and all of them answer. -/
theorem redis_failure_passes {calls : List LoadBalancer.Call} (answers : List (Url × Bool)) {probes : List Probe}
    (hne : probes ≠ [])
    (hprobes : ∀ p ∈ probes, ∃ s ∈ (serve maxRetries calls lb).1,
      ProbesDown backends depth s.call ∧ p.Reports s.left.reply) :
    verdict probes = .pass ∧
      (backendFalselyUnhealthy (some (lbStatus lb))
          (some (lbStatus ((serve maxRetries calls lb).2.checkAll answers))) = true ↔
        ∃ u ∈ lb.healthyBackends, (∃ a ∈ window maxRetries calls answers lb, a.fails u = true) ∧
          passesBehind u (window maxRetries calls answers lb) = 0) ∧
      ∀ later recovery statusCode, ProbesUp backends depth recovery →
        (Probe.response statusCode).Reports (proxy maxRetries recovery.req recovery.turns later).reply →
        ((Probe.response statusCode).succeeds = true ↔
          ∃ resp, (proxy maxRetries recovery.req recovery.turns later).reply = some (.relayed resp)) ∧
        (0 ≤ maxRetries → later.healthyBackends ≠ [] → Outage (fun _ => true) recovery.req recovery.turns →
          (Probe.response statusCode).succeeds = true) := by
  refine ⟨verdict_pass hne fun p hp => ?_, backendFalselyUnhealthy_iff maxRetries calls answers lb,
    fun later recovery statusCode hup hp => ?_⟩
  · obtain ⟨s, hs, hdown, hreports⟩ := hprobes p hp
    exact probe_failsVisibly hs hdown hreports
  · have hiff := recovery_succeeds_iff hup hp
    exact ⟨hiff, fun hretries hhealthy hlive => hiff.mpr (relayed_of_live hlive hretries hhealthy)⟩

end

def probeBody : Bytes := bytes "probe"

def probeDraw : ProbeDraw := ⟨1000, 1000, str "1970-01-01T00:16:40Z", str "p"⟩

def probeKey : ℕ → PyStr
  | 0 => str "fault-probe-0"
  | 1 => str "fault-probe-1"
  | _ => str "fault-probe-2"

def probed : Config where
  loads := fun body => if body = probeBody then some (payload probeDraw) else none
  lax := .strict
  calls := fun i => .postTelemetry (some (probeKey i)) probeBody

def probedBackend : Backend where
  cfg := probed
  before := servedOnce
  found := (exec probed.step .init servedOnce).getD .init
  reached := rfl

def probing (i statusCode : ℕ) : LoadBalancer.Call where
  req := ⟨.post, str "telemetry", [(str "Idempotency-Key", probeKey i)], [], probeBody⟩
  turns := fun _ => ⟨[], [], [], fun _ => .response ⟨statusCode, Dict.empty, []⟩, 0⟩

def servedAfter : List Ingestion.Event := [.start 2, .resume 2 true, .resume 2 true, .resume 2 true]

theorem probesDown_probing : ProbesDown (fun _ => probedBackend) 990 (probing 1 500) := by
  intro k b r hr
  obtain rfl : ⟨500, Dict.empty, []⟩ = r := by injection hr
  refine ⟨refusedOnce, _, 1, probeDraw, .serverError, rfl, ?_, ⟨⟨_, rfl⟩, rfl⟩, rfl, rfl, rfl, rfl⟩
  refine (meets_cons rfl).mpr ⟨fun i hi => (by cases hi), ?_⟩
  refine (meets_cons rfl).mpr ⟨fun i hi => (by cases hi; rintro ⟨work, hw | hw⟩ <;> cases hw), ?_⟩
  refine (meets_cons rfl).mpr ⟨fun i hi => (by cases hi; rintro ⟨work, hw | hw⟩ <;> cases hw), ?_⟩
  exact (meets_cons rfl).mpr ⟨fun i hi => (by cases hi), trivial⟩

theorem probesUp_probing : ProbesUp (fun _ => probedBackend) 990 (probing 2 200) := by
  intro k b r hr
  obtain rfl : ⟨200, Dict.empty, []⟩ = r := by injection hr
  refine ⟨refusedOnce ++ servedAfter, _, 2, probeDraw, .accepted (response (probeBatch probeDraw)), rfl, ?_,
    ⟨⟨_, rfl⟩, rfl⟩, rfl, rfl, rfl⟩
  -- what fails belongs to another request, and the key is new when this one starts
  iterate 9 refine (meets_cons rfl).mpr ⟨⟨by simp, by simp⟩, ?_⟩
  refine (meets_cons rfl).mpr ⟨⟨by simp, fun _ => rfl⟩, ?_⟩
  iterate 3 refine (meets_cons rfl).mpr ⟨⟨by simp, by simp⟩, ?_⟩
  trivial

/-- The forward of a probe takes longer than the balancer waits. -/
def stalling : LoadBalancer.Call where
  req := (probing 1 500).req
  turns := fun _ => ⟨[], [], [], fun _ => .requestException .timeout, 0⟩

theorem live_probing (i statusCode : ℕ) :
    Outage (fun _ => true) (probing i statusCode).req (probing i statusCode).turns where
  beforeSelection _ _ hc := nomatch hc
  beforeSize _ _ hc := nomatch hc
  duringForward _ _ hc := nomatch hc
  up _ _ _ := ⟨_, rfl⟩
  down _ _ hb := nomatch hb

/-- Of two probes one is refused by an instance, and one is not answered in time by another, which is then shown
UNHEALTHY. The probe after the restart is served by the third. -/
theorem redis_failure_passes_stalled :
    verdict [.response 500, .response 502] = .pass ∧
      backendFalselyUnhealthy (some (lbStatus threeBackends))
        (some (lbStatus ((serve 0 [probing 1 500, stalling] threeBackends).2.checkAll [(str "a", true)]))) = true ∧
      (Probe.response 200).succeeds = true := by
  have hstalling : ProbesDown (fun _ => probedBackend) 990 stalling := by
    intro k b r hr
    cases hr
  have hprobes : ∀ p ∈ [Probe.response 500, .response 502],
      ∃ s ∈ (serve 0 [probing 1 500, stalling] threeBackends).1,
        ProbesDown (fun _ => probedBackend) 990 s.call ∧ p.Reports s.left.reply := by
    intro p hp
    rcases List.mem_pair.mp hp with rfl | rfl
    · exact ⟨_, List.mem_cons_self, probesDown_probing, rfl⟩
    · exact ⟨_, List.mem_cons_of_mem _ List.mem_cons_self, hstalling, rfl⟩
  obtain ⟨hverdict, hfalsely, hrecovery⟩ := redis_failure_passes [(str "a", true)] (List.cons_ne_nil _ _) hprobes
  refine ⟨hverdict, hfalsely.mpr ⟨str "b", by decide, ⟨.failed (str "b"), by decide, by decide⟩, by decide⟩, ?_⟩
  exact (hrecovery (serve 0 [probing 1 500, stalling] threeBackends).2 (probing 2 200) 200 probesUp_probing rfl).2
    (by decide) (by decide) (live_probing 2 200)

end FlightPulse.Replay.RedisFailure
