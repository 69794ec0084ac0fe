import FlightPulse.Analytics.DataTests
import FlightPulse.Pipeline

/-!
# From a request to the marts

The models of a run are built one after the other, from what the tables hold by then.
An observation that was stored before the first of them is in every one that it belongs
to, and in none twice.
-/

open Lib Lib.Sql Lib.Run Lib.Python Lib.Postgres Lib.Transactions

namespace FlightPulse.Pipeline

open Ingestion Worker Analytics

/-! ## One observation in the marts -/

/-- The group of an observation in `mart_aircraft_activity`. -/
def groupOf (a : ActivityRow) : Text × Bucket := (a.icao24, bucket a)

def martGroup (g : AircraftActivity) : Text × Bucket := (g.icao24, g.observationDate, g.observationHour)

/-- Each model has the observation once, or the aircraft, the group, the hour and the cell that it counts in. -/
structure Modelled (m : Marts) (a : ActivityRow) : Prop where
  fact : (m.fact.map fun b => b.ingestionId).count a.ingestionId = 1
  dim : m.dim.countP (fun d => d.icao24 = a.icao24) = 1
  group : ∃ g ∈ m.aircraft, martGroup g = groupOf a ∧
    g.observationCount = m.fact.countP fun b => groupOf b = groupOf a
  groupOnce : m.aircraft.countP (fun g => martGroup g = groupOf a) = 1
  hour : ∃ q ∈ m.quality, q.bucket = bucket a ∧ q.totalObservations.isSome
  cell : ∀ latGrid lonGrid, cellOf a = some (some (latGrid, lonGrid)) →
    ∃ c ∈ m.airspace, c.latGrid = latGrid ∧ c.lonGrid = lonGrid ∧
      (c.observationDate, c.observationHour) = bucket a ∧ 0 < c.observationCount

section

variable {pg : Server} {fact activity : List ActivityRow}

theorem aircraft_groups (pg : Server) (fact activity : List ActivityRow) :
    (martAircraftActivity pg fact (dimAircraft activity)).map (fun g => (martGroup g, g.observationCount)) =
      (groupBy groupOf fact).map fun g => (g.1, g.2.length) := by
  have hjoined := aircraft_joined fact activity
  unfold groupOf
  rw [← hjoined]
  unfold martAircraftActivity
  simp only [List.map_map]
  rfl

theorem mem_gridded {cells : List GriddedRow} (h : gridded fact = some cells) {a : ActivityRow} (ha : a ∈ fact)
    {cell : ℤ × ℤ} (hcell : cellOf a = some (some cell)) : ⟨cell.1, cell.2, a⟩ ∈ cells := by
  induction fact generalizing cells with
  | nil => cases ha
  | cons b rest ih =>
    unfold gridded at h
    split at h
    · cases h
    · next hnone =>
      rcases List.mem_cons.mp ha with rfl | ha
      · rw [hcell] at hnone
        cases hnone
      · exact ih h ha
    · next cell' hsome =>
      obtain ⟨rest', hrest, rfl⟩ := Option.map_eq_some_iff.mp h
      rcases List.mem_cons.mp ha with rfl | ha
      · rw [hcell, Option.some.injEq, Option.some.injEq] at hsome
        rw [hsome]
        exact List.mem_cons_self
      · exact List.mem_cons_of_mem _ (ih hrest ha)

theorem cell_shown {airspace : List AirspaceActivity} (h : martAirspaceActivity pg fact = some airspace)
    {a : ActivityRow} (ha : a ∈ fact) {latGrid lonGrid : ℤ} (hcell : cellOf a = some (some (latGrid, lonGrid))) :
    ∃ c ∈ airspace, c.latGrid = latGrid ∧ c.lonGrid = lonGrid ∧
      (c.observationDate, c.observationHour) = bucket a ∧ 0 < c.observationCount := by
  obtain ⟨cells, hcells, rfl⟩ := Option.map_eq_some_iff.mp h
  have hmem := mem_gridded hcells ha hcell
  obtain ⟨⟨k, g⟩, hg, hag⟩ := exists_group (fun c : GriddedRow => ((c.latGrid, c.lonGrid), bucket c.row)) hmem
  obtain ⟨-, rfl⟩ := (mem_group _ hg).mp hag
  have hpos : 0 < (g.map GriddedRow.row).length := by
    rw [List.length_map]
    exact List.length_pos_of_mem hag
  exact ⟨_, List.mem_map.mpr ⟨_, hg, rfl⟩, rfl, rfl, rfl, hpos⟩

theorem modelled_of_fact {forDim forFact forQuality : Snapshot} {m : Marts}
    (h : dbtRun pg forDim forFact forQuality = some m) {a : ActivityRow} (ha : a ∈ m.fact)
    (hdim : ∃ r ∈ forDim.telemetry, stagedIcao24 pg r.icao24 = a.icao24) : Modelled m a := by
  unfold dbtRun at h
  simp only [Option.bind_eq_bind, Option.bind_eq_some_iff, Option.some.injEq] at h
  obtain ⟨activity, hactivity, fact, hfact, airspace, hairspace, quality, hquality, rfl⟩ := h
  have hactivity' : forDim.telemetry.mapM (factRow pg) = some activity := by
    rw [← factAircraftState_eq]
    exact hactivity
  have hicao := map_of_mapM (h := fun a : ActivityRow => a.icao24) (g := fun r : SourceRow => stagedIcao24 pg r.icao24)
    hactivity' fun r _ a ha => (factRow_spec ha).2.1
  have hids : (fact.map fun b => b.ingestionId).Nodup := by
    rw [factAircraftState_eq] at hfact
    exact rows_ids_nodup hfact
  have hgroups := aircraft_groups pg fact activity
  obtain ⟨⟨k, members⟩, hgroup, hmember⟩ := exists_group groupOf ha
  obtain ⟨-, rfl⟩ := (mem_group groupOf hgroup).mp hmember
  refine ⟨List.count_eq_one_of_mem hids (List.mem_map_of_mem ha), ?_, ?_, ?_, ?_, ?_⟩
  · have hone : ((dimAircraft activity).map fun d => d.icao24).count a.icao24 = 1 := by
      rw [dim_icao24, hicao]
      refine List.count_eq_one_of_mem (List.nodup_dedup _) (List.mem_dedup.mpr ?_)
      exact List.mem_map.mpr hdim
    rw [List.count, List.countP_map] at hone
    simpa [Function.comp_def, beq_eq_decide] using hone
  · have hmem : (groupOf a, members.length) ∈ (groupBy groupOf fact).map fun g => (g.1, g.2.length) :=
      List.mem_map.mpr ⟨_, hgroup, rfl⟩
    rw [← hgroups] at hmem
    obtain ⟨g, hg, heq⟩ := List.mem_map.mp hmem
    obtain ⟨hkey, hcount⟩ := Prod.mk.inj heq
    refine ⟨g, hg, hkey, ?_⟩
    rw [hcount, List.countP_eq_length_filter]
    unfold groupBy at hgroup
    obtain ⟨k, -, heq⟩ := List.mem_map.mp hgroup
    obtain ⟨rfl, rfl⟩ := Prod.mk.inj heq
    rfl
  · have hkeys : (martAircraftActivity pg fact (dimAircraft activity)).map martGroup = (fact.map groupOf).dedup :=
      aircraft_keys fact activity
    have hone : ((martAircraftActivity pg fact (dimAircraft activity)).map martGroup).count (groupOf a) = 1 := by
      rw [hkeys]
      exact List.count_eq_one_of_mem (List.nodup_dedup _) (List.mem_dedup.mpr (List.mem_map_of_mem ha))
    rw [List.count, List.countP_map] at hone
    simpa [Function.comp_def, beq_eq_decide] using hone
  · obtain ⟨q, hq, htotal, hbucket⟩ := fact_shown hquality ha
    exact ⟨q, hq, hbucket, htotal⟩
  · exact fun latGrid lonGrid hcell => cell_shown hairspace ha hcell

end

/-! ## From the answer to the marts -/

variable {ν ι : Type*} [DecidableEq ν] [Fintype ι] [DecidableEq ι] {env : Env} {cfg : ν → Config}
  {s u : State ν ι} {telemetry : RawTelemetry} {log : ExtractionLog} {es fs : List (Event ν ι)}

/-- A query that begins in this state sees what is committed. -/
def Sees (u : State ν ι) (snapshot : Snapshot) : Prop :=
  snapshot.telemetry = u.telemetry.rows.map sourceRow ∧ snapshot.log = u.log.rows

theorem rows_grow (h : exec (step env cfg) u es = some s) : u.telemetry.rows <+: s.telemetry.rows := by
  refine exec_invariant (I := fun s : State ν ι => u.telemetry.rows <+: s.telemetry.rows) ?_ (List.prefix_refl _) h
  intro s e t ih ht
  rcases (step_spec ht).telemetry with heq | ⟨d, hd, -⟩
  · rw [heq]
    exact ih
  · exact ih.trans (rows_prefix_step (step_of_stepIf hd))

omit [Fintype ι] [DecidableEq ι] [DecidableEq ν] in
theorem sees_row {snapshot : Snapshot} (h : Sees u snapshot) {r : DbRow} (hr : r ∈ u.telemetry.rows) :
    sourceRow r ∈ snapshot.telemetry := by
  rw [h.1]
  exact List.mem_map_of_mem hr

/-- An acknowledged batch is queued. After the commit of any execution of its job, every run of the models, however
its parts are spread over what happens then, has each event of the batch in every model, or the one before it with the
same aircraft, contact and source. -/
theorem acknowledged_then_modelled {pg : Server} {forDim forFact forQuality : Snapshot} {m : Marts}
    {duringDim duringFact : List (Event ν ι)} {atDim atFact : State ν ι}
    (h : exec (step env cfg) (.init telemetry log) es = some s) (hrest : exec (step env cfg) s fs = some u)
    (hdim : exec (step env cfg) u duringDim = some atDim) (hsees : Sees atDim forDim)
    (hfact : exec (step env cfg) u duringFact = some atFact) (hsees' : Sees atFact forFact)
    (hrun : dbtRun pg forDim forFact forQuality = some m)
    {v : ν} {i : ℕ} {resp : IngestResponse} (hreply : (s.instances v).handler i = .replied (.accepted resp)) :
    ∃ batch : TelemetryBatch, resp.ingestionIds = batch.ids ∧ Queued s v (Work.telemetry batch).job ∧
      ∀ k n now, u.taken k = some ⟨(Work.telemetry batch).job, now⟩ → u.telemetry.phase k = .committed n →
        ∀ event ∈ batch.events, ∃ first, FirstOfKey batch.events first ∧ dedupeKey first = dedupeKey event ∧
          ∃ a ∈ m.fact, parseUuid first.ingestionId = some a.ingestionId ∧ Modelled m a := by
  obtain ⟨ds, hds⟩ := instance_run h v
  have hsound := (ackInv_run hds).handlers i
  rw [hreply] at hsound
  obtain ⟨j, batch, -, henqueued, rfl⟩ := hsound
  refine ⟨batch, rfl, ⟨j, henqueued.1⟩, fun k n now htaken hk event hevent => ?_⟩
  obtain ⟨first, hfirst, hkey⟩ := exists_firstOfKey hevent
  obtain ⟨id, hid, hmem⟩ := ids_of_committed (exec_trans h hrest) htaken hk hfirst
  obtain ⟨r, hr, rfl⟩ := List.mem_map.mp hmem
  -- The row that has the id by then is read by both queries.
  have hrFact := sees_row hsees' ((rows_grow hfact).subset hr)
  have hrDim := sees_row hsees ((rows_grow hdim).subset hr)
  obtain ⟨-, hbuilt, -⟩ := dbtRun_spec hrun
  obtain ⟨a, ha, hra⟩ := exists_of_mem_mapM hbuilt hrFact
  obtain ⟨hingestion, hicao, -⟩ := factRow_spec hra
  refine ⟨first, hfirst, hkey, a, ha, ?_, modelled_of_fact hrun ha ⟨sourceRow r, hrDim, hicao.symm⟩⟩
  rw [hid, hingestion]
  rfl

/-- The event that both instances acknowledged, in the models of a run after the commits of both executions. -/
theorem acknowledged_then_modelled_retried : ∃ es u seen polled m, exec (step sampleEnv retried) idle es = some u ∧
    (∀ k, ∃ n, u.telemetry.phase k = .committed n) ∧ Sees u seen ∧ dbtRun sampleServer seen seen polled = some m ∧
    ∃ a ∈ m.fact, parseUuid sampleId = some a.ingestionId ∧ Modelled m a := by
  obtain ⟨s, fs, u, hs, hreply, hqueue, hu, -, -, hstored, hall⟩ := bothStored_run
  have hrun := exec_trans hs hu
  have hrequests : (u.log.rows.map LogRow.requestId).Nodup := by
    obtain ⟨ls, hls⟩ := log_run hrun
    exact (inv_run emptyWorld.extractionLog.nodup (exec_of_imp (fun _ _ _ h => step_of_stepIf h) hls)).nodup
  let seen : Snapshot := .of ⟨u.telemetry.rows, stored_ids_nodup hrun⟩ ⟨u.log.rows, hrequests⟩
  let polled : Snapshot := .of emptyWorld.rawTelemetry emptyWorld.extractionLog
  have hsees : Sees u seen := ⟨rfl, rfl⟩
  have hmarts : ((sampleEnv.executionRows ⟨sampleBatch, .at 0⟩).bind fun stored =>
      buildMarts sampleServer (stored.map sourceRow) []).isSome := by decide +kernel
  rw [hstored, Option.bind_some] at hmarts
  obtain ⟨m, hm⟩ := Option.isSome_iff_exists.mp hmarts
  have hbuilt : dbtRun sampleServer seen seen polled = some m := hm
  obtain ⟨batch, -, ⟨i, hqueued⟩, hmodelled⟩ :=
    acknowledged_then_modelled hs hu (exec_nil u) hsees (exec_nil u) hsees hbuilt (hreply false)
  rw [hqueue, List.mem_singleton] at hqueued
  obtain rfl : batch = sampleBatch :=
    TelemetryBatch.modelDump_injective (Job.processTelemetryBatch.inj (Prod.mk.inj hqueued).2)
  obtain ⟨htaken, n, hn⟩ := hall true
  obtain ⟨first, hfirst, -, a, ha, hid, hshown⟩ :=
    hmodelled true n (.at 0) htaken hn (sampleEvent sampleId) (by simp [sampleBatch])
  obtain rfl := List.mem_singleton.mp (mem_of_firstOfKey hfirst)
  exact ⟨_, u, seen, polled, m, hrun, fun k => (hall k).2, hsees, hbuilt, a, ha, hid, hshown⟩

end FlightPulse.Pipeline
