import FlightPulse.Analytics.Grain

/-!
# Rebuilding the dimension (`marts/core/dim_aircraft.sql`)

`DISTINCT ON` keeps the row of an aircraft that comes first, and the latest rows of an
aircraft come in any order among themselves. All else in the dimension is an aggregate,
for which the order of the rows does not matter.
-/

open Lib Lib.Sql Lib.Python Lib.Pydantic Lib.Postgres Lib.Run
open scoped List

namespace FlightPulse.Analytics

open Ingestion Worker

/-! ## Two runs -/

/-- The grain of `mart_aircraft_activity`, and the columns that it takes from the dimension. -/
structure LatestColumns where
  icao24 : Text
  observationDate : Option Date
  observationHour : Option ℤ
  latestCallsign : Option Text
  latestOriginCountry : Option Text

def latestColumns (m : AircraftActivity) : LatestColumns where
  icao24 := m.icao24
  observationDate := m.observationDate
  observationHour := m.observationHour
  latestCallsign := m.latestCallsign
  latestOriginCountry := m.latestOriginCountry

/-- The dimension and what the mart takes from it, over one physical order of the rows. -/
def rebuild (pg : Server) (rawTelemetry : List SourceRow) : Option (List DimAircraft × List LatestColumns) := do
  let activity ← intAircraftActivity pg rawTelemetry
  let fact ← factAircraftState pg rawTelemetry
  let dim := dimAircraft activity
  some (dim, (martAircraftActivity pg fact dim).map latestColumns)

/-- Whatever two orders the rows lie in, the tables have the same rows. -/
def Reproducible (pg : Server) (rawTelemetry : List SourceRow) : Prop :=
  ∀ raw₁ raw₂, raw₁ ~ rawTelemetry → raw₂ ~ rawTelemetry → ∀ built₁ built₂,
    rebuild pg raw₁ = some built₁ → rebuild pg raw₂ = some built₂ → built₁.1 ~ built₂.1 ∧ built₁.2 ~ built₂.2

/-- No observation of the aircraft is later. -/
def IsNewest (activity : List ActivityRow) (a : ActivityRow) : Prop :=
  a ∈ activity ∧ ∀ b ∈ activity, b.icao24 = a.icao24 → latestFirst a b

/-- The latest observations of an aircraft all have one callsign and one country. -/
def TiesAgree (activity : List ActivityRow) : Prop :=
  ∀ a b, IsNewest activity a → IsNewest activity b → a.icao24 = b.icao24 →
    a.callsign = b.callsign ∧ a.originCountry = b.originCountry

/-! ## The order of the observations -/

/-- A null comes last, so it is sorted as if it were smaller than any time. -/
def contactKey (a : ActivityRow) : WithBot (WithBot (WithTop ℤ)) :=
  match a.lastContactAt with
  | none => ⊥
  | some t => t.rank

theorem latestFirst_iff {a b : ActivityRow} : latestFirst a b ↔ contactKey b ≤ contactKey a := by
  unfold latestFirst contactKey
  cases a.lastContactAt <;> cases b.lastContactAt <;> simp [timestamptzLe_iff]

instance latestFirst_total : Std.Total fun a b : ActivityRow => latestFirst a b = true :=
  ⟨fun a b => by
    rw [latestFirst_iff, latestFirst_iff]
    exact le_total _ _⟩

instance latestFirst_trans : IsTrans ActivityRow fun a b => latestFirst a b = true :=
  ⟨fun a b c hab hbc => by
    rw [latestFirst_iff] at hab hbc ⊢
    exact hbc.trans hab⟩

theorem timestamptzLe_total (t t' : Timestamptz) : timestamptzLe t t' ∨ timestamptzLe t' t := by
  rw [timestamptzLe_iff, timestamptzLe_iff]
  exact le_total _ _

theorem timestamptzLe_trans (t t' t'' : Timestamptz) (h : timestamptzLe t t') (h' : timestamptzLe t' t'') :
    timestamptzLe t t'' := by
  rw [timestamptzLe_iff] at h h' ⊢
  exact h.trans h'

theorem timestamptzLe_antisymm (t t' : Timestamptz) (h : timestamptzLe t t') (h' : timestamptzLe t' t) : t = t' := by
  rw [timestamptzLe_iff] at h h'
  exact Timestamptz.rank_injective (le_antisymm h h')

/-! ## The rows of the dimension -/

variable {activity activity' fact : List ActivityRow} {pg : Server}

/-- The row that `DISTINCT ON` keeps of an aircraft. -/
def newest (activity : List ActivityRow) (icao24 : Text) : Option ActivityRow :=
  StableSort.leastMatch (fun a b => latestFirst a b = true) (fun a => a.icao24 = icao24) activity

/-- The row of an aircraft in the dimension. -/
def dimRow (activity : List ActivityRow) (icao24 : Text) : DimAircraft :=
  let g := activity.filter fun a => a.icao24 = icao24
  { icao24 := icao24
    latestCallsign := (newest activity icao24).bind (·.callsign)
    latestOriginCountry := (newest activity icao24).bind (·.originCountry)
    firstSeenAt := minimum timestamptzLe (g.map (·.lastContactAt))
    lastSeenAt := maximum timestamptzLe (g.map (·.lastContactAt))
    observationCount := g.length
    sourceCount := countDistinct (g.map fun r => some r.source) }

theorem mostRecent_filter {icao24 : Text} (h : icao24 ∈ activity.map (·.icao24)) :
    (mostRecent activity).filter (fun m => icao24 = m.icao24) = (newest activity icao24).toList := by
  unfold mostRecent newest
  rw [distinctOn_filter (fun a : ActivityRow => a.icao24) _ h, StableSort.find?_insertionSort]

theorem dimAircraft_eq (activity : List ActivityRow) :
    dimAircraft activity = (activity.map (·.icao24)).dedup.map (dimRow activity) := by
  unfold dimAircraft
  dsimp only
  rw [leftJoin_eq_map (f := fun g => newest activity g.1)]
  · unfold groupBy
    rw [List.map_map, List.map_map]
    rfl
  · intro g hg
    obtain ⟨icao24, hmem, rfl⟩ := List.mem_map.mp hg
    exact mostRecent_filter (List.mem_dedup.mp hmem)

theorem dimAircraft_filter {icao24 : Text} (h : icao24 ∈ activity.map (·.icao24)) :
    (dimAircraft activity).filter (fun d => icao24 = d.icao24) = [dimRow activity icao24] := by
  rw [dimAircraft_eq, ← List.filterMap_eq_map]
  refine filter_filterMap_key (fun d : DimAircraft => d.icao24) (List.nodup_dedup _) (fun k d hd => ?_)
    (List.mem_dedup.mpr h)
  rw [← Option.some.inj hd]
  rfl

/-- The mart shows for each of its rows what the dimension has of the aircraft. -/
def columnsOf (activity : List ActivityRow) (k : Text × Bucket) : LatestColumns where
  icao24 := k.1
  observationDate := k.2.1
  observationHour := k.2.2
  latestCallsign := (dimRow activity k.1).latestCallsign
  latestOriginCountry := (dimRow activity k.1).latestOriginCountry

theorem latestColumns_eq (activity : List ActivityRow) :
    (martAircraftActivity pg activity (dimAircraft activity)).map latestColumns =
      (activity.map fun r => (r.icao24, bucket r)).dedup.map (columnsOf activity) := by
  unfold martAircraftActivity
  dsimp only
  rw [leftJoin_eq_map (f := fun g => some (dimRow activity g.1.1))]
  · unfold groupBy
    rw [List.map_map, List.map_map, List.map_map]
    rfl
  · intro g hg
    obtain ⟨k, hmem, rfl⟩ := List.mem_map.mp hg
    obtain ⟨a, ha, rfl⟩ := List.mem_map.mp (List.mem_dedup.mp hmem)
    exact dimAircraft_filter (List.mem_map_of_mem ha)

/-! ## Another order of the rows -/

theorem newest_spec {icao24 : Text} {m : ActivityRow} (h : newest activity icao24 = some m) :
    IsNewest activity m ∧ m.icao24 = icao24 := by
  obtain ⟨hmem, hkey⟩ := StableSort.leastMatch_mem h
  have hicao24 : m.icao24 = icao24 := of_decide_eq_true hkey
  refine ⟨⟨hmem, fun b hb hsame => ?_⟩, hicao24⟩
  exact StableSort.leastMatch_le (r := fun a b => latestFirst a b = true) h hb (decide_eq_true (hsame.trans hicao24))

theorem isNewest_perm {a : ActivityRow} (hp : activity ~ activity') (h : IsNewest activity a) : IsNewest activity' a :=
  ⟨hp.mem_iff.mp h.1, fun b hb hsame => h.2 b (hp.mem_iff.mpr hb) hsame⟩

theorem newest_cons {a : ActivityRow} {rest : List ActivityRow} (h : IsNewest (a :: rest) a) :
    newest (a :: rest) a.icao24 = some a := by
  unfold newest
  apply StableSort.leastMatch_of_first
  · simp
  · exact fun b hb hsame => h.2 b hb (of_decide_eq_true hsame)

/-- All columns but two are aggregates. -/
theorem dimRow_congr (hp : activity ~ activity') {icao24 : Text}
    (hcallsign : (newest activity icao24).bind (·.callsign) = (newest activity' icao24).bind (·.callsign))
    (hcountry : (newest activity icao24).bind (·.originCountry) = (newest activity' icao24).bind (·.originCountry)) :
    dimRow activity icao24 = dimRow activity' icao24 := by
  have hgroup := hp.filter fun a => a.icao24 = icao24
  have hfirst := minimum_perm timestamptzLe_total timestamptzLe_trans timestamptzLe_antisymm
    (hgroup.map (·.lastContactAt))
  have hlast := maximum_perm timestamptzLe_total timestamptzLe_trans timestamptzLe_antisymm
    (hgroup.map (·.lastContactAt))
  have hsources := countDistinct_perm (hgroup.map fun r => some r.source)
  unfold dimRow
  dsimp only
  rw [hcallsign, hcountry, hfirst, hlast, hsources, hgroup.length_eq]

theorem dimRow_of_ties (hties : TiesAgree activity) (hp : activity' ~ activity) (icao24 : Text) :
    dimRow activity' icao24 = dimRow activity icao24 := by
  cases h : newest activity icao24 with
  | none =>
    have h' : newest activity' icao24 = none := by
      unfold newest at h ⊢
      rw [StableSort.leastMatch_eq_none] at h ⊢
      exact fun a ha => h a (hp.mem_iff.mp ha)
    exact dimRow_congr hp (by rw [h, h']) (by rw [h, h'])
  | some m =>
    obtain ⟨hm, hkey⟩ := newest_spec h
    cases h' : newest activity' icao24 with
    | none =>
      unfold newest at h'
      have hnot := StableSort.leastMatch_eq_none.mp h' m (hp.mem_iff.mpr hm.1)
      rw [decide_eq_true hkey] at hnot
      cases hnot
    | some m' =>
      obtain ⟨hm', hkey'⟩ := newest_spec h'
      obtain ⟨hcallsign, hcountry⟩ := hties m' m (isNewest_perm hp hm') hm (hkey'.trans hkey.symm)
      exact dimRow_congr hp (by rw [h, h']; exact hcallsign) (by rw [h, h']; exact hcountry)

theorem factRows_of_activity {rawTelemetry : List SourceRow} (h : intAircraftActivity pg rawTelemetry = some activity) :
    rawTelemetry.mapM (factRow pg) = some activity := by
  rw [← factAircraftState_eq]
  exact h

theorem rebuild_spec {rawTelemetry : List SourceRow} {built : List DimAircraft × List LatestColumns}
    (h : rebuild pg rawTelemetry = some built) :
    ∃ activity, rawTelemetry.mapM (factRow pg) = some activity ∧
      built = (dimAircraft activity, (martAircraftActivity pg activity (dimAircraft activity)).map latestColumns) := by
  unfold rebuild at h
  simp only [Option.bind_eq_bind, Option.bind_eq_some_iff, Option.some.injEq] at h
  obtain ⟨activity, hactivity, fact, hfact, rfl⟩ := h
  obtain rfl : activity = fact := Option.some.inj (hactivity.symm.trans hfact)
  exact ⟨activity, factRows_of_activity hactivity, rfl⟩

theorem rebuild_of_activity {rawTelemetry : List SourceRow} (h : rawTelemetry.mapM (factRow pg) = some activity) :
    rebuild pg rawTelemetry =
      some (dimAircraft activity, (martAircraftActivity pg activity (dimAircraft activity)).map latestColumns) := by
  rw [← factAircraftState_eq] at h
  have h' : intAircraftActivity pg rawTelemetry = some activity := h
  unfold rebuild
  rw [h, h']
  rfl

theorem reproducible_of_ties {rawTelemetry : List SourceRow} (h : rawTelemetry.mapM (factRow pg) = some activity)
    (hties : TiesAgree activity) : Reproducible pg rawTelemetry := by
  -- Both builds have the rows that the one over `activity` has.
  have hone : ∀ raw, raw ~ rawTelemetry → ∀ built, rebuild pg raw = some built →
      built.1 ~ dimAircraft activity ∧
        built.2 ~ (activity.map fun r => (r.icao24, bucket r)).dedup.map (columnsOf activity) := by
    intro raw hraw built hbuilt
    obtain ⟨activity', hactivity', rfl⟩ := rebuild_spec hbuilt
    obtain ⟨other, hother, hp⟩ := mapM_perm hraw h
    obtain rfl : activity' = other := Option.some.inj (hactivity'.symm.trans hother)
    have hrows := dimRow_of_ties hties hp
    constructor
    · rw [dimAircraft_eq, dimAircraft_eq, funext hrows]
      exact ((hp.map _).dedup).map _
    · have hcolumns : columnsOf activity' = columnsOf activity := by
        funext k
        unfold columnsOf
        rw [hrows]
      rw [latestColumns_eq, hcolumns]
      exact ((hp.map _).dedup).map _
  intro raw₁ raw₂ hraw₁ hraw₂ built₁ built₂ hbuilt₁ hbuilt₂
  obtain ⟨hdim₁, hmart₁⟩ := hone raw₁ hraw₁ built₁ hbuilt₁
  obtain ⟨hdim₂, hmart₂⟩ := hone raw₂ hraw₂ built₂ hbuilt₂
  exact ⟨hdim₁.trans hdim₂.symm, hmart₁.trans hmart₂.symm⟩

theorem exists_order {rawTelemetry : List SourceRow} (h : rawTelemetry.mapM (factRow pg) = some activity)
    {a : ActivityRow} (ha : IsNewest activity a) :
    ∃ raw built, raw ~ rawTelemetry ∧ rebuild pg raw = some built ∧
      ∃ d ∈ built.1, d.icao24 = a.icao24 ∧ d.latestCallsign = a.callsign ∧ d.latestOriginCountry = a.originCountry ∧
        ∀ d' ∈ built.1, d'.icao24 = d.icao24 → d' = d := by
  obtain ⟨before, after, rfl⟩ := List.append_of_mem ha.1
  have hp : a :: (before ++ after) ~ before ++ a :: after := List.perm_middle.symm
  obtain ⟨raw, hraw, hrawp⟩ := exists_perm_mapM hp h
  have hnewest := newest_cons (isNewest_perm hp.symm ha)
  refine ⟨raw, _, hrawp, rebuild_of_activity hraw, dimRow (a :: (before ++ after)) a.icao24, ?_, rfl, ?_, ?_, ?_⟩
  · rw [dimAircraft_eq]
    exact List.mem_map_of_mem (List.mem_dedup.mpr (List.mem_map_of_mem List.mem_cons_self))
  · simp only [dimRow, hnewest, Option.bind_some]
  · simp only [dimRow, hnewest, Option.bind_some]
  · intro d hd hsame
    rw [dimAircraft_eq] at hd
    obtain ⟨icao24, -, rfl⟩ := List.mem_map.mp hd
    obtain rfl : icao24 = a.icao24 := hsame
    rfl

theorem ties_of_reproducible {rawTelemetry : List SourceRow} (h : rawTelemetry.mapM (factRow pg) = some activity)
    (hreproducible : Reproducible pg rawTelemetry) : TiesAgree activity := by
  intro a b ha hb hsame
  obtain ⟨raw₁, built₁, hraw₁, hbuilt₁, d₁, hd₁, hicao₁, hcallsign₁, hcountry₁, -⟩ := exists_order h ha
  obtain ⟨raw₂, built₂, hraw₂, hbuilt₂, d₂, hd₂, hicao₂, hcallsign₂, hcountry₂, honly₂⟩ := exists_order h hb
  have hperm := (hreproducible raw₁ raw₂ hraw₁ hraw₂ built₁ built₂ hbuilt₁ hbuilt₂).1
  have heq : d₁ = d₂ := honly₂ d₁ (hperm.mem_iff.mp hd₁) (by rw [hicao₁, hicao₂, hsame])
  rw [← hcallsign₁, ← hcountry₁, ← hcallsign₂, ← hcountry₂, heq]
  exact ⟨rfl, rfl⟩

/-- The dimension can be rebuilt exactly when the latest observations of each aircraft agree. -/
theorem reproducible_iff {rawTelemetry : List SourceRow}
    (hactivity : intAircraftActivity pg rawTelemetry = some activity) :
    Reproducible pg rawTelemetry ↔ TiesAgree activity := by
  have h := factRows_of_activity hactivity
  exact ⟨ties_of_reproducible h, reproducible_of_ties h⟩

/-! ## Two observations of one aircraft -/

def seenEvent (u : Uuid) (lastContact : Option ℤ) (callsign : String) : TelemetryEvent :=
  { sampleEvent (uuidStr u) with
    lastContact := lastContact
    callsign := some (str callsign) }

/-- What decides which row is kept, and what is read from it. -/
def tieOf (a : ActivityRow) : Text × Option Timestamptz × Option Text × Option Text :=
  (a.icao24, a.lastContactAt, a.callsign, a.originCountry)

/-- The rows over a table that stores the events one after another. -/
def ActivityOf (events : List TelemetryEvent) (table : RawTelemetry) (activity : List ActivityRow) : Prop :=
  exec (storeBatch sampleEnv) emptyTable (events.map fun e => ⟨heardAt, none, [e]⟩) = some table ∧
    intAircraftActivity writtenServer (table.rows.map sourceRow) = some activity

theorem activityOf_computed (events : List TelemetryEvent)
    (ties : List (Text × Option Timestamptz × Option Text × Option Text))
    (h : ((exec (storeBatch sampleEnv) emptyTable (events.map fun e => ⟨heardAt, none, [e]⟩)).bind fun table =>
      (intAircraftActivity writtenServer (table.rows.map sourceRow)).map (List.map tieOf)) = some ties) :
    ∃ table activity, ActivityOf events table activity ∧ activity.map tieOf = ties := by
  obtain ⟨table, hexec, h⟩ := Option.bind_eq_some_iff.mp h
  obtain ⟨activity, hactivity, h⟩ := Option.map_eq_some_iff.mp h
  exact ⟨table, activity, ⟨hexec, hactivity⟩, h⟩

theorem exists_pair_of_ties {activity : List ActivityRow}
    {tie tie' : Text × Option Timestamptz × Option Text × Option Text} (h : activity.map tieOf = [tie, tie']) :
    ∃ first second, activity = [first, second] ∧ tieOf first = tie ∧ tieOf second = tie' := by
  obtain ⟨first, rest, rfl, hfirst, hrest⟩ := List.map_eq_cons_iff.mp h
  obtain ⟨second, hsecond, htie⟩ := List.map_eq_singleton_iff.mp hrest
  exact ⟨first, second, by rw [hsecond], hfirst, htie⟩

theorem ties_of_later {activity : List ActivityRow} {icao24 : Text} {t t' : Timestamptz}
    {callsign callsign' country country' : Option Text} (hlater : timestamptzLe t' t = false)
    (h : activity.map tieOf = [(icao24, some t, callsign, country), (icao24, some t', callsign', country')]) :
    TiesAgree activity := by
  obtain ⟨first, second, rfl, hfirst, hsecond⟩ := exists_pair_of_ties h
  simp only [tieOf, Prod.mk.injEq] at hfirst hsecond
  have honly : ∀ a, IsNewest [first, second] a → a = second := by
    rintro a ⟨hmem, hnewest⟩
    rcases List.mem_pair.mp hmem with rfl | rfl
    · have hle := hnewest second (by simp) (hsecond.1.trans hfirst.1.symm)
      unfold latestFirst at hle
      simp only [hfirst.2.1, hsecond.2.1, hlater] at hle
      cases hle
    · rfl
  intro a b ha hb _
  rw [honly a ha, honly b hb]
  exact ⟨rfl, rfl⟩

theorem heard_twice_reproducible : ∃ table activity,
    ActivityOf [seenEvent upperId (some 1787738400) "SWR1", seenEvent lowerId (some 1787738460) "SWR2"] table activity ∧
      Reproducible writtenServer (table.rows.map sourceRow) := by
  obtain ⟨table, activity, hactivity, hties⟩ := activityOf_computed
    [seenEvent upperId (some 1787738400) "SWR1", seenEvent lowerId (some 1787738460) "SWR2"]
    [(.lit "4b1814", some (.at 841053600000000), some (.lit "SWR1"), none),
      (.lit "4b1814", some (.at 841053660000000), some (.lit "SWR2"), none)] (by decide +kernel)
  exact ⟨table, activity, hactivity, (reproducible_iff hactivity.2).mpr (ties_of_later (by decide) hties)⟩

/-- Two accepted and stored observations without a `last_contact` leave the callsign to the order of the rows. -/
theorem silent_twice_not_reproducible :
    (∀ e ∈ [seenEvent upperId none "SWR1", seenEvent lowerId none "SWR2"],
      TelemetryEvent.modelValidate sampleEnv.lax e.modelDump = .ok e) ∧
    ∃ table activity,
      ActivityOf [seenEvent upperId none "SWR1", seenEvent lowerId none "SWR2"] table activity ∧
        ¬ Reproducible writtenServer (table.rows.map sourceRow) := by
  obtain ⟨table, activity, hactivity, hties⟩ := activityOf_computed
    [seenEvent upperId none "SWR1", seenEvent lowerId none "SWR2"]
    [(.lit "4b1814", none, some (.lit "SWR1"), none), (.lit "4b1814", none, some (.lit "SWR2"), none)]
    (by decide +kernel)
  refine ⟨fun e _ => TelemetryEvent.modelValidate_modelDump _ _, table, activity, hactivity, fun hreproducible => ?_⟩
  have hagree := ties_of_reproducible (factRows_of_activity hactivity.2) hreproducible
  obtain ⟨first, second, rfl, hfirst, hsecond⟩ := exists_pair_of_ties hties
  simp only [tieOf, Prod.mk.injEq] at hfirst hsecond
  have hnewest : ∀ a ∈ [first, second], IsNewest [first, second] a := by
    refine fun a ha => ⟨ha, fun b hb _ => ?_⟩
    have hnull : b.lastContactAt = none := by
      rcases List.mem_pair.mp hb with rfl | rfl
      · exact hfirst.2.1
      · exact hsecond.2.1
    unfold latestFirst
    rw [hnull]
  have hcallsign := (hagree first second (hnewest first (by simp)) (hnewest second (by simp))
    (hfirst.1.trans hsecond.1.symm)).1
  rw [hfirst.2.2.1, hsecond.2.2.1] at hcallsign
  revert hcallsign
  decide

end FlightPulse.Analytics
