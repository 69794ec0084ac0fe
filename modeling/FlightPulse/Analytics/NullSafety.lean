import FlightPulse.Analytics.Staging
import FlightPulse.Worker.Payload

/-!
# Staging what the schema accepts

An epoch of the schema is any integer, and `bigint` and `to_timestamp` take only
some. A row with another one is stored, and then the view cannot be read.
-/

open Lib Lib.Python Lib.Pydantic Lib.Postgres

namespace FlightPulse.Analytics

open Ingestion Worker

variable {pg : Server} {env : Env} {now : Timestamptz} {e : TelemetryEvent} {row : Row} {r : DbRow}

/-! ## The fields of a stored event -/

def jsonOf (v : PyVal) : Option Jsonb := (dumps v).bind jsonbIn

theorem stored_get (hrow : eventToRow e = some row) (hr : BoundAs env now row r) {k : String} {v : PyVal}
    (hmem : (k, v) ∈ eventFields.zip (dumpedValues e)) (h : nulFree k.toList) :
    ∃ j, jsonOf v = some j ∧ (sourceRow r).payload.get (.lit k h) = some j := by
  obtain ⟨js, hjs, hfields⟩ := payload_field hrow hr
  obtain ⟨t, j, ht, hj, hfield⟩ := hfields k v hmem h
  refine ⟨j, ?_, ?_⟩
  · unfold jsonOf
    rw [ht, Option.bind_some, hj]
  · unfold sourceRow Jsonb.get
    simp only [hjs, hfield]

/-- A field that may be missing. -/
def jsonOption {α : Type} (json : α → Jsonb) : Option α → Jsonb
  | none => .null
  | some a => json a

theorem jsonOf_int {x : Option ℤ} {j : Jsonb} (h : jsonOf (dumpOption .int x) = some j) :
    j = jsonOption (fun n : ℤ => .num n false) x := by
  cases x with
  | none => exact (Option.some.inj h).symm
  | some n =>
    unfold jsonOf dumpOption at h
    rw [dumps] at h
    by_cases hn : hasRepr n
    · rw [if_pos hn] at h
      exact (Option.some.inj h).symm
    · rw [if_neg hn] at h
      cases h

theorem jsonOf_float {x : Option PyFloat} {j : Jsonb} (h : jsonOf (dumpOption .float x) = some j) :
    (x = none ∧ j = .null) ∨ ∃ q, x = some (.finite q) ∧ j = .num q (writtenWithFraction q) := by
  cases x with
  | none => exact .inl ⟨rfl, (Option.some.inj h).symm⟩
  | some x =>
    cases x with
    | finite q => exact .inr ⟨q, rfl, (Option.some.inj h).symm⟩
    | nan => cases h
    | inf => cases h
    | negInf => cases h

theorem boolean_json {x : Option Bool} {j : Jsonb} (h : jsonOf (dumpOption .bool x) = some j) :
    pg.boolean (some j) = some x := by
  cases x with
  | none =>
    obtain rfl := Option.some.inj h
    rfl
  | some b =>
    obtain rfl := Option.some.inj h
    rfl

/-! ## The casts of a stored event -/

/-- Missing, or an epoch that both `bigint` and `to_timestamp` take. -/
def InRange (pg : Server) (x : Option ℤ) : Prop :=
  ∀ n, x = some n → Server.inInt8 n ∧ (pg.toTimestamp n).isSome

theorem epoch_isSome {x : Option ℤ} {j : Jsonb} (h : jsonOf (dumpOption .int x) = some j) :
    (pg.epoch (some j)).isSome ↔ InRange pg x := by
  rw [jsonOf_int h]
  unfold InRange
  cases x with
  | none => simp [jsonOption, Server.epoch, Server.bigint]
  | some n =>
    unfold jsonOption
    rw [epoch_int]
    cases hn : Server.inInt8 n <;> simp [hn]

theorem epoch_value {x : Option ℤ} {j : Jsonb} (h : jsonOf (dumpOption .int x) = some j) (hx : InRange pg x) :
    pg.epoch (some j) = some (x.bind pg.toTimestamp) := by
  rw [jsonOf_int h]
  unfold InRange at hx
  cases x with
  | none => rfl
  | some n =>
    obtain ⟨hn, hsome⟩ := hx n rfl
    obtain ⟨at_, hat⟩ := Option.isSome_iff_exists.mp hsome
    unfold jsonOption
    rw [epoch_int, if_pos hn, hat, Option.bind_some, hat]
    rfl

theorem double_value {x : Option PyFloat} {j : Jsonb} (h : jsonOf (dumpOption .float x) = some j)
    (hx : ∀ q, x = some (.finite q) → pg.toDouble q = some (.finite q)) : pg.double (some j) = some x := by
  rcases jsonOf_float h with ⟨rfl, rfl⟩ | ⟨q, rfl, rfl⟩
  · rfl
  · rw [double_num, hx q rfl, Option.map_some]

theorem text_value {x : Option PyStr} {j : Jsonb} (h : jsonOf (dumpOption .str x) = some j)
    (hx : ∀ s, x = some s → plain s) : pg.text (some j) = x.bind encodeText := by
  cases x with
  | none =>
    obtain rfl := Option.some.inj h
    rfl
  | some s =>
    unfold jsonOf dumpOption at h
    rw [dumps, Option.bind_some, jsonbIn, jsonString_utf16 (hx s rfl)] at h
    obtain ⟨t, ht, rfl⟩ := Option.map_eq_some_iff.mp h
    rw [Option.bind_some, ht]
    rfl

theorem casts_iff (hrow : eventToRow e = some row) (hr : BoundAs env now row r)
    (hdouble : ∀ q, some (.finite q) ∈ measurements e → (pg.toDouble q).isSome) :
    Casts pg (sourceRow r) ↔ InRange pg e.timePosition ∧ InRange pg e.lastContact := by
  obtain ⟨jtime, htime, hgettime⟩ := stored_get hrow hr (k := "time_position")
    (v := dumpOption .int e.timePosition) (by simp [eventFields, dumpedValues]) (by decide)
  obtain ⟨jcontact, hcontact, hgetcontact⟩ := stored_get hrow hr (k := "last_contact")
    (v := dumpOption .int e.lastContact) (by simp [eventFields, dumpedValues]) (by decide)
  obtain ⟨jground, hground, hgetground⟩ := stored_get hrow hr (k := "on_ground")
    (v := dumpOption .bool e.onGround) (by simp [eventFields, dumpedValues]) (by decide)
  have hfloat : ∀ k v, (k, dumpOption .float v) ∈ eventFields.zip (dumpedValues e) → v ∈ measurements e →
      ∀ h, (pg.double ((sourceRow r).payload.get (.lit k h))).isSome := by
    intro k v hmem hv h
    obtain ⟨j, hj, hget⟩ := stored_get hrow hr hmem h
    rw [hget]
    rcases jsonOf_float hj with ⟨rfl, rfl⟩ | ⟨q, rfl, rfl⟩
    · rfl
    · rw [double_num, Option.isSome_map]
      exact hdouble q hv
  rw [← epoch_isSome htime, ← epoch_isSome hcontact, ← hgettime, ← hgetcontact]
  refine ⟨fun h => ⟨h.timePosition, h.lastContact⟩, fun h => ⟨h.1, h.2, ?_, ?_⟩⟩
  · unfold measurementKeys
    simp only [List.forall_mem_cons]
    refine ⟨?_, ?_, ?_, ?_, ?_, ?_, ?_, by simp⟩
    · exact hfloat _ e.longitude (by simp [eventFields, dumpedValues]) (by simp [measurements]) _
    · exact hfloat _ e.latitude (by simp [eventFields, dumpedValues]) (by simp [measurements]) _
    · exact hfloat _ e.baroAltitudeM (by simp [eventFields, dumpedValues]) (by simp [measurements]) _
    · exact hfloat _ e.geoAltitudeM (by simp [eventFields, dumpedValues]) (by simp [measurements]) _
    · exact hfloat _ e.velocityMps (by simp [eventFields, dumpedValues]) (by simp [measurements]) _
    · exact hfloat _ e.trueTrackDeg (by simp [eventFields, dumpedValues]) (by simp [measurements]) _
    · exact hfloat _ e.verticalRateMps (by simp [eventFields, dumpedValues]) (by simp [measurements]) _
  · rw [hgetground, boolean_json hground]
    rfl

/-! ## A sample -/

def sampleServer : Server where
  lower := id
  jsonOut := fun _ => .lit "0"
  int8In := fun _ => none
  float8In := fun _ => none
  boolIn := fun _ => none
  toDouble := fun q => some (.finite q)
  toTimestamp := sampleEnv.toTimestamp
  float8Mul := fun x _ => some x
  float8Div := fun x _ => some x
  toNumeric := id
  localDate := fun us => us / 86400000000
  localHour := fun us => us % 86400000000 / 3600000000
  timestamptzOut := fun _ => .lit ""
  avg := fun _ => .nan
  percentileCont := fun _ _ => .nan
  mode := fun _ => .lit ""

def contactEvent (n : ℤ) : TelemetryEvent := { sampleEvent sampleId with lastContact := some n }

theorem contactEvent_stored {n : ℤ} (hn : hasRepr n) : ∃ row r, eventToRow (contactEvent n) = some row ∧
    sampleEnv.admitRow (.at 841053600000000) row = some r := by
  have hstorable : StorableEvent sampleEnv (contactEvent n) :=
    { sampleEvent_storable with lastContact := fun m hm => Option.some.inj hm ▸ hn }
  obtain ⟨row, hrow, hadmitted⟩ := (admissible_iff (.at 841053600000000)).mpr hstorable
  obtain ⟨r, hr⟩ := Option.isSome_iff_exists.mp hadmitted
  exact ⟨row, r, hrow, hr⟩

theorem contactEvent_double (n : ℤ) (q : ℚ) (_ : some (.finite q) ∈ measurements (contactEvent n)) :
    (sampleServer.toDouble q).isSome := rfl

theorem far_contact_not_cast (hrow : eventToRow (contactEvent (2 ^ 63)) = some row)
    (hr : sampleEnv.admitRow now row = some r) : ¬ Casts sampleServer (sourceRow r) := by
  rw [casts_iff hrow (admitRow_spec hr) (contactEvent_double _)]
  rintro ⟨-, hcontact⟩
  have hin := (hcontact (2 ^ 63) rfl).1
  revert hin
  decide

/-! ## No row breaks the view -/

/-- The row can be read, and an epoch out of range is a null there. -/
def NullSafe (pg : Server) (e : TelemetryEvent) (r : DbRow) : Prop :=
  ∃ s, stgRow pg (sourceRow r) = some s ∧
    (¬ InRange pg e.timePosition → s.timePositionAt = none) ∧ (¬ InRange pg e.lastContact → s.lastContactAt = none)

/-- The row of a stored event can be read exactly when neither of its epochs is out of range. -/
theorem null_safe_iff (hrow : eventToRow e = some row) (hr : env.admitRow now row = some r)
    (hdouble : ∀ q, some (.finite q) ∈ measurements e → (pg.toDouble q).isSome) :
    NullSafe pg e r ↔ InRange pg e.timePosition ∧ InRange pg e.lastContact := by
  have hcasts := casts_iff hrow (admitRow_spec hr) hdouble
  rw [← hcasts, ← stgRow_isSome]
  constructor
  · rintro ⟨s, hs, -⟩
    rw [hs]
    rfl
  · intro h
    have hrange := hcasts.mp (stgRow_isSome.mp h)
    obtain ⟨s, hs⟩ := Option.isSome_iff_exists.mp h
    exact ⟨s, hs, fun hnot => absurd hrange.1 hnot, fun hnot => absurd hrange.2 hnot⟩

theorem null_safe_contact : ∃ row r, eventToRow (contactEvent 1787738400) = some row ∧
    sampleEnv.admitRow (.at 841053600000000) row = some r ∧ NullSafe sampleServer (contactEvent 1787738400) r := by
  obtain ⟨row, r, hrow, hr⟩ := contactEvent_stored (n := 1787738400) (by decide +kernel)
  refine ⟨row, r, hrow, hr, (null_safe_iff hrow hr (contactEvent_double _)).mpr ⟨?_, ?_⟩⟩
  · intro n hn
    cases hn
  · intro n hn
    obtain rfl := Option.some.inj hn
    exact ⟨by decide, rfl⟩

/-- An accepted and stored event whose `last_contact` is the first integer above `bigint`. -/
theorem far_contact_breaks_view : ∃ row r,
    TelemetryEvent.modelValidate sampleEnv.lax (contactEvent (2 ^ 63)).modelDump = .ok (contactEvent (2 ^ 63)) ∧
      eventToRow (contactEvent (2 ^ 63)) = some row ∧ sampleEnv.admitRow (.at 841053600000000) row = some r ∧
      ¬ NullSafe sampleServer (contactEvent (2 ^ 63)) r ∧
      ∀ before after, stgOpenskyStates sampleServer (before ++ sourceRow r :: after) = none := by
  obtain ⟨row, r, hrow, hr⟩ := contactEvent_stored (n := 2 ^ 63) (by decide +kernel)
  have hcasts := far_contact_not_cast hrow hr
  refine ⟨row, r, TelemetryEvent.modelValidate_modelDump _ _, hrow, hr, ?_, fun before after => ?_⟩
  · rintro ⟨s, hs, -⟩
    exact hcasts (stgRow_isSome.mp (by rw [hs]; rfl))
  · rw [← Option.not_isSome_iff_eq_none, view_isSome]
    exact fun h => hcasts (h _ (by simp))

end FlightPulse.Analytics
