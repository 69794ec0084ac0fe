import FlightPulse.Replay.Player
import FlightPulse.Worker.Batching

/-!
# What a fresh run inserts (`replay/player.py`)

The id of a prepared event is hashed from the salt of the run and from its `source`,
`icao24` and `last_contact`. `_dedupe_events` compares the same three fields.
-/

open Lib Lib.Python Lib.Pydantic Lib.Postgres

namespace FlightPulse.Replay

open Collector Ingestion Worker

/-! ## Observations -/

/-- `source`, `icao24` and `last_contact`. -/
abbrev Observation := PyStr × PyStr × ℤ

def colon : CodePoint := ofChar ':'

/-- An event with an `icao24`, a `source` that has no colon and an integer `last_contact`. -/
def observationOf : PyVal → Option Observation
  | .dict ev =>
    match PyVal.get? (str "source") ev, PyVal.get? (str "icao24") ev, PyVal.get? (str "last_contact") ev with
    | some (.str source), some (.str icao24), some (.int lastContact) =>
      if colon ∈ source then none else some (source, icao24, lastContact)
    | _, _, _ => none
  | _ => none

/-- The name that a fresh id is hashed from. -/
def freshName (salt : Uuid) (o : Observation) : PyStr :=
  uuidStr salt ++ colon :: (o.1 ++ colon :: (o.2.1 ++ colon :: intStr o.2.2))

def freshChars (salt : Uuid) (o : Observation) : Option (List Char) := (freshName salt o).mapM toChar?

def ingestionIdOf : PyVal → Option PyVal
  | .dict ev => PyVal.get? (str "ingestion_id") ev
  | _ => none

/-! ## The name says it all -/

theorem colon_notMem_intStr (n : ℤ) : colon ∉ intStr n := by
  have hnat : ∀ m, colon ∉ natStr m := fun m h => absurd (mem_natStr h) (by decide)
  cases n with
  | ofNat n => exact hnat n
  | negSucc n =>
    intro h
    rcases List.mem_cons.mp h with h | h
    · exact absurd h (by decide)
    · exact hnat (n + 1) h

theorem colon_notMem_uuidStr (u : Uuid) : colon ∉ uuidStr u := by
  have hchars : ∀ i ds, ':' ∉ uuidChars i ds := by
    intro i ds
    fun_induction uuidChars i ds with
    | case1 i a b ds ih =>
      have hhex : ∀ d : Fin 16, ':' ≠ hexChar d := by decide
      have hhyphen : ':' ∉ (if i = 3 ∨ i = 5 ∨ i = 7 ∨ i = 9 then ['-'] else []) := by split <;> simp
      simp only [List.mem_cons, List.mem_append, hhex a, hhex b, hhyphen, ih, or_self, not_false_iff]
    | case2 => simp
  intro h
  obtain ⟨c, hc, heq⟩ := List.mem_map.mp h
  rw [ofChar_injective heq] at hc
  exact hchars 0 u.digits hc

theorem freshName_inj {salt salt' : Uuid} {o o' : Observation} (ho : colon ∉ o.1) (ho' : colon ∉ o'.1)
    (h : freshName salt o = freshName salt' o') : salt = salt' ∧ o = o' := by
  obtain ⟨source, icao24, n⟩ := o
  obtain ⟨source', icao24', n'⟩ := o'
  unfold freshName at h
  obtain ⟨hsalt, h⟩ := append_sep_inj (colon_notMem_uuidStr salt) (colon_notMem_uuidStr salt') h
  obtain ⟨rfl, h⟩ := append_sep_inj ho ho' h
  obtain ⟨rfl, hn⟩ := append_sep_inj_right (colon_notMem_intStr n) (colon_notMem_intStr n') h
  exact ⟨uuidStr_injective hsalt, by rw [intStr_injective hn]⟩

/-! ## Prepared events -/

section

variable {host : Host} {salt salt' : Uuid} {o o' : Observation} {v v' p p' : PyVal}

theorem observationOf_eq_some : observationOf v = some o ↔ ∃ ev, v = .dict ev ∧
    PyVal.get? (str "source") ev = some (.str o.1) ∧ PyVal.get? (str "icao24") ev = some (.str o.2.1) ∧
      PyVal.get? (str "last_contact") ev = some (.int o.2.2) ∧ colon ∉ o.1 := by
  unfold observationOf
  split
  · next ev =>
    simp only [PyVal.dict.injEq, exists_eq_left']
    split
    · next source icao24 lastContact hsource hicao24 hcontact =>
      obtain ⟨a, b, n⟩ := o
      simp only [Option.ite_none_left_eq_some, Option.some.injEq, Prod.mk.injEq, hsource, hicao24, hcontact,
        PyVal.str.injEq, PyVal.int.injEq]
      constructor
      · rintro ⟨hcolon, rfl, rfl, rfl⟩
        exact ⟨rfl, rfl, rfl, hcolon⟩
      · rintro ⟨rfl, rfl, rfl, hcolon⟩
        exact ⟨hcolon, rfl, rfl, rfl⟩
    · next hnot =>
      simp only [reduceCtorEq, false_iff]
      rintro ⟨hsource, hicao24, hcontact, -⟩
      exact hnot _ _ _ hsource hicao24 hcontact
  · next hnot =>
    simp only [reduceCtorEq, false_iff]
    rintro ⟨ev, rfl, -⟩
    exact hnot ev rfl

theorem get?_assign (k k' : PyStr) (w : PyVal) (l : List (PyStr × PyVal)) :
    PyVal.get? k' (Lib.Dict.assign k w l) = if k = k' then some w else PyVal.get? k' l := by
  have hlookup : ∀ l, PyVal.get? k' l = Lib.Dict.lookup k' l := by
    intro l
    induction l with
    | nil => rfl
    | cons p l ih => simp only [PyVal.get?, Lib.Dict.lookup, ih]
  rw [hlookup, hlookup, Lib.Dict.lookup_assign]

theorem hashed_observation {id : PyStr}
    (h : host.hashed [.str (uuidStr salt), .str o.1, .str o.2.1, .int o.2.2] = some id) :
    ∃ chars, freshChars salt o = some chars ∧ id = uuidStr (host.uuid5 chars) := by
  unfold Host.hashed at h
  simp only [Option.bind_eq_bind, Option.bind_eq_some_iff, Option.some.injEq] at h
  obtain ⟨name, hname, chars, hchars, rfl⟩ := h
  refine ⟨chars, ?_, rfl⟩
  unfold Host.identity at hname
  by_cases hn : hasRepr o.2.2
  · simp only [List.mapM_cons, List.mapM_nil, strOf, hn, if_true, Option.pure_def, Option.bind_eq_bind,
      Option.bind_some, Option.map_some, Option.some.injEq] at hname
    rw [← hname] at hchars
    unfold freshChars freshName
    simpa [List.intercalate, str, colon] using hchars
  · simp [strOf, hn] at hname

theorem prepareEvent_spec {nowIso : PyStr} {uuid4 : Uuid} (ho : observationOf v = some o)
    (h : prepareEvent host nowIso (uuidStr salt) uuid4 v = some p) :
    ∃ chars, freshChars salt o = some chars ∧ ingestionIdOf p = some (.str (uuidStr (host.uuid5 chars))) ∧
      observationOf p = some o := by
  obtain ⟨ev, rfl, hsource, hicao24, hcontact, hcolon⟩ := observationOf_eq_some.mp ho
  simp only [prepareEvent, getOrNone, hsource, hicao24, hcontact, Option.getD_some, freshIngestionId,
    Option.bind_eq_bind, Option.bind_eq_some_iff, Option.some.injEq] at h
  obtain ⟨id, hid, rfl⟩ := h
  obtain ⟨chars, hchars, rfl⟩ := hashed_observation hid
  refine ⟨chars, hchars, ?_, observationOf_eq_some.mpr ⟨_, rfl, ?_⟩⟩
  · simp [ingestionIdOf, get?_assign, str_inj]
  · simp [get?_assign, str_inj, hsource, hicao24, hcontact, hcolon]

/-! ## Salts and collisions -/

/-- The names that fresh runs with these salts hash for the events. -/
def freshNames (salts : List Uuid) (events : List PyVal) : Set (List Char) :=
  {chars | ∃ salt ∈ salts, ∃ v ∈ events, ∃ o, observationOf v = some o ∧ freshChars salt o = some chars}

/-- `uuid5` has no collision among these names. -/
def NoCollision (host : Host) (salts : List Uuid) (events : List PyVal) : Prop :=
  Set.InjOn host.uuid5 (freshNames salts events)

/-- No id that a fresh run with this salt gives to one of the events is in the table. -/
def HoldsNoIdOf (host : Host) (salt : Uuid) (events : List PyVal) (table : RawTelemetry) : Prop :=
  ∀ chars ∈ freshNames [salt] events, host.uuid5 chars ∉ table.keys

variable {salts : List Uuid} {events : List PyVal}

theorem freshUuid_inj (hcollision : NoCollision host salts events) (hsalt : salt ∈ salts) (hsalt' : salt' ∈ salts)
    (hv : v ∈ events) (hv' : v' ∈ events) (ho : observationOf v = some o) (ho' : observationOf v' = some o')
    {chars chars' : List Char} (hchars : freshChars salt o = some chars) (hchars' : freshChars salt' o' = some chars')
    (h : host.uuid5 chars = host.uuid5 chars') : salt = salt' ∧ o = o' := by
  have heq : chars = chars' :=
    hcollision ⟨salt, hsalt, v, hv, o, ho, hchars⟩ ⟨salt', hsalt', v', hv', o', ho', hchars'⟩ h
  obtain ⟨-, -, -, -, -, hcolon⟩ := observationOf_eq_some.mp ho
  obtain ⟨-, -, -, -, -, hcolon'⟩ := observationOf_eq_some.mp ho'
  refine freshName_inj hcolon hcolon' ?_
  rw [eq_of_mapM_toChar hchars, eq_of_mapM_toChar hchars', heq]

/-- The event is what some turn of the loop makes of `v` under the salt. -/
def PreparedOf (host : Host) (salt : Uuid) (v p : PyVal) : Prop :=
  ∃ nowIso uuid4, prepareEvent host nowIso (uuidStr salt) uuid4 v = some p

theorem ingestionId_eq_iff (hcollision : NoCollision host salts events) (hsalt : salt ∈ salts) (hsalt' : salt' ∈ salts)
    (hv : v ∈ events) (hv' : v' ∈ events) (ho : observationOf v = some o) (ho' : observationOf v' = some o')
    (hp : PreparedOf host salt v p) (hp' : PreparedOf host salt' v' p') :
    ingestionIdOf p = ingestionIdOf p' ↔ salt = salt' ∧ o = o' := by
  obtain ⟨_, _, hp⟩ := hp
  obtain ⟨_, _, hp'⟩ := hp'
  obtain ⟨chars, hchars, hid, -⟩ := prepareEvent_spec ho hp
  obtain ⟨chars', hchars', hid', -⟩ := prepareEvent_spec ho' hp'
  rw [hid, hid']
  constructor
  · intro h
    have huuid : host.uuid5 chars = host.uuid5 chars' := by simpa [uuidStr_injective.eq_iff] using h
    exact freshUuid_inj hcollision hsalt hsalt' hv hv' ho ho' hchars hchars' huuid
  · rintro ⟨rfl, rfl⟩
    rw [hchars, Option.some.injEq] at hchars'
    rw [hchars']

end

/-! ## A whole run -/

structure FreshRun where
  draw : FreshDraw
  batchSize : ℕ
  outcome : ℕ → Outcome
  completed : List ℕ

section

variable {δ : Type} (codec : Codec δ) (host : Host) (env : Env) (settings : Settings) (file : PyStr)

/-- Every batch of the run passes the schema, and its job comes to completion, in whatever order. -/
def FreshRun.Accepted (run : FreshRun) (w w' : World) : Prop :=
  ∃ batches summary parts,
    runReplay codec host .fresh run.draw (some file) run.batchSize run.outcome run.completed =
      (batches, .summary summary) ∧
    List.Forall₂ (Parsed env) batches parts ∧
    env.Completes settings (parts.map (List.map TelemetryEvent.modelDump)) w w'

/-- The runs are accepted one after the other. -/
def AllAccepted : List FreshRun → World → World → Prop
  | [], w, w' => w' = w
  | run :: runs, w, w' => ∃ w₁, run.Accepted codec host env settings file w w₁ ∧ AllAccepted runs w₁ w'

end

section

variable {δ : Type} {codec : Codec δ} {host : Host} {env : Env} {settings : Settings} {file : PyStr}
  {run : FreshRun} {w w' : World} {events : List PyVal}

theorem prepareBatch_fresh {draw : FreshDraw} {i : ℕ} {batch prepared : List PyVal}
    (h : prepareBatch host .fresh draw i batch = some prepared) :
    (∀ v ∈ batch, ∃ p ∈ prepared, PreparedOf host draw.runSalt v p) ∧
      ∀ p ∈ prepared, ∃ v ∈ batch, PreparedOf host draw.runSalt v p := by
  unfold prepareBatch at h
  constructor
  · intro v hv
    obtain ⟨k, hk, rfl⟩ := List.mem_iff_getElem.mp hv
    have hmem : (batch[k], k) ∈ batch.zipIdx := by
      rw [List.mk_mem_zipIdx_iff_getElem?]
      exact List.getElem?_eq_getElem hk
    obtain ⟨p, hp, hprepared⟩ := exists_of_mem_mapM h hmem
    exact ⟨p, hp, _, _, hprepared⟩
  · intro p hp
    obtain ⟨⟨v, k⟩, hmem, hprepared⟩ := exists_of_mem_result h hp
    exact ⟨v, List.fst_mem_of_mem_zipIdx hmem, _, _, hprepared⟩

theorem submitBatches_fresh {draw : FreshDraw} {i : ℕ} {batches submitted : List (List PyVal)}
    (h : submitBatches host .fresh draw i batches = (submitted, true)) :
    (∀ v ∈ batches.flatten, ∃ batch ∈ submitted, ∃ p ∈ batch, PreparedOf host draw.runSalt v p) ∧
      ∀ batch ∈ submitted, ∀ p ∈ batch, ∃ v ∈ batches.flatten, PreparedOf host draw.runSalt v p := by
  induction batches generalizing i submitted with
  | nil =>
    obtain rfl := (Prod.mk.inj h).1
    simp
  | cons batch rest ih =>
    unfold submitBatches at h
    split at h
    · simp at h
    · next prepared hprepared =>
      obtain ⟨rfl, htrue⟩ := Prod.mk.inj h
      obtain ⟨hall, honly⟩ := prepareBatch_fresh hprepared
      obtain ⟨hallRest, honlyRest⟩ := ih (i := i + 1) (Prod.ext rfl htrue)
      constructor
      · intro v hv
        rcases List.mem_append.mp (List.flatten_cons ▸ hv) with hv | hv
        · obtain ⟨p, hp, hof⟩ := hall v hv
          exact ⟨prepared, List.mem_cons_self, p, hp, hof⟩
        · obtain ⟨b, hb, hrest⟩ := hallRest v hv
          exact ⟨b, List.mem_cons_of_mem _ hb, hrest⟩
      · intro b hb p hp
        rw [List.flatten_cons]
        rcases List.mem_cons.mp hb with rfl | hb
        · obtain ⟨v, hv, hof⟩ := honly p hp
          exact ⟨v, List.mem_append_left _ hv, hof⟩
        · obtain ⟨v, hv, hof⟩ := honlyRest b hb p hp
          exact ⟨v, List.mem_append_right _ hv, hof⟩

theorem runReplay_fresh {batches : List (List PyVal)} {summary : Summary}
    (hfile : codec.loadFixture file = some events)
    (h : runReplay codec host .fresh run.draw (some file) run.batchSize run.outcome run.completed =
      (batches, .summary summary)) :
    (∀ v ∈ events, ∃ batch ∈ batches, ∃ p ∈ batch, PreparedOf host run.draw.runSalt v p) ∧
      ∀ batch ∈ batches, ∀ p ∈ batch, ∃ v ∈ events, PreparedOf host run.draw.runSalt v p := by
  unfold runReplay at h
  simp only [Option.map_some, hfile] at h
  split_ifs at h with hnil hsize hdone
  · simp at h
  · simp at h
  · obtain ⟨hbatches, -⟩ := Prod.mk.inj h
    have hflat := flatten_chunks run.batchSize (Nat.pos_of_ne_zero hsize) events
    rw [← hflat]
    exact submitBatches_fresh (Prod.ext hbatches hdone)
  · simp at h

theorem modelValidate_prepared {salt : Uuid} {o : Observation} {v p : PyVal} {e : TelemetryEvent}
    (ho : observationOf v = some o) (hp : PreparedOf host salt v p)
    (he : TelemetryEvent.modelValidate env.lax p = .ok e) :
    (e.source, e.icao24, e.lastContact) = (o.1, o.2.1, some o.2.2) ∧
      ∃ chars, freshChars salt o = some chars ∧ parseUuid e.ingestionId = some (host.uuid5 chars) := by
  obtain ⟨nowIso, uuid4, hp⟩ := hp
  obtain ⟨chars, hchars, hid, hobs⟩ := prepareEvent_spec ho hp
  obtain ⟨ev, rfl, hsource, hicao24, hcontact, -⟩ := observationOf_eq_some.mp hobs
  obtain ⟨hs, hi, hc, hid'⟩ := TelemetryEvent.fields_spec he
  unfold ingestionIdOf at hid
  simp [defaulted, hsource, validateStr] at hs
  simp [required, hicao24, validateStr] at hi
  simp [optionalField, defaulted, hcontact, Pydantic.optional, validateInt, Validated.map] at hc
  simp [required, hid, validateStr] at hid'
  refine ⟨by rw [hs, hi, hc], chars, hchars, ?_⟩
  rw [← hid', parseUuid_uuidStr]

theorem parsed_modelDump (parts : List (List TelemetryEvent)) :
    List.Forall₂ (Parsed env) (parts.map (List.map TelemetryEvent.modelDump)) parts := by
  rw [List.forall₂_map_left_iff, List.forall₂_same]
  intro part _
  unfold Parsed
  rw [List.forall₂_map_left_iff, List.forall₂_same]
  exact fun e _ => TelemetryEvent.modelValidate_modelDump env.lax e

/-- What the schema makes of an event of the fixture. -/
def ReadOf (host : Host) (salt : Uuid) (v : PyVal) (e : TelemetryEvent) : Prop :=
  ∀ o, observationOf v = some o → (e.source, e.icao24, e.lastContact) = (o.1, o.2.1, some o.2.2) ∧
    ∃ chars, freshChars salt o = some chars ∧ parseUuid e.ingestionId = some (host.uuid5 chars)

theorem accepted_parts (hfile : codec.loadFixture file = some events)
    (h : run.Accepted codec host env settings file w w') :
    ∃ parts : List (List TelemetryEvent), env.Completes settings (parts.map (List.map TelemetryEvent.modelDump)) w w' ∧
      (∀ v ∈ events, ∃ part ∈ parts, ∃ e ∈ part, ReadOf host run.draw.runSalt v e) ∧
      ∀ part ∈ parts, ∀ e ∈ part, ∃ v ∈ events, ReadOf host run.draw.runSalt v e := by
  obtain ⟨batches, summary, parts, hrun, hparsed, hcompletes⟩ := h
  obtain ⟨hall, honly⟩ := runReplay_fresh hfile hrun
  refine ⟨parts, hcompletes, fun v hv => ?_, fun part hpart e he => ?_⟩
  · obtain ⟨batch, hbatch, p, hp, hof⟩ := hall v hv
    obtain ⟨part, hpart, hread⟩ := exists_of_mem_forall₂ hparsed hbatch
    obtain ⟨e, he, hvalid⟩ := exists_of_mem_forall₂ hread hp
    exact ⟨part, hpart, e, he, fun o ho => modelValidate_prepared ho hof hvalid⟩
  · obtain ⟨batch, hbatch, hread⟩ := exists_of_mem_forall₂ hparsed.flip hpart
    obtain ⟨p, hp, hvalid⟩ := exists_of_mem_forall₂ hread.flip he
    obtain ⟨v, hv, hof⟩ := honly batch hbatch p hp
    exact ⟨v, hv, fun o ho => modelValidate_prepared ho hof hvalid⟩

/-- Events that the worker takes for one observation have one id. -/
theorem readOf_consistent {salt : Uuid} {v v' : PyVal} {e f : TelemetryEvent} (hv : (observationOf v).isSome)
    (hv' : (observationOf v').isSome) (hread : ReadOf host salt v e) (hread' : ReadOf host salt v' f)
    (hkey : dedupeKey e = dedupeKey f) : parseUuid e.ingestionId = parseUuid f.ingestionId := by
  obtain ⟨o, ho⟩ := Option.isSome_iff_exists.mp hv
  obtain ⟨o', ho'⟩ := Option.isSome_iff_exists.mp hv'
  obtain ⟨hfields, chars, hchars, hid⟩ := hread o ho
  obtain ⟨hfields', chars', hchars', hid'⟩ := hread' o' ho'
  have hsame : o = o' := by
    unfold dedupeKey at hkey
    simp only [Prod.mk.injEq] at hfields hfields' hkey
    refine Prod.ext ?_ (Prod.ext ?_ ?_)
    · rw [← hfields.1, ← hfields'.1, hkey.2.2]
    · rw [← hfields.2.1, ← hfields'.2.1, hkey.1]
    · rw [← Option.some.injEq, ← hfields.2.2, ← hfields'.2.2, hkey.2.1]
  rw [hsame, hchars', Option.some.injEq] at hchars
  rw [hid, hid', hchars]

theorem accepted_keys (hfile : codec.loadFixture file = some events) (hobs : ∀ v ∈ events, (observationOf v).isSome)
    (h : run.Accepted codec host env settings file w w') (u : Uuid) :
    u ∈ w'.rawTelemetry.keys ↔ u ∈ w.rawTelemetry.keys ∨
      ∃ chars ∈ freshNames [run.draw.runSalt] events, u = host.uuid5 chars := by
  obtain ⟨parts, hcompletes, hall, honly⟩ := accepted_parts hfile h
  obtain ⟨parts', hparts', -, hkeys⟩ := completes_ids hcompletes
  have hunique : Relator.RightUnique (Parsed env) := fun _ _ _ h h' => parsed_unique h h'
  obtain rfl := List.right_unique_forall₂' hunique hparts' (parsed_modelDump parts)
  have hconsistent : ∀ part ∈ parts', ∀ e ∈ part, ∀ f ∈ part, dedupeKey e = dedupeKey f →
      parseUuid e.ingestionId = parseUuid f.ingestionId := by
    intro part hpart e he f hf hkey
    obtain ⟨v, hv, hread⟩ := honly part hpart e he
    obtain ⟨v', hv', hread'⟩ := honly part hpart f hf
    exact readOf_consistent (hobs v hv) (hobs v' hv') hread hread' hkey
  rw [hkeys]
  refine or_congr_right ⟨?_, ?_⟩
  · rintro ⟨part, hpart, e, hfirst, hu⟩
    obtain ⟨v, hv, hread⟩ := honly part hpart e (mem_of_firstOfKey hfirst)
    obtain ⟨o, ho⟩ := Option.isSome_iff_exists.mp (hobs v hv)
    obtain ⟨-, chars, hchars, hid⟩ := hread o ho
    rw [hid, Option.some.injEq] at hu
    exact ⟨chars, ⟨run.draw.runSalt, List.mem_singleton_self _, v, hv, o, ho, hchars⟩, hu.symm⟩
  · rintro ⟨chars, ⟨salt, hsalt, v, hv, o, ho, hchars⟩, rfl⟩
    obtain ⟨part, hpart, e, he, hread⟩ := hall v hv
    obtain ⟨-, chars', hchars', hid⟩ := hread o ho
    rw [List.mem_singleton.mp hsalt, hchars', Option.some.injEq] at hchars
    refine ⟨part, hpart, (keepsId_of_consistent (hconsistent part hpart) _).mpr ⟨e, he, ?_⟩⟩
    rw [hid, hchars]

theorem accepted_named (hfile : codec.loadFixture file = some events)
    (h : run.Accepted codec host env settings file w w') {v : PyVal} (hv : v ∈ events) {o : Observation}
    (ho : observationOf v = some o) : (freshChars run.draw.runSalt o).isSome := by
  obtain ⟨parts, -, hall, -⟩ := accepted_parts hfile h
  obtain ⟨part, -, e, -, hread⟩ := hall v hv
  obtain ⟨-, chars, hchars, -⟩ := hread o ho
  rw [hchars]
  rfl

/-- The different observations of a fixture. -/
def observations (events : List PyVal) : Finset Observation := (events.filterMap observationOf).toFinset

theorem mem_observations {o : Observation} : o ∈ observations events ↔ ∃ v ∈ events, observationOf v = some o := by
  unfold observations
  rw [List.mem_toFinset, List.mem_filterMap]

theorem mem_freshNames_singleton {salt : Uuid} {chars : List Char} :
    chars ∈ freshNames [salt] events ↔ ∃ o ∈ observations events, freshChars salt o = some chars := by
  constructor
  · rintro ⟨salt', hsalt, v, hv, o, ho, hchars⟩
    rw [List.mem_singleton.mp hsalt] at hchars
    exact ⟨o, mem_observations.mpr ⟨v, hv, ho⟩, hchars⟩
  · rintro ⟨o, ho, hchars⟩
    obtain ⟨v, hv, ho⟩ := mem_observations.mp ho
    exact ⟨salt, List.mem_singleton_self _, v, hv, o, ho, hchars⟩

theorem keys_length (table : RawTelemetry) : table.rows.length = table.keys.toFinset.card := by
  rw [List.toFinset_card_of_nodup table.keys_nodup]
  unfold UniqueTable.keys
  rw [List.length_map]

/-- The id of an observation whose name can be hashed. -/
def idOf (host : Host) (salt : Uuid) (o : Observation) : Uuid := host.uuid5 ((freshChars salt o).getD [])

theorem idOf_eq {salt : Uuid} {o : Observation} {chars : List Char} (h : freshChars salt o = some chars) :
    idOf host salt o = host.uuid5 chars := by
  unfold idOf
  rw [h, Option.getD_some]

section

variable {salt : Uuid} (hnamed : ∀ o ∈ observations events, (freshChars salt o).isSome)

include hnamed

theorem idOf_injOn (hcollision : NoCollision host [salt] events) :
    Set.InjOn (idOf host salt) (observations events) := by
  intro o ho o' ho' heq
  obtain ⟨chars, hchars⟩ := Option.isSome_iff_exists.mp (hnamed o ho)
  obtain ⟨chars', hchars'⟩ := Option.isSome_iff_exists.mp (hnamed o' ho')
  obtain ⟨v, hv, ho⟩ := mem_observations.mp ho
  obtain ⟨v', hv', ho'⟩ := mem_observations.mp ho'
  rw [idOf_eq hchars, idOf_eq hchars'] at heq
  exact (freshUuid_inj hcollision (List.mem_singleton_self _) (List.mem_singleton_self _) hv hv' ho ho' hchars
    hchars' heq).2

theorem mem_ids (u : Uuid) : u ∈ (observations events).image (idOf host salt) ↔
    ∃ chars ∈ freshNames [salt] events, u = host.uuid5 chars := by
  rw [Finset.mem_image]
  constructor
  · rintro ⟨o, ho, rfl⟩
    obtain ⟨chars, hchars⟩ := Option.isSome_iff_exists.mp (hnamed o ho)
    exact ⟨chars, mem_freshNames_singleton.mpr ⟨o, ho, hchars⟩, idOf_eq hchars⟩
  · rintro ⟨chars, hname, rfl⟩
    obtain ⟨o, ho, hchars⟩ := mem_freshNames_singleton.mp hname
    exact ⟨o, ho, idOf_eq hchars⟩

end

theorem accepted_inserts (hfile : codec.loadFixture file = some events) (hobs : ∀ v ∈ events, (observationOf v).isSome)
    (hcollision : NoCollision host [run.draw.runSalt] events)
    (hnone : HoldsNoIdOf host run.draw.runSalt events w.rawTelemetry)
    (h : run.Accepted codec host env settings file w w') :
    w'.rawTelemetry.rows.length = w.rawTelemetry.rows.length + (observations events).card := by
  have hkeys := accepted_keys hfile hobs h
  have hnamed : ∀ o ∈ observations events, (freshChars run.draw.runSalt o).isSome := by
    intro o ho
    obtain ⟨v, hv, ho⟩ := mem_observations.mp ho
    exact accepted_named hfile h hv ho
  have hunion : w'.rawTelemetry.keys.toFinset =
      w.rawTelemetry.keys.toFinset ∪ (observations events).image (idOf host run.draw.runSalt) := by
    ext u
    rw [Finset.mem_union, mem_ids hnamed, List.mem_toFinset, List.mem_toFinset, hkeys]
  have hdisjoint : Disjoint w.rawTelemetry.keys.toFinset
      ((observations events).image (idOf host run.draw.runSalt)) := by
    rw [Finset.disjoint_left]
    intro u hu hnew
    obtain ⟨chars, hname, rfl⟩ := (mem_ids hnamed u).mp hnew
    exact hnone chars hname (List.mem_toFinset.mp hu)
  rw [keys_length, hunion, Finset.card_union_of_disjoint hdisjoint,
    Finset.card_image_of_injOn (idOf_injOn hnamed hcollision), ← keys_length]

theorem accepted_holdsNoIdOf {salts : List Uuid} {salt : Uuid} (hfile : codec.loadFixture file = some events)
    (hobs : ∀ v ∈ events, (observationOf v).isSome) (hcollision : NoCollision host salts events)
    (hrun : run.draw.runSalt ∈ salts) (hsalt : salt ∈ salts) (hne : salt ≠ run.draw.runSalt)
    (hnone : HoldsNoIdOf host salt events w.rawTelemetry) (h : run.Accepted codec host env settings file w w') :
    HoldsNoIdOf host salt events w'.rawTelemetry := by
  intro chars hname hu
  rcases (accepted_keys hfile hobs h _).mp hu with hu | ⟨chars', hname', heq⟩
  · exact hnone chars hname hu
  · obtain ⟨o, ho, hchars⟩ := mem_freshNames_singleton.mp hname
    obtain ⟨o', ho', hchars'⟩ := mem_freshNames_singleton.mp hname'
    obtain ⟨v, hv, ho⟩ := mem_observations.mp ho
    obtain ⟨v', hv', ho'⟩ := mem_observations.mp ho'
    exact hne (freshUuid_inj hcollision hsalt hrun hv hv' ho ho' hchars hchars' heq).1

theorem freshNames_mono {salts salts' : List Uuid} (h : ∀ salt ∈ salts, salt ∈ salts') :
    freshNames salts events ⊆ freshNames salts' events := by
  rintro chars ⟨salt, hsalt, hrest⟩
  exact ⟨salt, h salt hsalt, hrest⟩

theorem allAccepted_inserts {runs : List FreshRun} (hfile : codec.loadFixture file = some events)
    (hobs : ∀ v ∈ events, (observationOf v).isSome) (hsalts : (runs.map fun run => run.draw.runSalt).Nodup)
    (hcollision : NoCollision host (runs.map fun run => run.draw.runSalt) events)
    (hnone : ∀ run ∈ runs, HoldsNoIdOf host run.draw.runSalt events w.rawTelemetry)
    (h : AllAccepted codec host env settings file runs w w') :
    w'.rawTelemetry.rows.length = w.rawTelemetry.rows.length + runs.length * (observations events).card := by
  induction runs generalizing w with
  | nil =>
    obtain rfl := h
    simp
  | cons run runs ih =>
    obtain ⟨w₁, haccepted, hrest⟩ := h
    rw [List.map_cons, List.nodup_cons] at hsalts
    rw [List.forall_mem_cons] at hnone
    have hone : w₁.rawTelemetry.rows.length = w.rawTelemetry.rows.length + (observations events).card :=
      accepted_inserts hfile hobs (hcollision.mono (freshNames_mono (by simp))) hnone.1 haccepted
    have hlater : ∀ r ∈ runs, HoldsNoIdOf host r.draw.runSalt events w₁.rawTelemetry := by
      intro r hr
      have hmem : r.draw.runSalt ∈ runs.map fun run => run.draw.runSalt := List.mem_map_of_mem hr
      have hne : r.draw.runSalt ≠ run.draw.runSalt := fun heq => hsalts.1 (heq ▸ hmem)
      exact accepted_holdsNoIdOf hfile hobs hcollision (by simp) (List.mem_cons_of_mem _ hmem) hne (hnone.2 r hr)
        haccepted
    have hcollision' : NoCollision host (runs.map fun run => run.draw.runSalt) events :=
      hcollision.mono (freshNames_mono fun salt hsalt => List.mem_cons_of_mem _ hsalt)
    rw [ih hsalts.2 hcollision' hlater hrest, hone, List.length_cons, Nat.succ_mul]
    omega

/-- Fresh ids tell the observations and the runs apart, so every run inserts all observations of the fixture. -/
theorem fresh_replay (hfile : codec.loadFixture file = some events) (hobs : ∀ v ∈ events, (observationOf v).isSome)
    (runs : List FreshRun) (hsalts : (runs.map fun run => run.draw.runSalt).Nodup)
    (hcollision : NoCollision host (runs.map fun run => run.draw.runSalt) events) :
    (∀ run ∈ runs, ∀ run' ∈ runs, ∀ v ∈ events, ∀ v' ∈ events, ∀ o o' p p', observationOf v = some o →
      observationOf v' = some o' → PreparedOf host run.draw.runSalt v p → PreparedOf host run'.draw.runSalt v' p' →
        (run.draw.runSalt = run'.draw.runSalt → (ingestionIdOf p = ingestionIdOf p' ↔ o = o')) ∧
        (run.draw.runSalt ≠ run'.draw.runSalt → ingestionIdOf p ≠ ingestionIdOf p')) ∧
    (∀ run ∈ runs, ∀ w w', HoldsNoIdOf host run.draw.runSalt events w.rawTelemetry →
      run.Accepted codec host env settings file w w' →
        w'.rawTelemetry.rows.length = w.rawTelemetry.rows.length + (observations events).card) ∧
    ∀ w w', (∀ run ∈ runs, HoldsNoIdOf host run.draw.runSalt events w.rawTelemetry) →
      AllAccepted codec host env settings file runs w w' →
        w'.rawTelemetry.rows.length = w.rawTelemetry.rows.length + runs.length * (observations events).card := by
  have hmem {run : FreshRun} (hrun : run ∈ runs) : run.draw.runSalt ∈ runs.map fun run => run.draw.runSalt :=
    List.mem_map_of_mem hrun
  refine ⟨fun run hrun run' hrun' v hv v' hv' o o' p p' ho ho' hp hp' => ?_, fun run hrun w w' hnone h => ?_,
    fun w w' hnone h => allAccepted_inserts hfile hobs hsalts hcollision hnone h⟩
  · have hiff := ingestionId_eq_iff hcollision (hmem hrun) (hmem hrun') hv hv' ho ho' hp hp'
    exact ⟨fun hsame => by simpa [hsame] using hiff, fun hne heq => hne (hiff.mp heq).1⟩
  · refine accepted_inserts hfile hobs (hcollision.mono (freshNames_mono fun salt hsalt => ?_)) hnone h
    rw [List.mem_singleton.mp hsalt]
    exact hmem hrun

end

theorem prepareEvent_modelDump (host : Host) (nowIso runSalt : PyStr) (uuid4 : Uuid) (e : TelemetryEvent) :
    prepareEvent host nowIso runSalt uuid4 e.modelDump =
      (freshIngestionId host uuid4 (.str e.source) (.str e.icao24) (dumpOption .int e.lastContact) runSalt).map
        fun id => { e with ingestedAt := nowIso, ingestionId := id }.modelDump := by
  unfold prepareEvent TelemetryEvent.modelDump
  simp only [PyVal.get?, getOrNone, Dict.assign, str_inj, String.reduceEq, if_true, if_false, Option.getD_some]
  cases freshIngestionId host uuid4 (.str e.source) (.str e.icao24) (dumpOption .int e.lastContact) runSalt <;> rfl

/-! ## A fixture that is played twice -/

def heardEvent (ingestedAt ingestionId : PyStr) : TelemetryEvent :=
  { sampleEvent ingestionId with lastContact := some 1787738400, ingestedAt := ingestedAt }

def heardRow : FixtureRow PyStr :=
  { sampleRow with payload := (heardEvent (str "2026-08-25T09:00:00Z") sampleId).modelDump }

def heardRecord : PyVal := (⟨fun _ => str "0.0", fun _ => none, id⟩ : Codec PyStr).record heardRow

/-- `loads` of the one line of the fixture. -/
def heardCodec : Codec PyStr where
  floatRepr := fun _ => str "0.0"
  isoformat := id
  loads := fun s => if jsonDumps (fun _ => str "0.0") heardRecord = some s then some heardRecord else none

theorem heardRecord_dumps : (jsonDumps (fun _ => str "0.0") heardRecord).isSome := by
  decide +kernel

theorem heard_loaded : ∃ file, heardCodec.loadFixture file = some [heardRow.payload] := by
  have hrecord : heardCodec.record heardRow = heardRecord := by simp only [heardRecord, Codec.record, heardCodec]
  have hfloat : heardCodec.floatRepr = fun _ => str "0.0" := rfl
  obtain ⟨text, htext⟩ := Option.isSome_iff_exists.mp heardRecord_dumps
  have hexport : heardCodec.exportFixture .lf [heardRow] = (written .lf (text ++ [newline]), some 1) := by
    unfold Codec.exportFixture
    simp only [Codec.exportRows, hrecord, hfloat, htext, List.nil_append, Nat.zero_add]
  have hloads : ∀ row ∈ [heardRow], ∀ text, jsonDumps heardCodec.floatRepr (heardCodec.record row) = some text →
      heardCodec.loads text = some (heardCodec.record row) := by
    intro row hrow text htext
    rw [List.mem_singleton.mp hrow, hrecord] at htext ⊢
    rw [hfloat] at htext
    simp only [heardCodec, htext, if_true]
  exact ⟨_, loadFixture_exportFixture (fun _ => rfl) hloads hexport⟩

def firstSalt : Uuid :=
  ⟨[6, 11, 10, 7, 11, 8, 1, 0, 9, 13, 10, 13, 4, 1, 13, 1, 8, 0, 11, 4, 0, 0, 12, 0, 4, 15, 13, 4, 3, 0, 12, 8], rfl⟩

def secondSalt : Uuid :=
  ⟨[7, 13, 4, 4, 4, 8, 4, 0, 9, 13, 12, 0, 4, 1, 13, 1, 11, 2, 4, 5, 5, 15, 15, 13, 12, 14, 7, 4, 15, 10, 13, 2], rfl⟩

def firstUuid : Uuid :=
  ⟨[4, 12, 8, 13, 5, 9, 13, 1, 5, 5, 15, 5, 5, 14, 0, 12, 9, 1, 0, 13, 2, 5, 12, 11, 10, 0, 6, 10, 0, 3, 15, 6], rfl⟩

def secondUuid : Uuid :=
  ⟨[14, 10, 14, 9, 4, 14, 2, 3, 8, 6, 4, 12, 5, 12, 0, 7, 10, 15, 4, 5, 0, 5, 2, 2, 5, 6, 6, 12, 0, 7, 4, 7], rfl⟩

def firstName : List Char := "6ba7b810-9dad-41d1-80b4-00c04fd430c8:opensky:4b1814:1787738400".toList

def secondName : List Char := "7d444840-9dc0-41d1-b245-5ffdce74fad2:opensky:4b1814:1787738400".toList

/-- `uuid5` of these two names. -/
def heardHost : Host where
  repr := fun _ => none
  uuid5 := fun chars => if chars = firstName then firstUuid else if chars = secondName then secondUuid else sampleUuid

theorem heard_names {chars : List Char} (h : chars ∈ freshNames [firstSalt, secondSalt] [heardRow.payload]) :
    chars = firstName ∨ chars = secondName := by
  obtain ⟨salt, hsalt, v, hv, o, ho, hchars⟩ := h
  have hobs : observationOf heardRow.payload = some (str "opensky", str "4b1814", 1787738400) := by decide +kernel
  have hfirst : freshChars firstSalt (str "opensky", str "4b1814", 1787738400) = some firstName := by decide +kernel
  have hsecond : freshChars secondSalt (str "opensky", str "4b1814", 1787738400) = some secondName := by decide +kernel
  rw [List.mem_singleton.mp hv, hobs, Option.some.injEq] at ho
  subst ho
  rcases List.mem_pair.mp hsalt with rfl | rfl
  · rw [hfirst, Option.some.injEq] at hchars
    exact .inl hchars.symm
  · rw [hsecond, Option.some.injEq] at hchars
    exact .inr hchars.symm

theorem heard_noCollision : NoCollision heardHost [firstSalt, secondSalt] [heardRow.payload] := by
  have hne : heardHost.uuid5 firstName ≠ heardHost.uuid5 secondName := by decide +kernel
  intro chars h chars' h' heq
  rcases heard_names h with rfl | rfl <;> rcases heard_names h' with rfl | rfl
  · rfl
  · exact absurd heq hne
  · exact absurd heq.symm hne
  · rfl

def playedAt : PyStr := str "2026-08-26T10:00:00Z"

def playedRun (salt : Uuid) : FreshRun :=
  ⟨⟨salt, fun _ => playedAt, fun _ _ => sampleUuid⟩, 8000, fun _ => .returned true, [0]⟩

section

variable {salt uuid : Uuid}

theorem heard_prepared
    (h : heardHost.hashed [.str (uuidStr salt), .str (str "opensky"), .str (str "4b1814"), .int 1787738400] =
      some (uuidStr uuid)) :
    prepareEvent heardHost playedAt (uuidStr salt) sampleUuid heardRow.payload =
      some (heardEvent playedAt (uuidStr uuid)).modelDump := by
  let e := heardEvent (str "2026-08-25T09:00:00Z") sampleId
  have hpayload : heardRow.payload = e.modelDump := rfl
  have hid : freshIngestionId heardHost sampleUuid (.str e.source) (.str e.icao24) (dumpOption .int e.lastContact)
      (uuidStr salt) = some (uuidStr uuid) := h
  rw [hpayload, prepareEvent_modelDump, hid]
  rfl

theorem heard_storing (hplain : (parseUuid (uuidStr uuid)).isSome) :
    ∀ part ∈ [[heardEvent playedAt (uuidStr uuid)]], Storing sampleEnv part := by
  have hstorable : StorableEvent sampleEnv (heardEvent playedAt (uuidStr uuid)) :=
    { sampleEvent_storable with
      ingestionId := hplain
      lastContact := by
        intro n hn
        obtain rfl := Option.some.inj hn
        decide +kernel
      ingestedAt := by
        have hparsed : (sampleEnv.parseTimestamptz playedAt).isSome := by decide +kernel
        exact hparsed }
  intro part hpart event hfirst
  rw [List.mem_singleton.mp hpart] at hfirst
  rw [List.mem_singleton.mp (mem_of_firstOfKey hfirst)]
  exact hstorable

theorem heard_accepted
    (h : heardHost.hashed [.str (uuidStr salt), .str (str "opensky"), .str (str "4b1814"), .int 1787738400] =
      some (uuidStr uuid)) {file : PyStr} (hfile : heardCodec.loadFixture file = some [heardRow.payload]) (w : World) :
    ∃ w', (playedRun salt).Accepted heardCodec heardHost sampleEnv Settings.default file w w' := by
  have hplain : (parseUuid (uuidStr uuid)).isSome := by rw [parseUuid_uuidStr]; rfl
  have hstoring := heard_storing hplain
  obtain ⟨w', hcompletes⟩ := completes_of_storing (parsed_modelDump _) hstoring Settings.default w
  have hparsed : List.Forall₂ (Parsed sampleEnv) [[(heardEvent playedAt (uuidStr uuid)).modelDump]]
      [[heardEvent playedAt (uuidStr uuid)]] :=
    .cons (.cons (TelemetryEvent.modelValidate_modelDump _ _) .nil) .nil
  have hchunks : chunks 8000 [heardRow.payload] = [[heardRow.payload]] := rfl
  have hbatch : prepareBatch heardHost .fresh (playedRun salt).draw 0 [heardRow.payload] =
      some [(heardEvent playedAt (uuidStr uuid)).modelDump] := by
    have hevent := heard_prepared h
    unfold prepareBatch
    have hdraw : prepareEvent heardHost ((playedRun salt).draw.nowIso 0) (uuidStr (playedRun salt).draw.runSalt)
        ((playedRun salt).draw.uuid4 0 0) heardRow.payload = some (heardEvent playedAt (uuidStr uuid)).modelDump :=
      hevent
    simp [hdraw]
  have hrun : ∃ summary, runReplay heardCodec heardHost .fresh (playedRun salt).draw (some file) 8000
      (fun _ => .returned true) [0] = ([[(heardEvent playedAt (uuidStr uuid)).modelDump]], .summary summary) := by
    unfold runReplay
    simp [hfile, hchunks, submitBatches, hbatch]
  obtain ⟨summary, hrun⟩ := hrun
  exact ⟨w', _, summary, _, hrun, hparsed, hcompletes⟩

end

theorem fresh_replay_twice : ∃ file w',
    AllAccepted heardCodec heardHost sampleEnv Settings.default file [playedRun firstSalt, playedRun secondSalt]
      emptyWorld w' ∧ w'.rawTelemetry.rows.length = 2 := by
  obtain ⟨file, hfile⟩ := heard_loaded
  have hfirst : heardHost.hashed
      [.str (uuidStr firstSalt), .str (str "opensky"), .str (str "4b1814"), .int 1787738400] =
        some (uuidStr firstUuid) := by decide +kernel
  have hsecond : heardHost.hashed
      [.str (uuidStr secondSalt), .str (str "opensky"), .str (str "4b1814"), .int 1787738400] =
        some (uuidStr secondUuid) := by decide +kernel
  obtain ⟨w₁, hw₁⟩ := heard_accepted hfirst hfile emptyWorld
  obtain ⟨w₂, hw₂⟩ := heard_accepted hsecond hfile w₁
  have haccepted : AllAccepted heardCodec heardHost sampleEnv Settings.default file
      [playedRun firstSalt, playedRun secondSalt] emptyWorld w₂ := ⟨w₁, hw₁, w₂, hw₂, rfl⟩
  have hobs : ∀ v ∈ [heardRow.payload], (observationOf v).isSome := by
    intro v hv
    rw [List.mem_singleton.mp hv]
    decide +kernel
  have hcard : (observations [heardRow.payload]).card = 1 := by decide +kernel
  obtain ⟨-, -, hinserts⟩ := @fresh_replay _ heardCodec heardHost sampleEnv Settings.default file _ hfile hobs
    [playedRun firstSalt, playedRun secondSalt] (by decide) heard_noCollision
  refine ⟨file, w₂, haccepted, ?_⟩
  rw [hinserts emptyWorld w₂ (by simp [HoldsNoIdOf, emptyWorld, UniqueTable.keys]) haccepted, hcard]
  rfl

end FlightPulse.Replay
