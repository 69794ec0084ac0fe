import FlightPulse.Lib.JsonRender
import FlightPulse.Lib.Postgres
import FlightPulse.Lib.Pydantic

/-!
# The fixture file (`replay/export_fixture.py`, `load_fixture`)

A fixture has one row of `raw_telemetry` on each line. The payload is kept as it
is, so that it can be sent again.
-/

open Lib.Python Lib.Pydantic Lib.Postgres

namespace FlightPulse.Replay

/-- A row as the cursor yields it. -/
structure FixtureRow (δ : Type) where
  ingestionId : Uuid
  source : PyStr
  icao24 : PyStr
  collectorId : Option PyStr
  payload : PyVal
  receivedAt : δ
  ingestedAt : δ
  processedAt : Option δ

/-- What the replay tools rely on outside of their source. -/
structure Codec (δ : Type) where
  floatRepr : ℚ → PyStr
  loads : PyStr → Option PyVal
  isoformat : δ → PyStr

variable {δ : Type} (codec : Codec δ)

/-! ## `export_fixture` -/

def Codec.record (row : FixtureRow δ) : PyVal :=
  .dict
    [ (str "ingestion_id", .str (uuidStr row.ingestionId)),
      (str "source", .str row.source),
      (str "icao24", .str row.icao24),
      (str "collector_id", dumpOption .str row.collectorId),
      (str "payload", row.payload),
      (str "received_at", .str (codec.isoformat row.receivedAt)),
      (str "ingested_at", .str (codec.isoformat row.ingestedAt)),
      (str "processed_at", dumpOption (fun at_ => .str (codec.isoformat at_)) row.processedAt) ]

/-- The loop over the cursor: what the file holds by then, and the rows that were written. -/
def Codec.exportRows (linesep : Linesep) (file : PyStr) (rowCount : ℕ) : List (FixtureRow δ) → PyStr × Option ℕ
  | [] => (file, some rowCount)
  | row :: rows =>
    match jsonDumps codec.floatRepr (codec.record row) with
    | none => (file, none)
    | some text => exportRows linesep (file ++ written linesep (text ++ [newline])) (rowCount + 1) rows

/-- The rows are what the query returns, in its order. -/
def Codec.exportFixture (linesep : Linesep) (rows : List (FixtureRow δ)) : PyStr × Option ℕ :=
  codec.exportRows linesep [] 0 rows

/-! ## `load_fixture` -/

def Codec.loadLines : List PyStr → Option (List PyVal)
  | [] => some []
  | rawLine :: rest =>
    let line := strip rawLine
    if line = [] then loadLines rest
    else
      match codec.loads line with
      | some (.dict row) =>
        match PyVal.get? (str "payload") row with
        | some payload => (loadLines rest).map (payload :: ·)
        | none => none
      | _ => none

def Codec.loadFixture (file : PyStr) : Option (List PyVal) := codec.loadLines (fileLines file)

/-! ## One after the other -/

variable {codec} {linesep : Linesep}

theorem exportRows_spec {rows : List (FixtureRow δ)} {file file' : PyStr} {count n : ℕ}
    (h : codec.exportRows linesep file count rows = (file', some n)) :
    ∃ texts, rows.mapM (fun row => jsonDumps codec.floatRepr (codec.record row)) = some texts ∧
      file' = file ++ texts.flatMap (fun text => written linesep (text ++ [newline])) ∧
      n = count + rows.length := by
  induction rows generalizing file count with
  | nil =>
    cases h
    exact ⟨[], rfl, by simp, rfl⟩
  | cons row rows ih =>
    unfold Codec.exportRows at h
    split at h
    · cases h
    · next text htext =>
      obtain ⟨texts, htexts, hfile, hn⟩ := ih h
      refine ⟨text :: texts, mapM_cons_eq_some.mpr ⟨text, texts, htext, htexts, rfl⟩, ?_, ?_⟩
      · rw [hfile, List.flatMap_cons, List.append_assoc]
      · rw [hn, List.length_cons]
        omega

theorem exportFixture_total {rows : List (FixtureRow δ)}
    (h : ∀ row ∈ rows, (jsonDumps codec.floatRepr (codec.record row)).isSome) :
    ∃ file, codec.exportFixture linesep rows = (file, some rows.length) := by
  have key : ∀ file count, ∃ file', codec.exportRows linesep file count rows = (file', some (count + rows.length)) := by
    induction rows with
    | nil => exact fun file count => ⟨file, rfl⟩
    | cons row rows ih =>
      intro file count
      rw [List.forall_mem_cons] at h
      obtain ⟨text, htext⟩ := Option.isSome_iff_exists.mp h.1
      obtain ⟨file', hfile'⟩ := ih h.2 (file ++ written linesep (text ++ [newline])) (count + 1)
      refine ⟨file', ?_⟩
      unfold Codec.exportRows
      simp only [htext, hfile', List.length_cons]
      rw [Nat.add_assoc, Nat.add_comm 1]
  obtain ⟨file, hfile⟩ := key [] 0
  exact ⟨file, by rw [Codec.exportFixture, hfile, Nat.zero_add]⟩

theorem fileLines_texts (linesep : Linesep) {texts : List PyStr} (h : ∀ text ∈ texts, OneLine text) :
    fileLines (texts.flatMap fun text => written linesep (text ++ [newline])) =
      texts.map (· ++ [newline]) := by
  induction texts with
  | nil => rfl
  | cons text texts ih =>
    rw [List.forall_mem_cons] at h
    rw [List.flatMap_cons, fileLines_line linesep h.1, ih h.2, List.map_cons]

theorem record_text {row : FixtureRow δ} {text : PyStr}
    (h : jsonDumps codec.floatRepr (codec.record row) = some text) :
    ∃ items, text = render codec.floatRepr (.obj items) := by
  obtain ⟨t, ht, rfl⟩ := Option.map_eq_some_iff.mp h
  unfold Codec.record at ht
  rw [dumps] at ht
  obtain ⟨items, -, rfl⟩ := Option.map_eq_some_iff.mp ht
  exact ⟨items, rfl⟩

theorem record_payload (codec : Codec δ) (row : FixtureRow δ) :
    ∃ fields, codec.record row = .dict fields ∧ PyVal.get? (str "payload") fields = some row.payload := by
  refine ⟨_, rfl, ?_⟩
  simp [PyVal.get?, str_inj]

theorem loadLines_cons {row : FixtureRow δ} {text : PyStr}
    (h : jsonDumps codec.floatRepr (codec.record row) = some text)
    (hloads : codec.loads text = some (codec.record row)) (lines : List PyStr) :
    codec.loadLines ((text ++ [newline]) :: lines) = (codec.loadLines lines).map (row.payload :: ·) := by
  obtain ⟨items, hitems⟩ := record_text h
  have hstrip : strip (text ++ [newline]) = text := by
    rw [hitems]
    exact strip_render_obj items
  have hne : text ≠ [] := by
    rw [hitems]
    unfold render
    simp [str]
  obtain ⟨fields, hrecord, hpayload⟩ := record_payload codec row
  rw [hrecord] at hloads
  simp only [Codec.loadLines, hstrip, hne, if_false, hloads, hpayload]

theorem loadLines_records {rows : List (FixtureRow δ)} {texts : List PyStr}
    (h : rows.mapM (fun row => jsonDumps codec.floatRepr (codec.record row)) = some texts)
    (hloads : ∀ row ∈ rows, ∀ text, jsonDumps codec.floatRepr (codec.record row) = some text →
      codec.loads text = some (codec.record row)) :
    codec.loadLines (texts.map (· ++ [newline])) = some (rows.map FixtureRow.payload) := by
  induction rows generalizing texts with
  | nil =>
    cases h
    rfl
  | cons row rows ih =>
    obtain ⟨text, texts', htext, htexts, rfl⟩ := mapM_cons_eq_some.mp h
    rw [List.forall_mem_cons] at hloads
    rw [List.map_cons, loadLines_cons htext (hloads.1 text htext), ih htexts hloads.2]
    rfl

/-- What is loaded is what was exported. -/
theorem loadFixture_exportFixture (hfloat : ∀ q, printable (codec.floatRepr q)) {rows : List (FixtureRow δ)}
    {file : PyStr} {n : ℕ} (hloads : ∀ row ∈ rows, ∀ text, jsonDumps codec.floatRepr (codec.record row) = some text →
      codec.loads text = some (codec.record row))
    (h : codec.exportFixture linesep rows = (file, some n)) :
    codec.loadFixture file = some (rows.map FixtureRow.payload) := by
  obtain ⟨texts, htexts, rfl, -⟩ := exportRows_spec h
  have hline : ∀ text ∈ texts, OneLine text := by
    intro text htext
    obtain ⟨row, -, hrow⟩ := exists_of_mem_result htexts htext
    obtain ⟨items, rfl⟩ := record_text hrow
    exact oneLine_of_printable (printable_render hfloat _)
  unfold Codec.loadFixture
  rw [List.nil_append, fileLines_texts linesep hline]
  exact loadLines_records htexts hloads

end FlightPulse.Replay
