import FlightPulse.Lib.Strings

/-!
# The text that `json.dumps` writes

With its default options: separators with a space, and `\u` escapes for everything
outside of printable ASCII, so no character of the text ends a line.
-/

namespace Lib.Python

/-! ## Strings -/

def hexDigit (n : ℕ) : CodePoint := ofChar ("0123456789abcdef".toList.getD (n % 16) '0')

def escapeHex (u : ℕ) : PyStr :=
  str "\\u" ++ [hexDigit (u / 0x1000), hexDigit (u / 0x100), hexDigit (u / 0x10), hexDigit u]

/-- `ESCAPE_DCT`, and `\u` for what it does not list. -/
def escapeUnit (u : ℕ) : PyStr :=
  if u = 0x22 then str "\\\""
  else if u = 0x5C then str "\\\\"
  else if u = 10 then str "\\n"
  else if u = 13 then str "\\r"
  else if u = 9 then str "\\t"
  else if u = 12 then str "\\f"
  else if u = 8 then str "\\b"
  else if 0x20 ≤ u ∧ u ≤ 0x7E then [Fin.ofNat _ u]
  else escapeHex u

def renderStr (units : List ℕ) : PyStr := str "\"" ++ units.flatMap escapeUnit ++ str "\""

/-! ## Values -/

/-- `float.__repr__` of a finite float is left to `floatRepr`. -/
def renderFloat (floatRepr : ℚ → PyStr) : PyFloat → PyStr
  | .finite q => floatRepr q
  | .nan => str "NaN"
  | .inf => str "Infinity"
  | .negInf => str "-Infinity"

mutual

def render (floatRepr : ℚ → PyStr) : JsonText → PyStr
  | .null => str "null"
  | .bool b => if b then str "true" else str "false"
  | .int n => intStr n
  | .float x => renderFloat floatRepr x
  | .str units => renderStr units
  | .arr items => str "[" ++ renderItems floatRepr items ++ str "]"
  | .obj items => str "\x7b" ++ renderEntries floatRepr items ++ str "\x7d"

def renderItems (floatRepr : ℚ → PyStr) : List JsonText → PyStr
  | [] => []
  | [v] => render floatRepr v
  | v :: w :: vs => render floatRepr v ++ str ", " ++ renderItems floatRepr (w :: vs)

def renderEntries (floatRepr : ℚ → PyStr) : List (List ℕ × JsonText) → PyStr
  | [] => []
  | [(k, v)] => renderStr k ++ str ": " ++ render floatRepr v
  | (k, v) :: kv :: kvs =>
    renderStr k ++ str ": " ++ render floatRepr v ++ str ", " ++ renderEntries floatRepr (kv :: kvs)

end

/-- `json.dumps(v)` as text. -/
def jsonDumps (floatRepr : ℚ → PyStr) (v : PyVal) : Option PyStr := (dumps v).map (render floatRepr)

/-! ## printable text -/

def printable (s : PyStr) : Bool := s.all fun c => 0x20 ≤ c.val && c.val < 0x7F

theorem printable_iff {s : PyStr} : printable s ↔ ∀ c ∈ s, 0x20 ≤ c.val ∧ c.val < 0x7F := by
  simp [printable]

theorem oneLine_of_printable {s : PyStr} (h : printable s) : OneLine s := by
  intro c hc
  have hge := (printable_iff.mp h c hc).1
  unfold newline carriageReturn
  constructor
  · rintro rfl
    exact absurd hge (by decide)
  · rintro rfl
    exact absurd hge (by decide)

theorem printable_append {s t : PyStr} : printable (s ++ t) ↔ printable s ∧ printable t := by
  unfold printable
  rw [List.all_append, Bool.and_eq_true]

theorem printable_escapeHex (u : ℕ) : printable (escapeHex u) := by
  have hdigit : ∀ n, 0x20 ≤ (hexDigit n).val ∧ (hexDigit n).val < 0x7F := by
    have hall : ∀ i < 16, 0x20 ≤ (ofChar ("0123456789abcdef".toList.getD i '0')).val ∧
        (ofChar ("0123456789abcdef".toList.getD i '0')).val < 0x7F := by decide
    exact fun n => hall (n % 16) (Nat.mod_lt n (by decide))
  unfold escapeHex
  rw [printable_append]
  refine ⟨by decide, ?_⟩
  rw [printable_iff]
  simp [hdigit]

theorem printable_escapeUnit (u : ℕ) : printable (escapeUnit u) := by
  unfold escapeUnit
  split_ifs with h1 h2 h3 h4 h5 h6 h7 h8
  · decide
  · decide
  · decide
  · decide
  · decide
  · decide
  · decide
  · rw [printable_iff]
    intro c hc
    rw [List.mem_singleton.mp hc, Fin.val_ofNat]
    omega
  · exact printable_escapeHex u

theorem printable_renderStr (units : List ℕ) : printable (renderStr units) := by
  unfold renderStr
  simp only [printable_append]
  refine ⟨⟨by decide, printable_iff.mpr fun c hc => ?_⟩, by decide⟩
  obtain ⟨u, -, hu⟩ := List.mem_flatMap.mp hc
  exact printable_iff.mp (printable_escapeUnit u) c hu

theorem printable_intStr (n : ℤ) : printable (intStr n) := by
  have hnat : ∀ m, printable (natStr m) := by
    intro m
    rw [printable_iff]
    intro c hc
    have := mem_natStr hc
    omega
  cases n with
  | ofNat n => exact hnat n
  | negSucc n =>
    exact (printable_append (s := [ofChar '-'])).mpr ⟨by decide, hnat (n + 1)⟩

variable {floatRepr : ℚ → PyStr}

theorem printable_renderFloat (hfloat : ∀ q, printable (floatRepr q)) (x : PyFloat) :
    printable (renderFloat floatRepr x) := by
  unfold renderFloat
  split
  · apply hfloat
  · decide
  · decide
  · decide

mutual

theorem printable_render (hfloat : ∀ q, printable (floatRepr q)) (t : JsonText) :
    printable (render floatRepr t) := by
  match t with
  | .null => unfold render; decide
  | .bool b => unfold render; cases b <;> decide
  | .int n => unfold render; exact printable_intStr n
  | .float x => unfold render; exact printable_renderFloat hfloat x
  | .str units => unfold render; exact printable_renderStr units
  | .arr items =>
    unfold render
    simp only [printable_append]
    exact ⟨⟨by decide, printable_renderItems hfloat items⟩, by decide⟩
  | .obj items =>
    unfold render
    simp only [printable_append]
    exact ⟨⟨by decide, printable_renderEntries hfloat items⟩, by decide⟩

theorem printable_renderItems (hfloat : ∀ q, printable (floatRepr q)) (items : List JsonText) :
    printable (renderItems floatRepr items) := by
  match items with
  | [] => unfold renderItems; decide
  | [v] => unfold renderItems; exact printable_render hfloat v
  | v :: w :: vs =>
    unfold renderItems
    simp only [printable_append]
    exact ⟨⟨printable_render hfloat v, by decide⟩, printable_renderItems hfloat (w :: vs)⟩

theorem printable_renderEntries (hfloat : ∀ q, printable (floatRepr q)) (items : List (List ℕ × JsonText)) :
    printable (renderEntries floatRepr items) := by
  match items with
  | [] => unfold renderEntries; decide
  | [(k, v)] =>
    unfold renderEntries
    simp only [printable_append]
    exact ⟨⟨printable_renderStr k, by decide⟩, printable_render hfloat v⟩
  | (k, v) :: kv :: kvs =>
    unfold renderEntries
    simp only [printable_append]
    exact ⟨⟨⟨⟨printable_renderStr k, by decide⟩, printable_render hfloat v⟩, by decide⟩,
      printable_renderEntries hfloat (kv :: kvs)⟩

end

/-- A line that holds an object is its text and a newline, and only the newline goes. -/
theorem strip_render_obj (items : List (List ℕ × JsonText)) :
    strip (render floatRepr (.obj items) ++ [newline]) = render floatRepr (.obj items) := by
  have hhead : ∀ c, (render floatRepr (.obj items)).head? = some c → isSpace c = false := by
    unfold render
    intro c hc
    obtain rfl : ofChar '\x7b' = c := by simpa [str] using hc
    decide
  have hlast : ∀ c, (render floatRepr (.obj items)).getLast? = some c → isSpace c = false := by
    unfold render
    intro c hc
    rw [List.getLast?_append] at hc
    obtain rfl : ofChar '\x7d' = c := by simpa [str] using hc
    decide
  exact strip_snoc hhead hlast (by decide)

/-! ## Strict JSON -/

/-- `s.encode("utf-8")` does not raise. -/
def encodable (s : PyStr) : Bool := s.all fun c => !(0xD800 ≤ c.val && c.val < 0xE000)

mutual

/-- `json.dumps(v, allow_nan=False)` does not raise, where `depth` levels of nesting are left and the
strings go through `writable`. -/
def strictJson (writable : PyStr → Bool) (depth : ℕ) : PyVal → Bool
  | .none => true
  | .bool _ => true
  | .int n => hasRepr n
  | .float (.finite _) => true
  | .float _ => false
  | .str s => writable s
  | .list items => 0 < depth && strictItems writable (depth - 1) items
  | .dict items => 0 < depth && strictEntries writable (depth - 1) items

def strictItems (writable : PyStr → Bool) (depth : ℕ) : List PyVal → Bool
  | [] => true
  | v :: vs => strictJson writable depth v && strictItems writable depth vs

def strictEntries (writable : PyStr → Bool) (depth : ℕ) : List (PyStr × PyVal) → Bool
  | [] => true
  | (k, v) :: kvs => writable k && strictJson writable depth v && strictEntries writable depth kvs

end

/-! ## Why strict JSON fails -/

inductive JsonFault where
  | valueError
  | recursionError
deriving DecidableEq

mutual

/-- The exception that `json.dumps(v, allow_nan=False)` comes to first, if any. -/
def jsonFault : (depth : ℕ) → PyVal → Option JsonFault
  | _, .none | _, .bool _ | _, .str _ | _, .float (.finite _) => none
  | _, .int n => if hasRepr n then none else some .valueError
  | _, .float _ => some .valueError
  | 0, .list _ | 0, .dict _ => some .recursionError
  | depth + 1, .list items => itemsFault depth items
  | depth + 1, .dict items => entriesFault depth items

def itemsFault : (depth : ℕ) → List PyVal → Option JsonFault
  | _, [] => none
  | depth, v :: vs => (jsonFault depth v).or (itemsFault depth vs)

def entriesFault : (depth : ℕ) → List (PyStr × PyVal) → Option JsonFault
  | _, [] => none
  | depth, (_, v) :: kvs => (jsonFault depth v).or (entriesFault depth kvs)

end

mutual

theorem jsonFault_eq_none (depth : ℕ) (v : PyVal) : jsonFault depth v = none ↔ strictJson (fun _ => true) depth v := by
  match depth, v with
  | _, .none | _, .bool _ | _, .str _ | _, .float (.finite _) => simp [jsonFault, strictJson]
  | _, .int n => simp [jsonFault, strictJson]
  | _, .float .nan | _, .float .inf | _, .float .negInf => simp [jsonFault, strictJson]
  | 0, .list _ | 0, .dict _ => simp [jsonFault, strictJson]
  | depth + 1, .list items => simp [jsonFault, strictJson, itemsFault_eq_none depth items]
  | depth + 1, .dict items => simp [jsonFault, strictJson, entriesFault_eq_none depth items]

theorem itemsFault_eq_none (depth : ℕ) (items : List PyVal) :
    itemsFault depth items = none ↔ strictItems (fun _ => true) depth items := by
  match items with
  | [] => simp [itemsFault, strictItems]
  | v :: vs => simp [itemsFault, strictItems, jsonFault_eq_none depth v, itemsFault_eq_none depth vs]

theorem entriesFault_eq_none (depth : ℕ) (items : List (PyStr × PyVal)) :
    entriesFault depth items = none ↔ strictEntries (fun _ => true) depth items := by
  match items with
  | [] => simp [entriesFault, strictEntries]
  | (k, v) :: kvs => simp [entriesFault, strictEntries, jsonFault_eq_none depth v, entriesFault_eq_none depth kvs]

end

end Lib.Python
