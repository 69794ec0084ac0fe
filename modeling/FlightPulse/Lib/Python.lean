import Mathlib.Algebra.Group.Int.Defs
import Mathlib.Algebra.Group.Nat.Defs
import Mathlib.Algebra.GroupWithZero.Nat
import Mathlib.Algebra.Order.Ring.Unbundled.Rat

/-!
# Python values and the JSON text that `json.dumps` writes for them

A Python string is any list of code points, lone surrogates included. A float
is a rational or one of the values that only a float has. JSON text is kept as
its syntax tree: what a string token says is its UTF-16 units, since
`json.dumps` escapes everything else.
-/

namespace Lib.Python

abbrev CodePoint := Fin 0x110000

-- Named here, so that every literal of a code point uses this one.
instance codePoint_neZero : NeZero 0x110000 := ⟨by decide⟩

abbrev PyStr := List CodePoint

-- Named here, so that every membership test in a string, and between strings, uses these.
instance lawful_codePoint : LawfulBEq CodePoint := inferInstance

instance : LawfulBEq PyStr := inferInstance

theorem char_lt (c : Char) : c.toNat < 0x110000 := by
  rcases c.valid with h | ⟨-, h⟩
  · exact Nat.lt_trans h (by decide)
  · exact h

def ofChar (c : Char) : CodePoint := ⟨c.toNat, char_lt c⟩

/-- A string literal of the source. -/
def str (s : String) : PyStr := s.toList.map ofChar

theorem ofChar_injective : Function.Injective ofChar := by
  intro a b h
  exact Char.toNat_inj.mp (Fin.mk.inj_iff.mp h)

theorem str_inj {s t : String} : str s = str t ↔ s = t := by
  unfold str
  rw [List.map_inj_right fun _ _ h => ofChar_injective h, String.toList_inj]

abbrev Bytes := List UInt8

/-- An ASCII literal of the source, in bytes. -/
def bytes (s : String) : Bytes := s.toList.map fun c => UInt8.ofNat c.toNat

def isHigh (u : ℕ) : Bool := 0xD800 ≤ u && u < 0xDC00
def isLow (u : ℕ) : Bool := 0xDC00 ≤ u && u < 0xE000

inductive PyFloat where
  | finite (q : ℚ)
  | nan
  | inf
  | negInf
deriving DecidableEq

/-- What `json.loads` returns and a pydantic model dumps. -/
inductive PyVal where
  | none
  | bool (b : Bool)
  | int (n : ℤ)
  | float (x : PyFloat)
  | str (s : PyStr)
  | list (items : List PyVal)
  | dict (items : List (PyStr × PyVal))

/-- `d.get(key)`. -/
def PyVal.get? (key : PyStr) : List (PyStr × PyVal) → Option PyVal
  | [] => Option.none
  | (k, v) :: rest => if k = key then some v else get? key rest

/-! ## Slices -/

/-- `[xs[i : i + size] for i in range(0, len(xs), size)]`. -/
def chunks {α : Type*} (size : ℕ) (xs : List α) : List (List α) :=
  (List.range ((xs.length + size - 1) / size)).map fun i => (xs.drop (i * size)).take size

theorem flatten_slices {α : Type*} (size n : ℕ) (xs : List α) :
    ((List.range n).map fun i => (xs.drop (i * size)).take size).flatten = xs.take (n * size) := by
  induction n with
  | zero => simp
  | succ n ih =>
    rw [List.range_succ, List.map_append, List.flatten_append, ih, Nat.succ_mul, List.take_add]
    simp

theorem flatten_chunks {α : Type*} (size : ℕ) (h : 0 < size) (xs : List α) : (chunks size xs).flatten = xs := by
  unfold chunks
  rw [flatten_slices, List.take_of_length_le]
  have hdiv := Nat.div_add_mod (xs.length + size - 1) size
  have hmod := Nat.mod_lt (xs.length + size - 1) h
  rw [Nat.mul_comm] at hdiv
  omega

/-! ## JSON text -/

inductive JsonText where
  | null
  | bool (b : Bool)
  | int (n : ℤ)
  /-- The tokens `NaN`, `Infinity` and `-Infinity` are among these. -/
  | float (x : PyFloat)
  | str (units : List ℕ)
  | arr (items : List JsonText)
  | obj (items : List (List ℕ × JsonText))

/-- The `\u` escapes of a string, a pair of surrogates for each code point above the BMP. -/
def utf16 (s : PyStr) : List ℕ :=
  s.flatMap fun c =>
    if c.val < 0x10000 then [c.val]
    else [0xD800 + (c.val - 0x10000) / 0x400, 0xDC00 + (c.val - 0x10000) % 0x400]

/-- `int.__repr__` refuses integers with more digits than this. -/
def maxStrDigits : ℕ := 4300

def hasRepr (n : ℤ) : Bool := n.natAbs < 10 ^ maxStrDigits

mutual

/-- `json.dumps`; `none` is the ValueError of a huge integer. -/
def dumps : PyVal → Option JsonText
  | .none => some .null
  | .bool b => some (.bool b)
  | .int n => if hasRepr n then some (.int n) else Option.none
  | .float x => some (.float x)
  | .str s => some (.str (utf16 s))
  | .list items => (dumpsItems items).map .arr
  | .dict items => (dumpsEntries items).map .obj

def dumpsItems : List PyVal → Option (List JsonText)
  | [] => some []
  | v :: vs => do
    let t ← dumps v
    let ts ← dumpsItems vs
    some (t :: ts)

def dumpsEntries : List (PyStr × PyVal) → Option (List (List ℕ × JsonText))
  | [] => some []
  | (k, v) :: kvs => do
    let t ← dumps v
    let ts ← dumpsEntries kvs
    some ((utf16 k, t) :: ts)

end

end Lib.Python
