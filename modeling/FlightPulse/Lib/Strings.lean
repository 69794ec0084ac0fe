import Mathlib.Data.List.DropRight
import FlightPulse.Lib.Python

/-!
# Strings and text files of Python

`str.strip`, `str()` of a value, and what a text file is between writing and
reading it: each end of a line is read as a newline, however it was written.
-/

namespace Lib.Python

/-! ## Cutting off both ends -/

section

variable {α : Type*}

def trimBy (p : α → Bool) (xs : List α) : List α := (xs.dropWhile p).rdropWhile p

theorem trimBy_eq_self {p : α → Bool} {xs : List α} (hhead : ∀ x, xs.head? = some x → p x = false)
    (hlast : ∀ x, xs.getLast? = some x → p x = false) : trimBy p xs = xs := by
  have hdrop : xs.dropWhile p = xs := by
    cases xs with
    | nil => rfl
    | cons x xs => rw [List.dropWhile_cons, hhead x rfl, if_neg Bool.false_ne_true]
  unfold trimBy
  rw [hdrop, List.rdropWhile_eq_self_iff]
  intro hne
  rw [hlast _ (List.getLast?_eq_some_getLast hne)]
  exact Bool.false_ne_true

theorem head_dropWhile {p : α → Bool} {xs : List α} {x : α} (h : (xs.dropWhile p).head? = some x) :
    p x = false := by
  induction xs with
  | nil => cases h
  | cons y xs ih =>
    rw [List.dropWhile_cons] at h
    split at h
    · exact ih h
    · next hy =>
      rw [← Option.some.inj h]
      exact Bool.eq_false_iff.mpr hy

theorem head_trimBy {p : α → Bool} {xs : List α} {x : α} (h : (trimBy p xs).head? = some x) : p x = false := by
  have hpre : trimBy p xs <+: xs.dropWhile p := List.rdropWhile_prefix p _
  obtain ⟨rest, hrest⟩ := hpre
  have hhead : (xs.dropWhile p).head? = some x := by
    rw [← hrest, List.head?_append, h]
    rfl
  exact head_dropWhile hhead

theorem last_trimBy {p : α → Bool} {xs : List α} {x : α} (h : (trimBy p xs).getLast? = some x) :
    p x = false := by
  have hne : trimBy p xs ≠ [] := by
    intro hnil
    rw [hnil] at h
    cases h
  rw [List.getLast?_eq_some_getLast hne, Option.some.injEq] at h
  rw [← h]
  exact Bool.eq_false_iff.mpr (List.rdropWhile_last_not p _ hne)

/-- Nothing is left to cut off of what a wider predicate has trimmed. -/
theorem trimBy_trimBy {p q : α → Bool} (hpq : ∀ x, p x = true → q x = true) (xs : List α) :
    trimBy p (trimBy q xs) = trimBy q xs := by
  have hnot : ∀ x, q x = false → p x = false := by
    intro x hq
    rw [Bool.eq_false_iff] at hq ⊢
    exact fun hp => hq (hpq x hp)
  exact trimBy_eq_self (fun x hx => hnot x (head_trimBy hx)) fun x hx => hnot x (last_trimBy hx)

theorem mem_of_mem_trimBy {p : α → Bool} {xs : List α} {x : α} (h : x ∈ trimBy p xs) : x ∈ xs := by
  have hpre : x ∈ xs.dropWhile p := (List.rdropWhile_prefix p _).subset h
  exact (List.dropWhile_suffix p).subset hpre

theorem trimBy_eq_nil {p : α → Bool} {xs : List α} : trimBy p xs = [] ↔ ∀ x ∈ xs, p x := by
  unfold trimBy
  rw [List.rdropWhile_eq_nil_iff]
  refine ⟨fun h => ?_, fun h x hx => h x ((List.dropWhile_suffix p).subset hx)⟩
  rw [← List.dropWhile_eq_nil_iff]
  by_contra hne
  have hnot := head_dropWhile (List.head?_eq_some_head hne)
  rw [h _ (List.head_mem hne)] at hnot
  cases hnot

theorem trimBy_map {β : Type*} (f : α → β) (p : β → Bool) (xs : List α) :
    trimBy p (xs.map f) = (trimBy (fun x => p (f x)) xs).map f := by
  unfold trimBy List.rdropWhile
  rw [List.dropWhile_map, ← List.map_reverse, List.dropWhile_map, List.map_reverse]
  rfl

end

/-- `str.isspace` of one character. -/
def isSpace (c : CodePoint) : Bool :=
  (9 ≤ c.val && c.val ≤ 13) || (28 ≤ c.val && c.val ≤ 32) || c.val = 0x85 || c.val = 0xA0 || c.val = 0x1680 ||
    (0x2000 ≤ c.val && c.val ≤ 0x200A) || c.val = 0x2028 || c.val = 0x2029 || c.val = 0x202F || c.val = 0x205F ||
    c.val = 0x3000

/-- `s.strip()`. -/
def strip (s : PyStr) : PyStr := trimBy isSpace s

theorem strip_snoc {s : PyStr} {c : CodePoint} (hhead : ∀ d, s.head? = some d → isSpace d = false)
    (hlast : ∀ d, s.getLast? = some d → isSpace d = false) (hc : isSpace c = true) : strip (s ++ [c]) = s := by
  cases s with
  | nil => simp [strip, trimBy, hc, List.rdropWhile]
  | cons d s =>
    have hdrop : (d :: s ++ [c]).dropWhile isSpace = d :: s ++ [c] := by
      rw [List.cons_append, List.dropWhile_cons, hhead d rfl, if_neg Bool.false_ne_true]
    have hself : (d :: s).rdropWhile isSpace = d :: s := by
      rw [List.rdropWhile_eq_self_iff]
      intro hne
      rw [hlast _ (List.getLast?_eq_some_getLast hne)]
      exact Bool.false_ne_true
    unfold strip trimBy
    rw [hdrop, List.rdropWhile_concat_pos _ _ _ hc, hself]

/-! ## `bool()` and `str()` -/

def truthy : PyVal → Bool
  | .none => false
  | .bool b => b
  | .int n => n ≠ 0
  | .float x => x ≠ .finite 0
  | .str s => s ≠ []
  | .list items => !items.isEmpty
  | .dict items => !items.isEmpty

def natStr (n : ℕ) : PyStr := (Nat.toDigits 10 n).map ofChar

def intStr : ℤ → PyStr
  | .ofNat n => natStr n
  | .negSucc n => ofChar '-' :: natStr (n + 1)

theorem mem_natStr {n : ℕ} {c : CodePoint} (h : c ∈ natStr n) : 48 ≤ c.val ∧ c.val ≤ 57 := by
  obtain ⟨ch, hch, rfl⟩ := List.mem_map.mp h
  have hdigit := Nat.isDigit_of_mem_toDigits (by decide) (by decide) hch
  unfold Char.isDigit at hdigit
  simp only [Bool.and_eq_true, decide_eq_true_eq, ge_iff_le, UInt32.le_iff_toNat_le] at hdigit
  exact hdigit

theorem natStr_injective : Function.Injective natStr := by
  intro m n h
  have hdigits := List.map_injective_iff.mpr ofChar_injective h
  rw [← Nat.ofDigitChars_ten_toDigits (n := m), hdigits, Nat.ofDigitChars_ten_toDigits]

theorem natStr_ne_minus (m n : ℕ) : natStr m ≠ ofChar '-' :: natStr n := by
  intro h
  have hminus : ofChar '-' ∈ natStr m := by
    rw [h]
    exact List.mem_cons_self
  have hdigit := mem_natStr hminus
  revert hdigit
  decide

theorem intStr_injective : Function.Injective intStr := by
  intro m n h
  match m, n with
  | .ofNat m, .ofNat n => rw [natStr_injective h]
  | .ofNat m, .negSucc n => exact absurd h (natStr_ne_minus m (n + 1))
  | .negSucc m, .ofNat n => exact absurd h.symm (natStr_ne_minus n (m + 1))
  | .negSucc m, .negSucc n =>
    have hsucc := natStr_injective (List.cons.inj h).2
    rw [Nat.succ.inj hsucc]

/-- `str(v)`. The text of a float or of a container is left to `repr`; `none` is a ValueError. -/
def strOf (repr : PyVal → Option PyStr) : PyVal → Option PyStr
  | .none => some (str "None")
  | .bool b => some (if b then str "True" else str "False")
  | .int n => if hasRepr n then some (intStr n) else none
  | .str s => some s
  | v => repr v

/-! ## Fields with a separator between them -/

theorem append_sep_inj {α : Type*} {sep : α} {a a' b b' : List α} (ha : sep ∉ a) (ha' : sep ∉ a')
    (h : a ++ sep :: b = a' ++ sep :: b') : a = a' ∧ b = b' := by
  induction a generalizing a' with
  | nil =>
    cases a' with
    | nil => exact ⟨rfl, (List.cons.inj h).2⟩
    | cons c a' =>
      rw [(List.cons.inj h).1] at ha'
      exact absurd List.mem_cons_self ha'
  | cons c a ih =>
    cases a' with
    | nil =>
      rw [← (List.cons.inj h).1] at ha
      exact absurd List.mem_cons_self ha
    | cons c' a' =>
      obtain ⟨rfl, htail⟩ := List.cons.inj h
      obtain ⟨rfl, hb⟩ :=
        ih (fun hm => ha (List.mem_cons_of_mem _ hm)) (fun hm => ha' (List.mem_cons_of_mem _ hm)) htail
      exact ⟨rfl, hb⟩

theorem append_sep_inj_right {α : Type*} {sep : α} {a a' b b' : List α} (hb : sep ∉ b) (hb' : sep ∉ b')
    (h : a ++ sep :: b = a' ++ sep :: b') : a = a' ∧ b = b' := by
  have hrev : b.reverse ++ sep :: a.reverse = b'.reverse ++ sep :: a'.reverse := by
    simpa using congrArg List.reverse h
  obtain ⟨hbs, has⟩ := append_sep_inj (by simpa using hb) (by simpa using hb') hrev
  exact ⟨List.reverse_inj.mp has, List.reverse_inj.mp hbs⟩

/-! ## `int()` of a text -/

def isDigit (c : CodePoint) : Bool := 48 ≤ c.val && c.val ≤ 57

/-- Digits, and single underscores between them. -/
def readDigits (s : PyStr) : Option ℕ :=
  if (s.splitOn (ofChar '_')).all (fun group => group ≠ [] && group.all isDigit) &&
      (s.filter isDigit).length ≤ maxStrDigits then
    some ((s.filter isDigit).foldl (fun n c => 10 * n + (c.val - 48)) 0)
  else none

/-- `int(s)` of ASCII text; `none` is a ValueError. -/
def intOf (s : PyStr) : Option ℤ :=
  match strip s with
  | [] => none
  | c :: rest =>
    if c = ofChar '-' then (readDigits rest).map fun n => -(n : ℤ)
    else if c = ofChar '+' then (readDigits rest).map fun n => (n : ℤ)
    else (readDigits (c :: rest)).map fun n => (n : ℤ)

/-! ## Text files -/

def newline : CodePoint := 10
def carriageReturn : CodePoint := 13

/-- `os.linesep`. -/
inductive Linesep where
  | lf
  | crlf

def Linesep.chars : Linesep → PyStr
  | .lf => [newline]
  | .crlf => [carriageReturn, newline]

/-- What `f.write(s)` appends to a text file. -/
def written (linesep : Linesep) (s : PyStr) : PyStr :=
  s.flatMap fun c => if c = newline then linesep.chars else [c]

/-- Universal newlines, with whether a carriage return was the last character. -/
def readNewlines : Bool → PyStr → PyStr
  | _, [] => []
  | afterCr, c :: rest =>
    if c = carriageReturn then newline :: readNewlines true rest
    else if c = newline ∧ afterCr then readNewlines false rest
    else c :: readNewlines false rest

/-- The lines of the text, each with its newline, behind the start of one. -/
def linesFrom (current : PyStr) : PyStr → List PyStr
  | [] => if current = [] then [] else [current]
  | c :: rest => if c = newline then (current ++ [c]) :: linesFrom [] rest else linesFrom (current ++ [c]) rest

/-- `for line in f`, for a file opened in text mode. -/
def fileLines (file : PyStr) : List PyStr := linesFrom [] (readNewlines false file)

/-- No character that a line can end at. -/
def OneLine (s : PyStr) : Prop := ∀ c ∈ s, c ≠ newline ∧ c ≠ carriageReturn

theorem written_append (linesep : Linesep) (s t : PyStr) :
    written linesep (s ++ t) = written linesep s ++ written linesep t := List.flatMap_append

theorem written_oneLine (linesep : Linesep) {s : PyStr} (h : OneLine s) : written linesep s = s := by
  unfold written
  induction s with
  | nil => rfl
  | cons c s ih =>
    unfold OneLine at h
    rw [List.forall_mem_cons] at h
    rw [List.flatMap_cons, if_neg h.1.1, ih h.2]
    rfl

theorem written_line (linesep : Linesep) {s : PyStr} (h : OneLine s) :
    written linesep (s ++ [newline]) = s ++ linesep.chars := by
  rw [written_append, written_oneLine linesep h]
  cases linesep <;> rfl

theorem readNewlines_line {s : PyStr} (h : OneLine s) (linesep : Linesep) (rest : PyStr) :
    readNewlines false (s ++ linesep.chars ++ rest) = s ++ newline :: readNewlines false rest := by
  induction s with
  | nil => cases linesep <;> rfl
  | cons c s ih =>
    unfold OneLine at h
    rw [List.forall_mem_cons] at h
    simp only [List.cons_append, readNewlines, h.1.1, h.1.2, if_false, false_and]
    rw [ih h.2]

theorem linesFrom_line {s : PyStr} (h : OneLine s) (current rest : PyStr) :
    linesFrom current (s ++ newline :: rest) = (current ++ s ++ [newline]) :: linesFrom [] rest := by
  induction s generalizing current with
  | nil => simp [linesFrom]
  | cons c s ih =>
    unfold OneLine at h
    rw [List.forall_mem_cons] at h
    simp only [List.cons_append, linesFrom, h.1.1, if_false]
    rw [ih h.2]
    simp

theorem fileLines_line (linesep : Linesep) {s : PyStr} (h : OneLine s) (rest : PyStr) :
    fileLines (written linesep (s ++ [newline]) ++ rest) = (s ++ [newline]) :: fileLines rest := by
  unfold fileLines
  rw [written_line linesep h, readNewlines_line h, linesFrom_line h, List.nil_append]

end Lib.Python
