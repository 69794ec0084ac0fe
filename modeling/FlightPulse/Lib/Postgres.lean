import Mathlib.Data.List.Perm.Basic
import FlightPulse.Lib.Python

/-!
# Column types of Postgres and their input functions

A parameter reaches the server as text. The value of a column exists only when
the text can be encoded and the input function of the type accepts it.
-/

namespace Lib.Postgres

open Lib.Python

/-! ## Lists that are accepted as a whole -/

theorem mapM_cons_eq_some {α β : Type*} {f : α → Option β} {x : α} {xs : List α} {ys : List β} :
    (x :: xs).mapM f = some ys ↔ ∃ y ys', f x = some y ∧ xs.mapM f = some ys' ∧ ys = y :: ys' := by
  rw [List.mapM_cons]
  cases f x <;> cases xs.mapM f <;> simp [eq_comm]

theorem mapM_isSome {α β : Type*} {f : α → Option β} {xs : List α} :
    (xs.mapM f).isSome ↔ ∀ x ∈ xs, (f x).isSome := by
  induction xs with
  | nil => simp
  | cons x xs ih =>
    rw [List.forall_mem_cons, ← ih, List.mapM_cons]
    cases f x <;> cases xs.mapM f <;> simp

theorem exists_of_mem_mapM {α β : Type*} {f : α → Option β} {xs : List α} {ys : List β}
    (h : xs.mapM f = some ys) {x : α} (hx : x ∈ xs) : ∃ y ∈ ys, f x = some y := by
  induction xs generalizing ys with
  | nil => cases hx
  | cons a xs ih =>
    obtain ⟨y, ys', hy, hys, rfl⟩ := mapM_cons_eq_some.mp h
    rcases List.mem_cons.mp hx with rfl | hx
    · exact ⟨y, List.mem_cons_self, hy⟩
    · obtain ⟨z, hz, hfz⟩ := ih hys hx
      exact ⟨z, List.mem_cons_of_mem _ hz, hfz⟩

theorem exists_of_mem_result {α β : Type*} {f : α → Option β} {xs : List α} {ys : List β}
    (h : xs.mapM f = some ys) {y : β} (hy : y ∈ ys) : ∃ x ∈ xs, f x = some y := by
  induction xs generalizing ys with
  | nil =>
    obtain rfl : [] = ys := Option.some.inj h
    cases hy
  | cons a xs ih =>
    obtain ⟨z, ys', hz, hys, rfl⟩ := mapM_cons_eq_some.mp h
    rcases List.mem_cons.mp hy with rfl | hy
    · exact ⟨a, List.mem_cons_self, hz⟩
    · obtain ⟨x, hx, hfx⟩ := ih hys hy
      exact ⟨x, List.mem_cons_of_mem _ hx, hfx⟩

theorem exists_of_mem_forall₂ {α β : Type*} {R : α → β → Prop} {xs : List α} {ys : List β}
    (h : List.Forall₂ R xs ys) {x : α} (hx : x ∈ xs) : ∃ y ∈ ys, R x y := by
  induction h with
  | nil => cases hx
  | cons hR _ ih =>
    rcases List.mem_cons.mp hx with rfl | hx
    · exact ⟨_, List.mem_cons_self, hR⟩
    · obtain ⟨y, hy, hRy⟩ := ih hx
      exact ⟨y, List.mem_cons_of_mem _ hy, hRy⟩

theorem map_of_mapM {α β γ : Type*} {f : α → Option β} {g : α → γ} {h : β → γ} {xs : List α} {ys : List β}
    (hys : xs.mapM f = some ys) (hfg : ∀ x ∈ xs, ∀ y, f x = some y → h y = g x) : ys.map h = xs.map g := by
  induction xs generalizing ys with
  | nil =>
    obtain rfl : [] = ys := Option.some.inj hys
    rfl
  | cons x xs ih =>
    obtain ⟨y, ys', hy, hys', rfl⟩ := mapM_cons_eq_some.mp hys
    rw [List.forall_mem_cons] at hfg
    rw [List.map_cons, List.map_cons, hfg.1 y hy, ih hys' hfg.2]

theorem forall_of_mapM {α β : Type*} {f : α → Option β} {P : α → Prop} {Q : β → Prop} {xs : List α} {ys : List β}
    (hys : xs.mapM f = some ys) (hPQ : ∀ x ∈ xs, ∀ y, f x = some y → (Q y ↔ P x)) :
    (∀ y ∈ ys, Q y) ↔ ∀ x ∈ xs, P x := by
  constructor
  · intro h x hx
    obtain ⟨y, hy, hxy⟩ := exists_of_mem_mapM hys hx
    exact (hPQ x hx y hxy).mp (h y hy)
  · intro h y hy
    obtain ⟨x, hx, hxy⟩ := exists_of_mem_result hys hy
    exact (hPQ x hx y hxy).mpr (h x hx)

theorem countP_of_mapM {α β : Type*} {f : α → Option β} {p : α → Bool} {q : β → Bool} {xs : List α} {ys : List β}
    (hys : xs.mapM f = some ys) (hpq : ∀ x ∈ xs, ∀ y, f x = some y → q y = p x) : ys.countP q = xs.countP p := by
  have hcount := congrArg (List.countP id) (map_of_mapM hys hpq)
  rw [List.countP_map, List.countP_map] at hcount
  exact hcount

theorem mapM_eq_some_iff {α β : Type*} {f : α → Option β} {xs : List α} {ys : List β} :
    xs.mapM f = some ys ↔ List.Forall₂ (fun x y => f x = some y) xs ys := by
  induction xs generalizing ys with
  | nil => simp [eq_comm]
  | cons x xs ih =>
    rw [mapM_cons_eq_some, List.forall₂_cons_left_iff]
    simp only [ih]

theorem mapM_perm {α β : Type*} {f : α → Option β} {xs xs' : List α} {ys : List β} (h : xs'.Perm xs)
    (hys : xs.mapM f = some ys) : ∃ ys', xs'.mapM f = some ys' ∧ ys'.Perm ys := by
  obtain ⟨ys', hys', hperm⟩ := List.perm_comp_forall₂ h (mapM_eq_some_iff.mp hys)
  exact ⟨ys', mapM_eq_some_iff.mpr hys', hperm⟩

theorem exists_perm_mapM {α β : Type*} {f : α → Option β} {xs : List α} {ys ys' : List β} (h : ys'.Perm ys)
    (hys : xs.mapM f = some ys) : ∃ xs' : List α, xs'.mapM f = some ys' ∧ xs'.Perm xs := by
  obtain ⟨xs', hxs', hperm⟩ := List.perm_comp_forall₂ h (mapM_eq_some_iff.mp hys).flip
  exact ⟨xs', mapM_eq_some_iff.mpr hxs'.flip, hperm⟩

theorem mapM_append_eq_some {α β : Type*} {f : α → Option β} {xs xs' : List α} {ys : List β}
    (h : (xs ++ xs').mapM f = some ys) :
    ∃ first others, xs.mapM f = some first ∧ xs'.mapM f = some others ∧ first ++ others = ys := by
  rw [List.mapM_append] at h
  obtain ⟨first, hfirst, h⟩ := Option.bind_eq_some_iff.mp h
  obtain ⟨others, hothers, hall⟩ := Option.bind_eq_some_iff.mp h
  exact ⟨first, others, hfirst, hothers, Option.some.inj hall⟩

theorem mapM_bind {α β γ : Type*} (f : α → Option β) (g : β → Option γ) (xs : List α) :
    ((xs.mapM f).bind fun ys => ys.mapM g) = xs.mapM fun x => (f x).bind g := by
  induction xs with
  | nil => rfl
  | cons x xs ih =>
    rw [List.mapM_cons, List.mapM_cons, ← ih]
    cases hx : f x with
    | none => rfl
    | some y => cases hxs : xs.mapM f <;> simp

/-! ## text -/

def nulFree (cs : List Char) : Bool := cs.all fun c => c.toNat ≠ 0

/-- A value of type `text`: Unicode scalar values, and no NUL. -/
structure Text where
  chars : List Char
  noNul : nulFree chars
deriving DecidableEq

def toChar? (c : CodePoint) : Option Char :=
  if isHigh c.val || isLow c.val then none else some (Char.ofNat c.val)

/-- The parameter in UTF-8. A surrogate has no encoding and NUL is refused. -/
def encodeText (s : PyStr) : Option Text :=
  match s.mapM toChar? with
  | none => none
  | some cs => if h : nulFree cs then some ⟨cs, h⟩ else none

/-! ## uuid -/

-- As for code points: every hexadecimal digit is read with this one.
instance digit_neZero : NeZero 16 := ⟨by decide⟩

structure Uuid where
  digits : List (Fin 16)
  length_eq : digits.length = 32
deriving DecidableEq

def hexDigit? (c : Char) : Option (Fin 16) :=
  let n := c.toNat
  if 48 ≤ n ∧ n ≤ 57 then some (Fin.ofNat 16 (n - 48))
  else if 97 ≤ n ∧ n ≤ 102 then some (Fin.ofNat 16 (n - 87))
  else if 65 ≤ n ∧ n ≤ 70 then some (Fin.ofNat 16 (n - 55))
  else none

/-- A hyphen may stand behind byte `i` when `i` is odd and not the last. -/
def skipHyphen (i : ℕ) : List Char → List Char
  | [] => []
  | c :: cs => if c = '-' ∧ i % 2 = 1 ∧ i < 15 then cs else c :: cs

/-- `k` bytes, the first of them byte `i`: their digits and the rest of the text. -/
def readBytes : ℕ → ℕ → List Char → Option (List (Fin 16) × List Char)
  | 0, _, cs => some ([], cs)
  | k + 1, i, a :: b :: cs =>
    match hexDigit? a, hexDigit? b, readBytes k (i + 1) (skipHyphen i cs) with
    | some da, some db, some (ds, rest) => some (da :: db :: ds, rest)
    | _, _, _ => none
  | _ + 1, _, _ => none

theorem readBytes_length {k i : ℕ} {cs rest : List Char} {ds : List (Fin 16)}
    (h : readBytes k i cs = some (ds, rest)) : ds.length = 2 * k := by
  fun_induction readBytes k i cs generalizing ds rest with
  | case1 => simp_all
  | case2 k i a b cs da db ds' rest' hb ha hr ih =>
    simp only [Option.some.injEq, Prod.mk.injEq] at h
    rw [← h.1, List.length_cons, List.length_cons, ih hb]
    omega
  | case3 => simp_all
  | case4 => simp_all

/-- `uuid_in`: 32 hex digits in either case, hyphens after any group of four, braces around. -/
def uuidIn (t : Text) : Option Uuid :=
  let braces := t.chars.head? = some '{'
  let body := if braces then t.chars.tail else t.chars
  let close := if braces then ['}'] else []
  match h : readBytes 16 0 body with
  | some (ds, rest) => if rest = close then some ⟨ds, readBytes_length h⟩ else none
  | none => none

def hexChar (d : Fin 16) : Char := if d.val < 10 then Char.ofNat (48 + d.val) else Char.ofNat (87 + d.val)

/-- The digits from byte `i` on, a hyphen behind the bytes 3, 5, 7 and 9. -/
def uuidChars : ℕ → List (Fin 16) → List Char
  | i, a :: b :: ds =>
    hexChar a :: hexChar b :: ((if i = 3 ∨ i = 5 ∨ i = 7 ∨ i = 9 then ['-'] else []) ++ uuidChars (i + 1) ds)
  | _, _ => []

/-- `str(uuid)`, which is also what `uuid_out` writes. -/
def uuidStr (u : Uuid) : PyStr := (uuidChars 0 u.digits).map ofChar

theorem hexDigit?_hexChar (d : Fin 16) : hexDigit? (hexChar d) = some d := by
  revert d
  decide

theorem hexChar_plain (d : Fin 16) : (hexChar d).toNat ≠ 0 ∧ hexChar d ≠ '-' ∧ hexChar d ≠ '{' := by
  revert d
  decide

theorem uuidChars_head (i : ℕ) (ds : List (Fin 16)) :
    (uuidChars i ds).head? ≠ some '-' ∧ (uuidChars i ds).head? ≠ some '{' := by
  fun_cases uuidChars i ds with
  | case1 i a b ds => simpa using (hexChar_plain a).2
  | case2 => simp

theorem skipHyphen_uuidChars {i : ℕ} {ds : List (Fin 16)} :
    skipHyphen i ((if i = 3 ∨ i = 5 ∨ i = 7 ∨ i = 9 then ['-'] else []) ++ uuidChars (i + 1) ds) =
      uuidChars (i + 1) ds := by
  split
  · next h =>
    have hi : i % 2 = 1 ∧ i < 15 := by omega
    simp [skipHyphen, hi]
  · have hhead := (uuidChars_head (i + 1) ds).1
    rw [List.nil_append]
    unfold skipHyphen
    split
    · next h => rw [h]
    · next c cs h =>
      rw [h, List.head?_cons, ne_eq, Option.some.injEq] at hhead
      rw [if_neg fun hc => hhead hc.1, h]

theorem readBytes_uuidChars {k i : ℕ} {ds : List (Fin 16)} (h : ds.length = 2 * k) :
    readBytes k i (uuidChars i ds) = some (ds, []) := by
  induction k generalizing i ds with
  | zero =>
    obtain rfl : ds = [] := List.eq_nil_of_length_eq_zero (by omega)
    rfl
  | succ k ih =>
    match ds, h with
    | a :: b :: ds, h =>
      have hlength : ds.length = 2 * k := by
        simp only [List.length_cons] at h
        omega
      rw [uuidChars, readBytes, hexDigit?_hexChar, hexDigit?_hexChar, skipHyphen_uuidChars, ih hlength]

/-! ## timestamptz -/

/-- Microseconds, or one of the two infinities. -/
inductive Timestamptz where
  | at (us : ℤ)
  | infinity
  | negInfinity
deriving DecidableEq

/-! ## Which strings a text column accepts -/

def plain (s : PyStr) : Bool := s.all fun c => c.val ≠ 0 && !isHigh c.val && !isLow c.val

theorem toNat_ofNat {n : ℕ} (h : n.isValidChar) : (Char.ofNat n).toNat = n := by
  rw [Char.ofNat, dif_pos h]
  rfl

theorem isValidChar_of_scalar {u : ℕ} (h : u < 0x110000) (hh : isHigh u = false) (hl : isLow u = false) :
    u.isValidChar := by
  simp only [isHigh, isLow, Bool.and_eq_false_iff, decide_eq_false_iff_not] at hh hl
  unfold Nat.isValidChar
  omega

theorem toChar?_eq_some {c : CodePoint} {ch : Char} :
    toChar? c = some ch ↔ isHigh c.val = false ∧ isLow c.val = false ∧ ch = Char.ofNat c.val := by
  unfold toChar?
  cases isHigh c.val <;> cases isLow c.val <;> simp [eq_comm]

theorem nulFree_iff {cs : List Char} : nulFree cs ↔ ∀ c ∈ cs, c.toNat ≠ 0 := by
  simp [nulFree]

theorem encodeText_isSome {s : PyStr} : (encodeText s).isSome ↔ plain s := by
  have hchar : ∀ c : CodePoint, (toChar? c).isSome ↔ isHigh c.val = false ∧ isLow c.val = false := by
    intro c
    simp [toChar?]
  unfold encodeText plain
  split
  · next h =>
    have hnot : ¬ (s.mapM toChar?).isSome := by simp [h]
    rw [mapM_isSome] at hnot
    refine iff_of_false (by simp) fun hall => hnot fun c hc => ?_
    have := List.all_eq_true.mp hall c hc
    simp only [Bool.and_eq_true, Bool.not_eq_true'] at this
    exact (hchar c).mpr ⟨this.1.2, this.2⟩
  · next cs h =>
    have hscalar : ∀ c ∈ s, isHigh c.val = false ∧ isLow c.val = false := by
      intro c hc
      obtain ⟨ch, -, hch⟩ := exists_of_mem_mapM h hc
      exact ⟨(toChar?_eq_some.mp hch).1, (toChar?_eq_some.mp hch).2.1⟩
    have hnat : ∀ c ∈ s, (Char.ofNat c.val).toNat = c.val := fun c hc =>
      toNat_ofNat (isValidChar_of_scalar c.isLt (hscalar c hc).1 (hscalar c hc).2)
    split
    · next hne =>
      refine iff_of_true rfl (List.all_eq_true.mpr fun c hc => ?_)
      obtain ⟨ch, hch, hc'⟩ := exists_of_mem_mapM h hc
      have hzero := nulFree_iff.mp hne ch hch
      rw [(toChar?_eq_some.mp hc').2.2, hnat c hc] at hzero
      simp [hzero, hscalar c hc]
    · next hne =>
      refine iff_of_false (by simp) fun hall => hne (nulFree_iff.mpr fun ch hch => ?_)
      obtain ⟨c, hc, hc'⟩ := exists_of_mem_result h hch
      rw [(toChar?_eq_some.mp hc').2.2, hnat c hc]
      have := List.all_eq_true.mp hall c hc
      simp only [Bool.and_eq_true, decide_eq_true_eq] at this
      exact this.1.1

/-! ## What the text says -/

theorem ofChar_toChar? {c : CodePoint} {ch : Char} (h : toChar? c = some ch) : c = ofChar ch := by
  obtain ⟨hh, hl, rfl⟩ := toChar?_eq_some.mp h
  apply Fin.ext
  exact (toNat_ofNat (isValidChar_of_scalar c.isLt hh hl)).symm

theorem toChar?_ofChar (ch : Char) : toChar? (ofChar ch) = some ch := by
  have hvalid := ch.valid
  rw [toChar?_eq_some]
  unfold isHigh isLow ofChar
  simp only [Bool.and_eq_false_iff, decide_eq_false_iff_not, Char.ofNat_toNat, and_true]
  unfold UInt32.isValidChar Nat.isValidChar at hvalid
  unfold Char.toNat
  omega

theorem eq_of_mapM_toChar {s : PyStr} {cs : List Char} (h : s.mapM toChar? = some cs) : s = cs.map ofChar := by
  induction s generalizing cs with
  | nil =>
    obtain rfl : [] = cs := Option.some.inj h
    rfl
  | cons c s ih =>
    obtain ⟨ch, cs', hch, hcs, rfl⟩ := mapM_cons_eq_some.mp h
    rw [List.map_cons, ← ih hcs, ← ofChar_toChar? hch]

theorem encodeText_eq_some {s : PyStr} {t : Text} : encodeText s = some t ↔ s = t.chars.map ofChar := by
  constructor
  · intro h
    unfold encodeText at h
    split at h
    · cases h
    · next cs hcs =>
      split at h <;> cases h
      exact eq_of_mapM_toChar hcs
  · rintro rfl
    have hmap : ∀ cs : List Char, (cs.map ofChar).mapM toChar? = some cs := by
      intro cs
      induction cs with
      | nil => rfl
      | cons c cs ih =>
        rw [List.map_cons, mapM_cons_eq_some]
        exact ⟨c, cs, toChar?_ofChar c, ih, rfl⟩
    unfold encodeText
    rw [hmap]
    simp only [t.noNul, dite_true]

/-- A literal of type `text`. -/
def Text.lit (s : String) (h : nulFree s.toList := by decide) : Text := ⟨s.toList, h⟩

theorem encodeText_str (s : String) (h : nulFree s.toList) : encodeText (str s) = some (.lit s h) :=
  encodeText_eq_some.mpr rfl

theorem encodeText_inj {s s' : PyStr} {t : Text} (h : encodeText s = some t) (h' : encodeText s' = some t) :
    s = s' :=
  (encodeText_eq_some.mp h).trans (encodeText_eq_some.mp h').symm

/-! ## A UUID and its text -/

theorem nulFree_uuidChars (i : ℕ) (ds : List (Fin 16)) : nulFree (uuidChars i ds) := by
  rw [nulFree_iff]
  fun_induction uuidChars i ds with
  | case1 i a b ds ih =>
    intro c hc
    simp only [List.mem_cons, List.mem_append] at hc
    rcases hc with rfl | rfl | hc | hc
    · exact (hexChar_plain a).1
    · exact (hexChar_plain b).1
    · split at hc
      · rw [List.mem_singleton.mp hc]
        decide
      · cases hc
    · exact ih c hc
  | case2 => simp

theorem uuidIn_uuidChars (u : Uuid) : uuidIn ⟨uuidChars 0 u.digits, nulFree_uuidChars 0 u.digits⟩ = some u := by
  have hread : readBytes 16 0 (uuidChars 0 u.digits) = some (u.digits, []) :=
    readBytes_uuidChars u.length_eq
  have hbrace := (uuidChars_head 0 u.digits).2
  unfold uuidIn
  extract_lets braces body close
  have hbody : body = uuidChars 0 u.digits := if_neg hbrace
  have hclose : close = [] := if_neg hbrace
  split
  · next ds rest h =>
    rw [hbody, hread, Option.some.injEq, Prod.mk.injEq] at h
    obtain ⟨rfl, rfl⟩ := h
    rw [if_pos hclose.symm]
  · next h =>
    rw [hbody, hread] at h
    cases h

theorem encodeText_uuidStr (u : Uuid) :
    encodeText (uuidStr u) = some ⟨uuidChars 0 u.digits, nulFree_uuidChars 0 u.digits⟩ :=
  encodeText_eq_some.mpr rfl

end Lib.Postgres
