import FlightPulse.Lib.Postgres

/-!
# jsonb

The input function of `jsonb` on the syntax tree of the text, and which Python
values can be stored: those that `json.dumps` writes and `jsonb_in` accepts.
-/

namespace Lib.Postgres

open Lib.Python

/-! ## Input -/

inductive Jsonb where
  | null
  | bool (b : Bool)
  /-- The scale is kept, so that 5.0 stays 5.0: `fraction` tells whether digits follow the point. -/
  | num (q : ℚ) (fraction : Bool)
  | str (t : Text)
  | arr (items : List Jsonb)
  | obj (items : List (Text × Jsonb))

/-- The characters of a JSON string. Surrogates must come in pairs and `\u0000` is refused. -/
def decodeUtf16 : List ℕ → Option (List Char)
  | [] => some []
  | [u] => if u = 0 ∨ isHigh u ∨ isLow u then none else some [Char.ofNat u]
  | u :: v :: rest =>
    if isHigh u then
      if isLow v then
        (decodeUtf16 rest).map fun cs =>
          Char.ofNat (0x10000 + (u - 0xD800) * 0x400 + (v - 0xDC00)) :: cs
      else none
    else if u = 0 ∨ isLow u then none
    else (decodeUtf16 (v :: rest)).map fun cs => Char.ofNat u :: cs

def jsonString (units : List ℕ) : Option Text :=
  match decodeUtf16 units with
  | none => none
  | some cs => if h : nulFree cs then some ⟨cs, h⟩ else none

/-- `float.__repr__` writes a whole number from 10 ** 16 on with an exponent, and any other with a point. -/
def writtenWithFraction (q : ℚ) : Bool := !(q.den = 1 && 10 ^ 16 ≤ |q|)

mutual

/-- `jsonb_in` on the syntax tree of the text. -/
def jsonbIn : JsonText → Option Jsonb
  | .null => some .null
  | .bool b => some (.bool b)
  | .int n => some (.num n false)
  | .float (.finite q) => some (.num q (writtenWithFraction q))
  | .float _ => none
  | .str units => (jsonString units).map .str
  | .arr items => (jsonbItems items).map .arr
  | .obj items => (jsonbEntries items).map .obj

def jsonbItems : List JsonText → Option (List Jsonb)
  | [] => some []
  | v :: vs => do
    let j ← jsonbIn v
    let js ← jsonbItems vs
    some (j :: js)

def jsonbEntries : List (List ℕ × JsonText) → Option (List (Text × Jsonb))
  | [] => some []
  | (k, v) :: kvs => do
    let t ← jsonString k
    let j ← jsonbIn v
    let js ← jsonbEntries kvs
    some ((t, j) :: js)

end

/-! ## Strings -/

/-- No NUL, and surrogates only as a high one before a low one. -/
def paired : PyStr → Bool
  | [] => true
  | [c] => c.val ≠ 0 && !isHigh c.val && !isLow c.val
  | c :: d :: rest =>
    if isHigh c.val then isLow d.val && paired rest
    else c.val ≠ 0 && !isLow c.val && paired (d :: rest)

theorem utf16_cons_small {c : CodePoint} (h : c.val < 0x10000) (s : PyStr) :
    utf16 (c :: s) = c.val :: utf16 s := by
  simp [utf16, h]

theorem utf16_cons_large {c : CodePoint} (h : ¬ c.val < 0x10000) (s : PyStr) :
    utf16 (c :: s) =
      (0xD800 + (c.val - 0x10000) / 0x400) :: (0xDC00 + (c.val - 0x10000) % 0x400) :: utf16 s := by
  simp [utf16, h]

theorem decode_pair {u v : ℕ} (hu : isHigh u) (hv : isLow v) (rest : List ℕ) :
    (decodeUtf16 (u :: v :: rest)).isSome = (decodeUtf16 rest).isSome := by
  simp [decodeUtf16, hu, hv]

theorem decode_high {u v : ℕ} (hu : isHigh u) (hv : isLow v = false) (rest : List ℕ) :
    decodeUtf16 (u :: v :: rest) = none := by
  simp [decodeUtf16, hu, hv]

theorem decode_scalar {u : ℕ} (hu : isHigh u = false) (rest : List ℕ) :
    (decodeUtf16 (u :: rest)).isSome = (u ≠ 0 && !isLow u && (decodeUtf16 rest).isSome) := by
  by_cases h0 : u = 0
  · subst h0
    cases rest <;> simp [decodeUtf16, hu]
  · cases hl : isLow u <;> cases rest <;> simp [decodeUtf16, hu, hl, h0]

theorem large_units {c : CodePoint} (h : ¬ c.val < 0x10000) :
    isHigh (0xD800 + (c.val - 0x10000) / 0x400) ∧ isLow (0xDC00 + (c.val - 0x10000) % 0x400) ∧
      isHigh c.val = false ∧ isLow c.val = false := by
  have hc := c.isLt
  unfold isHigh isLow
  simp only [Bool.and_eq_true, decide_eq_true_eq, Bool.and_eq_false_iff, decide_eq_false_iff_not]
  omega

theorem decode_high_cons {u : ℕ} {d : CodePoint} (hu : isHigh u) (hd : isLow d.val = false) (rest : PyStr) :
    decodeUtf16 (u :: utf16 (d :: rest)) = none := by
  by_cases hsmall : d.val < 0x10000
  · rw [utf16_cons_small hsmall]
    exact decode_high hu hd _
  · rw [utf16_cons_large hsmall]
    have hhigh := (large_units hsmall).1
    refine decode_high hu ?_ _
    simp only [isHigh, isLow, Bool.and_eq_true, decide_eq_true_eq, Bool.and_eq_false_iff,
      decide_eq_false_iff_not] at hhigh ⊢
    omega

theorem decode_cons_large {c : CodePoint} (h : ¬ c.val < 0x10000) (s : PyStr) :
    (decodeUtf16 (utf16 (c :: s))).isSome = (decodeUtf16 (utf16 s)).isSome := by
  obtain ⟨hhigh, hlow, -, -⟩ := large_units h
  rw [utf16_cons_large h, decode_pair hhigh hlow]

theorem decodeUtf16_isSome (s : PyStr) : (decodeUtf16 (utf16 s)).isSome = paired s := by
  fun_induction paired s with
  | case1 => rfl
  | case2 c =>
    by_cases hsmall : c.val < 0x10000
    · rw [utf16_cons_small hsmall]
      cases hhigh : isHigh c.val with
      | true => simp [utf16, decodeUtf16, hhigh]
      | false =>
        rw [decode_scalar hhigh]
        simp [utf16, decodeUtf16]
    · obtain ⟨-, -, hhigh, hlow⟩ := large_units hsmall
      have hne : c.val ≠ 0 := by omega
      rw [decode_cons_large hsmall]
      simp [utf16, decodeUtf16, hhigh, hlow, hne]
  | case3 c d rest hhigh ih =>
    have hc : c.val < 0x10000 := by
      by_contra hlarge
      simp [(large_units hlarge).2.2.1] at hhigh
    rw [utf16_cons_small hc]
    cases hlow : isLow d.val with
    | true =>
      have hd : d.val < 0x10000 := by
        by_contra hlarge
        simp [(large_units hlarge).2.2.2] at hlow
      rw [utf16_cons_small hd, decode_pair hhigh hlow, ih, Bool.true_and]
    | false => rw [decode_high_cons hhigh hlow, Bool.false_and, Option.isSome_none]
  | case4 c d rest hhigh ih =>
    rw [Bool.not_eq_true] at hhigh
    by_cases hsmall : c.val < 0x10000
    · rw [utf16_cons_small hsmall, decode_scalar hhigh, ih]
    · have hne : c.val ≠ 0 := by omega
      rw [decode_cons_large hsmall, ih]
      simp [(large_units hsmall).2.2.2, hne]

theorem scalar_ne_zero {u : ℕ} (hlt : u < 0x10000) (h0 : u ≠ 0) (hh : isHigh u = false) (hl : isLow u = false) :
    (Char.ofNat u).toNat ≠ 0 := by
  rwa [toNat_ofNat (isValidChar_of_scalar (by omega) hh hl)]

theorem pair_ne_zero {u v : ℕ} (hu : isHigh u) (hv : isLow v) :
    (Char.ofNat (0x10000 + (u - 0xD800) * 0x400 + (v - 0xDC00))).toNat ≠ 0 := by
  simp only [isHigh, isLow, Bool.and_eq_true, decide_eq_true_eq] at hu hv
  have hvalid : (0x10000 + (u - 0xD800) * 0x400 + (v - 0xDC00)).isValidChar := by
    unfold Nat.isValidChar
    omega
  rw [toNat_ofNat hvalid]
  omega

theorem decodeUtf16_ne_zero {units : List ℕ} {cs : List Char} (hunits : ∀ u ∈ units, u < 0x10000)
    (h : decodeUtf16 units = some cs) : ∀ c ∈ cs, c.toNat ≠ 0 := by
  fun_induction decodeUtf16 units generalizing cs with
  | case1 =>
    cases h
    simp
  | case2 u hbad => cases h
  | case3 u hgood =>
    cases h
    simp only [not_or, Bool.not_eq_true] at hgood
    simpa using scalar_ne_zero (hunits u (by simp)) hgood.1 hgood.2.1 hgood.2.2
  | case4 u v rest hu hv ih =>
    obtain ⟨cs', hcs', rfl⟩ := Option.map_eq_some_iff.mp h
    exact List.forall_mem_cons.mpr ⟨pair_ne_zero hu hv, ih (fun w hw => hunits w (by simp [hw])) hcs'⟩
  | case5 u v rest hu hv => cases h
  | case6 u v rest hu hbad => cases h
  | case7 u v rest hu hgood ih =>
    obtain ⟨cs', hcs', rfl⟩ := Option.map_eq_some_iff.mp h
    simp only [not_or, Bool.not_eq_true] at hgood hu
    exact List.forall_mem_cons.mpr ⟨scalar_ne_zero (hunits u (by simp)) hgood.1 hu hgood.2,
      ih (fun w hw => hunits w (List.mem_cons_of_mem _ hw)) hcs'⟩

theorem utf16_lt (s : PyStr) : ∀ u ∈ utf16 s, u < 0x10000 := by
  induction s with
  | nil => simp [utf16]
  | cons c s ih =>
    have hc := c.isLt
    by_cases hsmall : c.val < 0x10000
    · rw [utf16_cons_small hsmall]
      exact List.forall_mem_cons.mpr ⟨hsmall, ih⟩
    · rw [utf16_cons_large hsmall]
      exact List.forall_mem_cons.mpr ⟨by omega, List.forall_mem_cons.mpr ⟨by omega, ih⟩⟩

theorem jsonString_isSome (s : PyStr) : (jsonString (utf16 s)).isSome = paired s := by
  rw [← decodeUtf16_isSome]
  unfold jsonString
  split
  · next h => simp [h]
  · next cs h => simp [nulFree_iff.mpr (decodeUtf16_ne_zero (utf16_lt s) h), h]

theorem paired_of_plain {s : PyStr} (h : plain s) : paired s := by
  fun_induction paired s with
  | case1 => rfl
  | case2 c => simpa [plain] using h
  | case3 c d rest hhigh ih => simp [plain, hhigh] at h
  | case4 c d rest hhigh ih =>
    simp only [plain, List.all_cons, Bool.and_eq_true] at h ih ⊢
    exact ⟨⟨h.1.1.1, h.1.2⟩, ih h.2⟩

/-! ## What a stored string says -/

theorem decode_scalar_cons {u : ℕ} (h0 : u ≠ 0) (hh : isHigh u = false) (hl : isLow u = false) (rest : List ℕ) :
    decodeUtf16 (u :: rest) = (decodeUtf16 rest).map (Char.ofNat u :: ·) := by
  cases rest <;> simp [decodeUtf16, h0, hh, hl]

theorem decode_pair_cons {c : CodePoint} (h : ¬ c.val < 0x10000) (rest : List ℕ) :
    decodeUtf16 ((0xD800 + (c.val - 0x10000) / 0x400) :: (0xDC00 + (c.val - 0x10000) % 0x400) :: rest) =
      (decodeUtf16 rest).map (Char.ofNat c.val :: ·) := by
  obtain ⟨hhigh, hlow, -, -⟩ := large_units h
  have hval : 0x10000 + (0xD800 + (c.val - 0x10000) / 0x400 - 0xD800) * 0x400 +
      (0xDC00 + (c.val - 0x10000) % 0x400 - 0xDC00) = c.val := by omega
  rw [decodeUtf16, if_pos hhigh, if_pos hlow, hval]

theorem decodeUtf16_utf16 {s : PyStr} (h : plain s) : decodeUtf16 (utf16 s) = s.mapM toChar? := by
  induction s with
  | nil => rfl
  | cons c s ih =>
    unfold plain at h
    simp only [List.all_cons, Bool.and_eq_true, decide_eq_true_eq, Bool.not_eq_true'] at h
    obtain ⟨⟨⟨h0, hh⟩, hl⟩, hs⟩ := h
    have hc : toChar? c = some (Char.ofNat c.val) := toChar?_eq_some.mpr ⟨hh, hl, rfl⟩
    rw [List.mapM_cons, hc, ← ih hs]
    by_cases hsmall : c.val < 0x10000
    · rw [utf16_cons_small hsmall, decode_scalar_cons h0 hh hl]
      cases decodeUtf16 (utf16 s) <;> rfl
    · rw [utf16_cons_large hsmall, decode_pair_cons hsmall]
      cases decodeUtf16 (utf16 s) <;> rfl

/-- A text column and a string of the payload decode alike. -/
theorem jsonString_utf16 {s : PyStr} (h : plain s) : jsonString (utf16 s) = encodeText s := by
  have hsame := decodeUtf16_utf16 h
  unfold jsonString encodeText
  cases hs : s.mapM toChar? with
  | none => simp only [hsame.trans hs]
  | some cs => simp only [hsame.trans hs]

/-! ## Fields -/

/-- The value of a key. The last one counts. -/
def field (k : Text) : List (Text × Jsonb) → Option Jsonb
  | [] => none
  | (t, v) :: rest => (field k rest).or (if t = k then some v else none)

theorem field_eq_none {items : List (PyStr × PyVal)} {ts : List (List ℕ × JsonText)} {js : List (Text × Jsonb)}
    (hts : dumpsEntries items = some ts) (hjs : jsonbEntries ts = some js)
    (hplain : ∀ p ∈ items, plain p.1) {k : PyStr} {kt : Text} (hk : encodeText k = some kt)
    (hnot : ∀ p ∈ items, p.1 ≠ k) : field kt js = none := by
  induction items generalizing ts js with
  | nil =>
    cases hts
    cases hjs
    rfl
  | cons p items ih =>
    obtain ⟨k', v⟩ := p
    unfold dumpsEntries at hts
    simp only [Option.bind_eq_bind, Option.bind_eq_some_iff, Option.some.injEq] at hts
    obtain ⟨t, -, ts', hts', rfl⟩ := hts
    unfold jsonbEntries at hjs
    simp only [Option.bind_eq_bind, Option.bind_eq_some_iff, Option.some.injEq] at hjs
    obtain ⟨jk, hjk, j, -, js', hjs', rfl⟩ := hjs
    rw [List.forall_mem_cons] at hplain hnot
    rw [jsonString_utf16 hplain.1] at hjk
    have hne : jk ≠ kt := by
      rintro rfl
      exact hnot.1 (encodeText_inj hjk hk)
    rw [field, ih hts' hjs' hplain.2 hnot.2, if_neg hne]
    rfl

theorem field_of_dumped {items : List (PyStr × PyVal)} {ts : List (List ℕ × JsonText)} {js : List (Text × Jsonb)}
    (hts : dumpsEntries items = some ts) (hjs : jsonbEntries ts = some js)
    (hplain : ∀ p ∈ items, plain p.1) (hnodup : (items.map Prod.fst).Nodup) {k : PyStr} {kt : Text}
    (hk : encodeText k = some kt) {v : PyVal} (hmem : (k, v) ∈ items) :
    ∃ t j, dumps v = some t ∧ jsonbIn t = some j ∧ field kt js = some j := by
  induction items generalizing ts js with
  | nil => cases hmem
  | cons p items ih =>
    obtain ⟨k', v'⟩ := p
    unfold dumpsEntries at hts
    simp only [Option.bind_eq_bind, Option.bind_eq_some_iff, Option.some.injEq] at hts
    obtain ⟨t, ht, ts', hts', rfl⟩ := hts
    unfold jsonbEntries at hjs
    simp only [Option.bind_eq_bind, Option.bind_eq_some_iff, Option.some.injEq] at hjs
    obtain ⟨jk, hjk, j, hj, js', hjs', rfl⟩ := hjs
    rw [List.forall_mem_cons] at hplain
    rw [List.map_cons, List.nodup_cons] at hnodup
    rw [jsonString_utf16 hplain.1] at hjk
    rcases List.mem_cons.mp hmem with heq | hmem
    · obtain ⟨rfl, rfl⟩ := Prod.mk.inj heq
      have hnone : field kt js' = none := by
        refine field_eq_none hts' hjs' hplain.2 hk fun p hp heq => hnodup.1 ?_
        exact List.mem_map.mpr ⟨p, hp, heq⟩
      obtain rfl : jk = kt := Option.some.inj (hjk.symm.trans hk)
      exact ⟨t, j, ht, hj, by rw [field, hnone, if_pos rfl]; rfl⟩
    · obtain ⟨t', j', ht', hj', hfield⟩ := ih hts' hjs' hplain.2 hnodup.2 hmem
      exact ⟨t', j', ht', hj', by rw [field, hfield]; rfl⟩

/-! ## Values -/

def Storable (v : PyVal) : Prop := ∃ text, dumps v = some text ∧ (jsonbIn text).isSome

theorem storable_none : Storable .none := ⟨.null, rfl, rfl⟩

theorem storable_bool (b : Bool) : Storable (.bool b) := ⟨.bool b, rfl, rfl⟩

theorem storable_int {n : ℤ} : Storable (.int n) ↔ hasRepr n := by
  unfold Storable dumps
  split <;> simp_all [jsonbIn]

theorem storable_float {x : PyFloat} : Storable (.float x) ↔ ∃ q, x = .finite q := by
  cases x <;> simp [Storable, dumps, jsonbIn]

theorem storable_str {s : PyStr} : Storable (.str s) ↔ paired s := by
  simp [Storable, dumps, jsonbIn, jsonString_isSome]

theorem storable_entries {items : List (PyStr × PyVal)} :
    (∃ ts, dumpsEntries items = some ts ∧ (jsonbEntries ts).isSome) ↔
      ∀ p ∈ items, paired p.1 ∧ Storable p.2 := by
  induction items with
  | nil => simp [dumpsEntries, jsonbEntries]
  | cons p items ih =>
    obtain ⟨k, v⟩ := p
    rw [List.forall_mem_cons, ← ih, ← jsonString_isSome]
    constructor
    · rintro ⟨ts, hts, hj⟩
      unfold dumpsEntries at hts
      simp only [Option.bind_eq_bind, Option.bind_eq_some_iff, Option.some.injEq] at hts
      obtain ⟨t, ht, ts', hts', rfl⟩ := hts
      obtain ⟨j, hj⟩ := Option.isSome_iff_exists.mp hj
      unfold jsonbEntries at hj
      simp only [Option.bind_eq_bind, Option.bind_eq_some_iff, Option.some.injEq] at hj
      obtain ⟨jk, hjk, jv, hjv, js, hjs, -⟩ := hj
      exact ⟨⟨by simp [hjk], t, ht, by simp [hjv]⟩, ts', hts', by simp [hjs]⟩
    · rintro ⟨⟨hk, t, ht, hv⟩, ts', hts', hjs⟩
      obtain ⟨jk, hjk⟩ := Option.isSome_iff_exists.mp hk
      obtain ⟨jv, hjv⟩ := Option.isSome_iff_exists.mp hv
      obtain ⟨js, hjs⟩ := Option.isSome_iff_exists.mp hjs
      exact ⟨(utf16 k, t) :: ts', by simp [dumpsEntries, ht, hts'], by simp [jsonbEntries, hjk, hjv, hjs]⟩

theorem storable_dict {items : List (PyStr × PyVal)} :
    Storable (.dict items) ↔ ∀ p ∈ items, paired p.1 ∧ Storable p.2 := by
  rw [← storable_entries]
  unfold Storable
  unfold dumps
  simp only [Option.map_eq_some_iff]
  constructor
  · rintro ⟨text, ⟨ts, hts, rfl⟩, hj⟩
    exact ⟨ts, hts, by simpa [jsonbIn] using hj⟩
  · rintro ⟨ts, hts, hj⟩
    exact ⟨_, ⟨ts, hts, rfl⟩, by simpa [jsonbIn] using hj⟩

/-! ## Reading a column back -/

/-- A text as the driver loads it. -/
def decodeText (t : Text) : PyStr := t.chars.map ofChar

/-- The value under a key of the text of an object. The last one counts. -/
def lastEntry (k : Text) : List (List ℕ × JsonText) → Option JsonText
  | [] => none
  | (units, v) :: rest => (lastEntry k rest).or (if jsonString units = some k then some v else none)

/-- What the driver loads from a column that the text was written to. The server writes every number
out without an exponent, so a float without a fraction can come back as an integer. -/
inductive Reloads : JsonText → PyVal → Prop where
  | null : Reloads .null .none
  | bool (b : Bool) : Reloads (.bool b) (.bool b)
  | int (n : ℤ) : Reloads (.int n) (.int n)
  | float (q : ℚ) : Reloads (.float (.finite q)) (.float (.finite q))
  | whole (n : ℤ) : Reloads (.float (.finite n)) (.int n)
  | str {units : List ℕ} {t : Text} (h : jsonString units = some t) : Reloads (.str units) (.str (decodeText t))
  | arr {items : List JsonText} {vs : List PyVal} (h : List.Forall₂ Reloads items vs) : Reloads (.arr items) (.list vs)
  | obj {entries : List (List ℕ × JsonText)} {data : List (PyStr × PyVal)} (value : Text → PyVal)
      (hvalue : ∀ k v, lastEntry k entries = some v → Reloads v (value k))
      (hdata : ∀ s, PyVal.get? s data = (encodeText s).bind fun k => (lastEntry k entries).map fun _ => value k) :
      Reloads (.obj entries) (.dict data)

theorem encodeText_decodeText (t : Text) : encodeText (decodeText t) = some t := encodeText_eq_some.mpr rfl

theorem decodeText_encodeText {s : PyStr} {t : Text} (h : encodeText s = some t) : decodeText t = s :=
  encodeText_inj (encodeText_decodeText t) h

theorem plain_decodeText (t : Text) : plain (decodeText t) := by
  rw [← encodeText_isSome, encodeText_decodeText]
  rfl

theorem lastEntry_eq_none {items : List (PyStr × PyVal)} {ts : List (List ℕ × JsonText)}
    (hts : dumpsEntries items = some ts) (hplain : ∀ p ∈ items, plain p.1) {k : PyStr} {kt : Text}
    (hk : encodeText k = some kt) (hnot : ∀ p ∈ items, p.1 ≠ k) : lastEntry kt ts = none := by
  induction items generalizing ts with
  | nil =>
    cases hts
    rfl
  | cons p items ih =>
    obtain ⟨k', v⟩ := p
    unfold dumpsEntries at hts
    simp only [Option.bind_eq_bind, Option.bind_eq_some_iff, Option.some.injEq] at hts
    obtain ⟨t, -, ts', hts', rfl⟩ := hts
    rw [List.forall_mem_cons] at hplain hnot
    have hne : ¬ jsonString (utf16 k') = some kt := by
      rw [jsonString_utf16 hplain.1]
      exact fun heq => hnot.1 (encodeText_inj heq hk)
    rw [lastEntry, ih hts' hplain.2 hnot.2, if_neg hne]
    rfl

theorem lastEntry_of_dumped {items : List (PyStr × PyVal)} {ts : List (List ℕ × JsonText)}
    (hts : dumpsEntries items = some ts) (hplain : ∀ p ∈ items, plain p.1) (hnodup : (items.map Prod.fst).Nodup)
    {k : PyStr} {kt : Text} (hk : encodeText k = some kt) {v : PyVal} (hmem : (k, v) ∈ items) :
    ∃ t, dumps v = some t ∧ lastEntry kt ts = some t := by
  induction items generalizing ts with
  | nil => cases hmem
  | cons p items ih =>
    obtain ⟨k', v'⟩ := p
    unfold dumpsEntries at hts
    simp only [Option.bind_eq_bind, Option.bind_eq_some_iff, Option.some.injEq] at hts
    obtain ⟨t, ht, ts', hts', rfl⟩ := hts
    rw [List.forall_mem_cons] at hplain
    rw [List.map_cons, List.nodup_cons] at hnodup
    rcases List.mem_cons.mp hmem with heq | hmem
    · obtain ⟨rfl, rfl⟩ := Prod.mk.inj heq
      have hnone : lastEntry kt ts' = none := by
        refine lastEntry_eq_none hts' hplain.2 hk fun p hp heq => hnodup.1 ?_
        exact List.mem_map.mpr ⟨p, hp, heq⟩
      exact ⟨t, ht, by rw [lastEntry, hnone, jsonString_utf16 hplain.1, if_pos hk]; rfl⟩
    · obtain ⟨t', ht', hlast⟩ := ih hts' hplain.2 hnodup.2 hmem
      exact ⟨t', ht', by rw [lastEntry, hlast]; rfl⟩

theorem reloads_dict {items : List (PyStr × PyVal)} {text : JsonText} {loaded : PyVal}
    (htext : dumps (.dict items) = some text) (hloads : Reloads text loaded) (hplain : ∀ p ∈ items, plain p.1)
    (hnodup : (items.map Prod.fst).Nodup) :
    ∃ data, loaded = .dict data ∧ ∀ k v, (k, v) ∈ items →
      ∃ t v', dumps v = some t ∧ Reloads t v' ∧ PyVal.get? k data = some v' := by
  rw [dumps] at htext
  obtain ⟨ts, hts, rfl⟩ := Option.map_eq_some_iff.mp htext
  cases hloads with
  | obj value hvalue hdata =>
    refine ⟨_, rfl, fun k v hmem => ?_⟩
    obtain ⟨kt, hk⟩ := Option.isSome_iff_exists.mp (encodeText_isSome.mpr (hplain _ hmem))
    obtain ⟨t, ht, hlast⟩ := lastEntry_of_dumped hts hplain hnodup hk hmem
    exact ⟨t, value kt, ht, hvalue kt t hlast, by rw [hdata, hk, Option.bind_some, hlast]; rfl⟩

theorem get?_of_mem {items : List (PyStr × PyVal)} (hnodup : (items.map Prod.fst).Nodup) {k : PyStr} {v : PyVal}
    (hmem : (k, v) ∈ items) : PyVal.get? k items = some v := by
  induction items with
  | nil => cases hmem
  | cons p items ih =>
    obtain ⟨k', v'⟩ := p
    rw [List.map_cons, List.nodup_cons] at hnodup
    rcases List.mem_cons.mp hmem with heq | hmem
    · obtain ⟨rfl, rfl⟩ := Prod.mk.inj heq
      exact if_pos rfl
    · have hne : k' ≠ k := by
        rintro rfl
        exact hnodup.1 (List.mem_map.mpr ⟨_, hmem, rfl⟩)
      rw [PyVal.get?, if_neg hne]
      exact ih hnodup.2 hmem

theorem mem_of_get? {items : List (PyStr × PyVal)} {k : PyStr} {v : PyVal} (h : PyVal.get? k items = some v) :
    (k, v) ∈ items := by
  induction items with
  | nil => cases h
  | cons p items ih =>
    obtain ⟨k', v'⟩ := p
    rw [PyVal.get?] at h
    split at h
    · next heq =>
      cases h
      rw [heq]
      exact List.mem_cons_self
    · exact List.mem_cons_of_mem _ (ih h)

theorem reloads_dict_self {items : List (PyStr × PyVal)} {text : JsonText} (htext : dumps (.dict items) = some text)
    (hplain : ∀ p ∈ items, plain p.1) (hnodup : (items.map Prod.fst).Nodup)
    (hself : ∀ p ∈ items, ∀ t, dumps p.2 = some t → Reloads t p.2) : Reloads text (.dict items) := by
  rw [dumps] at htext
  obtain ⟨ts, hts, rfl⟩ := Option.map_eq_some_iff.mp htext
  refine .obj (fun k => (PyVal.get? (decodeText k) items).getD .none) (fun k t hlast => ?_) fun s => ?_
  · by_cases hk : ∃ v, (decodeText k, v) ∈ items
    · obtain ⟨v, hv⟩ := hk
      obtain ⟨t', ht', hlast'⟩ := lastEntry_of_dumped hts hplain hnodup (encodeText_decodeText k) hv
      obtain rfl := Option.some.inj (hlast.symm.trans hlast')
      rw [get?_of_mem hnodup hv]
      exact hself _ hv t ht'
    · have hnone := lastEntry_eq_none hts hplain (encodeText_decodeText k) fun p hp heq => hk ⟨p.2, heq ▸ hp⟩
      rw [hlast] at hnone
      cases hnone
  · cases hget : PyVal.get? s items with
    | some v =>
      have hmem := mem_of_get? hget
      obtain ⟨k, hk⟩ := Option.isSome_iff_exists.mp (encodeText_isSome.mpr (hplain _ hmem))
      obtain ⟨t, -, hlast⟩ := lastEntry_of_dumped hts hplain hnodup hk hmem
      rw [hk, Option.bind_some, hlast, Option.map_some, decodeText_encodeText hk, hget]
      rfl
    | none =>
      cases hk : encodeText s with
      | none => rfl
      | some k =>
        have hnot : ∀ p ∈ items, p.1 ≠ s := by
          rintro p hp rfl
          rw [get?_of_mem hnodup hp] at hget
          cases hget
        rw [Option.bind_some, lastEntry_eq_none hts hplain hk hnot]
        rfl

/-! ## Writing again what was read -/

/-- What `jsonb` makes of a value that is dumped. -/
def stored (v : PyVal) : Option Jsonb := (dumps v).bind jsonbIn

/-- A string with each pair of surrogates as the character that it stands for. -/
def rejoined (s : PyStr) : PyStr := ((jsonString (utf16 s)).map decodeText).getD s

theorem rejoined_of_plain {s : PyStr} (h : plain s) : rejoined s = s := by
  obtain ⟨t, ht⟩ := Option.isSome_iff_exists.mp (encodeText_isSome.mpr h)
  unfold rejoined
  rw [jsonString_utf16 h, ht]
  exact decodeText_encodeText ht

theorem stored_rejoined (s : PyStr) : stored (.str (rejoined s)) = stored (.str s) := by
  unfold stored rejoined dumps
  simp only [Option.bind_some, jsonbIn]
  cases hs : jsonString (utf16 s) with
  | none =>
    rw [Option.map_none, Option.getD_none, hs]
  | some t =>
    rw [Option.map_some, Option.getD_some, jsonString_utf16 (plain_decodeText t), encodeText_decodeText]

theorem dumpsEntries_cons (k : PyStr) (v : PyVal) (items : List (PyStr × PyVal)) :
    dumpsEntries ((k, v) :: items) = (dumps v).bind fun t => (dumpsEntries items).map ((utf16 k, t) :: ·) := by
  rw [dumpsEntries]
  cases dumps v <;> cases dumpsEntries items <;> rfl

theorem jsonbEntries_cons (units : List ℕ) (t : JsonText) (ts : List (List ℕ × JsonText)) :
    jsonbEntries ((units, t) :: ts) =
      (jsonString units).bind fun k => (jsonbIn t).bind fun j => (jsonbEntries ts).map ((k, j) :: ·) := by
  rw [jsonbEntries]
  cases jsonString units <;> cases jsonbIn t <;> cases jsonbEntries ts <;> rfl

/-- An entry of an object, as it is stored. -/
def storedEntry (p : PyStr × PyVal) : Option (Text × Jsonb) :=
  (jsonString (utf16 p.1)).bind fun k => (stored p.2).map fun j => (k, j)

theorem stored_dict (items : List (PyStr × PyVal)) : stored (.dict items) = (items.mapM storedEntry).map .obj := by
  have hentries : (dumpsEntries items).bind jsonbEntries = items.mapM storedEntry := by
    induction items with
    | nil => rfl
    | cons p items ih =>
      obtain ⟨k, v⟩ := p
      rw [List.mapM_cons, ← ih, dumpsEntries_cons]
      unfold storedEntry stored
      cases dumps v with
      | none => cases jsonString (utf16 k) <;> rfl
      | some t =>
        cases dumpsEntries items with
        | none => cases hk : jsonString (utf16 k) <;> cases hj : jsonbIn t <;> simp [hj]
        | some ts =>
          simp only [Option.map_some, Option.bind_some, jsonbEntries_cons]
          cases jsonString (utf16 k) <;> cases jsonbIn t <;> cases jsonbEntries ts <;> rfl
  rw [← hentries]
  unfold stored
  rw [dumps]
  cases dumpsEntries items with
  | none => rfl
  | some ts => rfl

end Lib.Postgres
