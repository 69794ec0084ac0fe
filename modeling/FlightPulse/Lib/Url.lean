import FlightPulse.Lib.Python
import Mathlib.Data.List.TakeWhile

/-!
# URLs

The parts of a URL by its generic syntax, and percent-decoding as
`urllib.parse.unquote` does it: the escapes become bytes, the bytes are read as
UTF-8, and whatever is no UTF-8 becomes U+FFFD.
-/

open Lib.Python

namespace Lib.Url

/-! ## UTF-8 -/

/-- Inside of a sequence: the bytes still missing, the bounds of the next one, the bits so far. -/
structure Pending where
  missing : ℕ
  low : ℕ
  high : ℕ
  bits : ℕ

def replacement : CodePoint := 0xFFFD

def point (n : ℕ) : CodePoint := Fin.ofNat 0x110000 n

def lead (b : ℕ) : PyStr × Option Pending :=
  if b < 0x80 then ([point b], none)
  else if 0xC2 ≤ b ∧ b ≤ 0xDF then ([], some ⟨1, 0x80, 0xBF, b - 0xC0⟩)
  else if b = 0xE0 then ([], some ⟨2, 0xA0, 0xBF, 0⟩)
  else if b = 0xED then ([], some ⟨2, 0x80, 0x9F, 0xD⟩)
  else if 0xE1 ≤ b ∧ b ≤ 0xEF then ([], some ⟨2, 0x80, 0xBF, b - 0xE0⟩)
  else if b = 0xF0 then ([], some ⟨3, 0x90, 0xBF, 0⟩)
  else if 0xF1 ≤ b ∧ b ≤ 0xF3 then ([], some ⟨3, 0x80, 0xBF, b - 0xF0⟩)
  else if b = 0xF4 then ([], some ⟨3, 0x80, 0x8F, 4⟩)
  else ([replacement], none)

def follow (p : Pending) (b : ℕ) : PyStr × Option Pending :=
  if p.low ≤ b ∧ b ≤ p.high then
    if p.missing = 1 then ([point (p.bits * 0x40 + (b - 0x80))], none)
    else ([], some ⟨p.missing - 1, 0x80, 0xBF, p.bits * 0x40 + (b - 0x80)⟩)
  else (replacement :: (lead b).1, (lead b).2)

/-- A byte to decode, or a character that is kept as it is. -/
inductive Piece where
  | byte (b : ℕ)
  | char (c : CodePoint)

def flush : Option Pending → PyStr
  | none => []
  | some _ => [replacement]

def decode : Option Pending → List Piece → PyStr
  | pending, [] => flush pending
  | pending, .char c :: rest => flush pending ++ c :: decode none rest
  | none, .byte b :: rest => (lead b).1 ++ decode (lead b).2 rest
  | some p, .byte b :: rest => (follow p b).1 ++ decode (follow p b).2 rest

theorem length_lead (b : ℕ) : (lead b).1.length + (flush (lead b).2).length = 1 := by
  unfold lead
  split_ifs <;> rfl

theorem length_follow (p : Pending) (b : ℕ) :
    (follow p b).1.length + (flush (follow p b).2).length ≤ 2 := by
  have hlead := length_lead b
  unfold follow
  split_ifs
  · simp [flush]
  · simp [flush]
  · simp only [List.length_cons]
    omega

theorem length_decode (pending : Option Pending) (ps : List Piece) :
    (decode pending ps).length ≤ ps.length + (flush pending).length := by
  induction pending, ps using decode.induct with
  | case1 pending => simp [decode]
  | case2 pending c rest ih =>
    simp only [decode, List.length_append, List.length_cons]
    simp only [flush, List.length_nil] at ih
    omega
  | case3 b rest ih =>
    have hlead := length_lead b
    simp only [decode, List.length_append, List.length_cons]
    omega
  | case4 p b rest ih =>
    have hfollow := length_follow p b
    simp only [decode, List.length_append, List.length_cons]
    simp only [flush, List.length_singleton]
    omega

/-! ## Percent-decoding -/

def percent : CodePoint := ofChar '%'

def isHex (c : CodePoint) : Bool :=
  (48 ≤ c.val && c.val ≤ 57) || (65 ≤ c.val && c.val ≤ 70) || (97 ≤ c.val && c.val ≤ 102)

def hexDigit (c : CodePoint) : ℕ :=
  if c.val ≤ 57 then c.val - 48 else if c.val ≤ 70 then c.val - 55 else c.val - 87

def plain (c : CodePoint) : Piece := if c.val < 0x80 then .byte c.val else .char c

def pieces : PyStr → List Piece
  | c :: a :: b :: rest =>
    if c = percent ∧ isHex a ∧ isHex b then .byte (hexDigit a * 16 + hexDigit b) :: pieces rest
    else plain c :: pieces (a :: b :: rest)
  | c :: rest => plain c :: pieces rest
  | [] => []

def unquote (s : PyStr) : PyStr := decode none (pieces s)

def HasEscape (s : PyStr) : Prop := ∃ a b, isHex a ∧ isHex b ∧ [percent, a, b] <:+: s

theorem hasEscape_cons {c : CodePoint} {s : PyStr} : HasEscape (c :: s) ↔
    (∃ a b rest, c = percent ∧ isHex a ∧ isHex b ∧ s = a :: b :: rest) ∨ HasEscape s := by
  unfold HasEscape
  constructor
  · rintro ⟨a, b, ha, hb, h⟩
    rcases List.infix_cons_iff.mp h with h | h
    · obtain ⟨rest, h⟩ := h
      simp only [List.cons_append, List.nil_append, List.cons.injEq] at h
      exact Or.inl ⟨a, b, rest, h.1.symm, ha, hb, h.2.symm⟩
    · exact Or.inr ⟨a, b, ha, hb, h⟩
  · rintro (⟨a, b, rest, rfl, ha, hb, rfl⟩ | ⟨a, b, ha, hb, h⟩)
    · exact ⟨a, b, ha, hb, List.infix_cons_iff.mpr (Or.inl ⟨rest, rfl⟩)⟩
    · exact ⟨a, b, ha, hb, List.infix_cons_iff.mpr (Or.inr h)⟩

theorem pieces_of_not_hasEscape {s : PyStr} (h : ¬ HasEscape s) : pieces s = s.map plain := by
  induction s using pieces.induct with
  | case1 c a b rest hesc ih =>
    exact absurd (hasEscape_cons.mpr (Or.inl ⟨a, b, rest, hesc.1, hesc.2.1, hesc.2.2, rfl⟩)) h
  | case2 c a b rest hesc ih =>
    rw [hasEscape_cons, not_or] at h
    rw [pieces, if_neg hesc, ih h.2, List.map_cons (a := c)]
  | case3 c rest hne ih =>
    rw [hasEscape_cons, not_or] at h
    rw [pieces, ih h.2, List.map_cons]
    exact hne
  | case4 => rfl

theorem length_pieces (s : PyStr) :
    (pieces s).length ≤ s.length ∧ (HasEscape s → (pieces s).length < s.length) := by
  induction s using pieces.induct with
  | case1 c a b rest hesc ih =>
    rw [pieces, if_pos hesc]
    simp only [List.length_cons]
    exact ⟨by omega, fun _ => by omega⟩
  | case2 c a b rest hesc ih =>
    rw [pieces, if_neg hesc, hasEscape_cons]
    simp only [List.length_cons] at ih ⊢
    refine ⟨by omega, ?_⟩
    rintro (⟨a', b', rest', hc, ha, hb, heq⟩ | h)
    · simp only [List.cons.injEq] at heq
      obtain ⟨rfl, rfl, -⟩ := heq
      exact absurd ⟨hc, ha, hb⟩ hesc
    · have := ih.2 h
      omega
  | case3 c rest hne ih =>
    rw [pieces, hasEscape_cons]
    · simp only [List.length_cons]
      refine ⟨by omega, ?_⟩
      rintro (⟨a, b, rest', -, -, -, heq⟩ | h)
      · exact absurd heq (hne a b rest')
      · have := ih.2 h
        omega
    · exact hne
  | case4 => simp [pieces, HasEscape]

theorem decode_cons_plain (c : CodePoint) (ps : List Piece) :
    decode none (plain c :: ps) = c :: decode none ps := by
  unfold plain
  split
  · next hc =>
    have hlead : lead c.val = ([point c.val], none) := by
      unfold lead
      rw [if_pos hc]
    have hpoint : point c.val = c := Fin.ofNat_val_eq_self c
    rw [decode, hlead, hpoint]
    rfl
  · rfl

theorem decode_plain (s : PyStr) : decode none (s.map plain) = s := by
  induction s with
  | nil => rfl
  | cons c s ih => rw [List.map_cons, decode_cons_plain, ih]

theorem length_unquote_le (s : PyStr) : (unquote s).length ≤ s.length :=
  (length_decode none (pieces s)).trans (length_pieces s).1

/-- A string stands for itself when nothing in it is an escape. -/
theorem unquote_eq_self_iff (s : PyStr) : unquote s = s ↔ ¬ HasEscape s := by
  constructor
  · intro h hesc
    have hle := length_decode none (pieces s)
    have hlt := (length_pieces s).2 hesc
    have hlen := congrArg List.length h
    unfold unquote at hlen
    simp only [flush, List.length_nil] at hle
    omega
  · intro h
    unfold unquote
    rw [pieces_of_not_hasEscape h, decode_plain]

def startsHex : PyStr → Bool
  | a :: b :: _ => isHex a && isHex b
  | _ => false

/-- Every `%` begins an escape. -/
def isPercentEncoded : PyStr → Bool
  | [] => true
  | c :: s => (c ≠ percent || startsHex s) && isPercentEncoded s

/-- Every `%` becomes an escape of its own. -/
def quotePercent (s : PyStr) : PyStr := s.flatMap fun c => if c = percent then str "%25" else [c]

theorem pieces_cons_ne {c : CodePoint} (hc : c ≠ percent) (s : PyStr) : pieces (c :: s) = plain c :: pieces s := by
  match s with
  | [] => rfl
  | [_] => rfl
  | _ :: _ :: _ => rw [pieces, if_neg (fun h => hc h.1)]

theorem unquote_quotePercent (s : PyStr) : unquote (quotePercent s) = s := by
  unfold unquote quotePercent
  induction s with
  | nil => rfl
  | cons c s ih =>
    rw [List.flatMap_cons]
    by_cases hc : c = percent
    · rw [if_pos hc, hc]
      have hpieces : ∀ t, pieces (str "%25" ++ t) = plain percent :: pieces t := fun _ => rfl
      rw [hpieces, decode_cons_plain, ih]
    · rw [if_neg hc, List.singleton_append, pieces_cons_ne hc, decode_cons_plain, ih]

/-! ## The parts of a URL -/

def isOneOf (s : String) (c : CodePoint) : Bool := c ∈ str s

theorem none_isOneOf {s : String} {xs : PyStr} (h : xs.all fun c => !isOneOf s c) :
    ∀ c ∈ xs, isOneOf s c = false := by
  simpa using h

def afterScheme (url : PyStr) : PyStr :=
  match url.takeWhile (fun c => !isOneOf ":/?#" c), url.dropWhile (fun c => !isOneOf ":/?#" c) with
  | _ :: _, c :: rest => if c = ofChar ':' then rest else url
  | _, _ => url

def afterAuthority (s : PyStr) : PyStr :=
  match s with
  | c :: d :: rest =>
    if c = ofChar '/' ∧ d = ofChar '/' then rest.dropWhile (fun c => !isOneOf "/?#" c) else s
  | _ => s

def path (url : PyStr) : PyStr :=
  (afterAuthority (afterScheme url)).takeWhile fun c => !isOneOf "?#" c

/-- What stands between the `?` and the fragment. -/
def query (url : PyStr) : PyStr :=
  match (afterAuthority (afterScheme url)).dropWhile (fun c => !isOneOf "?#" c) with
  | c :: rest => if c = ofChar '?' then rest.takeWhile (fun c => !isOneOf "#" c) else []
  | [] => []

/-- `name, _, value = field.partition("=")`, both decoded, a `+` being a space. -/
def parseField (field : PyStr) : PyStr × PyStr :=
  let decoded := fun s : PyStr => unquote (s.map fun c => if c = ofChar '+' then ofChar ' ' else c)
  (decoded (field.takeWhile fun c => c ≠ ofChar '='),
    decoded ((field.dropWhile fun c => c ≠ ofChar '=').drop 1))

/-- `parse_qsl(query, keep_blank_values=True)`. -/
def parseQsl (query : PyStr) : List (PyStr × PyStr) :=
  ((query.splitOn (ofChar '&')).filter fun field => field ≠ []).map parseField

/-- `scheme://host:port`, with no credentials in it and nothing behind it. -/
def IsOrigin (base : PyStr) : Prop :=
  ∃ scheme authority : PyStr, base = scheme ++ str "://" ++ authority ∧ scheme ≠ [] ∧
    (∀ c ∈ scheme, isOneOf ":/?#" c = false) ∧ ∀ c ∈ authority, isOneOf "@/?#" c = false

theorem takeWhile_append_stop {α : Type*} (p : α → Bool) {xs : List α} {y : α} (ys : List α)
    (hxs : ∀ x ∈ xs, p x = true) (hy : p y = false) :
    (xs ++ y :: ys).takeWhile p = xs ∧ (xs ++ y :: ys).dropWhile p = y :: ys := by
  constructor
  · rw [List.takeWhile_append_of_pos hxs, List.takeWhile_cons_of_neg (by simp [hy]), List.append_nil]
  · rw [List.dropWhile_append_of_pos hxs, List.dropWhile_cons_of_neg (by simp [hy])]

theorem afterAuthority_origin {base : PyStr} (h : IsOrigin base) (rest : PyStr) :
    afterAuthority (afterScheme (base ++ str "/" ++ rest)) = ofChar '/' :: rest := by
  obtain ⟨scheme, authority, rfl, hne, hscheme, hauth⟩ := h
  have hcolon := takeWhile_append_stop (fun c => !isOneOf ":/?#" c) (y := ofChar ':')
    (ofChar '/' :: ofChar '/' :: (authority ++ ofChar '/' :: rest)) (fun c hc => by simpa using hscheme c hc)
    (by decide)
  have hend : ∀ c ∈ authority, isOneOf "/?#" c = false := by
    intro c hc
    have hno : c ∉ ofChar '@' :: str "/?#" := of_decide_eq_false (hauth c hc)
    exact decide_eq_false fun hmem => hno (List.mem_cons_of_mem _ hmem)
  have hslash := takeWhile_append_stop (fun c => !isOneOf "/?#" c) (y := ofChar '/') rest
    (fun c hc => by simpa using hend c hc) (by decide)
  have hurl : scheme ++ str "://" ++ authority ++ str "/" ++ rest =
      scheme ++ ofChar ':' :: ofChar '/' :: ofChar '/' :: (authority ++ ofChar '/' :: rest) := by
    simp [str]
  have hrest : afterScheme (scheme ++ str "://" ++ authority ++ str "/" ++ rest) =
      ofChar '/' :: ofChar '/' :: (authority ++ ofChar '/' :: rest) := by
    unfold afterScheme
    rw [hurl, hcolon.1, hcolon.2]
    cases scheme with
    | nil => exact absurd rfl hne
    | cons c scheme => rfl
  rw [hrest]
  unfold afterAuthority
  simp only [and_self, if_true, hslash.2]

theorem path_origin {base : PyStr} (h : IsOrigin base) (rest : PyStr) :
    path (base ++ str "/" ++ rest) = ofChar '/' :: rest.takeWhile fun c => !isOneOf "?#" c := by
  unfold path
  rw [afterAuthority_origin h, List.takeWhile_cons_of_pos (by decide)]

theorem query_origin {base : PyStr} (h : IsOrigin base) {rest : PyStr}
    (hrest : ∀ c ∈ rest, isOneOf "?#" c = false) : query (base ++ str "/" ++ rest) = [] := by
  unfold query
  have hnil : (ofChar '/' :: rest).dropWhile (fun c => !isOneOf "?#" c) = [] := by
    rw [List.dropWhile_eq_nil_iff]
    intro c hc
    rcases List.mem_cons.mp hc with rfl | hc
    · decide
    · simp [hrest c hc]
  rw [afterAuthority_origin h, hnil]

/-- A segment of the path that stands for this directory or for the one above. -/
def HasDotSegment (path : PyStr) : Prop :=
  ∃ segment ∈ path.splitOn (ofChar '/'), segment = str "." ∨ segment = str ".."

end Lib.Url
