import Mathlib.Data.Nat.Periodic
import Mathlib.Order.Interval.Finset.Nat

/-!
# A list repeated without end, and the scans that walk it

A nonempty list repeated without end. A scan looks for the next position whose
item is wanted, one full turn at most, and the next scan goes on behind the
position that was found. Positions are counted from the start and never
wrapped, so "how far did the scans walk" is a subtraction.
-/

namespace Lib

structure Rotation (α : Type*) where
  items : List α
  nonempty : items ≠ []

namespace Rotation

variable {α : Type*} (r : Rotation α)

def size : ℕ := r.items.length

theorem size_pos : 0 < r.size := List.length_pos_iff.mpr r.nonempty

def item (p : ℕ) : α := r.items.get ⟨p % r.size, Nat.mod_lt p r.size_pos⟩

theorem item_eq {p i : ℕ} (hi : i < r.items.length) (h : p % r.size = i) : r.item p = r.items[i] := by
  subst h
  rfl

theorem item_mod (p : ℕ) : r.item (p % r.size) = r.item p := by
  simp [item]

theorem item_mem (p : ℕ) : r.item p ∈ r.items := List.get_mem _ _

theorem item_add_size (p : ℕ) : r.item (p + r.size) = r.item p := by
  simp [item]

theorem exists_item {b : α} (hb : b ∈ r.items) (p : ℕ) :
    ∃ q, p ≤ q ∧ q < p + r.size ∧ r.item q = b := by
  obtain ⟨i, hi, rfl⟩ := List.mem_iff_getElem.mp hb
  have hn := r.size_pos
  have hp := Nat.mod_lt p hn
  have hdiv := Nat.div_add_mod p r.size
  change i < r.size at hi
  -- Either later in the turn that `p` is in, or in the next one.
  rcases Nat.lt_or_ge i (p % r.size) with h | h
  · refine ⟨r.size * (p / r.size + 1) + i, by rw [Nat.mul_add]; omega, by rw [Nat.mul_add]; omega, ?_⟩
    exact r.item_eq hi (by rw [Nat.mul_add_mod, Nat.mod_eq_of_lt hi])
  · refine ⟨r.size * (p / r.size) + i, by omega, by omega, ?_⟩
    exact r.item_eq hi (by rw [Nat.mul_add_mod, Nat.mod_eq_of_lt hi])

theorem card_turn [DecidableEq α] [BEq α] [LawfulBEq α] (p : ℕ) (c : α) :
    ((Finset.Ico p (p + r.size)).filter fun q => r.item q = c).card = r.items.count c := by
  have hper : Function.Periodic (fun q => r.item q = c) r.size := by
    intro q
    simp only [r.item_add_size]
  rw [Nat.filter_Ico_card_eq_of_periodic p r.size _ hper]
  have hitems : r.items = (List.range r.size).map r.item := by
    apply List.ext_getElem
    · simp [size]
    · intro i h _
      simp only [List.getElem_map, List.getElem_range]
      exact (r.item_eq h (Nat.mod_eq_of_lt h)).symm
  conv_rhs => rw [hitems]
  rw [Nat.count_eq_card_filter_range, List.count_eq_length_filter, List.filter_map, List.length_map]
  rw [Finset.card_def, Finset.filter_val, Finset.range_val, Multiset.range, Multiset.filter_coe,
    Multiset.coe_card]
  congr 1
  apply List.filter_congr
  intro q _
  rw [Bool.eq_iff_iff]
  simp

/-! ## One scan -/

variable (P : α → Bool)

/-- The first wanted position among `fuel` positions from `p` on. -/
def scan (p : ℕ) : ℕ → Option ℕ
  | 0 => none
  | fuel + 1 => if P (r.item p) then some p else scan (p + 1) fuel

theorem scan_some {p q fuel : ℕ} (h : r.scan P p fuel = some q) :
    p ≤ q ∧ q < p + fuel ∧ P (r.item q) = true ∧ ∀ x, p ≤ x → x < q → P (r.item x) = false := by
  induction fuel generalizing p with
  | zero => simp [scan] at h
  | succ fuel ih =>
    unfold scan at h
    split at h
    · next hp =>
      obtain rfl := Option.some.inj h
      exact ⟨le_refl _, by omega, hp, by intro x h1 h2; omega⟩
    · next hp =>
      obtain ⟨h1, h2, h3, h4⟩ := ih h
      refine ⟨by omega, by omega, h3, ?_⟩
      intro x hx hxq
      rcases Nat.eq_or_lt_of_le hx with rfl | hlt
      · simpa using hp
      · exact h4 x hlt hxq

theorem scan_none {p fuel : ℕ} (h : r.scan P p fuel = none) :
    ∀ x, p ≤ x → x < p + fuel → P (r.item x) = false := by
  induction fuel generalizing p with
  | zero => intro x h1 h2; omega
  | succ fuel ih =>
    unfold scan at h
    split at h
    · simp at h
    · next hp =>
      intro x hx hxf
      rcases Nat.eq_or_lt_of_le hx with rfl | hlt
      · simpa using hp
      · exact ih h x hlt (by omega)

theorem scan_size_eq_none {p : ℕ} : r.scan P p r.size = none ↔ ∀ b ∈ r.items, P b = false := by
  constructor
  · intro h b hb
    obtain ⟨q, h1, h2, rfl⟩ := r.exists_item hb p
    exact r.scan_none P h q h1 h2
  · intro h
    cases hs : r.scan P p r.size with
    | none => rfl
    | some q =>
      have hq := (r.scan_some P hs).2.2.1
      rw [h _ (r.item_mem q)] at hq
      simp at hq

/-! ## A walk: one scan after another

`want k` is what scan `k` looks for. A scan that finds nothing leaves the
position where it was.
-/

def after (p : ℕ) : Option ℕ → ℕ
  | some q => q + 1
  | none => p

/-- Where scan `k` of the walk starts. -/
def walk (want : ℕ → α → Bool) (p : ℕ) : ℕ → ℕ
  | 0 => p
  | k + 1 => after (walk want p k) (r.scan (want k) (walk want p k) r.size)

def found (want : ℕ → α → Bool) (p k : ℕ) : Option ℕ :=
  r.scan (want k) (r.walk want p k) r.size

variable {r} {want : ℕ → α → Bool} {p : ℕ}

theorem walk_succ (k : ℕ) : r.walk want p (k + 1) = after (r.walk want p k) (r.found want p k) := rfl

theorem walk_succ_of_found {k q : ℕ} (h : r.found want p k = some q) : r.walk want p (k + 1) = q + 1 := by
  rw [walk_succ, h]; rfl

theorem walk_le_succ (k : ℕ) : r.walk want p k ≤ r.walk want p (k + 1) := by
  rw [walk_succ]
  cases h : r.found want p k with
  | none => exact le_refl _
  | some q =>
    have := (r.scan_some _ h).1
    simp only [after]
    omega

variable (r want p) in
theorem walk_mono {i j : ℕ} (h : i ≤ j) : r.walk want p i ≤ r.walk want p j :=
  monotone_nat_of_le_succ (fun k => walk_le_succ k) h

theorem walk_lt_succ {k : ℕ} {b : α} (hb : b ∈ r.items) (hw : want k b = true) :
    r.walk want p k < r.walk want p (k + 1) := by
  cases h : r.found want p k with
  | none =>
    have := (r.scan_size_eq_none _).mp h b hb
    rw [hw] at this
    simp at this
  | some q =>
    have := (r.scan_some _ h).1
    rw [walk_succ_of_found h]
    omega

/-- Every position between two scans was looked at by one scan of the walk: it is what that scan
found, or an item that it did not want. -/
theorem walk_covers {i j x : ℕ} (hi : r.walk want p i ≤ x) (hj : x < r.walk want p j) :
    ∃ m q, i ≤ m ∧ m < j ∧ r.found want p m = some q ∧ x ≤ q ∧
      (x = q ∨ want m (r.item x) = false) := by
  induction j with
  | zero =>
    have := r.walk_mono want p (Nat.zero_le i)
    omega
  | succ j ih =>
    by_cases h : x < r.walk want p j
    · obtain ⟨m, q, h1, h2, h3⟩ := ih h
      exact ⟨m, q, h1, by omega, h3⟩
    · have hle : i ≤ j := by
        by_contra hlt
        have := r.walk_mono want p (by omega : j + 1 ≤ i)
        omega
      cases hf : r.found want p j with
      | none =>
        rw [walk_succ, hf] at hj
        simp only [after] at hj
        omega
      | some q =>
        rw [walk_succ_of_found hf] at hj
        refine ⟨j, q, hle, by omega, hf, by omega, ?_⟩
        rcases Nat.eq_or_lt_of_le (by omega : x ≤ q) with he | hlt
        · exact Or.inl he
        · exact Or.inr ((r.scan_some _ hf).2.2.2 x (by omega) hlt)

variable (r p) in
theorem found_within_turn {b : α} (hb : b ∈ r.items) {k : ℕ}
    (hw : ∀ j, k ≤ j → j < k + r.size → want j b = true) :
    ∃ j, k ≤ j ∧ j < k + r.size ∧ (r.found want p j).map r.item = some b := by
  have hfar : ∀ m, m ≤ r.size → r.walk want p k + m ≤ r.walk want p (k + m) := by
    intro m
    induction m with
    | zero => intro _; exact le_refl _
    | succ m ih =>
      intro hm
      have h1 := ih (by omega)
      have h2 := walk_lt_succ (p := p) hb (hw (k + m) (by omega) (by omega))
      rw [← Nat.add_assoc k m 1]
      omega
  obtain ⟨x, hx, hxn, rfl⟩ := r.exists_item hb (r.walk want p k)
  obtain ⟨m, q, hkm, hmn, hf, -, h⟩ := walk_covers hx (lt_of_lt_of_le hxn (hfar _ (le_refl _)))
  refine ⟨m, hkm, hmn, ?_⟩
  rcases h with rfl | h
  · rw [hf]; rfl
  · rw [hw m hkm hmn] at h
    simp at h

theorem found_again_within_turn {b : α} {i j qi qj : ℕ} (hij : i < j)
    (hi : r.found want p i = some qi) (hbi : r.item qi = b)
    (hj : r.found want p j = some qj)
    (hw : ∀ m, i < m → m ≤ j → want m b = true)
    (hno : ∀ m, i < m → m < j → (r.found want p m).map r.item ≠ some b) :
    qj ≤ qi + r.size := by
  by_contra hlt
  have hstart : r.walk want p (i + 1) ≤ qi + r.size := by
    have := r.size_pos
    rw [walk_succ_of_found hi]
    omega
  have hend : qi + r.size < r.walk want p (j + 1) := by
    rw [walk_succ_of_found hj]
    omega
  -- The position one turn behind the first finding holds `b` again.
  obtain ⟨m, q, him, hmj, hf, hle, h⟩ := walk_covers hstart hend
  have hitem : r.item (qi + r.size) = b := by rw [r.item_add_size, hbi]
  rcases h with rfl | h
  · rcases Nat.eq_or_lt_of_le (by omega : m ≤ j) with rfl | hmj
    · rw [hj] at hf
      have := Option.some.inj hf
      omega
    · exact hno m (by omega) hmj (by rw [hf, Option.map_some, hitem])
  · rw [hitem, hw m (by omega) (by omega)] at h
    simp at h

/-- Between two findings of an item that every scan wants, no item is found more often than the
list has it. -/
theorem found_between [DecidableEq α] [BEq α] [LawfulBEq α] {b c : α} {i j qi qj : ℕ} (hij : i < j)
    (hi : r.found want p i = some qi) (hbi : r.item qi = b)
    (hj : r.found want p j = some qj)
    (hw : ∀ m, i < m → m ≤ j → want m b = true)
    (hno : ∀ m, i < m → m < j → (r.found want p m).map r.item ≠ some b) :
    ((Finset.Ioo i j).filter fun m => (r.found want p m).map r.item = some c).card ≤
      r.items.count c := by
  have hturn := found_again_within_turn hij hi hbi hj hw hno
  rw [← r.card_turn (qi + 1) c]
  apply Finset.card_le_card_of_injOn fun m => (r.found want p m).getD 0
  · intro m hm
    simp only [Finset.coe_filter, Finset.mem_Ioo, Set.mem_ofPred_eq] at hm
    obtain ⟨⟨him, hmj⟩, hc⟩ := hm
    obtain ⟨q, hq, hqc⟩ := Option.map_eq_some_iff.mp hc
    have h1 := (r.scan_some _ hq).1
    have h2 := r.walk_mono want p (by omega : i + 1 ≤ m)
    have h3 := r.walk_mono want p (by omega : m + 1 ≤ j)
    have h4 := (r.scan_some _ hj).1
    rw [walk_succ_of_found hi] at h2
    rw [walk_succ_of_found hq] at h3
    simp only [Finset.coe_filter, Finset.mem_Ico, Set.mem_ofPred_eq, hq, Option.getD_some]
    exact ⟨by omega, hqc⟩
  · -- Later scans find later positions.
    intro m hm m' hm' heq
    simp only [Finset.coe_filter, Finset.mem_Ioo, Set.mem_ofPred_eq] at hm hm'
    obtain ⟨q, hq, -⟩ := Option.map_eq_some_iff.mp hm.2
    obtain ⟨q', hq', -⟩ := Option.map_eq_some_iff.mp hm'.2
    simp only [hq, hq', Option.getD_some] at heq
    have step : ∀ {a a' x x'}, r.found want p a = some x → r.found want p a' = some x' → a < a' → x < x' := by
      intro a a' x x' ha ha' hlt
      have h1 := r.walk_mono want p (by omega : a + 1 ≤ a')
      rw [walk_succ_of_found ha] at h1
      have h2 := (r.scan_some _ ha').1
      omega
    rcases Nat.lt_trichotomy m m' with h | h | h
    · have := step hq hq' h; omega
    · exact h
    · have := step hq' hq h; omega

/-! ## How far an item is ahead -/

/-- The item stands at one of the next `d` positions. -/
def Ahead (r : Rotation α) (b : α) (p d : ℕ) : Prop := ∃ i < d, r.item (p + i) = b

variable {b : α} {d : ℕ}

theorem ahead_size (hb : b ∈ r.items) (p : ℕ) : r.Ahead b p r.size := by
  obtain ⟨q, h1, h2, h3⟩ := r.exists_item hb p
  exact ⟨q - p, by omega, by rwa [Nat.add_sub_cancel' h1]⟩

theorem ahead_mod : r.Ahead b (p % r.size) d ↔ r.Ahead b p d := by
  unfold Ahead item
  simp only [Nat.mod_add_mod]

theorem Ahead.mono {d' : ℕ} (h : r.Ahead b p d) (hle : d ≤ d') : r.Ahead b p d' := by
  obtain ⟨i, hi, hb⟩ := h
  exact ⟨i, by omega, hb⟩

theorem scan_ahead {P : α → Bool} (hw : P b = true) (h : r.Ahead b p (d + 1)) :
    ∃ q, r.scan P p r.size = some q ∧ (r.item q = b ∨ r.Ahead b (q + 1) d) := by
  obtain ⟨i, hi, hb⟩ := h
  cases hscan : r.scan P p r.size with
  | none =>
    have hunwanted := r.scan_size_eq_none P |>.mp hscan b (hb ▸ r.item_mem _)
    rw [hw] at hunwanted
    cases hunwanted
  | some q =>
    obtain ⟨hle, -, -, hskipped⟩ := r.scan_some P hscan
    refine ⟨q, rfl, ?_⟩
    rcases Nat.lt_trichotomy q (p + i) with hlt | heq | hgt
    · exact .inr ⟨p + i - (q + 1), by omega, by rwa [Nat.add_sub_cancel' hlt]⟩
    · exact .inl (heq ▸ hb)
    · have hunwanted := hskipped (p + i) (Nat.le_add_right p i) hgt
      rw [hb, hw] at hunwanted
      cases hunwanted

end Rotation

end Lib
