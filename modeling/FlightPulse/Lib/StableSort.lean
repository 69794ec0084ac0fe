import Mathlib.Data.List.Sort

/-!
# The first match in a sorted list

A stable sort puts the leftmost of the least matches in front of the others. This
is the first match of the list itself only when no later one is less.
-/

namespace Lib.StableSort

variable {α : Type*} (r : α → α → Prop) [DecidableRel r] (p : α → Bool)

/-- The leftmost of the least elements that satisfy `p`. -/
def leastMatch : List α → Option α
  | [] => none
  | a :: l =>
    if p a then
      match leastMatch l with
      | none => some a
      | some b => if r a b then some a else some b
    else leastMatch l

variable {r p}

theorem leastMatch_eq_none {l : List α} : leastMatch r p l = none ↔ ∀ a ∈ l, p a = false := by
  induction l with
  | nil => simp [leastMatch]
  | cons a l ih =>
    rw [List.forall_mem_cons, ← ih, leastMatch]
    split
    · next hp =>
      refine iff_of_false ?_ (by simp [hp])
      split
      · simp
      · split <;> simp
    · next hp => simp [hp]

theorem leastMatch_mem {l : List α} {m : α} (h : leastMatch r p l = some m) : m ∈ l ∧ p m := by
  induction l with
  | nil => cases h
  | cons a l ih =>
    rw [leastMatch] at h
    split at h
    · next hp =>
      split at h
      · obtain rfl := Option.some.inj h
        exact ⟨List.mem_cons_self, hp⟩
      · next b hb =>
        split at h
        · obtain rfl := Option.some.inj h
          exact ⟨List.mem_cons_self, hp⟩
        · obtain rfl := Option.some.inj h
          exact ⟨List.mem_cons_of_mem _ (ih hb).1, (ih hb).2⟩
    · exact ⟨List.mem_cons_of_mem _ (ih h).1, (ih h).2⟩

theorem leastMatch_le [IsTrans α r] [Std.Total r] {l : List α} {m x : α} (h : leastMatch r p l = some m)
    (hx : x ∈ l) (hpx : p x) : r m x := by
  have hrefl : ∀ a, r a a := fun a => (Std.Total.total a a).elim id id
  induction l generalizing m with
  | nil => cases hx
  | cons a l ih =>
    rw [leastMatch] at h
    rcases List.mem_cons.mp hx with rfl | hx
    · rw [if_pos hpx] at h
      split at h
      · obtain rfl := Option.some.inj h
        exact hrefl _
      · next b hb =>
        split at h
        · obtain rfl := Option.some.inj h
          exact hrefl _
        · next hnot =>
          obtain rfl := Option.some.inj h
          exact (Std.Total.total b x).resolve_right hnot
    · split at h
      · split at h
        · next hnone => simp [leastMatch_eq_none.mp hnone x hx] at hpx
        · next b hb =>
          split at h
          · next hab =>
            obtain rfl := Option.some.inj h
            exact IsTrans.trans a b x hab (ih hb hx)
          · obtain rfl := Option.some.inj h
            exact ih hb hx
      · exact ih h hx

/-- The first match is the one that a sort puts first, when none of the others is less. -/
theorem leastMatch_of_first {l : List α} {e : α} (h : l.find? p = some e)
    (hleast : ∀ x ∈ l, p x → r e x) : leastMatch r p l = some e := by
  induction l with
  | nil => cases h
  | cons a l ih =>
    rw [leastMatch]
    rw [List.find?_cons] at h
    rw [List.forall_mem_cons] at hleast
    split at h
    · next hp =>
      obtain rfl := Option.some.inj h
      rw [if_pos hp]
      split
      · rfl
      · next b hb =>
        obtain ⟨hmem, hpb⟩ := leastMatch_mem hb
        rw [if_pos (hleast.2 b hmem hpb)]
    · next hp =>
      rw [if_neg (by simp [hp])]
      exact ih h hleast.2

theorem leastMatch_perm [IsTrans α r] [Std.Total r] (hanti : ∀ a b, r a b → r b a → a = b) {l l' : List α}
    (h : l.Perm l') : leastMatch r p l = leastMatch r p l' := by
  cases hl : leastMatch r p l with
  | none =>
    symm
    rw [leastMatch_eq_none] at hl ⊢
    exact fun a ha => hl a (h.mem_iff.mpr ha)
  | some m =>
    obtain ⟨hm, hpm⟩ := leastMatch_mem hl
    cases hl' : leastMatch r p l' with
    | none =>
      rw [leastMatch_eq_none.mp hl' m (h.mem_iff.mp hm)] at hpm
      cases hpm
    | some m' =>
      obtain ⟨hm', hpm'⟩ := leastMatch_mem hl'
      have hle : r m m' := leastMatch_le hl (h.mem_iff.mpr hm') hpm'
      have hge : r m' m := leastMatch_le hl' (h.mem_iff.mp hm) hpm
      rw [hanti m m' hle hge]

/-! ## Sorting -/

theorem find?_orderedInsert_of_not {a : α} (ha : p a = false) (l : List α) :
    (l.orderedInsert r a).find? p = l.find? p := by
  induction l with
  | nil => simp [ha]
  | cons b l ih =>
    rw [List.orderedInsert_cons]
    split
    · rw [List.find?_cons, ha]
    · rw [List.find?_cons, List.find?_cons, ih]

theorem find?_orderedInsert [IsTrans α r] {a : α} (ha : p a) {l : List α} (hl : l.Pairwise r) :
    (l.orderedInsert r a).find? p =
      match l.find? p with
      | none => some a
      | some b => if r a b then some a else some b := by
  induction l with
  | nil => simp [ha]
  | cons c l ih =>
    obtain ⟨hc, hl⟩ := List.pairwise_cons.mp hl
    rw [List.orderedInsert_cons]
    by_cases hac : r a c
    · rw [if_pos hac, List.find?_cons, ha]
      cases hfind : (c :: l).find? p with
      | none => rfl
      | some b =>
        have hab : r a b := by
          rcases List.mem_cons.mp (List.mem_of_find?_eq_some hfind) with rfl | hb
          · exact hac
          · exact IsTrans.trans a c b hac (hc b hb)
        simp [hab]
    · rw [if_neg hac, List.find?_cons, List.find?_cons]
      cases hpc : p c with
      | true => simp [hac]
      | false => exact ih hl

theorem find?_insertionSort [IsTrans α r] [Std.Total r] (l : List α) :
    (l.insertionSort r).find? p = leastMatch r p l := by
  induction l with
  | nil => rfl
  | cons a l ih =>
    rw [List.insertionSort_cons]
    unfold leastMatch
    cases ha : p a with
    | true => rw [find?_orderedInsert ha (List.pairwise_insertionSort r l), ih, if_pos rfl]
    | false => rw [find?_orderedInsert_of_not ha, ih, if_neg (by simp)]

end Lib.StableSort
