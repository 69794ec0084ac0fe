import Mathlib.Data.List.Sort
import Mathlib.Order.Bounds.Basic

/-!
# Order statistics of a list

The entry of rank `k + 1` in the sorted list is the least entry that more than `k` of
the entries do not exceed. Ties and the order of the list do not matter.
-/

namespace Lib.OrderStatistic

variable {α : Type*} [LinearOrder α]

/-- How many entries are at most `x`. -/
def rank (l : List α) (x : α) : ℕ := l.countP (· ≤ x)

/-- `v` is the least entry that at least `k` of the entries do not exceed. -/
def NearestRank (l : List α) (k : ℕ) (v : α) : Prop := IsLeast {x | x ∈ l ∧ k ≤ rank l x} v

theorem rank_perm {l l' : List α} (h : l.Perm l') (x : α) : rank l x = rank l' x := h.countP_eq _

theorem NearestRank.perm {l l' : List α} {k : ℕ} {v : α} (h : NearestRank l k v) (hp : l.Perm l') :
    NearestRank l' k v := by
  have hset : {x | x ∈ l ∧ k ≤ rank l x} = {x | x ∈ l' ∧ k ≤ rank l' x} := by
    ext x
    simp only [Set.mem_ofPred_eq, hp.mem_iff, rank_perm hp]
  unfold NearestRank at h ⊢
  rwa [← hset]

theorem NearestRank.mono {l : List α} {j k : ℕ} {v w : α} (hv : NearestRank l j v) (hw : NearestRank l k w)
    (hjk : j ≤ k) : v ≤ w :=
  hv.2 ⟨hw.1.1, hjk.trans hw.1.2⟩

variable {l : List α}

theorem le_getElem (hl : l.Pairwise (· ≤ ·)) {i j : ℕ} (hij : i ≤ j) (hi : i < l.length)
    (hj : j < l.length) : l[i] ≤ l[j] := by
  rcases hij.eq_or_lt with rfl | hlt
  · exact le_rfl
  · exact List.pairwise_iff_getElem.mp hl i j hi hj hlt

theorem lt_rank_getElem (hl : l.Pairwise (· ≤ ·)) {k : ℕ} (hk : k < l.length) : k < rank l l[k] := by
  have hall : ∀ x ∈ l.take (k + 1), x ≤ l[k] := by
    intro x hx
    obtain ⟨i, hi, rfl⟩ := List.mem_take_iff_getElem.mp hx
    exact le_getElem hl (by omega) (by omega) hk
  have hcount : (l.take (k + 1)).countP (· ≤ l[k]) = (l.take (k + 1)).length :=
    List.countP_eq_length.mpr fun x hx => decide_eq_true (hall x hx)
  have hle : (l.take (k + 1)).countP (· ≤ l[k]) ≤ rank l l[k] := (List.take_sublist _ l).countP_le
  rw [hcount, List.length_take, Nat.min_eq_left hk] at hle
  exact hle

theorem getElem_le_of_lt_rank (hl : l.Pairwise (· ≤ ·)) {k : ℕ} (hk : k < l.length) {x : α}
    (hx : k < rank l x) : l[k] ≤ x := by
  by_contra hlt
  rw [not_le] at hlt
  -- none of the entries from the place `k` on is counted
  have hnone : (l.drop k).countP (· ≤ x) = 0 := by
    apply List.countP_eq_zero.mpr
    intro y hy
    obtain ⟨i, hi, rfl⟩ := List.mem_drop_iff_getElem.mp hy
    have hle : l[k] ≤ l[k + i] := le_getElem hl (by omega) hk (by omega)
    simpa using hlt.trans_le hle
  have hsplit : rank l x = (l.take k).countP (· ≤ x) + (l.drop k).countP (· ≤ x) := by
    rw [rank, ← List.countP_append, List.take_append_drop]
  have hbound : (l.take k).countP (· ≤ x) ≤ k := List.countP_le_length.trans (List.length_take_le k l)
  omega

theorem nearestRank_getElem (hl : l.Pairwise (· ≤ ·)) {k : ℕ} (hk : k < l.length) :
    NearestRank l (k + 1) l[k] :=
  ⟨⟨List.getElem_mem hk, lt_rank_getElem hl hk⟩, fun _ hx => getElem_le_of_lt_rank hl hk hx.2⟩

/-! ## The two ends -/

theorem isLeast_of_nearestRank {k : ℕ} {v : α} (hk : k ≤ 1) (h : NearestRank l k v) :
    IsLeast {x | x ∈ l} v := by
  refine ⟨h.1.1, fun x hx => h.2 ⟨hx, ?_⟩⟩
  have hpos : 0 < rank l x := List.countP_pos_iff.mpr ⟨x, hx, by simp⟩
  omega

theorem isGreatest_of_nearestRank {v : α} (h : NearestRank l l.length v) : IsGreatest {x | x ∈ l} v := by
  refine ⟨h.1.1, fun x hx => ?_⟩
  have hall : rank l v = l.length := le_antisymm List.countP_le_length h.1.2
  exact of_decide_eq_true (List.countP_eq_length.mp hall x hx)

end Lib.OrderStatistic
