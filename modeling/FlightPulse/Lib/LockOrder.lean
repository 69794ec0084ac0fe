import Mathlib.Data.Fintype.EquivFin
import Mathlib.Logic.Relation
import Mathlib.Order.Defs.PartialOrder
import FlightPulse.Lib.Transactions

/-!
# Entries that are taken in one order

Transactions that each ask for their entries in the same order never wait for one
another in a circle: along a chain of waits the wanted entries rise.
-/

namespace Lib

/-! ## Holders and waiters -/

/-- Who holds which entry, and who asks for which one next. -/
structure Locks (ι κ : Type*) where
  holds : ι → κ → Prop
  wants : ι → κ → Prop

namespace Locks

variable {ι κ β : Type*} {l : Locks ι κ}

/-- `i` asks for an entry that `j` holds. -/
def Waits (l : Locks ι κ) (i j : ι) : Prop := j ≠ i ∧ ∃ k, l.wants i k ∧ l.holds j k

/-- Two of them never hold the same entry. -/
def Exclusive (l : Locks ι κ) : Prop := ∀ i j k, l.holds i k → l.holds j k → i = j

/-- Nobody asks for an entry below one that it holds. -/
def Ordered [PartialOrder β] (rank : κ → β) (l : Locks ι κ) : Prop :=
  ∀ i k k', l.wants i k → l.holds i k' → rank k' ≤ rank k

variable [PartialOrder β] {rank : κ → β}

/-- The last of a chain holds an entry that is not below the one that the first wants. -/
theorem chain_rises (hordered : l.Ordered rank) {i j : ι} (h : Relation.TransGen l.Waits i j) :
    ∃ k m j', l.wants i k ∧ j' ≠ i ∧ l.holds j' k ∧ l.holds j m ∧ rank k ≤ rank m := by
  induction h with
  | single h =>
    obtain ⟨hne, k, hwants, hholds⟩ := h
    exact ⟨k, k, _, hwants, hne, hholds, hholds, le_refl _⟩
  | tail _ hlast ih =>
    obtain ⟨k, m, j', hwants, hne, hholds, hm, hle⟩ := ih
    obtain ⟨-, n, hn, hheld⟩ := hlast
    exact ⟨k, n, j', hwants, hne, hholds, hheld, le_trans hle (hordered _ _ _ hn hm)⟩

theorem acyclic (hordered : l.Ordered rank) (hexclusive : l.Exclusive) (hrank : Function.Injective rank) (i : ι) :
    ¬ Relation.TransGen l.Waits i i := by
  intro h
  obtain ⟨k, m, j, hwants, hne, hholds, hm, hle⟩ := chain_rises hordered h
  have heq : m = k := hrank (le_antisymm (hordered i k m hwants hm) hle)
  exact hne (hexclusive j i k hholds (heq ▸ hm))

end Locks

/-! ## Transactions over sorted rows -/

namespace Transactions

open Lib.Run

variable {ι κ ρ β : Type*} {key : ρ → κ}

/-- The entries of the unique index. A committed or aborted transaction holds none. -/
def Store.locks (key : ρ → κ) (s : Store ι ρ) : Locks ι κ where
  holds i k := k ∈ (s.phase i).inserted.map key
  wants i k := ∃ r todo inserted, s.phase i = .running (r :: todo) inserted ∧ key r = k

variable [Fintype ι] [DecidableEq ι] [DecidableEq κ] {batch : ι → List ρ} {initial : List ρ} {s : Store ι ρ}

omit [DecidableEq ι] [DecidableEq κ] in
theorem locks_exclusive (hs : Inv key batch initial s) : (s.locks key).Exclusive := by
  intro i j k hi hj
  by_contra hne
  exact hs.apart i j hne k hi hj

omit [DecidableEq ι] [DecidableEq κ] in
theorem locks_ordered [PartialOrder β] {rank : κ → β} (hs : Inv key batch initial s)
    (hsorted : ∀ i, (batch i).Pairwise fun a b => rank (key a) ≤ rank (key b)) : (s.locks key).Ordered rank := by
  rintro i k k' ⟨r, todo, inserted, hi, rfl⟩ hheld
  obtain ⟨done, hbatch, hsub, -⟩ : Progress key (batch i) s.rows (.running (r :: todo) inserted) :=
    hi ▸ hs.progress i
  unfold Store.locks at hheld
  simp only [hi] at hheld
  obtain ⟨r', hr', rfl⟩ := List.mem_map.mp hheld
  have hcross := (List.pairwise_append.mp (hbatch ▸ hsorted i)).2.2
  exact hcross r' (hsub r' hr') r List.mem_cons_self

/-- No run of transactions over sorted rows leads to a deadlock. -/
theorem no_deadlock [PartialOrder β] {rank : κ → β} (hrank : Function.Injective rank)
    (hsorted : ∀ i, (batch i).Pairwise fun a b => rank (key a) ≤ rank (key b)) (hinit : (initial.map key).Nodup)
    {es : List (Event ι)} (h : exec (step key batch) (Store.init initial) es = some s) (i : ι) :
    ¬ Relation.TransGen (s.locks key).Waits i i := by
  have hinv := inv_run hinit h
  exact Locks.acyclic (locks_ordered hinv hsorted) (locks_exclusive hinv) hrank i

/-! ## Somebody can always go on -/

omit [Fintype ι] [DecidableEq ι] [DecidableEq κ] in
theorem running_of_holds {i : ι} {k : κ} (h : (s.locks key).holds i k) :
    ∃ todo inserted, s.phase i = .running todo inserted := by
  change k ∈ (s.phase i).inserted.map key at h
  cases hi : s.phase i with
  | running todo inserted => exact ⟨todo, inserted, rfl⟩
  | _ => simp [hi, Phase.inserted] at h

theorem someone_moves (hacyclic : ∀ i, ¬ Relation.TransGen (s.locks key).Waits i i) {i : ι} {todo inserted : List ρ}
    (hi : s.phase i = .running todo inserted) :
    ∃ j e t, (e = .insert j ∨ e = .commit j) ∧ step key batch s e = some t := by
  have hwf : WellFounded (flip (Relation.TransGen (s.locks key).Waits)) := by
    have htrans : IsTrans ι (flip (Relation.TransGen (s.locks key).Waits)) := ⟨fun _ _ _ h h' => h'.trans h⟩
    have hirrefl : Std.Irrefl (flip (Relation.TransGen (s.locks key).Waits)) := ⟨hacyclic⟩
    exact Finite.wellFounded_of_trans_of_irrefl _
  induction i using hwf.induction generalizing todo inserted with
  | _ i ih =>
    match todo, hi with
    | [], hi =>
      obtain ⟨t, ht⟩ : ∃ t, step key batch s (.commit i) = some t := by
        simp only [step, hi]
        exact ⟨_, rfl⟩
      exact ⟨i, .commit i, t, .inr rfl, ht⟩
    | r :: todo, hi =>
      by_cases hheld : Held key s i (key r)
      · obtain ⟨j, hne, hj⟩ := hheld
        obtain ⟨todo', inserted', hj'⟩ := running_of_holds hj
        exact ih j (.single ⟨hne, key r, ⟨r, todo, inserted, hi, rfl⟩, hj⟩) hj'
      · obtain ⟨t, ht⟩ : ∃ t, step key batch s (.insert i) = some t := by
          simp only [step, hi, if_neg hheld]
          split <;> exact ⟨_, rfl⟩
        exact ⟨i, .insert i, t, .inl rfl, ht⟩

end Transactions

end Lib
