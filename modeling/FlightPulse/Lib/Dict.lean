import Mathlib.Algebra.BigOperators.Group.List.Basic
import Mathlib.Data.List.Nodup

/-!
# Dictionaries that keep the order of insertion

A key is written once: assigning to it again changes its value and leaves it
where it is. A new key goes to the end.
-/

namespace Lib

structure Dict (κ ν : Type*) where
  entries : List (κ × ν)
  nodup : (entries.map Prod.fst).Nodup

namespace Dict

variable {κ ν : Type*}

def empty : Dict κ ν := ⟨[], List.nodup_nil⟩

def keys (d : Dict κ ν) : List κ := d.entries.map Prod.fst

theorem keys_nodup (d : Dict κ ν) : d.keys.Nodup := d.nodup

variable [DecidableEq κ]

/-! ## Entries -/

def lookup (k : κ) : List (κ × ν) → Option ν
  | [] => none
  | (k', v) :: rest => if k' = k then some v else lookup k rest

def assign (k : κ) (v : ν) : List (κ × ν) → List (κ × ν)
  | [] => [(k, v)]
  | (k', v') :: rest => if k' = k then (k', v) :: rest else (k', v') :: assign k v rest

theorem assign_keys (k : κ) (v : ν) (l : List (κ × ν)) :
    (assign k v l).map Prod.fst =
      if k ∈ l.map Prod.fst then l.map Prod.fst else l.map Prod.fst ++ [k] := by
  induction l with
  | nil => simp [assign]
  | cons p l ih =>
    obtain ⟨k', v'⟩ := p
    by_cases h : k' = k
    · simp [assign, h]
    · have hk : ¬ k = k' := fun he => h he.symm
      unfold assign
      simp only [h, if_false, List.map_cons, List.mem_cons, hk, false_or, ih]
      split <;> simp

theorem assign_nodup (k : κ) (v : ν) (l : List (κ × ν)) (h : (l.map Prod.fst).Nodup) :
    ((assign k v l).map Prod.fst).Nodup := by
  rw [assign_keys]
  split
  · exact h
  · next hk => exact List.nodup_append.mpr ⟨h, by simp, by
      intro a ha b hb
      rw [List.mem_singleton.mp hb]
      rintro rfl
      exact hk ha⟩

theorem lookup_assign (k k' : κ) (v : ν) (l : List (κ × ν)) :
    lookup k' (assign k v l) = if k = k' then some v else lookup k' l := by
  induction l with
  | nil => simp [assign, lookup]
  | cons p l ih =>
    obtain ⟨k₀, v₀⟩ := p
    by_cases h : k₀ = k
    · subst h
      by_cases hk : k₀ = k' <;> simp [assign, lookup, hk]
    · by_cases hk : k₀ = k'
      · subst hk
        have hne : ¬ k = k₀ := fun he => h he.symm
        simp [assign, lookup, h, hne]
      · simp [assign, lookup, h, hk, ih]

theorem lookup_isSome (k : κ) (l : List (κ × ν)) :
    (lookup k l).isSome ↔ k ∈ l.map Prod.fst := by
  induction l with
  | nil => simp [lookup]
  | cons p l ih =>
    obtain ⟨k', v⟩ := p
    by_cases h : k' = k
    · simp [lookup, h]
    · have hk : ¬ k = k' := fun he => h he.symm
      simpa [lookup, h, hk] using ih

theorem lookup_of_mem {k : κ} {v : ν} {l : List (κ × ν)} (hl : (l.map Prod.fst).Nodup)
    (h : (k, v) ∈ l) : lookup k l = some v := by
  induction l with
  | nil => simp at h
  | cons p l ih =>
    obtain ⟨k', v'⟩ := p
    rw [List.map_cons, List.nodup_cons] at hl
    rcases List.mem_cons.mp h with h | h
    · simp only [Prod.mk.injEq] at h
      simp [lookup, h.1, h.2]
    · have hk : ¬ k' = k := by
        rintro rfl
        exact hl.1 (List.mem_map.mpr ⟨_, h, rfl⟩)
      simp [lookup, hk, ih hl.2 h]

theorem mem_of_lookup {k : κ} {v : ν} {l : List (κ × ν)} (h : lookup k l = some v) :
    (k, v) ∈ l := by
  induction l with
  | nil => simp [lookup] at h
  | cons p l ih =>
    obtain ⟨k', v'⟩ := p
    by_cases hk : k' = k
    · unfold lookup at h
      simp only [hk, if_true, Option.some.injEq] at h
      simp [hk, h]
    · unfold lookup at h
      simp only [hk, if_false] at h
      exact List.mem_cons_of_mem _ (ih h)

theorem sum_assign_add [AddCommMonoid ν] (k : κ) (a : ν) (l : List (κ × ν)) :
    ((assign k ((lookup k l).getD 0 + a) l).map Prod.snd).sum = (l.map Prod.snd).sum + a := by
  induction l with
  | nil => simp [assign, lookup]
  | cons p l ih =>
    obtain ⟨k', v'⟩ := p
    by_cases h : k' = k
    · simp [assign, lookup, h, add_right_comm]
    · simp only [assign, lookup, if_neg h, List.map_cons, List.sum_cons, ih, add_assoc]

/-! ## Operations -/

def get? (d : Dict κ ν) (k : κ) : Option ν := lookup k d.entries

def set (d : Dict κ ν) (k : κ) (v : ν) : Dict κ ν :=
  ⟨assign k v d.entries, assign_nodup k v d.entries d.nodup⟩

/-- The comprehension `{k: v for k, v in pairs}`. -/
def ofPairs (pairs : List (κ × ν)) : Dict κ ν := pairs.foldl (fun d p => d.set p.1 p.2) empty

@[simp] theorem get?_empty (k : κ) : (empty : Dict κ ν).get? k = none := rfl

theorem get?_set (d : Dict κ ν) (k k' : κ) (v : ν) :
    (d.set k v).get? k' = if k = k' then some v else d.get? k' := lookup_assign k k' v d.entries

@[simp] theorem get?_set_self (d : Dict κ ν) (k : κ) (v : ν) : (d.set k v).get? k = some v := by
  simp [get?_set]

theorem get?_set_of_ne (d : Dict κ ν) {k k' : κ} (v : ν) (h : k ≠ k') :
    (d.set k v).get? k' = d.get? k' := by
  simp [get?_set, h]

theorem get?_isSome (d : Dict κ ν) (k : κ) : (d.get? k).isSome ↔ k ∈ d.keys :=
  lookup_isSome k d.entries

theorem mem_entries_iff (d : Dict κ ν) (k : κ) (v : ν) :
    (k, v) ∈ d.entries ↔ d.get? k = some v :=
  ⟨lookup_of_mem d.nodup, mem_of_lookup⟩

theorem keys_set (d : Dict κ ν) (k : κ) (v : ν) :
    (d.set k v).keys = if k ∈ d.keys then d.keys else d.keys ++ [k] :=
  assign_keys k v d.entries

theorem keys_set_of_mem (d : Dict κ ν) {k : κ} (v : ν) (h : k ∈ d.keys) :
    (d.set k v).keys = d.keys := by
  rw [keys_set, if_pos h]

/-! ## Comprehensions -/

theorem get?_foldl_set (pairs : List (κ × ν)) (d : Dict κ ν) (k : κ) :
    ((pairs.foldl (fun d p => d.set p.1 p.2) d).get? k).isSome ↔
      (d.get? k).isSome ∨ k ∈ pairs.map Prod.fst := by
  induction pairs generalizing d with
  | nil => simp
  | cons p pairs ih =>
    rw [List.foldl_cons, ih, get?_set, List.map_cons, List.mem_cons]
    by_cases h : p.1 = k
    · simp [h]
    · have hk : ¬ k = p.1 := fun he => h he.symm
      simp [h, hk]

theorem mem_keys_ofPairs (pairs : List (κ × ν)) (k : κ) :
    k ∈ (ofPairs pairs).keys ↔ k ∈ pairs.map Prod.fst := by
  rw [← get?_isSome, ofPairs, get?_foldl_set]
  simp

theorem assign_of_notMem {k : κ} {v : ν} {l : List (κ × ν)} (h : k ∉ l.map Prod.fst) :
    assign k v l = l ++ [(k, v)] := by
  induction l with
  | nil => rfl
  | cons p l ih =>
    rw [List.map_cons, List.mem_cons, not_or] at h
    have hne : ¬ p.1 = k := fun he => h.1 he.symm
    rw [assign, if_neg hne, ih h.2, List.cons_append]

theorem entries_foldl_set {pairs : List (κ × ν)} {d : Dict κ ν}
    (h : ((d.entries ++ pairs).map Prod.fst).Nodup) :
    (pairs.foldl (fun d p => d.set p.1 p.2) d).entries = d.entries ++ pairs := by
  induction pairs generalizing d with
  | nil => simp
  | cons p pairs ih =>
    have hnew : p.1 ∉ d.entries.map Prod.fst := by
      rw [List.map_append, List.map_cons, List.nodup_append] at h
      intro hmem
      exact h.2.2 _ hmem _ List.mem_cons_self rfl
    have hset : (d.set p.1 p.2).entries = d.entries ++ [p] := assign_of_notMem hnew
    rw [List.foldl_cons, ih (by rwa [hset, List.append_assoc, List.singleton_append]), hset,
      List.append_assoc, List.singleton_append]

theorem entries_ofPairs {pairs : List (κ × ν)} (h : (pairs.map Prod.fst).Nodup) :
    (ofPairs pairs).entries = pairs :=
  entries_foldl_set (d := empty) h

theorem entries_ofPairs_iff {pairs : List (κ × ν)} :
    (ofPairs pairs).entries = pairs ↔ (pairs.map Prod.fst).Nodup :=
  ⟨fun h => h ▸ (ofPairs pairs).nodup, entries_ofPairs⟩

theorem get?_ofPairs_const (ks : List κ) (v : ν) (k : κ) :
    (ofPairs (ks.map fun k => (k, v))).get? k = if k ∈ ks then some v else none := by
  have key : ∀ d : Dict κ ν, ((ks.map fun k => (k, v)).foldl (fun d p => d.set p.1 p.2) d).get? k =
      if k ∈ ks then some v else d.get? k := by
    induction ks with
    | nil => simp
    | cons a ks ih =>
      intro d
      rw [List.map_cons, List.foldl_cons, ih, get?_set]
      by_cases h : k ∈ ks
      · simp [h]
      · by_cases ha : a = k
        · simp [ha]
        · have hk : ¬ k = a := fun he => ha he.symm
          simp [h, ha, hk]
  simpa [ofPairs] using key empty

end Dict

end Lib
