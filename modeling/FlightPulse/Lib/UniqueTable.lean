import Mathlib.Data.List.Nodup

/-!
# Tables with a unique index

`INSERT ... ON CONFLICT DO NOTHING RETURNING`: a row whose key is there already
is passed over, and the rows that were added are returned.
-/

namespace Lib

structure UniqueTable {κ ρ : Type*} (key : ρ → κ) where
  rows : List ρ
  nodup : (rows.map key).Nodup

namespace UniqueTable

variable {κ ρ : Type*} {key : ρ → κ}

def keys (t : UniqueTable key) : List κ := t.rows.map key

theorem keys_nodup (t : UniqueTable key) : t.keys.Nodup := t.nodup

theorem nodup_snoc {t : UniqueTable key} {r : ρ} (h : key r ∉ t.keys) :
    ((t.rows ++ [r]).map key).Nodup := by
  rw [List.map_append, List.map_singleton, List.nodup_append]
  refine ⟨t.nodup, List.nodup_singleton _, fun a ha b hb => ?_⟩
  rw [List.mem_singleton.mp hb]
  rintro rfl
  exact h ha

variable [DecidableEq κ]

def insertRow (t : UniqueTable key) (r : ρ) : UniqueTable key :=
  if h : key r ∈ t.keys then t else ⟨t.rows ++ [r], nodup_snoc h⟩

def insertRows (t : UniqueTable key) (rs : List ρ) : UniqueTable key := rs.foldl insertRow t

def returning (t : UniqueTable key) : List ρ → List ρ
  | [] => []
  | r :: rs => if key r ∈ t.keys then t.returning rs else r :: (t.insertRow r).returning rs

theorem insertRow_of_mem {t : UniqueTable key} {r : ρ} (h : key r ∈ t.keys) : t.insertRow r = t := by
  unfold insertRow
  rw [dif_pos h]

theorem rows_insertRow_of_notMem {t : UniqueTable key} {r : ρ} (h : key r ∉ t.keys) :
    (t.insertRow r).rows = t.rows ++ [r] := by
  unfold insertRow
  rw [dif_neg h]

theorem insertRows_cons (t : UniqueTable key) (r : ρ) (rs : List ρ) :
    t.insertRows (r :: rs) = (t.insertRow r).insertRows rs := rfl

theorem insertRows_append (t : UniqueTable key) (rs rs' : List ρ) :
    t.insertRows (rs ++ rs') = (t.insertRows rs).insertRows rs' := List.foldl_append

theorem rows_insertRows (t : UniqueTable key) (rs : List ρ) :
    (t.insertRows rs).rows = t.rows ++ t.returning rs := by
  induction rs generalizing t with
  | nil => simp [insertRows, returning]
  | cons r rs ih =>
    rw [insertRows_cons, ih, returning]
    split
    · next h => rw [insertRow_of_mem h]
    · next h => rw [rows_insertRow_of_notMem h, List.append_assoc, List.singleton_append]

theorem mem_keys_insertRow {t : UniqueTable key} {r : ρ} {k : κ} :
    k ∈ (t.insertRow r).keys ↔ k ∈ t.keys ∨ k = key r := by
  by_cases h : key r ∈ t.keys
  · rw [insertRow_of_mem h]
    exact ⟨.inl, fun hk => hk.elim id fun hk => hk ▸ h⟩
  · simp [keys, rows_insertRow_of_notMem h]

theorem mem_keys_insertRows {t : UniqueTable key} {rs : List ρ} {k : κ} :
    k ∈ (t.insertRows rs).keys ↔ k ∈ t.keys ∨ k ∈ rs.map key := by
  induction rs generalizing t with
  | nil => simp [insertRows]
  | cons r rs ih => rw [insertRows_cons, ih, mem_keys_insertRow, List.map_cons, List.mem_cons, or_assoc]

theorem returning_append (t : UniqueTable key) (rs rs' : List ρ) :
    t.returning (rs ++ rs') = t.returning rs ++ (t.insertRows rs).returning rs' := by
  have h : (t.insertRows (rs ++ rs')).rows = ((t.insertRows rs).insertRows rs').rows := by
    rw [insertRows_append]
  rw [rows_insertRows, rows_insertRows, rows_insertRows, List.append_assoc] at h
  exact List.append_cancel_left h

theorem mem_of_mem_returning {t : UniqueTable key} {rs : List ρ} {r : ρ} (h : r ∈ t.returning rs) : r ∈ rs := by
  induction rs generalizing t with
  | nil => exact h
  | cons r' rs ih =>
    rw [returning] at h
    split at h
    · exact List.mem_cons_of_mem _ (ih h)
    · rcases List.mem_cons.mp h with rfl | h
      · exact List.mem_cons_self
      · exact List.mem_cons_of_mem _ (ih h)

/-! ## The row under a key -/

def lookup (t : UniqueTable key) (k : κ) : Option ρ := t.rows.find? fun r => key r = k

theorem lookup_eq_none {t : UniqueTable key} {k : κ} : t.lookup k = none ↔ k ∉ t.keys := by
  simp [lookup, keys]

theorem find?_returning (t : UniqueTable key) (rs : List ρ) (k : κ) :
    (t.returning rs).find? (fun r => key r = k) = if k ∈ t.keys then none else rs.find? fun r => key r = k := by
  induction rs generalizing t with
  | nil => simp [returning]
  | cons r rs ih =>
    rw [returning, List.find?_cons]
    by_cases hr : key r = k
    · subst hr
      by_cases hk : key r ∈ t.keys
      · rw [if_pos hk, ih, if_pos hk, if_pos hk]
      · simp [hk]
    · simp only [hr, decide_false]
      split
      · exact ih t
      · simp only [List.find?_cons, hr, decide_false, ih, mem_keys_insertRow, Ne.symm hr, or_false]

theorem lookup_insertRows (t : UniqueTable key) (rs : List ρ) (k : κ) :
    (t.insertRows rs).lookup k = (t.lookup k).or (rs.find? fun r => key r = k) := by
  unfold lookup
  rw [rows_insertRows, List.find?_append, find?_returning]
  split
  · next hk =>
    obtain ⟨r, hr⟩ := Option.ne_none_iff_exists'.mp (mt lookup_eq_none.mp (not_not.mpr hk))
    unfold lookup at hr
    rw [hr, Option.some_or, Option.some_or]
  · rfl

theorem length_returning_congr (t : UniqueTable key) {rs rs' : List ρ}
    (h : ∀ k, k ∈ rs.map key ↔ k ∈ rs'.map key) : (t.returning rs).length = (t.returning rs').length := by
  have hperm : (t.insertRows rs).keys.Perm (t.insertRows rs').keys := by
    rw [List.perm_ext_iff_of_nodup (keys_nodup _) (keys_nodup _)]
    intro k
    rw [mem_keys_insertRows, mem_keys_insertRows, h]
  have hlength := hperm.length_eq
  simp only [keys, rows_insertRows, List.length_map, List.length_append] at hlength
  omega

end UniqueTable

end Lib
