import FlightPulse.Lib.Sql

/-!
# Tests of the columns of a table

The generic tests of dbt, with what its documentation says of each. How their failures
are counted is left open; the queries that it documents are one way.
-/

namespace Lib.DataTest

open Lib.Sql

/-! ## Generic tests -/

/-- How many failures a test finds in a column. Only `notNull` looks at nulls. -/
structure GenericTests where
  unique : {α : Type} → [DecidableEq α] → List (Option α) → ℕ
  notNull : {α : Type} → List (Option α) → ℕ
  acceptedValues : {α : Type} → [DecidableEq α] → List α → List (Option α) → ℕ
  /-- Against the column of another table. -/
  relationships : {α : Type} → [DecidableEq α] → List (Option α) → List (Option α) → ℕ
  unique_eq_zero : ∀ {α : Type} [DecidableEq α] {column : List (Option α)},
    unique column = 0 ↔ (column.filterMap id).Nodup
  notNull_eq_zero : ∀ {α : Type} {column : List (Option α)}, notNull column = 0 ↔ ∀ x ∈ column, x.isSome
  acceptedValues_eq_zero : ∀ {α : Type} [DecidableEq α] {values : List α} {column : List (Option α)},
    acceptedValues values column = 0 ↔ ∀ a ∈ column.filterMap id, a ∈ values
  relationships_eq_zero : ∀ {α : Type} [DecidableEq α] {parent column : List (Option α)},
    relationships parent column = 0 ↔ ∀ a ∈ column.filterMap id, some a ∈ parent

/-! ## Severities -/

inductive Severity where
  | warn
  | error
deriving DecidableEq

inductive Status where
  | pass
  | warn
  | fail
deriving DecidableEq

def status (severity : Severity) (failures : ℕ) : Status :=
  if failures = 0 then .pass
  else
    match severity with
    | .warn => .warn
    | .error => .fail

theorem status_eq_pass {severity : Severity} {failures : ℕ} : status severity failures = .pass ↔ failures = 0 := by
  unfold status
  split
  · next h => simp [h]
  · next h => cases severity <;> simp [h]

/-! ## Columns without nulls -/

section

variable {α ρ : Type} {dbt : GenericTests} {f : ρ → α} {rows : List ρ}

theorem values_map (f : ρ → α) (rows : List ρ) : (rows.map fun r => some (f r)).filterMap id = rows.map f := by
  rw [List.filterMap_map]
  exact congrFun List.filterMap_eq_map rows

theorem notNull_map : dbt.notNull (rows.map fun r => some (f r)) = 0 := by
  rw [dbt.notNull_eq_zero]
  intro x hx
  obtain ⟨r, -, rfl⟩ := List.mem_map.mp hx
  rfl

variable [DecidableEq α]

theorem unique_map : dbt.unique (rows.map fun r => some (f r)) = 0 ↔ (rows.map f).Nodup := by
  rw [dbt.unique_eq_zero, values_map]

theorem acceptedValues_map {values : List α} :
    dbt.acceptedValues values (rows.map fun r => some (f r)) = 0 ↔ ∀ r ∈ rows, f r ∈ values := by
  rw [dbt.acceptedValues_eq_zero, values_map, List.forall_mem_map]

theorem relationships_map {σ : Type} {g : σ → α} {parent : List σ} :
    dbt.relationships (parent.map fun s => some (g s)) (rows.map fun r => some (f r)) = 0 ↔
      ∀ r ∈ rows, ∃ s ∈ parent, g s = f r := by
  rw [dbt.relationships_eq_zero, values_map, List.forall_mem_map]
  simp

end

/-! ## The queries -/

section

variable {α : Type} [DecidableEq α]

theorem countP_groups_unique (xs : List α) :
    ((groupBy id xs).countP fun g => 1 < g.2.length) = 0 ↔ xs.Nodup := by
  have hcount : ∀ a, (xs.filter fun b => b = a).length = xs.count a := by
    intro a
    rw [← List.countP_eq_length_filter]
    rfl
  unfold groupBy
  rw [List.countP_eq_zero, List.nodup_iff_count_le_one]
  simp only [List.map_id, List.forall_mem_map, id_eq, decide_eq_true_eq, hcount, List.mem_dedup, not_lt]
  refine ⟨fun h a => ?_, fun h a _ => h a⟩
  by_cases ha : a ∈ xs
  · exact h a ha
  · rw [List.count_eq_zero_of_not_mem ha]
    exact Nat.zero_le 1

theorem countP_groups_accepted (values xs : List α) :
    ((groupBy id xs).countP fun g => g.1 ∉ values) = 0 ↔ ∀ a ∈ xs, a ∈ values := by
  unfold groupBy
  rw [List.countP_eq_zero]
  simp only [List.map_id, List.forall_mem_map, List.mem_dedup, decide_eq_true_eq, not_not]

theorem countP_unmatched (parent column : List (Option α)) :
    ((leftJoin nullEq (column.filter Option.isSome) parent).countP fun p => p.2.join.isNone) = 0 ↔
      ∀ a ∈ column.filterMap id, some a ∈ parent := by
  rw [List.countP_eq_zero]
  simp only [Option.isNone_iff_eq_none]
  constructor
  · intro h a ha
    by_contra hnot
    obtain ⟨x, hx, rfl⟩ := List.mem_filterMap.mp ha
    have hnone : parent.filter (nullEq (some a)) = [] := by
      apply List.filter_eq_nil_iff.mpr
      intro y hy heq
      obtain ⟨b, hb, rfl⟩ := nullEq_iff.mp heq
      obtain rfl := Option.some.inj hb
      exact hnot hy
    refine h (some a, none) ?_ rfl
    refine List.mem_flatMap.mpr ⟨some a, List.mem_filter.mpr ⟨hx, rfl⟩, ?_⟩
    rw [hnone]
    exact List.mem_singleton_self _
  · rintro h ⟨x, oy⟩ hp hnone
    obtain ⟨hx, hmatch⟩ := leftJoin_match hp
    obtain ⟨hmem, hsome⟩ := List.mem_filter.mp hx
    obtain ⟨a, rfl⟩ := Option.isSome_iff_exists.mp hsome
    have ha := h a (List.mem_filterMap.mpr ⟨some a, hmem, rfl⟩)
    cases oy with
    | none =>
      have hfalse : nullEq (some a) (some a) = false := leftJoin_none hp ha
      simp [nullEq] at hfalse
    | some y =>
      obtain ⟨b, -, rfl⟩ := nullEq_iff.mp (hmatch y rfl).2
      cases hnone

end

/-- The number of rows that the query of a test returns. -/
def byQuery : GenericTests where
  unique column := (groupBy id (column.filterMap id)).countP fun g => 1 < g.2.length
  notNull column := column.countP fun x => x.isNone
  acceptedValues values column := (groupBy id (column.filterMap id)).countP fun g => g.1 ∉ values
  relationships parent column := (leftJoin nullEq (column.filter Option.isSome) parent).countP fun p => p.2.join.isNone
  unique_eq_zero := countP_groups_unique _
  notNull_eq_zero := by simp [Option.isSome_iff_ne_none]
  acceptedValues_eq_zero := countP_groups_accepted _ _
  relationships_eq_zero := countP_unmatched _ _

end Lib.DataTest
