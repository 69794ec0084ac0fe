import Mathlib.Algebra.BigOperators.Group.List.Lemmas
import Mathlib.Algebra.GroupWithZero.Nat
import Mathlib.Data.List.Dedup
import Mathlib.Data.List.Sort
import Mathlib.Order.WithBot
import FlightPulse.Lib.StableSort

/-!
# Grouping and joins

Tables are lists of rows, in any order. A group has all rows of one key, and there
two nulls are the same; for `=` a null is equal to nothing.
-/

open scoped List

namespace Lib.Sql

variable {α β κ ρ : Type*}

/-! ## Nulls -/

/-- `x = y` where it decides: a null makes it unknown, which is not true. -/
def nullEq [DecidableEq α] : Option α → Option α → Bool
  | some a, some b => a = b
  | _, _ => false

theorem nullEq_iff [DecidableEq α] {x y : Option α} : nullEq x y ↔ ∃ a, x = some a ∧ y = some a := by
  cases x <;> cases y <;> simp [nullEq, eq_comm]

/-- A null is sorted as if it were larger than any value. -/
def nullsLargest : Option α → WithTop α
  | none => ⊤
  | some a => a

theorem nullsLargest_injective : Function.Injective (nullsLargest : Option α → WithTop α) := by
  intro x y h
  cases x <;> cases y <;> simp [nullsLargest] at h ⊢
  exact h

/-- `count(distinct x)`. -/
def countDistinct [DecidableEq α] (xs : List (Option α)) : ℕ := (xs.filterMap id).dedup.length

theorem countP_and_not_add {p q : α → Bool} (h : ∀ x, q x = true → p x = true) (xs : List α) :
    xs.countP (fun x => p x && !q x) + xs.countP q = xs.countP p := by
  induction xs with
  | nil => rfl
  | cons x xs ih =>
    rw [List.countP_cons, List.countP_cons, List.countP_cons, ← ih]
    cases hq : q x with
    | true =>
      rw [h x hq]
      simp only [Bool.not_true, Bool.and_false, Bool.false_eq_true, if_false, if_true]
      omega
    | false =>
      simp only [Bool.not_false, Bool.and_true, Bool.false_eq_true, if_false]
      omega

/-- An aggregate of the values that are not null; without any it is null. -/
def aggregate (f : List α → β) (xs : List (Option α)) : Option β :=
  match xs.filterMap id with
  | [] => none
  | y :: ys => some (f (y :: ys))

/-- `min(x)` in the order `le`. -/
def minimum (le : α → α → Bool) (xs : List (Option α)) : Option α :=
  StableSort.leastMatch (fun a b => le a b = true) (fun _ => true) (xs.filterMap id)

/-- `max(x)` in the order `le`. -/
def maximum (le : α → α → Bool) (xs : List (Option α)) : Option α := minimum (fun a b => le b a) xs

theorem countDistinct_perm [DecidableEq α] {xs ys : List (Option α)} (h : xs ~ ys) :
    countDistinct xs = countDistinct ys :=
  (h.filterMap id).dedup.length_eq

/-- In an order of values that are equal when neither is before the other. -/
theorem minimum_perm {le : α → α → Bool} (htotal : ∀ a b, le a b ∨ le b a)
    (htrans : ∀ a b c, le a b → le b c → le a c) (hanti : ∀ a b, le a b → le b a → a = b) {xs ys : List (Option α)}
    (h : xs ~ ys) : minimum le xs = minimum le ys := by
  have : Std.Total fun a b => le a b = true := ⟨htotal⟩
  have : IsTrans α fun a b => le a b = true := ⟨htrans⟩
  exact StableSort.leastMatch_perm hanti (h.filterMap id)

theorem maximum_perm {le : α → α → Bool} (htotal : ∀ a b, le a b ∨ le b a)
    (htrans : ∀ a b c, le a b → le b c → le a c) (hanti : ∀ a b, le a b → le b a → a = b) {xs ys : List (Option α)}
    (h : xs ~ ys) : maximum le xs = maximum le ys :=
  minimum_perm (fun a b => htotal b a) (fun a b c hab hbc => htrans c b a hbc hab)
    (fun a b hab hba => hanti a b hba hab) h

/-! ## ORDER BY -/

/-- `ORDER BY key DESC`. -/
def orderByDesc [LinearOrder κ] (key : ρ → κ) (rows : List ρ) : List ρ :=
  rows.insertionSort fun a b => key b ≤ key a

theorem head_orderByDesc [LinearOrder κ] {key : ρ → κ} {rows : List ρ} {row : ρ}
    (h : (orderByDesc key rows).head? = some row) : row ∈ rows ∧ ∀ r ∈ rows, key r ≤ key row := by
  have hperm : orderByDesc key rows ~ rows := List.perm_insertionSort _ rows
  have htotal : Std.Total fun a b : ρ => key b ≤ key a := ⟨fun a b => le_total (key b) (key a)⟩
  have htrans : IsTrans ρ fun a b => key b ≤ key a := ⟨fun _ _ _ hab hbc => hbc.trans hab⟩
  have hsorted : (orderByDesc key rows).Pairwise fun a b => key b ≤ key a := List.pairwise_insertionSort _ rows
  refine ⟨hperm.mem_iff.mp (List.mem_of_mem_head? h), fun r hr => ?_⟩
  rw [← hperm.mem_iff] at hr
  cases hlist : orderByDesc key rows with
  | nil =>
    rw [hlist] at hr
    cases hr
  | cons first rest =>
    rw [hlist] at h hr hsorted
    obtain rfl := Option.some.inj h
    rcases List.mem_cons.mp hr with rfl | hr
    · exact le_rfl
    · exact (List.pairwise_cons.mp hsorted).1 r hr

theorem exists_head_orderByDesc [LinearOrder κ] (key : ρ → κ) {rows : List ρ} (h : rows ≠ []) :
    ∃ row, (orderByDesc key rows).head? = some row := by
  have hlength : (orderByDesc key rows).length = rows.length := List.length_insertionSort _ rows
  have hne : orderByDesc key rows ≠ [] := by
    rw [← List.length_pos_iff, hlength, List.length_pos_iff]
    exact h
  exact ⟨_, List.head?_eq_some_head hne⟩

/-! ## GROUP BY -/

section

variable [DecidableEq κ] (key : ρ → κ)

def groupBy (rows : List ρ) : List (κ × List ρ) :=
  (rows.map key).dedup.map fun k => (k, rows.filter fun r => key r = k)

theorem groupBy_keys (rows : List ρ) : (groupBy key rows).map Prod.fst = (rows.map key).dedup := by
  unfold groupBy
  rw [List.map_map]
  exact List.map_id _

theorem sum_groupBy (rows : List ρ) : ((groupBy key rows).map fun g => g.2.length).sum = rows.length := by
  have hcount : ∀ k, (rows.filter fun r => key r = k).length = (rows.map key).count k := by
    intro k
    rw [List.count, List.countP_map, ← List.countP_eq_length_filter]
    rfl
  unfold groupBy
  simp only [List.map_map, Function.comp_def, hcount]
  rw [List.sum_map_count_dedup_eq_length, List.length_map]

theorem exists_of_keys {f : α → κ} {g : β → κ} {xs : List α} {ys : List β}
    (h : xs.map f = (ys.map g).dedup) {x : α} (hx : x ∈ xs) : ∃ y ∈ ys, g y = f x := by
  have hmem : f x ∈ (ys.map g).dedup := h ▸ List.mem_map_of_mem hx
  exact List.mem_map.mp (List.mem_dedup.mp hmem)

theorem mem_group {rows : List ρ} {k : κ} {g : List ρ} (h : (k, g) ∈ groupBy key rows) {r : ρ} :
    r ∈ g ↔ r ∈ rows ∧ key r = k := by
  obtain ⟨k', -, heq⟩ := List.mem_map.mp h
  obtain ⟨rfl, rfl⟩ := Prod.mk.inj heq
  simp

theorem exists_group {rows : List ρ} {r : ρ} (h : r ∈ rows) : ∃ g ∈ groupBy key rows, r ∈ g.2 := by
  refine ⟨(key r, rows.filter fun r' => key r' = key r), ?_, ?_⟩
  · exact List.mem_map.mpr ⟨key r, List.mem_dedup.mpr (List.mem_map_of_mem h), rfl⟩
  · simpa using h

/-- `DISTINCT ON (key) ... ORDER BY`, where the order decides which row of a key comes first. -/
def distinctOn (le : ρ → ρ → Prop) [DecidableRel le] (rows : List ρ) : List ρ :=
  (rows.map key).dedup.filterMap fun k => (rows.insertionSort le).find? fun r => key r = k

theorem distinctOn_keys (le : ρ → ρ → Prop) [DecidableRel le] (rows : List ρ) :
    (distinctOn key le rows).map key = (rows.map key).dedup := by
  unfold distinctOn
  have hfind : ∀ k ∈ (rows.map key).dedup,
      ((rows.insertionSort le).find? fun r => key r = k).map key = some k := by
    intro k hk
    obtain ⟨r, hr, rfl⟩ := List.mem_map.mp (List.mem_dedup.mp hk)
    have hsome : ((rows.insertionSort le).find? fun r' => key r' = key r).isSome := by
      rw [List.find?_isSome]
      exact ⟨r, (List.perm_insertionSort le rows).mem_iff.mpr hr, by simp⟩
    obtain ⟨r', hr'⟩ := Option.isSome_iff_exists.mp hsome
    rw [hr', Option.map_some]
    simpa using List.find?_some hr'
  rw [List.map_filterMap]
  generalize (rows.map key).dedup = keys at hfind
  induction keys with
  | nil => rfl
  | cons k keys ih =>
    rw [List.forall_mem_cons] at hfind
    rw [List.filterMap_cons, hfind.1, ih hfind.2]

theorem filter_filterMap_key {keys : List κ} (hnodup : keys.Nodup) {f : κ → Option ρ}
    (hf : ∀ k r, f k = some r → key r = k) {k : κ} (hk : k ∈ keys) :
    (keys.filterMap f).filter (fun r => k = key r) = (f k).toList := by
  have hnone : ∀ keys : List κ, k ∉ keys → (keys.filterMap f).filter (fun r => k = key r) = [] := by
    intro keys hnot
    apply List.filter_eq_nil_iff.mpr
    intro r hr
    obtain ⟨k', hk', hfk⟩ := List.mem_filterMap.mp hr
    simpa [hf k' r hfk] using fun heq : k = k' => hnot (heq ▸ hk')
  induction keys with
  | nil => cases hk
  | cons k' keys ih =>
    obtain ⟨hnot, hnodup⟩ := List.nodup_cons.mp hnodup
    by_cases heq : k = k'
    · subst heq
      have hrest := hnone keys hnot
      cases hfk : f k with
      | none => rw [List.filterMap_cons_none hfk, hrest, Option.toList_none]
      | some r =>
        rw [List.filterMap_cons_some hfk, List.filter_cons_of_pos (by simpa using (hf k r hfk).symm), hrest,
          Option.toList_some]
    · have hk' := (List.mem_cons.mp hk).resolve_left heq
      rw [← ih hnodup hk']
      cases hfk : f k' with
      | none => rw [List.filterMap_cons_none hfk]
      | some r =>
        rw [List.filterMap_cons_some hfk, List.filter_cons_of_neg (by simpa [hf k' r hfk] using heq)]

theorem distinctOn_filter (le : ρ → ρ → Prop) [DecidableRel le] {rows : List ρ} {k : κ} (hk : k ∈ rows.map key) :
    (distinctOn key le rows).filter (fun r => k = key r) =
      ((rows.insertionSort le).find? fun r => key r = k).toList := by
  unfold distinctOn
  apply filter_filterMap_key key (List.nodup_dedup _) _ (List.mem_dedup.mpr hk)
  intro k' r hr
  simpa using List.find?_some hr

end

/-! ## Joins -/

variable (on : α → β → Bool)

/-- `xs LEFT JOIN ys ON ...`: a row without a match is joined with nulls. -/
def leftJoin (xs : List α) (ys : List β) : List (α × Option β) :=
  xs.flatMap fun x =>
    match ys.filter (on x) with
    | [] => [(x, none)]
    | y :: rest => (y :: rest).map fun y => (x, some y)

/-- `xs FULL OUTER JOIN ys ON ...`. -/
def fullJoin (xs : List α) (ys : List β) : List (Option α × Option β) :=
  (leftJoin on xs ys).map (fun p => (some p.1, p.2)) ++
    (ys.filter fun y => xs.all fun x => !on x y).map fun y => (none, some y)

variable {on}

/-- No row on the left has two matches. -/
def MatchesOne (on : α → β → Bool) (xs : List α) (ys : List β) : Prop :=
  ∀ x ∈ xs, (ys.filter (on x)).length ≤ 1

theorem leftJoin_eq_map {xs : List α} {ys : List β} {f : α → Option β}
    (h : ∀ x ∈ xs, ys.filter (on x) = (f x).toList) : leftJoin on xs ys = xs.map fun x => (x, f x) := by
  have hone : ∀ x ∈ xs, (match ys.filter (on x) with
      | [] => [(x, none)]
      | y :: rest => (y :: rest).map fun y => (x, some y)) = [(x, f x)] := by
    intro x hx
    rw [h x hx]
    cases f x <;> rfl
  unfold leftJoin
  rw [List.flatMap_congr hone, List.map_eq_flatMap]

theorem leftJoin_fst {xs : List α} {ys : List β} (h : MatchesOne on xs ys) :
    (leftJoin on xs ys).map Prod.fst = xs := by
  unfold MatchesOne at h
  unfold leftJoin
  induction xs with
  | nil => rfl
  | cons x xs ih =>
    rw [List.forall_mem_cons] at h
    rw [List.flatMap_cons, List.map_append, ih h.2]
    match hmatch : ys.filter (on x) with
    | [] => rfl
    | [y] => rfl
    | y :: z :: rest =>
      rw [hmatch] at h
      simp at h

theorem matchesOne_of_nodup [DecidableEq κ] (key : β → κ) {xs : List α} {ys : List β}
    (hnodup : (ys.map key).Nodup) (hon : ∀ x ∈ xs, ∀ y ∈ ys, ∀ z ∈ ys, on x y → on x z → key y = key z) :
    MatchesOne on xs ys := by
  intro x hx
  have hsub : (ys.filter (on x)).Sublist ys := List.filter_sublist
  have hkeys : ((ys.filter (on x)).map key).Nodup := hnodup.sublist (hsub.map key)
  match hmatch : ys.filter (on x) with
  | [] => simp
  | [y] => simp
  | y :: z :: rest =>
    have hy : y ∈ ys.filter (on x) := by simp [hmatch]
    have hz : z ∈ ys.filter (on x) := by simp [hmatch]
    rw [List.mem_filter] at hy hz
    have heq := hon x hx y hy.1 z hz.1 hy.2 hz.2
    rw [hmatch] at hkeys
    simp [heq] at hkeys

theorem leftJoin_on_key [DecidableEq κ] (f : α → κ) (key : β → κ) (xs : List α) {ys : List β}
    (hnodup : (ys.map key).Nodup) : (leftJoin (fun x y => f x = key y) xs ys).map Prod.fst = xs := by
  apply leftJoin_fst
  apply matchesOne_of_nodup key hnodup
  intro x _ y _ z _ hy hz
  exact (of_decide_eq_true hy).symm.trans (of_decide_eq_true hz)

theorem leftJoin_match {xs : List α} {ys : List β} {x : α} {oy : Option β} (h : (x, oy) ∈ leftJoin on xs ys) :
    x ∈ xs ∧ ∀ y, oy = some y → y ∈ ys ∧ on x y := by
  unfold leftJoin at h
  obtain ⟨x', hx', h⟩ := List.mem_flatMap.mp h
  split at h
  · obtain ⟨rfl, rfl⟩ := Prod.mk.inj (List.mem_singleton.mp h)
    exact ⟨hx', by simp⟩
  · next y rest hmatch =>
    obtain ⟨z, hz, heq⟩ := List.mem_map.mp h
    obtain ⟨rfl, rfl⟩ := Prod.mk.inj heq
    rw [← hmatch, List.mem_filter] at hz
    refine ⟨hx', fun y' hy' => ?_⟩
    rw [← Option.some.inj hy']
    exact hz

theorem leftJoin_none {xs : List α} {ys : List β} {x : α} (h : (x, none) ∈ leftJoin on xs ys) {y : β} (hy : y ∈ ys) :
    on x y = false := by
  unfold leftJoin at h
  obtain ⟨x', -, h⟩ := List.mem_flatMap.mp h
  split at h
  · next hmatch =>
    obtain ⟨rfl, -⟩ := Prod.mk.inj (List.mem_singleton.mp h)
    simpa using List.filter_eq_nil_iff.mp hmatch y hy
  · obtain ⟨z, -, heq⟩ := List.mem_map.mp h
    cases (Prod.mk.inj heq).2

theorem leftJoin_snd (xs : List α) (ys : List β) :
    (leftJoin on xs ys).filterMap Prod.snd = xs.flatMap fun x => ys.filter (on x) := by
  unfold leftJoin
  induction xs with
  | nil => rfl
  | cons x xs ih =>
    rw [List.flatMap_cons, List.filterMap_append, ih, List.flatMap_cons]
    congr 1
    split
    · next h => rw [h]; rfl
    · next y rest h =>
      rw [h, List.filterMap_map]
      exact List.filterMap_some

theorem filter_eq_flatMap (p : β → Bool) (ys : List β) : ys.filter p = ys.flatMap fun y => if p y then [y] else [] := by
  induction ys with
  | nil => rfl
  | cons y ys ih =>
    rw [List.flatMap_cons, List.filter_cons, ih]
    split <;> rfl

theorem flatMap_filter_perm (xs : List α) (ys : List β) :
    (xs.flatMap fun x => ys.filter (on x)) ~ ys.flatMap fun y => List.replicate (xs.countP fun x => on x y) y := by
  induction xs with
  | nil => simp
  | cons x xs ih =>
    have hsplit : ∀ y, List.replicate ((x :: xs).countP fun x => on x y) y =
        (if on x y then [y] else []) ++ List.replicate (xs.countP fun x => on x y) y := by
      intro y
      rw [List.countP_cons]
      cases on x y <;> simp [List.replicate_succ]
    rw [List.flatMap_cons, filter_eq_flatMap]
    simp only [hsplit]
    exact (ih.append_left _).trans (List.flatMap_append_perm ys _ _)

theorem fullJoin_match {xs : List α} {ys : List β} {x : α} {y : β} (h : (some x, some y) ∈ fullJoin on xs ys) :
    on x y := by
  unfold fullJoin at h
  rcases List.mem_append.mp h with h | h
  · obtain ⟨⟨x', oy⟩, hp, heq⟩ := List.mem_map.mp h
    obtain ⟨hx, rfl⟩ := Prod.mk.inj heq
    rw [← Option.some.inj hx]
    exact ((leftJoin_match hp).2 y rfl).2
  · obtain ⟨y', -, heq⟩ := List.mem_map.mp h
    cases (Prod.mk.inj heq).1

theorem mem_fullJoin {xs : List α} {ys : List β} {p : Option α × Option β} (h : p ∈ fullJoin on xs ys) :
    (∃ x ∈ xs, p.1 = some x) ∨ ∃ y ∈ ys, p = (none, some y) := by
  unfold fullJoin at h
  rcases List.mem_append.mp h with h | h
  · obtain ⟨⟨x, oy⟩, hp, rfl⟩ := List.mem_map.mp h
    exact .inl ⟨x, (leftJoin_match hp).1, rfl⟩
  · obtain ⟨y, hy, rfl⟩ := List.mem_map.mp h
    exact .inr ⟨y, (List.mem_filter.mp hy).1, rfl⟩

theorem fullJoin_unmatched {xs : List α} {ys : List β} {y : β} (h : (none, some y) ∈ fullJoin on xs ys) {x : α}
    (hx : x ∈ xs) : on x y = false := by
  unfold fullJoin at h
  rcases List.mem_append.mp h with h | h
  · obtain ⟨p, -, heq⟩ := List.mem_map.mp h
    cases (Prod.mk.inj heq).1
  · obtain ⟨y', hy', heq⟩ := List.mem_map.mp h
    obtain rfl := Option.some.inj (Prod.mk.inj heq).2
    have hnot := List.all_eq_true.mp (List.mem_filter.mp hy').2 x hx
    simpa using hnot

/-- With keys that are in no table twice, and a match wherever they are equal, they are in the join once. -/
theorem fullJoin_keys_nodup (f : α → κ) (g : β → κ) {xs : List α} {ys : List β} (hone : MatchesOne on xs ys)
    (hxs : (xs.map f).Nodup) (hys : (ys.map g).Nodup) (hon : ∀ x ∈ xs, ∀ y ∈ ys, f x = g y → on x y) :
    ((fullJoin on xs ys).map fun p => (p.1.map f).or (p.2.map g)).Nodup := by
  have hleft : ((leftJoin on xs ys).map fun p => (some p.1, p.2)).map (fun p => (p.1.map f).or (p.2.map g)) =
      (xs.map f).map some := by
    conv_rhs => rw [← leftJoin_fst hone]
    simp only [List.map_map]
    rfl
  have hright : ((ys.filter fun y => xs.all fun x => !on x y).map fun y => ((none : Option α), some y)).map
      (fun p => (p.1.map f).or (p.2.map g)) = ((ys.filter fun y => xs.all fun x => !on x y).map g).map some := by
    simp only [List.map_map]
    rfl
  unfold fullJoin
  rw [List.map_append, hleft, hright, ← List.map_append]
  refine List.Nodup.map (Option.some_injective κ) (List.nodup_append.mpr ⟨hxs, ?_, ?_⟩)
  · exact hys.sublist (List.filter_sublist.map g)
  · intro k hk k' hk' heq
    obtain ⟨x, hx, rfl⟩ := List.mem_map.mp hk
    obtain ⟨y, hy, rfl⟩ := List.mem_map.mp hk'
    obtain ⟨hy, hnone⟩ := List.mem_filter.mp hy
    have hnot := List.all_eq_true.mp hnone x hx
    rw [hon x hx y hy heq] at hnot
    cases hnot

theorem fullJoin_fst {xs : List α} {ys : List β} (h : MatchesOne on xs ys) :
    (fullJoin on xs ys).filterMap Prod.fst = xs := by
  unfold fullJoin
  rw [List.filterMap_append, List.filterMap_map, List.filterMap_map]
  have hleft : (leftJoin on xs ys).filterMap (Prod.fst ∘ fun p => (some p.1, p.2)) = xs := by
    have hsome : (Prod.fst ∘ fun p : α × Option β => (some p.1, p.2)) = some ∘ Prod.fst := rfl
    rw [hsome, List.filterMap_eq_map, leftJoin_fst h]
  rw [hleft]
  simp

theorem fullJoin_snd {xs : List α} {ys : List β} (h : MatchesOne (fun y x => on x y) ys xs) :
    (fullJoin on xs ys).filterMap Prod.snd ~ ys := by
  have hleft : ((leftJoin on xs ys).map fun p => (some p.1, p.2)).filterMap Prod.snd =
      xs.flatMap fun x => ys.filter (on x) := by
    rw [List.filterMap_map]
    exact leftJoin_snd xs ys
  have hright : ((ys.filter fun y => xs.all fun x => !on x y).map
      fun y => ((none : Option α), some y)).filterMap Prod.snd =
        ys.flatMap fun y => if xs.all fun x => !on x y then [y] else [] := by
    rw [List.filterMap_map, ← filter_eq_flatMap]
    exact List.filterMap_some
  have hone : ∀ y ∈ ys, List.replicate (xs.countP fun x => on x y) y ++
      (if xs.all fun x => !on x y then [y] else []) = [y] := by
    intro y hy
    have hle : (xs.filter fun x => on x y).length ≤ 1 := h y hy
    rw [← List.countP_eq_length_filter] at hle
    cases hall : xs.all fun x => !on x y with
    | true =>
      have hzero : xs.countP (fun x => on x y) = 0 := by
        rw [List.countP_eq_zero]
        simpa using hall
      rw [hzero]
      rfl
    | false =>
      have hpos : 0 < xs.countP fun x => on x y := by
        rw [List.countP_pos_iff]
        simpa using hall
      rw [show xs.countP (fun x => on x y) = 1 by omega]
      rfl
  unfold fullJoin
  rw [List.filterMap_append, hleft, hright]
  refine ((flatMap_filter_perm xs ys).append_right _).trans ?_
  refine (List.flatMap_append_perm ys _ _).trans ?_
  rw [List.flatMap_congr hone]
  simp

end Lib.Sql
