import Mathlib.Algebra.BigOperators.Group.Finset.Piecewise
import Mathlib.Data.Fintype.Basic
import FlightPulse.Lib.Run
import FlightPulse.Lib.UniqueTable

/-!
# Transactions that insert or ignore, side by side

Each transaction passes over its rows one at a time. A row whose key a committed
row or a row of the transaction itself has is ignored. A row whose key another
running transaction has inserted makes it wait, until that one commits or aborts.
-/

namespace Lib.Transactions

open Lib.Run

variable {ι κ ρ : Type*}

inductive Phase (ρ : Type*) where
  | waiting
  | running (todo inserted : List ρ)
  | committed (newlyInserted : ℕ)
  | aborted

def Phase.inserted : Phase ρ → List ρ
  | .running _ inserted => inserted
  | _ => []

def Phase.newlyInserted : Phase ρ → ℕ
  | .committed n => n
  | _ => 0

structure Store (ι ρ : Type*) where
  /-- The committed rows. -/
  rows : List ρ
  phase : ι → Phase ρ

inductive Event (ι : Type*) where
  | start (i : ι)
  /-- Transaction `i` passes over its next row. -/
  | insert (i : ι)
  | commit (i : ι)
  | abort (i : ι)

def Store.init (rows : List ρ) : Store ι ρ := ⟨rows, fun _ => .waiting⟩

/-- The transaction whose event it is. -/
def Event.of : Event ι → ι
  | .start i | .insert i | .commit i | .abort i => i

variable (key : ρ → κ)

/-! ## What each transaction has done so far -/

/-- Every key that a transaction over these rows has passed is there, committed or its own. -/
def Progress (batch rows : List ρ) : Phase ρ → Prop
  | .running todo inserted =>
    ∃ done, batch = done ++ todo ∧ (∀ r ∈ inserted, r ∈ done) ∧
      ∀ r ∈ done, key r ∈ rows.map key ∨ key r ∈ inserted.map key
  | .committed _ => ∀ r ∈ batch, key r ∈ rows.map key
  | _ => True

structure Inv [Fintype ι] (batch : ι → List ρ) (initial : List ρ) (s : Store ι ρ) : Prop where
  nodup : (s.rows.map key).Nodup
  own : ∀ i, ((s.phase i).inserted.map key).Nodup
  fresh : ∀ i, ∀ k ∈ (s.phase i).inserted.map key, k ∉ s.rows.map key
  apart : ∀ i j, i ≠ j → ∀ k ∈ (s.phase i).inserted.map key, k ∉ (s.phase j).inserted.map key
  progress : ∀ i, Progress key (batch i) s.rows (s.phase i)
  origin : ∀ k ∈ s.rows.map key, k ∈ initial.map key ∨
    ∃ i n, s.phase i = .committed n ∧ k ∈ (batch i).map key
  growth : s.rows.length = initial.length + ∑ i, (s.phase i).newlyInserted

section

variable [Fintype ι] {key} {batch : ι → List ρ} {initial : List ρ} {s : Store ι ρ}

theorem inv_init (h : (initial.map key).Nodup) : Inv key batch initial (Store.init initial) where
  nodup := h
  own := fun _ => List.nodup_nil
  fresh := fun _ _ hk => by simp [Store.init, Phase.inserted] at hk
  apart := fun _ _ _ _ hk => by simp [Store.init, Phase.inserted] at hk
  progress := fun _ => trivial
  origin := fun _ hk => .inl hk
  growth := by simp [Store.init, Phase.newlyInserted]

theorem Progress.append {rows : List ρ} (more : List ρ) {b : List ρ} {p : Phase ρ}
    (h : Progress key b rows p) : Progress key b (rows ++ more) p := by
  have hmem : ∀ k, k ∈ rows.map key → k ∈ (rows ++ more).map key := by
    intro k hk
    rw [List.map_append]
    exact List.mem_append_left _ hk
  cases p with
  | waiting => trivial
  | running todo inserted =>
    obtain ⟨done, hbatch, hsub, hdone⟩ := h
    exact ⟨done, hbatch, hsub, fun r hr => (hdone r hr).imp_left (hmem _)⟩
  | committed n => exact fun r hr => hmem _ (h r hr)
  | aborted => trivial

theorem mem_keys_iff (hs : Inv key batch initial s) (hgrown : initial <+: s.rows) (k : κ) :
    k ∈ s.rows.map key ↔ k ∈ initial.map key ∨ ∃ i n, s.phase i = .committed n ∧ k ∈ (batch i).map key := by
  refine ⟨hs.origin k, ?_⟩
  rintro (hk | ⟨i, n, hi, hk⟩)
  · exact (hgrown.map key).subset hk
  · obtain ⟨r, hr, rfl⟩ := List.mem_map.mp hk
    have hdone := hs.progress i
    rw [hi] at hdone
    exact hdone r hr

theorem inv_running (hs : Inv key batch initial s) {i : ι} {todo inserted : List ρ}
    (hi : s.phase i = .running todo inserted) :
    (inserted.map key).Nodup ∧ (∀ k ∈ inserted.map key, k ∉ s.rows.map key) ∧
      (∀ j, j ≠ i → ∀ k ∈ inserted.map key, k ∉ (s.phase j).inserted.map key) ∧
      Progress key (batch i) s.rows (.running todo inserted) := by
  have hown := hs.own i
  have hfresh := hs.fresh i
  have hapart := hs.apart i
  have hprogress := hs.progress i
  rw [hi] at hown hfresh hapart hprogress
  exact ⟨hown, hfresh, fun j hj => hapart j hj.symm, hprogress⟩

end

/-! ## The changes of one transaction -/

variable [DecidableEq ι]

def Store.put (s : Store ι ρ) (i : ι) (p : Phase ρ) : Store ι ρ :=
  { s with phase := Function.update s.phase i p }

@[simp] theorem Store.put_rows (s : Store ι ρ) (i : ι) (p : Phase ρ) : (s.put i p).rows = s.rows := rfl

@[simp] theorem Store.put_phase_self (s : Store ι ρ) (i : ι) (p : Phase ρ) : (s.put i p).phase i = p :=
  Function.update_self ..

@[simp] theorem Store.put_phase_of_ne (s : Store ι ρ) {i j : ι} (p : Phase ρ) (h : j ≠ i) :
    (s.put i p).phase j = s.phase j :=
  Function.update_of_ne h ..

theorem put_put (s : Store ι ρ) (i : ι) (p q : Phase ρ) : (s.put i p).put i q = s.put i q := by
  simp [Store.put, Function.update_idem]

/-- Another transaction holds the entry of the unique index. -/
def Held (s : Store ι ρ) (i : ι) (k : κ) : Prop := ∃ j, j ≠ i ∧ k ∈ (s.phase j).inserted.map key

variable [Fintype ι] {key} {batch : ι → List ρ} {initial : List ρ} {s t : Store ι ρ}

/-- Transaction `i` moves to `p` and commits `more`, all that it has inserted or nothing. -/
theorem inv_change (hs : Inv key batch initial s) {i : ι} {p : Phase ρ} {more : List ρ}
    (hi : ∀ n, s.phase i ≠ .committed n) (hnodup : ((s.rows ++ more).map key).Nodup)
    (hown : (p.inserted.map key).Nodup) (hfresh : ∀ k ∈ p.inserted.map key, k ∉ (s.rows ++ more).map key)
    (hapart : ∀ j, j ≠ i → ∀ k ∈ (p.inserted ++ more).map key, k ∉ (s.phase j).inserted.map key)
    (hprogress : Progress key (batch i) (s.rows ++ more) p)
    (horigin : ∀ k ∈ more.map key, ∃ n, p = .committed n ∧ k ∈ (batch i).map key)
    (hgrowth : p.newlyInserted = more.length) :
    Inv key batch initial { s.put i p with rows := s.rows ++ more } := by
  have hinserted : ∀ j, j ≠ i → ∀ k ∈ p.inserted.map key, k ∉ (s.phase j).inserted.map key := by
    intro j hj k hk
    apply hapart j hj
    rw [List.map_append]
    exact List.mem_append_left _ hk
  refine ⟨hnodup, fun j => ?_, fun j => ?_, fun j l hjl k hj hl => ?_, fun j => ?_, fun k hk => ?_, ?_⟩
  · rcases eq_or_ne j i with rfl | hj
    · simpa using hown
    · simpa [hj] using hs.own j
  · rcases eq_or_ne j i with rfl | hj
    · simpa using hfresh
    · intro k hk
      rw [Store.put_phase_of_ne _ _ hj] at hk
      rw [List.map_append, List.mem_append, not_or]
      refine ⟨hs.fresh j k hk, fun hmore => hapart j hj k ?_ hk⟩
      rw [List.map_append]
      exact List.mem_append_right _ hmore
  · rcases eq_or_ne j i with rfl | hji
    · rw [Store.put_phase_self] at hj
      rw [Store.put_phase_of_ne _ _ hjl.symm] at hl
      exact hinserted l hjl.symm k hj hl
    · rcases eq_or_ne l i with rfl | hli
      · rw [Store.put_phase_of_ne _ _ hji] at hj
        rw [Store.put_phase_self] at hl
        exact hinserted j hji k hl hj
      · rw [Store.put_phase_of_ne _ _ hji] at hj
        rw [Store.put_phase_of_ne _ _ hli] at hl
        exact hs.apart j l hjl k hj hl
  · rcases eq_or_ne j i with rfl | hj
    · simpa using hprogress
    · simpa [hj] using (hs.progress j).append more
  · rw [List.map_append, List.mem_append] at hk
    rcases hk with hk | hk
    · rcases hs.origin k hk with h | ⟨j, n, hj, hkj⟩
      · exact .inl h
      · have hji : j ≠ i := fun h => hi n (h ▸ hj)
        exact .inr ⟨j, n, by simpa [hji] using hj, hkj⟩
    · obtain ⟨n, hp, hki⟩ := horigin k hk
      exact .inr ⟨i, n, by simpa using hp, hki⟩
  · have hnone : (s.phase i).newlyInserted = 0 := by
      cases h : s.phase i with
      | committed n => exact absurd h (hi n)
      | _ => rfl
    have hsum : ∀ j, ((s.put i p).phase j).newlyInserted =
        (s.phase j).newlyInserted + if j = i then more.length else 0 := by
      intro j
      rcases eq_or_ne j i with rfl | hj
      · simp [hnone, hgrowth]
      · simp [hj]
    simp only [List.length_append, hs.growth, hsum, Finset.sum_add_distrib, Finset.sum_ite_eq',
      Finset.mem_univ, if_true]
    omega

theorem inv_put (hs : Inv key batch initial s) {i : ι} {p : Phase ρ} (hi : ∀ n, s.phase i ≠ .committed n)
    (hp : p.newlyInserted = 0) (hown : (p.inserted.map key).Nodup)
    (hfresh : ∀ k ∈ p.inserted.map key, k ∉ s.rows.map key)
    (hapart : ∀ j, j ≠ i → ∀ k ∈ p.inserted.map key, k ∉ (s.phase j).inserted.map key)
    (hprogress : Progress key (batch i) s.rows p) : Inv key batch initial (s.put i p) := by
  rw [← List.append_nil s.rows] at hfresh hprogress
  have h := inv_change hs hi (by simpa using hs.nodup) hown hfresh (by simpa using hapart) hprogress (by simp) hp
  simp only [List.append_nil] at h
  exact h

theorem inv_start (hs : Inv key batch initial s) {i : ι} (hi : s.phase i = .waiting) :
    Inv key batch initial (s.put i (.running (batch i) [])) :=
  inv_put hs (by simp [hi]) rfl List.nodup_nil (by simp [Phase.inserted]) (by simp [Phase.inserted])
    ⟨[], rfl, by simp, by simp⟩

theorem inv_abort (hs : Inv key batch initial s) {i : ι} {todo inserted : List ρ}
    (hi : s.phase i = .running todo inserted) : Inv key batch initial (s.put i .aborted) :=
  inv_put hs (by simp [hi]) rfl List.nodup_nil (by simp [Phase.inserted]) (by simp [Phase.inserted]) trivial

theorem inv_ignore (hs : Inv key batch initial s) {i : ι} {r : ρ} {todo inserted : List ρ}
    (hi : s.phase i = .running (r :: todo) inserted)
    (hr : key r ∈ s.rows.map key ∨ key r ∈ inserted.map key) :
    Inv key batch initial (s.put i (.running todo inserted)) := by
  obtain ⟨hown, hfresh, hapart, done, hbatch, hsub, hdone⟩ := inv_running hs hi
  refine inv_put hs (by simp [hi]) rfl hown hfresh hapart ⟨done ++ [r], ?_, ?_, ?_⟩
  · rw [hbatch, List.append_assoc, List.singleton_append]
  · exact fun x hx => List.mem_append_left _ (hsub x hx)
  · intro x hx
    rcases List.mem_append.mp hx with hx | hx
    · exact hdone x hx
    · rw [List.mem_singleton.mp hx]
      exact hr

theorem inv_add (hs : Inv key batch initial s) {i : ι} {r : ρ} {todo inserted : List ρ}
    (hi : s.phase i = .running (r :: todo) inserted) (hfree : ¬ Held key s i (key r))
    (hr : ¬ (key r ∈ s.rows.map key ∨ key r ∈ inserted.map key)) :
    Inv key batch initial (s.put i (.running todo (inserted ++ [r]))) := by
  obtain ⟨hrows, hins⟩ := not_or.mp hr
  obtain ⟨hown, hfresh, hapart, done, hbatch, hsub, hdone⟩ := inv_running hs hi
  -- the new row is the only one that has to be checked, against the same three places
  have hmem : ∀ k, k ∈ (Phase.running todo (inserted ++ [r])).inserted.map key →
      k ∈ inserted.map key ∨ k = key r := by
    intro k hk
    simpa [Phase.inserted] using hk
  refine inv_put hs (by simp [hi]) rfl ?_ ?_ ?_ ⟨done ++ [r], ?_, ?_, ?_⟩
  · unfold Phase.inserted
    rw [List.map_append, List.map_singleton, List.nodup_append]
    refine ⟨hown, List.nodup_singleton _, fun a ha b hb => ?_⟩
    rw [List.mem_singleton.mp hb]
    rintro rfl
    exact hins ha
  · intro k hk
    rcases hmem k hk with h | rfl
    · exact hfresh k h
    · exact hrows
  · intro j hj k hk hkj
    rcases hmem k hk with h | rfl
    · exact hapart j hj k h hkj
    · exact hfree ⟨j, hj, hkj⟩
  · rw [hbatch, List.append_assoc, List.singleton_append]
  · intro x hx
    rcases List.mem_append.mp hx with hx | hx
    · exact List.mem_append_left _ (hsub x hx)
    · exact List.mem_append_right _ hx
  · intro x hx
    rcases List.mem_append.mp hx with hx | hx
    · rcases hdone x hx with h | h
      · exact .inl h
      · exact .inr (by rw [List.map_append]; exact List.mem_append_left _ h)
    · rw [List.mem_singleton.mp hx]
      exact .inr (by simp)

theorem inv_commit (hs : Inv key batch initial s) {i : ι} {inserted : List ρ}
    (hi : s.phase i = .running [] inserted) :
    Inv key batch initial { s.put i (.committed inserted.length) with rows := s.rows ++ inserted } := by
  obtain ⟨hown, hfresh, hapart, done, hbatch, hsub, hdone⟩ := inv_running hs hi
  rw [List.append_nil] at hbatch
  refine inv_change hs (by simp [hi]) ?_ List.nodup_nil (by simp [Phase.inserted]) ?_ ?_ ?_ rfl
  · rw [List.map_append, List.nodup_append]
    refine ⟨hs.nodup, hown, fun a ha b hb => ?_⟩
    rintro rfl
    exact hfresh a hb ha
  · exact hapart
  · intro r hr
    rw [List.map_append, List.mem_append]
    exact hdone r (hbatch ▸ hr)
  · intro k hk
    obtain ⟨r, hr, rfl⟩ := List.mem_map.mp hk
    exact ⟨inserted.length, rfl, List.mem_map.mpr ⟨r, hbatch ▸ hsub r hr, rfl⟩⟩

/-! ## Steps and runs -/

section

variable [DecidableEq κ] (key) (batch)

instance (s : Store ι ρ) (i : ι) (k : κ) : Decidable (Held key s i k) :=
  inferInstanceAs (Decidable (∃ j, j ≠ i ∧ k ∈ (s.phase j).inserted.map key))

def step (s : Store ι ρ) : Event ι → Option (Store ι ρ)
  | .start i =>
    match s.phase i with
    | .waiting => some (s.put i (.running (batch i) []))
    | _ => none
  | .insert i =>
    match s.phase i with
    | .running (r :: todo) inserted =>
      if Held key s i (key r) then none
      else if key r ∈ s.rows.map key ∨ key r ∈ inserted.map key then some (s.put i (.running todo inserted))
      else some (s.put i (.running todo (inserted ++ [r])))
    | _ => none
  | .commit i =>
    match s.phase i with
    | .running [] inserted =>
      some { s.put i (.committed inserted.length) with rows := s.rows ++ inserted }
    | _ => none
  | .abort i =>
    match s.phase i with
    | .running _ _ => some (s.put i .aborted)
    | _ => none

end

variable [DecidableEq κ]

theorem inv_step {e : Event ι} (hs : Inv key batch initial s) (h : step key batch s e = some t) :
    Inv key batch initial t := by
  cases e with
  | start i =>
    simp only [step] at h
    split at h <;> cases h
    next hi => exact inv_start hs hi
  | insert i =>
    simp only [step] at h
    split at h
    · next r todo inserted hi =>
      split at h
      · cases h
      · next hfree =>
        split at h <;> cases h
        · next hr => exact inv_ignore hs hi hr
        · next hr => exact inv_add hs hi hfree hr
    · cases h
  | commit i =>
    simp only [step] at h
    split at h <;> cases h
    next inserted hi => exact inv_commit hs hi
  | abort i =>
    simp only [step] at h
    split at h <;> cases h
    next todo inserted hi => exact inv_abort hs hi

theorem inv_run {es : List (Event ι)} (hinit : (initial.map key).Nodup)
    (h : exec (step key batch) (Store.init initial) es = some s) : Inv key batch initial s :=
  exec_invariant (fun _ _ _ hs h => inv_step hs h) (inv_init hinit) h

theorem rows_prefix_step {e : Event ι} (h : step key batch s e = some t) : s.rows <+: t.rows := by
  cases e with
  | commit i =>
    simp only [step] at h
    split at h <;> cases h
    exact List.prefix_append _ _
  | _ =>
    simp only [step] at h
    repeat' split at h
    all_goals cases h
    all_goals exact List.prefix_refl _

theorem rows_prefix_run {es : List (Event ι)} (h : exec (step key batch) s es = some t) : s.rows <+: t.rows :=
  exec_invariant (I := fun t => s.rows <+: t.rows) (fun _ _ _ hs h => hs.trans (rows_prefix_step h))
    (List.prefix_refl _) h

theorem step_phase_of_ne {e : Event ι} (h : step key batch s e = some t) {j : ι} (hj : j ≠ e.of) :
    t.phase j = s.phase j := by
  cases e with
  | commit i =>
    simp only [step] at h
    split at h <;> cases h
    exact Store.put_phase_of_ne _ _ hj
  | _ =>
    simp only [step] at h
    repeat' split at h
    all_goals cases h
    all_goals exact Store.put_phase_of_ne _ _ hj

/-! ## Where the committed rows come from -/

/-- The rows that a running transaction has passed and has yet to pass are its own. -/
def Own (batch : List ρ) : Phase ρ → Prop
  | .running todo inserted => (∀ r ∈ todo, r ∈ batch) ∧ ∀ r ∈ inserted, r ∈ batch
  | _ => True

structure Sourced (batch : ι → List ρ) (initial : List ρ) (s : Store ι ρ) : Prop where
  own : ∀ i, Own (batch i) (s.phase i)
  rows : ∀ r ∈ s.rows, r ∈ initial ∨ ∃ i n, s.phase i = .committed n ∧ r ∈ batch i

omit [Fintype ι] in
theorem sourced_put (hs : Sourced batch initial s) {i : ι} {p : Phase ρ}
    (hi : ∀ n, s.phase i ≠ .committed n) (hp : Own (batch i) p) : Sourced batch initial (s.put i p) := by
  refine ⟨fun j => ?_, fun r hr => (hs.rows r hr).imp_right ?_⟩
  · rcases eq_or_ne j i with rfl | hj
    · simpa using hp
    · simpa [hj] using hs.own j
  · rintro ⟨j, n, hj, hr⟩
    have hji : j ≠ i := fun h => hi n (h ▸ hj)
    exact ⟨j, n, by simpa [hji] using hj, hr⟩

theorem sourced_step {e : Event ι} (hs : Sourced batch initial s) (h : step key batch s e = some t) :
    Sourced batch initial t := by
  cases e with
  | start i =>
    simp only [step] at h
    split at h <;> cases h
    next hi => exact sourced_put hs (by simp [hi]) ⟨fun _ h => h, by simp⟩
  | insert i =>
    simp only [step] at h
    split at h
    · next r todo inserted hi =>
      have hown := hs.own i
      rw [hi] at hown
      have htodo : ∀ x ∈ todo, x ∈ batch i := fun x hx => hown.1 x (List.mem_cons_of_mem _ hx)
      split at h
      · cases h
      · split at h <;> cases h
        · exact sourced_put hs (by simp [hi]) ⟨htodo, hown.2⟩
        · refine sourced_put hs (by simp [hi]) ⟨htodo, fun x hx => ?_⟩
          rcases List.mem_append.mp hx with hx | hx
          · exact hown.2 x hx
          · rw [List.mem_singleton.mp hx]
            exact hown.1 r List.mem_cons_self
    · cases h
  | commit i =>
    simp only [step] at h
    split at h <;> cases h
    next inserted hi =>
    have hown := hs.own i
    rw [hi] at hown
    have hput : Sourced batch initial (s.put i (.committed inserted.length)) :=
      sourced_put hs (by simp [hi]) trivial
    refine ⟨hput.own, fun r hr => ?_⟩
    rcases List.mem_append.mp hr with hr | hr
    · exact hput.rows r hr
    · exact .inr ⟨i, inserted.length, by simp, hown.2 r hr⟩
  | abort i =>
    simp only [step] at h
    split at h <;> cases h
    next todo inserted hi => exact sourced_put hs (by simp [hi]) trivial

theorem sourced_run {es : List (Event ι)} (h : exec (step key batch) (Store.init initial) es = some s) :
    Sourced batch initial s := by
  have hinit : Sourced batch initial (Store.init initial) := ⟨fun _ => trivial, fun _ hr => .inl hr⟩
  exact exec_invariant (fun _ _ _ hs h => sourced_step hs h) hinit h

/-! ## Commits on a condition -/

/-- Only the transactions that `allowed` holds of can commit. -/
def stepIf (key : ρ → κ) (batch : ι → List ρ) (allowed : ι → Bool) (s : Store ι ρ) : Event ι → Option (Store ι ρ)
  | .commit i => if allowed i then step key batch s (.commit i) else none
  | e => step key batch s e

variable {allowed : ι → Bool}

theorem stepIf_congr {batch' : ι → List ρ} {allowed' : ι → Bool} {e : Event ι} (hb : batch e.of = batch' e.of)
    (ha : allowed e.of = allowed' e.of) : stepIf key batch allowed s e = stepIf key batch' allowed' s e := by
  cases e with
  | start i =>
    have hi : batch i = batch' i := hb
    simp only [stepIf, step, hi]
  | commit i =>
    have hi : allowed i = allowed' i := ha
    simp only [stepIf, step, hi]
  | _ => rfl

theorem step_of_stepIf {e : Event ι} (h : stepIf key batch allowed s e = some t) : step key batch s e = some t := by
  cases e with
  | commit i =>
    simp only [stepIf] at h
    split at h
    · exact h
    · cases h
  | _ => exact h

theorem allowed_step {e : Event ι} (hs : ∀ i n, s.phase i = .committed n → allowed i)
    (h : stepIf key batch allowed s e = some t) : ∀ i n, t.phase i = .committed n → allowed i := by
  have hput : ∀ j p, ((∃ n, p = Phase.committed n) → allowed j) →
      ∀ i n, (s.put j p).phase i = .committed n → allowed i := by
    intro j p hp i n hi
    rcases eq_or_ne i j with rfl | hij
    · rw [Store.put_phase_self] at hi
      exact hp ⟨n, hi⟩
    · rw [Store.put_phase_of_ne _ _ hij] at hi
      exact hs i n hi
  cases e with
  | commit j =>
    simp only [stepIf, step] at h
    split at h
    · next hj =>
      split at h <;> cases h
      exact hput j (.committed _) fun _ => hj
    · cases h
  | _ =>
    simp only [stepIf, step] at h
    repeat' split at h
    all_goals cases h
    all_goals exact hput _ _ (by simp)

theorem allowed_run {es : List (Event ι)} (h : exec (stepIf key batch allowed) (Store.init initial) es = some s)
    {i : ι} {n : ℕ} (hi : s.phase i = .committed n) : allowed i :=
  exec_invariant (I := fun s : Store ι ρ => ∀ i n, s.phase i = .committed n → allowed i)
    (fun _ _ _ hs h => allowed_step hs h) (fun i n hi => by simp [Store.init] at hi) h i n hi

/-! ## A transaction without others -/

/-- Transaction `i` over `n` rows, from its start to its commit. -/
def alone (i : ι) (n : ℕ) : List (Event ι) := .start i :: (List.replicate n (.insert i) ++ [.commit i])

theorem exec_inserts {i : ι} {todo inserted : List ρ} {table : UniqueTable key}
    (htable : table.rows = s.rows ++ inserted) (hi : s.phase i = .running todo inserted)
    (hidle : ∀ j, j ≠ i → (s.phase j).inserted = []) :
    exec (step key batch) s (List.replicate todo.length (.insert i)) =
      some (s.put i (.running [] (inserted ++ table.returning todo))) := by
  induction todo generalizing s inserted table with
  | nil =>
    have hput : s.put i (.running [] inserted) = s := by
      unfold Store.put
      rw [← hi, Function.update_eq_self]
    simp [UniqueTable.returning, hput]
  | cons r todo ih =>
    have hfree : ¬ Held key s i (key r) := by
      rintro ⟨j, hj, hk⟩
      simp [hidle j hj] at hk
    have hidle' : ∀ p j, j ≠ i → ((s.put i p).phase j).inserted = [] := by
      intro p j hj
      simpa [hj] using hidle j hj
    have hkeys : key r ∈ table.keys ↔ key r ∈ s.rows.map key ∨ key r ∈ inserted.map key := by
      unfold UniqueTable.keys
      rw [htable, List.map_append, List.mem_append]
    rw [List.length_cons, List.replicate_succ, exec_cons, UniqueTable.returning]
    by_cases hr : key r ∈ table.keys
    · have hstep : step key batch s (.insert i) = some (s.put i (.running todo inserted)) := by
        unfold step
        simp only [hi, if_neg hfree, if_pos (hkeys.mp hr)]
      rw [hstep, Option.bind_some, ih (s := s.put i (.running todo inserted)) htable
        (Store.put_phase_self ..) (hidle' _), put_put, if_pos hr]
    · have hstep : step key batch s (.insert i) = some (s.put i (.running todo (inserted ++ [r]))) := by
        unfold step
        simp only [hi, if_neg hfree, if_neg fun h => hr (hkeys.mpr h)]
      have htable' : (table.insertRow r).rows = s.rows ++ (inserted ++ [r]) := by
        rw [UniqueTable.rows_insertRow_of_notMem hr, htable, List.append_assoc]
      rw [hstep, Option.bind_some, ih (s := s.put i (.running todo (inserted ++ [r]))) htable'
        (Store.put_phase_self ..) (hidle' _), put_put, if_neg hr, List.append_assoc, List.singleton_append]

theorem exec_alone {i : ι} {table : UniqueTable key} (htable : table.rows = s.rows) (hi : s.phase i = .waiting)
    (hidle : ∀ j, j ≠ i → (s.phase j).inserted = []) :
    exec (step key batch) s (alone i (batch i).length) =
      some { s.put i (.committed (table.returning (batch i)).length) with
        rows := (table.insertRows (batch i)).rows } := by
  have hstart : step key batch s (.start i) = some (s.put i (.running (batch i) [])) := by
    unfold step
    simp only [hi]
  have hidle' : ∀ j, j ≠ i → ((s.put i (.running (batch i) [])).phase j).inserted = [] := by
    intro j hj
    simpa [hj] using hidle j hj
  have hnone : table.rows = (s.put i (.running (batch i) [])).rows ++ [] := by
    rw [htable, List.append_nil, Store.put_rows]
  have hinserts : exec (step key batch) (s.put i (.running (batch i) []))
      (List.replicate (batch i).length (.insert i)) =
      some ((s.put i (.running (batch i) [])).put i (.running [] ([] ++ table.returning (batch i)))) :=
    exec_inserts hnone (Store.put_phase_self ..) hidle'
  have hcommit : step key batch (s.put i (.running [] (table.returning (batch i)))) (.commit i) =
      some { s.put i (.committed (table.returning (batch i)).length) with
        rows := s.rows ++ table.returning (batch i) } := by
    unfold step
    simp only [Store.put_phase_self, put_put, Store.put_rows]
  rw [alone, exec_cons, hstart, Option.bind_some, exec_append, hinserts, Option.bind_some, put_put,
    List.nil_append, exec_cons, hcommit, Option.bind_some, exec_nil, UniqueTable.rows_insertRows, htable]

theorem exec_alone_allowed {allowed : ι → Bool} {i : ι} {table : UniqueTable key} (hallowed : allowed i)
    (htable : table.rows = s.rows) (hi : s.phase i = .waiting) (hidle : ∀ j, j ≠ i → (s.phase j).inserted = []) :
    exec (stepIf key batch allowed) s (alone i (batch i).length) =
      some { s.put i (.committed (table.returning (batch i)).length) with
        rows := (table.insertRows (batch i)).rows } := by
  rw [← exec_alone htable hi hidle]
  refine exec_congr fun e he s => ?_
  unfold alone at he
  simp only [List.mem_cons, List.mem_append, List.mem_replicate, List.not_mem_nil, or_false] at he
  rcases he with rfl | ⟨-, rfl⟩ | rfl
  · rfl
  · rfl
  · simp [stepIf, hallowed]

end Lib.Transactions
