import Mathlib.Data.List.Basic
import Mathlib.Data.List.Induction

/-!
# Runs of a partial step function

A system is a function `step : σ → ε → Option σ`: the event says what happened
and `none` says that it could not happen in that state. An invariant of the
system, and a fact about its history, are both proved by the rules below.
-/

namespace Lib.Run

variable {σ ε : Type*} (step : σ → ε → Option σ)

/-- The state after the events, if each of them was enabled in turn. -/
def exec : σ → List ε → Option σ
  | s, [] => some s
  | s, e :: es => (step s e).bind fun t => exec t es

/-- Every event of the run meets `C` in the state that it finds. -/
def Meets (C : σ → ε → Prop) : σ → List ε → Prop
  | _, [] => True
  | s, e :: es => C s e ∧ ∀ t, step s e = some t → Meets C t es

variable {step}

@[simp] theorem exec_nil (s : σ) : exec step s [] = some s := rfl

theorem exec_cons (s : σ) (e : ε) (es : List ε) :
    exec step s (e :: es) = (step s e).bind fun t => exec step t es := rfl

theorem exec_append (s : σ) (es fs : List ε) :
    exec step s (es ++ fs) = (exec step s es).bind fun t => exec step t fs := by
  induction es generalizing s with
  | nil => rfl
  | cons e es ih =>
    rw [List.cons_append, exec_cons, exec_cons, Option.bind_assoc]
    cases step s e with
    | none => rfl
    | some t => exact ih t

theorem exec_trans {s t u : σ} {es fs : List ε} (h : exec step s es = some t) (hrest : exec step t fs = some u) :
    exec step s (es ++ fs) = some u := by
  rw [exec_append, h, Option.bind_some, hrest]

theorem exec_snoc {s u : σ} {es : List ε} {e : ε} :
    exec step s (es ++ [e]) = some u ↔ ∃ t, exec step s es = some t ∧ step t e = some u := by
  rw [exec_append, Option.bind_eq_some_iff]
  constructor
  · rintro ⟨t, ht, hu⟩
    refine ⟨t, ht, ?_⟩
    rw [exec_cons] at hu
    obtain ⟨v, hv, hvu⟩ := Option.bind_eq_some_iff.mp hu
    rw [exec_nil, Option.some.injEq] at hvu
    exact hvu ▸ hv
  · rintro ⟨t, ht, hu⟩
    exact ⟨t, ht, by rw [exec_cons, hu]; rfl⟩

theorem exec_split {s u : σ} {pre suf : List ε} {e : ε} (h : exec step s (pre ++ e :: suf) = some u) :
    ∃ t v, exec step s pre = some t ∧ step t e = some v ∧ exec step v suf = some u := by
  rw [exec_append] at h
  obtain ⟨t, ht, hu⟩ := Option.bind_eq_some_iff.mp h
  rw [exec_cons] at hu
  obtain ⟨v, hv, hvu⟩ := Option.bind_eq_some_iff.mp hu
  exact ⟨t, v, ht, hv, hvu⟩

theorem exec_of_imp {step' : σ → ε → Option σ} (himp : ∀ s e t, step' s e = some t → step s e = some t)
    {s t : σ} {es : List ε} (h : exec step' s es = some t) : exec step s es = some t := by
  induction es generalizing s with
  | nil => exact h
  | cons e es ih =>
    obtain ⟨u, hu, hut⟩ := Option.bind_eq_some_iff.mp h
    rw [exec_cons, himp s e u hu]
    exact ih hut

theorem exec_congr {step' : σ → ε → Option σ} {s : σ} {es : List ε}
    (h : ∀ e ∈ es, ∀ s, step s e = step' s e) : exec step s es = exec step' s es := by
  induction es generalizing s with
  | nil => rfl
  | cons e es ih =>
    rw [List.forall_mem_cons] at h
    rw [exec_cons, exec_cons, h.1 s]
    exact Option.bind_congr fun t _ => ih h.2

/-! ## The two induction rules -/

/-- A fact about the history and the state it leads to, proved one event at a time. -/
theorem exec_induction {s : σ} {P : List ε → σ → Prop} (nil : P [] s)
    (snoc : ∀ es t e u, exec step s es = some t → P es t → step t e = some u → P (es ++ [e]) u)
    {es : List ε} {t : σ} (h : exec step s es = some t) : P es t := by
  induction es using List.reverseRecOn generalizing t with
  | nil =>
    rw [exec_nil, Option.some.injEq] at h
    exact h ▸ nil
  | append_singleton es e ih =>
    obtain ⟨u, hu, hstep⟩ := exec_snoc.mp h
    exact snoc es u e t hu (ih hu) hstep

theorem exec_invariant {I : σ → Prop} (hstep : ∀ s e t, I s → step s e = some t → I t)
    {s t : σ} {es : List ε} (hs : I s) (h : exec step s es = some t) : I t :=
  exec_induction (P := fun _ t => I t) hs (fun _ t e u _ ht hu => hstep t e u ht hu) h

/-! ## Runs whose steps meet a condition -/

@[simp] theorem meets_nil (C : σ → ε → Prop) (s : σ) : Meets step C s [] := trivial

theorem meets_cons {C : σ → ε → Prop} {s t : σ} {e : ε} {es : List ε} (h : step s e = some t) :
    Meets step C s (e :: es) ↔ C s e ∧ Meets step C t es := by
  simp [Meets, h]

theorem meets_snoc {C : σ → ε → Prop} {s t : σ} {es : List ε} {e : ε}
    (h : exec step s es = some t) : Meets step C s (es ++ [e]) ↔ Meets step C s es ∧ C t e := by
  induction es generalizing s with
  | nil =>
    rw [exec_nil, Option.some.injEq] at h
    subst h
    simp [Meets]
  | cons d es ih =>
    rw [exec_cons] at h
    obtain ⟨v, hv, hvt⟩ := Option.bind_eq_some_iff.mp h
    rw [List.cons_append, meets_cons hv, meets_cons hv, ih hvt, and_assoc]

theorem meets_of_append {C : σ → ε → Prop} {s : σ} {pre suf : List ε}
    (h : Meets step C s (pre ++ suf)) : Meets step C s pre := by
  induction pre generalizing s with
  | nil => trivial
  | cons e pre ih => exact ⟨h.1, fun t ht => ih (h.2 t ht)⟩

theorem meets_of_split {C : σ → ε → Prop} {s t : σ} {es : List ε} (h : exec step s es = some t)
    (hC : ∀ pre e suf u, es = pre ++ e :: suf → exec step s pre = some u → C u e) : Meets step C s es := by
  induction es using List.reverseRecOn generalizing t with
  | nil => trivial
  | append_singleton es e ih =>
    obtain ⟨u, hu, -⟩ := exec_snoc.mp h
    rw [meets_snoc hu]
    refine ⟨ih hu fun pre d suf v hes hv => ?_, hC es e [] u rfl hu⟩
    exact hC pre d (suf ++ [e]) v (by rw [hes, List.append_assoc, List.cons_append]) hv

/-- The rule of `exec_induction` for a run whose steps all meet `C`. -/
theorem meets_induction {C : σ → ε → Prop} {s : σ} {P : List ε → σ → Prop} (nil : P [] s)
    (snoc : ∀ es t e u, exec step s es = some t → P es t → C t e → step t e = some u →
      P (es ++ [e]) u)
    {es : List ε} {t : σ} (h : exec step s es = some t) (hC : Meets step C s es) : P es t := by
  refine exec_induction (P := fun es t => Meets step C s es → P es t) (fun _ => nil) ?_ h hC
  intro es t e u ht ih hu hm
  rw [meets_snoc ht] at hm
  exact snoc es t e u ht (ih hm.1) hm.2 hu

theorem meets_invariant {C : σ → ε → Prop} {I : σ → Prop}
    (hstep : ∀ s e t, I s → C s e → step s e = some t → I t)
    {s t : σ} {es : List ε} (hs : I s) (h : exec step s es = some t)
    (hC : Meets step C s es) : I t :=
  meets_induction (P := fun _ t => I t) hs (fun _ t e u _ ht hc hu => hstep t e u ht hc hu) h hC

/-! ## What can still be reached -/

/-- Some run whose steps meet `C` leads from here to a state with `P`. -/
def Reaches (step : σ → ε → Option σ) (C : σ → ε → Prop) (P : σ → Prop) (s : σ) : Prop :=
  ∃ es t, exec step s es = some t ∧ Meets step C s es ∧ P t

theorem Reaches.here {C : σ → ε → Prop} {P : σ → Prop} {s : σ} (h : P s) : Reaches step C P s :=
  ⟨[], s, rfl, trivial, h⟩

theorem Reaches.next {C : σ → ε → Prop} {P : σ → Prop} {s t : σ} {e : ε} (hC : C s e) (hstep : step s e = some t)
    (h : Reaches step C P t) : Reaches step C P s := by
  obtain ⟨es, u, hu, hmeets, hP⟩ := h
  exact ⟨e :: es, u, by rw [exec_cons, hstep]; exact hu, (meets_cons hstep).mpr ⟨hC, hmeets⟩, hP⟩

/-! ## Parts of a system -/

section

variable {τ δ π : Type*} (part : σ → τ)

/-- A part whose steps depend on a parameter that only grows: it runs as with the last value of the
parameter, or with any value beyond it, if its steps do not see the difference. -/
theorem exec_part_growing (param : σ → π) (le : π → π → Prop) (step' : π → τ → δ → Option τ)
    (hle : ∀ s e t p, step s e = some t → le (param t) p → le (param s) p)
    (h : ∀ s e t, step s e = some t →
      part t = part s ∨ ∃ d, ∀ p, le (param t) p → step' p (part s) d = some (part t))
    {s t : σ} {es : List ε} (hrun : exec step s es = some t) :
    ∀ p, le (param t) p → ∃ ds, exec (step' p) (part s) ds = some (part t) := by
  refine exec_invariant (I := fun t => ∀ p, le (param t) p → ∃ ds, exec (step' p) (part s) ds = some (part t))
    ?_ (fun _ _ => ⟨[], rfl⟩) hrun
  intro t e u ih hu p hp
  obtain ⟨ds, hds⟩ := ih p (hle t e u p hu hp)
  rcases h t e u hu with heq | ⟨d, hd⟩
  · exact ⟨ds, by rw [hds, heq]⟩
  · exact ⟨ds ++ [d], exec_snoc.mpr ⟨part t, hds, hd p hp⟩⟩

/-- A part that every step moves by a step of its own or leaves alone runs through a run of its own. -/
theorem exec_part (step' : τ → δ → Option τ)
    (h : ∀ s e t, step s e = some t → part t = part s ∨ ∃ d, step' (part s) d = some (part t))
    {s t : σ} {es : List ε} (hrun : exec step s es = some t) :
    ∃ ds, exec step' (part s) ds = some (part t) :=
  exec_part_growing part (fun _ => ()) (fun _ _ => True) (fun _ => step') (fun _ _ _ _ _ _ => trivial)
    (fun s e t hst => (h s e t hst).imp_right fun ⟨d, hd⟩ => ⟨d, fun _ _ => hd⟩) hrun () trivial

end

end Lib.Run
