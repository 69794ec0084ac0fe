import Mathlib.Data.List.Forall2
import FlightPulse.Lib.Python

/-!
# Validation in pydantic's lax mode

A model reports every field that fails and not only the first one. How a value
of another type is converted belongs to pydantic, so it is a parameter.
-/

namespace Lib.Pydantic

open Lib.Python

inductive ErrorType where
  | missing
  | modelType
  | listType
  | stringType
  | intType
  | intParsing
  | intParsingSize
  | intFromFloat
  | finiteNumber
  | floatType
  | floatParsing
  | boolType
  | boolParsing
deriving DecidableEq

/-- A step of the path from the model to the value that failed. -/
inductive Loc where
  | field (name : PyStr)
  | index (i : ℕ)
deriving DecidableEq

/-- An entry of `ValidationError.errors()`. -/
structure ErrorDetail where
  type : ErrorType
  loc : List Loc
  input : PyVal

inductive Validated (α : Type) where
  | ok (a : α)
  | invalid (errors : List ErrorDetail)

/-- The conversions of a value that is not an instance of the type itself. -/
structure Lax where
  toInt : PyVal → Except ErrorType ℤ
  toFloat : PyVal → Except ErrorType PyFloat
  toBool : PyVal → Except ErrorType Bool

def Lax.strict : Lax := ⟨fun _ => .error .intType, fun _ => .error .floatType, fun _ => .error .boolType⟩

variable {α β : Type}

/-! ## The errors of several fields -/

namespace Validated

def map (f : α → β) : Validated α → Validated β
  | ok a => ok (f a)
  | invalid es => invalid es

def ap : Validated (α → β) → Validated α → Validated β
  | ok f, x => x.map f
  | invalid es, ok _ => invalid es
  | invalid es, invalid es' => invalid (es ++ es')

/-- The same result seen from the value that holds this one. -/
def within (l : Loc) : Validated α → Validated α
  | ok a => ok a
  | invalid es => invalid (es.map fun e => { e with loc := l :: e.loc })

@[simp] theorem ap_ok (f : α → β) (a : α) : (ok f).ap (ok a) = ok (f a) := rfl

@[simp] theorem within_ok (l : Loc) (a : α) : (ok a).within l = ok a := rfl

theorem map_eq_ok {f : α → β} {x : Validated α} {b : β} : x.map f = ok b ↔ ∃ a, x = ok a ∧ f a = b := by
  cases x <;> simp [map]

theorem ap_eq_ok {f : Validated (α → β)} {x : Validated α} {b : β} :
    f.ap x = ok b ↔ ∃ g a, f = ok g ∧ x = ok a ∧ g a = b := by
  cases f <;> cases x <;> simp [ap, map]

theorem within_eq_ok {l : Loc} {x : Validated α} {a : α} : x.within l = ok a ↔ x = ok a := by
  cases x <;> simp [within]

end Validated

open Validated

def fail (type : ErrorType) (input : PyVal) : Validated α := invalid [⟨type, [], input⟩]

def converted (input : PyVal) : Except ErrorType α → Validated α
  | .ok a => ok a
  | .error type => fail type input

/-! ## Types -/

def validateStr : PyVal → Validated PyStr
  | .str s => ok s
  | v => fail .stringType v

def validateInt (lax : Lax) : PyVal → Validated ℤ
  | .int n => ok n
  | v => converted v (lax.toInt v)

def validateFloat (lax : Lax) : PyVal → Validated PyFloat
  | .float x => ok x
  | v => converted v (lax.toFloat v)

def validateBool (lax : Lax) : PyVal → Validated Bool
  | .bool b => ok b
  | v => converted v (lax.toBool v)

def optional (validate : PyVal → Validated α) : PyVal → Validated (Option α)
  | .none => ok none
  | v => (validate v).map some

def validateItems (validate : PyVal → Validated α) : ℕ → List PyVal → Validated (List α)
  | _, [] => ok []
  | i, v :: vs => (((validate v).within (.index i)).map List.cons).ap (validateItems validate (i + 1) vs)

def validateList (validate : PyVal → Validated α) : PyVal → Validated (List α)
  | .list items => validateItems validate 0 items
  | v => fail .listType v

theorem validateItems_eq_ok {validate : PyVal → Validated α} {i : ℕ} {vs : List PyVal} {xs : List α} :
    validateItems validate i vs = ok xs ↔ List.Forall₂ (fun v x => validate v = ok x) vs xs := by
  induction vs generalizing i xs with
  | nil => simp [validateItems, eq_comm]
  | cons v vs ih =>
    rw [validateItems, List.forall₂_cons_left_iff]
    cases hv : validate v <;> cases hvs : validateItems validate (i + 1) vs <;>
      simp [← ih (i := i + 1), hvs, within, Validated.map, Validated.ap, eq_comm]

/-! ## Models -/

def required (name : PyStr) (validate : PyVal → Validated α) (data : List (PyStr × PyVal)) : Validated α :=
  match PyVal.get? name data with
  | some v => (validate v).within (.field name)
  | none => invalid [⟨.missing, [.field name], .dict data⟩]

/-- A field with one. The default itself is not validated. -/
def defaulted (name : PyStr) (value : α) (validate : PyVal → Validated α) (data : List (PyStr × PyVal)) :
    Validated α :=
  match PyVal.get? name data with
  | some v => (validate v).within (.field name)
  | none => ok value

/-- A model reads its fields from a dict. Keys that it does not declare are ignored. -/
def validateModel (fields : List (PyStr × PyVal) → Validated α) : PyVal → Validated α
  | .dict data => fields data
  | v => fail .modelType v

/-! ## What `model_dump` writes -/

def dumpOption (dump : α → PyVal) : Option α → PyVal
  | none => .none
  | some a => dump a

theorem optional_dumpOption {validate : PyVal → Validated α} {dump : α → PyVal} (x : Option α)
    (h : ∀ a, validate (dump a) = ok a) (hn : ∀ a, dump a ≠ .none) :
    optional validate (dumpOption dump x) = ok x := by
  cases x with
  | none => rfl
  | some a =>
    have ha := h a
    have hna := hn a
    unfold dumpOption
    cases hd : dump a <;> simp_all [optional, Validated.map]

theorem optional_validateStr (x : Option PyStr) :
    optional validateStr (dumpOption .str x) = ok x :=
  optional_dumpOption x (fun _ => rfl) (by simp)

theorem optional_validateInt (lax : Lax) (x : Option ℤ) :
    optional (validateInt lax) (dumpOption .int x) = ok x :=
  optional_dumpOption x (fun _ => rfl) (by simp)

theorem optional_validateFloat (lax : Lax) (x : Option PyFloat) :
    optional (validateFloat lax) (dumpOption .float x) = ok x :=
  optional_dumpOption x (fun _ => rfl) (by simp)

theorem optional_validateBool (lax : Lax) (x : Option Bool) :
    optional (validateBool lax) (dumpOption .bool x) = ok x :=
  optional_dumpOption x (fun _ => rfl) (by simp)

theorem validateItems_map {validate : PyVal → Validated α} {dump : α → PyVal}
    (h : ∀ a, validate (dump a) = ok a) (i : ℕ) (xs : List α) :
    validateItems validate i (xs.map dump) = ok xs := by
  induction xs generalizing i with
  | nil => rfl
  | cons x xs ih => simp [validateItems, h, ih, Validated.map]

end Lib.Pydantic
