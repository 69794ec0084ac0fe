import Mathlib.Data.List.Basic

/-!
# One transaction over a connection of a pool

The operations of a transaction are numbered: 0 takes a connection, then come the
statements, the commit, and the return of the connection. Any of them can raise;
what was executed is kept only when the commit is past.
-/

namespace Lib.Psycopg

inductive Exn where
  | operationalError
  | poolTimeout
  | osError
  | dataError
  | otherError
  /-- A timeout of the job that runs the transaction. -/
  | cancelledError
deriving DecidableEq

/-- The connection is at fault, not what was sent over it. -/
def Exn.isConnection : Exn → Bool
  | .operationalError | .poolTimeout | .osError => true
  | _ => false

/-- The operation that raises, if the transaction gets as far. -/
structure Fault where
  op : ℕ
  exn : Exn
deriving DecidableEq

/-- The change of a table and the number of rows returned, or what the server refuses it with. -/
abbrev Statement (τ : Type*) := Except Exn (τ → τ × ℕ)

variable {τ : Type*}

def raisedAt (fault : Option Fault) (op : ℕ) : Option Exn :=
  (fault.filter fun f => f.op = op).map Fault.exn

/-- The statements, the first of them operation `op`. -/
def execute (fault : Option Fault) : ℕ → List (Statement τ) → τ × ℕ → Except Exn (τ × ℕ)
  | _, [], acc => .ok acc
  | op, stmt :: rest, (table, returned) =>
    match raisedAt fault op, stmt with
    | some exn, _ => .error exn
    | none, .error exn => .error exn
    | none, .ok run => execute fault (op + 1) rest ((run table).1, returned + (run table).2)

def transact (fault : Option Fault) (stmts : List (Statement τ)) (table : τ) : τ × Except Exn ℕ :=
  match raisedAt fault 0, execute fault 1 stmts (table, 0) with
  | some exn, _ => (table, .error exn)
  | none, .error exn => (table, .error exn)
  | none, .ok (table', returned) =>
    match raisedAt fault (stmts.length + 1), raisedAt fault (stmts.length + 2) with
    | some exn, _ => (table, .error exn)
    | none, some exn => (table', .error exn)
    | none, none => (table', .ok returned)

/-! ## What a transaction leaves behind -/

def applyAll (stmts : List (Statement τ)) (acc : τ × ℕ) : τ × ℕ :=
  stmts.foldl (fun acc stmt =>
    match stmt with
    | .ok run => ((run acc.1).1, acc.2 + (run acc.1).2)
    | .error _ => acc) acc

/-- No statement is refused and nothing raises before the commit is past. -/
def Commits (fault : Option Fault) (stmts : List (Statement τ)) : Prop :=
  (∀ stmt ∈ stmts, stmt.isOk) ∧ ∀ f, fault = some f → stmts.length + 1 < f.op

/-- A statement is refused with an exception of the connection, and nothing went wrong before it. -/
def RefusedAsDown (fault : Option Fault) (op : ℕ) (stmts : List (Statement τ)) : Prop :=
  ∃ n exn, stmts[n]? = some (.error exn) ∧ exn.isConnection ∧ (∀ stmt ∈ stmts.take n, stmt.isOk) ∧
    ∀ f, fault = some f → f.op < op ∨ op + n < f.op

/-- What goes wrong first is an exception of the connection, and it comes before the commit is past. -/
def Disconnects (fault : Option Fault) (stmts : List (Statement τ)) : Prop :=
  (∃ f, fault = some f ∧ f.exn.isConnection ∧ f.op ≤ stmts.length + 1 ∧
    ∀ stmt ∈ stmts.take (f.op - 1), stmt.isOk) ∨
  (∀ f, fault = some f → f.op ≠ 0) ∧ RefusedAsDown fault 1 stmts

@[simp] theorem raisedAt_none (op : ℕ) : raisedAt none op = none := rfl

@[simp] theorem raisedAt_some (f : Fault) (op : ℕ) :
    raisedAt (some f) op = if f.op = op then some f.exn else none := by
  by_cases h : f.op = op <;> simp [raisedAt, Option.filter, h]

theorem raisedAt_eq_none {fault : Option Fault} {op : ℕ} (h : ∀ f, fault = some f → f.op ≠ op) :
    raisedAt fault op = none := by
  cases fault with
  | none => rfl
  | some f => rw [raisedAt_some, if_neg (h f rfl)]

theorem exists_run {stmt : Statement τ} (h : stmt.isOk) : ∃ run, stmt = .ok run := by
  cases stmt with
  | ok run => exact ⟨run, rfl⟩
  | error exn => cases h

theorem execute_ok (fault : Option Fault) (op : ℕ) (stmts : List (Statement τ)) (acc : τ × ℕ)
    (hstmts : ∀ stmt ∈ stmts, stmt.isOk)
    (hfault : ∀ f, fault = some f → f.op < op ∨ op + stmts.length ≤ f.op) :
    execute fault op stmts acc = .ok (applyAll stmts acc) := by
  induction stmts generalizing op acc with
  | nil => rfl
  | cons stmt stmts ih =>
    obtain ⟨run, rfl⟩ := exists_run (hstmts stmt (by simp))
    have hop : raisedAt fault op = none := by
      refine raisedAt_eq_none fun f hf => ?_
      have := hfault f hf
      rw [List.length_cons] at this
      omega
    obtain ⟨table, returned⟩ := acc
    unfold execute
    simp only [hop]
    rw [ih _ _ fun s hs => hstmts s (List.mem_cons_of_mem _ hs)]
    · rfl
    · intro f hf
      have := hfault f hf
      rw [List.length_cons] at this
      omega

/-- The fault is one of the connection, and met after the statements before it went through. -/
def FailsAt (fault : Option Fault) (op : ℕ) (stmts : List (Statement τ)) : Prop :=
  ∃ f, fault = some f ∧ f.exn.isConnection ∧ op ≤ f.op ∧ f.op < op + stmts.length ∧
    ∀ stmt ∈ stmts.take (f.op - op), stmt.isOk

theorem failsAt_cons {fault : Option Fault} {op : ℕ} {run : τ → τ × ℕ} {stmts : List (Statement τ)}
    (hop : ∀ f, fault = some f → f.op ≠ op) :
    FailsAt fault op (.ok run :: stmts) ↔ FailsAt fault (op + 1) stmts := by
  refine exists_congr fun f => and_congr_right fun hf => and_congr_right fun _ => ?_
  have hne := hop f hf
  rw [List.length_cons]
  constructor
  · rintro ⟨hle, hlt, hbefore⟩
    obtain ⟨n, hn⟩ : ∃ n, f.op - op = n + 1 := ⟨f.op - (op + 1), by omega⟩
    refine ⟨by omega, by omega, ?_⟩
    rw [hn, List.take_succ_cons, List.forall_mem_cons] at hbefore
    rw [show f.op - (op + 1) = n by omega]
    exact hbefore.2
  · rintro ⟨hle, hlt, hbefore⟩
    obtain ⟨n, hn⟩ : ∃ n, f.op - op = n + 1 := ⟨f.op - (op + 1), by omega⟩
    refine ⟨by omega, by omega, ?_⟩
    rw [hn, List.take_succ_cons, List.forall_mem_cons]
    exact ⟨rfl, by rwa [show n = f.op - (op + 1) by omega]⟩

theorem refusedAsDown_cons {fault : Option Fault} {op : ℕ} {run : τ → τ × ℕ} {stmts : List (Statement τ)}
    (hop : ∀ f, fault = some f → f.op ≠ op) :
    RefusedAsDown fault op (.ok run :: stmts) ↔ RefusedAsDown fault (op + 1) stmts := by
  constructor
  · rintro ⟨n, exn, hn, hconn, hbefore, hfault⟩
    cases n with
    | zero => cases hn
    | succ n =>
      rw [List.take_succ_cons, List.forall_mem_cons] at hbefore
      refine ⟨n, exn, hn, hconn, hbefore.2, fun f hf => ?_⟩
      have := hfault f hf
      have := hop f hf
      omega
  · rintro ⟨n, exn, hn, hconn, hbefore, hfault⟩
    refine ⟨n + 1, exn, hn, hconn, ?_, fun f hf => ?_⟩
    · rw [List.take_succ_cons, List.forall_mem_cons]
      exact ⟨rfl, hbefore⟩
    · have := hfault f hf
      have := hop f hf
      omega

theorem isConnection_raised (f : Fault) (stmt : Statement τ) (stmts : List (Statement τ)) :
    f.exn.isConnection ↔ FailsAt (some f) f.op (stmt :: stmts) ∨ RefusedAsDown (some f) f.op (stmt :: stmts) := by
  constructor
  · intro hconn
    exact .inl ⟨f, rfl, hconn, Nat.le_refl _, by simp, by simp⟩
  · rintro (⟨f', hf', hconn, -⟩ | ⟨n, exn, -, -, -, hfault⟩)
    · rwa [Option.some.inj hf']
    · have := hfault f rfl
      omega

/-- Whatever comes after a statement that is refused is not reached. -/
theorem isConnection_refused {fault : Option Fault} {op : ℕ} (hop : ∀ f, fault = some f → f.op ≠ op) (exn : Exn)
    (stmts : List (Statement τ)) :
    exn.isConnection ↔ FailsAt fault op (.error exn :: stmts) ∨ RefusedAsDown fault op (.error exn :: stmts) := by
  constructor
  · intro hconn
    exact .inr ⟨0, exn, rfl, hconn, by simp, fun f hf => Nat.lt_or_gt_of_ne (hop f hf)⟩
  · rintro (⟨f, hf, -, hle, -, hbefore⟩ | ⟨n, exn', hn, hconn, hbefore, -⟩)
    · have := hop f hf
      obtain ⟨n, hn⟩ : ∃ n, f.op - op = n + 1 := ⟨f.op - op - 1, by omega⟩
      rw [hn, List.take_succ_cons, List.forall_mem_cons] at hbefore
      cases hbefore.1
    · cases n with
      | zero =>
        cases hn
        exact hconn
      | succ n =>
        rw [List.take_succ_cons, List.forall_mem_cons] at hbefore
        cases hbefore.1

theorem execute_error (fault : Option Fault) (op : ℕ) (stmts : List (Statement τ)) (acc : τ × ℕ)
    (h : ¬ ((∀ stmt ∈ stmts, stmt.isOk) ∧ ∀ f, fault = some f → f.op < op ∨ op + stmts.length ≤ f.op)) :
    ∃ exn, execute fault op stmts acc = .error exn ∧
      (exn.isConnection ↔ FailsAt fault op stmts ∨ RefusedAsDown fault op stmts) := by
  induction stmts generalizing op acc with
  | nil => exact absurd ⟨by simp, fun f _ => by simpa using Nat.lt_or_ge f.op op⟩ h
  | cons stmt stmts ih =>
    obtain ⟨table, returned⟩ := acc
    by_cases hop : ∃ f, fault = some f ∧ f.op = op
    · obtain ⟨f, rfl, rfl⟩ := hop
      exact ⟨f.exn, by simp [execute], isConnection_raised f stmt stmts⟩
    · have hne : ∀ f, fault = some f → f.op ≠ op := fun f hf he => hop ⟨f, hf, he⟩
      have hraise := raisedAt_eq_none hne
      cases stmt with
      | error exn => exact ⟨exn, by simp [execute, hraise], isConnection_refused hne exn stmts⟩
      | ok run =>
        have hrest : ¬ ((∀ stmt ∈ stmts, stmt.isOk) ∧
            ∀ f, fault = some f → f.op < op + 1 ∨ op + 1 + stmts.length ≤ f.op) := by
          rintro ⟨hstmts, hfault⟩
          refine h ⟨List.forall_mem_cons.mpr ⟨rfl, hstmts⟩, fun f hf => ?_⟩
          have := hne f hf
          have := hfault f hf
          rw [List.length_cons]
          omega
        obtain ⟨exn, hexec, hiff⟩ := ih (op + 1) ((run table).1, returned + (run table).2) hrest
        refine ⟨exn, by simp only [execute, hraise, hexec], ?_⟩
        rw [hiff, failsAt_cons hne, refusedAsDown_cons hne]

theorem transact_commits {fault : Option Fault} {stmts : List (Statement τ)} (h : Commits fault stmts)
    (table : τ) : (transact fault stmts table).1 = (applyAll stmts (table, 0)).1 ∧
      ((transact fault stmts table).2 = .ok (applyAll stmts (table, 0)).2 ∨
        ∃ f, fault = some f ∧ (transact fault stmts table).2 = .error f.exn) := by
  obtain ⟨hstmts, hfault⟩ := h
  have hexec : execute fault 1 stmts (table, 0) = .ok (applyAll stmts (table, 0)) := by
    refine execute_ok fault 1 stmts (table, 0) hstmts fun f hf => ?_
    have := hfault f hf
    omega
  cases fault with
  | none => simp [transact, hexec]
  | some f =>
    have hf := hfault f rfl
    have h0 : f.op ≠ 0 := by omega
    have hcommit : f.op ≠ stmts.length + 1 := by omega
    by_cases hclose : f.op = stmts.length + 2
    · simp [transact, hexec, hclose]
    · simp [transact, hexec, h0, hcommit, hclose]

theorem transact_rolledBack {fault : Option Fault} {stmts : List (Statement τ)} (h : ¬ Commits fault stmts)
    (table : τ) : (transact fault stmts table).1 = table ∧
      ∃ exn, (transact fault stmts table).2 = .error exn ∧ (exn.isConnection ↔ Disconnects fault stmts) := by
  by_cases h0 : ∃ f, fault = some f ∧ f.op = 0
  · obtain ⟨f, rfl, hf⟩ := h0
    exact ⟨by simp [transact, hf], f.exn, by simp [transact, hf], by simp [Disconnects, hf]⟩
  · have hne : ∀ f, fault = some f → f.op ≠ 0 := fun f hf he => h0 ⟨f, hf, he⟩
    have hraise := raisedAt_eq_none hne
    by_cases hexec : (∀ stmt ∈ stmts, stmt.isOk) ∧ ∀ f, fault = some f → f.op < 1 ∨ 1 + stmts.length ≤ f.op
    · -- all statements went through, so it is the commit that raised
      obtain ⟨hstmts, hfault⟩ := hexec
      obtain ⟨f, rfl, hf⟩ : ∃ f, fault = some f ∧ f.op = stmts.length + 1 := by
        by_contra hno
        refine h ⟨hstmts, fun f hf => ?_⟩
        have : f.op ≠ stmts.length + 1 := fun he => hno ⟨f, hf, he⟩
        have := hfault f hf
        have := hne f hf
        omega
      have hok := execute_ok (some f) 1 stmts (table, 0) hstmts hfault
      refine ⟨by simp [transact, hok, hf], f.exn, by simp [transact, hok, hf], fun hc => .inl ?_, ?_⟩
      · exact ⟨f, rfl, hc, by omega, fun stmt hs => hstmts stmt (List.mem_of_mem_take hs)⟩
      · rintro (⟨f', hf', hc, -⟩ | ⟨-, n, exn, hn, -⟩)
        · rwa [Option.some.inj hf']
        · cases hstmts _ (List.mem_of_getElem? hn)
    · obtain ⟨exn, herr, hiff⟩ := execute_error fault 1 stmts (table, 0) hexec
      refine ⟨by simp [transact, herr, hraise], exn, by simp [transact, herr, hraise], hiff.trans ?_⟩
      refine or_congr ?_ (and_iff_right hne).symm
      refine exists_congr fun f => and_congr_right fun hf => and_congr_right fun _ => ?_
      constructor
      · rintro ⟨-, hlt, hbefore⟩
        exact ⟨by omega, hbefore⟩
      · rintro ⟨hle, hbefore⟩
        refine ⟨Nat.one_le_iff_ne_zero.mpr (hne f hf), ?_, hbefore⟩
        by_contra hge
        rw [List.take_of_length_le (by omega)] at hbefore
        refine hexec ⟨hbefore, fun f' hf' => .inr ?_⟩
        obtain rfl : f = f' := Option.some.inj (hf.symm.trans hf')
        omega

/-! ## A transaction that nothing disturbs -/

theorem transact_accepted {stmts : List (Statement τ)} (h : ∀ stmt ∈ stmts, stmt.isOk) (table : τ) :
    transact none stmts table = ((applyAll stmts (table, 0)).1, .ok (applyAll stmts (table, 0)).2) := by
  unfold transact
  rw [execute_ok none 1 stmts (table, 0) h (by simp)]
  rfl

theorem transact_refused {stmts : List (Statement τ)} (h : ¬ ∀ stmt ∈ stmts, stmt.isOk) (table : τ) :
    ∃ exn, transact none stmts table = (table, .error exn) := by
  obtain ⟨htable, exn, hend, -⟩ := transact_rolledBack (fun hc : Commits none stmts => h hc.1) table
  exact ⟨exn, Prod.ext htable hend⟩

end Lib.Psycopg
