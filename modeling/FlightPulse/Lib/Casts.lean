import Mathlib.Data.Int.ConditionallyCompleteOrder
import Mathlib.Data.Rat.Floor
import Mathlib.Order.WithBot
import FlightPulse.Lib.Jsonb
import FlightPulse.Lib.Strings

/-!
# Casts and functions of Postgres 16

What a query makes of JSON values, numbers and timestamps. An error is `none`, and
a null is `none` inside of it. Number formats, collations, the time zone of the
session and the statistics of a list are left to the server.
-/

namespace Lib.Postgres

open Lib.Python

/-- A rational or one of the three values that only a float has. -/
abbrev Double := PyFloat

/-- `numeric` has the same special values. -/
abbrev Numeric := PyFloat

structure Server where
  lower : Text → Text
  /-- `->>` of a number, an array or an object. -/
  jsonOut : Jsonb → Text
  int8In : Text → Option ℤ
  float8In : Text → Option Double
  boolIn : Text → Option Bool
  /-- The text of a JSON number as `double precision`. -/
  toDouble : ℚ → Option Double
  toTimestamp : ℤ → Option Timestamptz
  float8Mul : Double → Double → Option Double
  float8Div : Double → Double → Option Double
  toNumeric : Double → Numeric
  /-- The day and the hour of a number of microseconds. -/
  localDate : ℤ → ℤ
  localHour : ℤ → ℤ
  timestamptzOut : Timestamptz → Text
  avg : List Numeric → Numeric
  percentileCont : ℚ → List Numeric → Double
  mode : List Text → Text

/-! ## text -/

theorem nulFree_trimBy {p : Char → Bool} {cs : List Char} (h : nulFree cs) : nulFree (trimBy p cs) := by
  rw [nulFree_iff] at h ⊢
  exact fun c hc => h c (mem_of_mem_trimBy hc)

/-- `trim(t)`: only spaces are cut off. -/
def Text.trim (t : Text) : Text := ⟨trimBy (fun c => c = ' ') t.chars, nulFree_trimBy t.noNul⟩

/-- `t || u`. -/
def Text.append (t u : Text) : Text :=
  ⟨t.chars ++ u.chars, by
    have ht := t.noNul
    have hu := u.noNul
    unfold nulFree at ht hu ⊢
    rw [List.all_append, ht, hu]
    rfl⟩

/-- `nullif(t, '')`. -/
def nullIfEmpty : Option Text → Option Text
  | none => none
  | some t => if t.chars = [] then none else some t

/-! ## JSON -/

/-- `payload -> 'key'`. -/
def Jsonb.get (k : Text) : Jsonb → Option Jsonb
  | .obj items => field k items
  | _ => none

namespace Server

variable (pg : Server)

/-- `->>` on what `->` gives. -/
def text : Option Jsonb → Option Text
  | none | some .null => none
  | some (.str t) => some t
  | some (.bool b) => some (if b then .lit "true" else .lit "false")
  | some j => some (pg.jsonOut j)

def inInt8 (n : ℤ) : Bool := -2 ^ 63 ≤ n && n < 2 ^ 63

/-- `nullif(payload ->> 'key', '')::bigint`. The text of 5.0 is none, as little as that of a boolean, an array
or an object. -/
def bigint : Option Jsonb → Option (Option ℤ)
  | none | some .null => some none
  | some (.num q fraction) => if fraction = false ∧ q.den = 1 ∧ inInt8 q.num then some (some q.num) else none
  | some (.str t) => if t.chars = [] then some none else (pg.int8In t).map some
  | some _ => none

/-- `to_timestamp(nullif(payload ->> 'key', '')::bigint)`. -/
def epoch (j : Option Jsonb) : Option (Option Timestamptz) :=
  match pg.bigint j with
  | none => none
  | some none => some none
  | some (some n) => (pg.toTimestamp n).map some

/-- `(payload ->> 'key')::double precision`. -/
def double : Option Jsonb → Option (Option Double)
  | none | some .null => some none
  | some (.num q _) => (pg.toDouble q).map some
  | some (.str t) => (pg.float8In t).map some
  | some _ => none

/-- `(payload ->> 'key')::boolean`. -/
def boolean : Option Jsonb → Option (Option Bool)
  | none | some .null => some none
  | some (.bool b) => some (some b)
  | some (.str t) => (pg.boolIn t).map some
  | some j => (pg.boolIn (pg.jsonOut j)).map some

end Server

theorem bigint_int (pg : Server) (n : ℤ) :
    pg.bigint (some (.num n false)) = if Server.inInt8 n then some (some n) else none := by
  unfold Server.bigint
  simp only [Rat.den_intCast, Rat.num_intCast, true_and]

theorem epoch_int (pg : Server) (n : ℤ) :
    pg.epoch (some (.num n false)) = if Server.inInt8 n then (pg.toTimestamp n).map some else none := by
  unfold Server.epoch
  rw [bigint_int]
  cases Server.inInt8 n <;> rfl

theorem double_num (pg : Server) (q : ℚ) (fraction : Bool) :
    pg.double (some (.num q fraction)) = (pg.toDouble q).map some := rfl

/-! ## Numbers -/

/-- `x < y`, where NaN is the greatest value. -/
def floatLt : PyFloat → PyFloat → Bool
  | .nan, _ => false
  | _, .nan => true
  | .inf, _ => false
  | _, .inf => true
  | _, .negInf => false
  | .negInf, _ => true
  | .finite p, .finite q => p < q

/-- The half is rounded away from zero. -/
def roundHalfAway (q : ℚ) : ℤ := if 0 ≤ q then ⌊q + 1 / 2⌋ else ⌈q - 1 / 2⌉

/-- `round(x, digits)` of a `numeric`. -/
def roundNumeric (digits : ℕ) : Numeric → Numeric
  | .finite q => .finite (roundHalfAway (q * 10 ^ digits) / 10 ^ digits)
  | x => x

/-- `floor(x)::int`. -/
def floorInt : Double → Option ℤ
  | .finite q => if -2 ^ 31 ≤ ⌊q⌋ ∧ ⌊q⌋ < 2 ^ 31 then some ⌊q⌋ else none
  | _ => none

/-! ## Times -/

inductive Date where
  | day (n : ℤ)
  | infinity
  | negInfinity
deriving DecidableEq

/-- Where the date stands among the others. -/
def Date.rank : Date → WithBot (WithTop ℤ)
  | .negInfinity => ⊥
  | .day n => ((n : WithTop ℤ) : WithBot (WithTop ℤ))
  | .infinity => ((⊤ : WithTop ℤ) : WithBot (WithTop ℤ))

theorem Date.rank_injective : Function.Injective Date.rank := by
  intro d d' h
  cases d <;> cases d' <;> simp [Date.rank] at h ⊢
  exact h

def Server.date (pg : Server) : Timestamptz → Date
  | .at us => .day (pg.localDate us)
  | .infinity => .infinity
  | .negInfinity => .negInfinity

/-- `extract(hour from t)::int`, which is null for an infinite `t`. -/
def Server.hour (pg : Server) : Timestamptz → Option ℤ
  | .at us => some (pg.localHour us)
  | _ => none

/-- `extract(epoch from (a - b))`. Infinite timestamps cannot be subtracted. -/
def secondsBetween : Timestamptz → Timestamptz → Option Numeric
  | .at a, .at b => if Server.inInt8 (a - b) then some (.finite (((a - b : ℤ) : ℚ) / 1000000)) else none
  | _, _ => none

/-- `a <= b`. -/
def timestamptzLe : Timestamptz → Timestamptz → Bool
  | .negInfinity, _ => true
  | _, .negInfinity => false
  | _, .infinity => true
  | .infinity, _ => false
  | .at a, .at b => a ≤ b

/-- Where the time stands among the others. -/
def Timestamptz.rank : Timestamptz → WithBot (WithTop ℤ)
  | .negInfinity => ⊥
  | .at us => ((us : WithTop ℤ) : WithBot (WithTop ℤ))
  | .infinity => ((⊤ : WithTop ℤ) : WithBot (WithTop ℤ))

theorem Timestamptz.rank_injective : Function.Injective Timestamptz.rank := by
  intro t t' h
  cases t <;> cases t' <;> simp [Timestamptz.rank] at h ⊢
  exact h

theorem timestamptzLe_iff {t t' : Timestamptz} : timestamptzLe t t' ↔ t.rank ≤ t'.rank := by
  cases t <;> cases t' <;> simp [timestamptzLe, Timestamptz.rank]

end Lib.Postgres
