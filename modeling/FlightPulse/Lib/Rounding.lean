import Mathlib.Algebra.Order.Field.Power
import Mathlib.Data.Int.Log
import Mathlib.Data.Rat.Floor
import Mathlib.Tactic.FieldSimp
import Mathlib.Tactic.Linarith
import Mathlib.Tactic.NormNum
import Mathlib.Tactic.Positivity
import Mathlib.Tactic.Ring

/-!
# Rounding to the nearest, a tie to the even neighbour

First to an integer, then to a number of decimals, and last to the binary64 number
that the result of an operation on floats is. A binary64 number is a rational here,
and the range in which it would overflow is left out.
-/

namespace Lib.Rounding

/-! ## Integers -/

def halfEven (x : ℚ) : ℤ :=
  if x - ⌊x⌋ < 1 / 2 then ⌊x⌋
  else if 1 / 2 < x - ⌊x⌋ then ⌊x⌋ + 1
  else ⌊x⌋ + ⌊x⌋ % 2

theorem halfEven_of_near {x : ℚ} {k : ℤ} (hk : (k : ℚ) ≤ x) (hx : x < k + 1 / 2) : halfEven x = k := by
  have hfloor : ⌊x⌋ = k := Int.floor_eq_iff.mpr ⟨hk, by linarith⟩
  rw [halfEven, hfloor, if_pos (by linarith)]

theorem halfEven_intCast (k : ℤ) : halfEven k = k := halfEven_of_near le_rfl (by linarith)

theorem floor_le_halfEven (x : ℚ) : ⌊x⌋ ≤ halfEven x := by
  unfold halfEven
  split_ifs <;> omega

theorem halfEven_le_floor_add_one (x : ℚ) : halfEven x ≤ ⌊x⌋ + 1 := by
  unfold halfEven
  split_ifs <;> omega

theorem halfEven_mono {x y : ℚ} (h : x ≤ y) : halfEven x ≤ halfEven y := by
  rcases (Int.floor_mono h).lt_or_eq with hlt | heq
  · have hx := halfEven_le_floor_add_one x
    have hy := floor_le_halfEven y
    omega
  · unfold halfEven
    rw [heq]
    split_ifs <;> first | omega | (exfalso; linarith)

theorem halfEven_le {x : ℚ} {k : ℤ} (h : x ≤ k) : halfEven x ≤ k := by
  rw [← halfEven_intCast k]
  exact halfEven_mono h

theorem sub_half_le_halfEven (x : ℚ) : x - 1 / 2 ≤ halfEven x := by
  have hlt := Int.lt_floor_add_one x
  unfold halfEven
  split_ifs with hlow hhigh
  · linarith
  · push_cast
    linarith
  · have hmod : (0 : ℚ) ≤ (⌊x⌋ % 2 : ℤ) := by exact_mod_cast Int.emod_nonneg _ two_ne_zero
    push_cast at hmod ⊢
    linarith

/-! ## Decimals -/

/-- To this number of digits behind the point. -/
def toDigits (digits : ℕ) (x : ℚ) : ℚ := halfEven (x * 10 ^ digits) / 10 ^ digits

theorem toDigits_mono (digits : ℕ) {x y : ℚ} (h : x ≤ y) : toDigits digits x ≤ toDigits digits y := by
  have hpos : (0 : ℚ) < 10 ^ digits := by positivity
  have hscaled : halfEven (x * 10 ^ digits) ≤ halfEven (y * 10 ^ digits) :=
    halfEven_mono (mul_le_mul_of_nonneg_right h hpos.le)
  apply div_le_div_of_nonneg_right _ hpos.le
  exact_mod_cast hscaled

/-! ## Binary64 -/

/-- The exponent of the last of the 53 places; below the normal numbers it stays. -/
def lastPlace (x : ℚ) : ℤ := max (Int.log 2 |x| - 52) (-1074)

def ulp (x : ℚ) : ℚ := 2 ^ lastPlace x

/-- The nearest binary64 number. -/
def binary64 (x : ℚ) : ℚ := halfEven (x / ulp x) * ulp x

theorem ulp_pos (x : ℚ) : 0 < ulp x := zpow_pos two_pos _

theorem binary64_nonneg {x : ℚ} (hx : 0 ≤ x) : 0 ≤ binary64 x := by
  have hquot : (0 : ℤ) ≤ halfEven (x / ulp x) := by
    rw [← halfEven_intCast 0]
    exact halfEven_mono (by exact_mod_cast div_nonneg hx (ulp_pos x).le)
  exact mul_nonneg (by exact_mod_cast hquot) (ulp_pos x).le

theorem natCast_multiple {x : ℚ} {m : ℕ} (hx : 0 ≤ x) (h : x ≤ m) (hm : m < 2 ^ 53) :
    ∃ k : ℤ, (m : ℚ) = k * ulp x := by
  have hlog : Int.log 2 |x| ≤ 52 := by
    rw [abs_of_nonneg hx]
    rcases hx.eq_or_lt with rfl | hpos
    · simp
    · have hmono := Int.log_mono_right (b := 2) hpos h
      rw [Int.log_natCast] at hmono
      have hlt : Nat.log 2 m < 53 := by
        rcases Nat.eq_zero_or_pos m with rfl | hm0
        · simp
        · exact Nat.log_lt_of_lt_pow hm0.ne' hm
      omega
  have hplace : lastPlace x ≤ 0 := by
    unfold lastPlace
    omega
  refine ⟨m * 2 ^ (-lastPlace x).toNat, ?_⟩
  have hexp : ((-lastPlace x).toNat : ℤ) = -lastPlace x := Int.toNat_of_nonneg (by omega)
  have hone : (2 : ℚ) ^ (-lastPlace x).toNat * ulp x = 1 := by
    rw [ulp, ← zpow_natCast, hexp, ← zpow_add₀ two_ne_zero, neg_add_cancel, zpow_zero]
  push_cast
  rw [mul_assoc, hone, mul_one]

theorem binary64_le_natCast {x : ℚ} {m : ℕ} (hx : 0 ≤ x) (h : x ≤ m) (hm : m < 2 ^ 53) : binary64 x ≤ m := by
  obtain ⟨k, hk⟩ := natCast_multiple hx h hm
  have hquot : x / ulp x ≤ k := by
    rw [div_le_iff₀ (ulp_pos x), ← hk]
    exact h
  calc binary64 x ≤ k * ulp x :=
        mul_le_mul_of_nonneg_right (by exact_mod_cast halfEven_le hquot) (ulp_pos x).le
    _ = m := hk.symm

theorem sub_half_ulp_le (x : ℚ) : x - ulp x / 2 ≤ binary64 x := by
  have hquot := sub_half_le_halfEven (x / ulp x)
  calc x - ulp x / 2 = (x / ulp x - 1 / 2) * ulp x := by
        rw [sub_mul, div_mul_cancel₀ _ (ulp_pos x).ne']
        ring
    _ ≤ binary64 x := mul_le_mul_of_nonneg_right hquot (ulp_pos x).le

theorem ulp_le {x : ℚ} (h : (2 : ℚ) ^ (-1022 : ℤ) ≤ x) : ulp x ≤ x / 2 ^ 52 := by
  have hpos : 0 < x := (zpow_pos two_pos _).trans_le h
  have hlog : -1022 ≤ Int.log 2 x := (Int.zpow_le_iff_le_log (by norm_num) hpos).mp (by exact_mod_cast h)
  have hplace : lastPlace x = Int.log 2 x - 52 := by
    rw [lastPlace, abs_of_pos hpos]
    omega
  have hle : (2 : ℚ) ^ Int.log 2 x ≤ x := by exact_mod_cast Int.zpow_log_le_self (b := 2) (by norm_num) hpos
  rw [ulp, hplace, zpow_sub₀ two_ne_zero, le_div_iff₀ (by positivity)]
  calc (2 : ℚ) ^ Int.log 2 x / 2 ^ (52 : ℤ) * 2 ^ 52 = 2 ^ Int.log 2 x := by
        rw [show (2 : ℚ) ^ (52 : ℤ) = 2 ^ 52 by norm_cast, div_mul_cancel₀ _ (by positivity)]
    _ ≤ x := hle

/-- What rounding can lose of a number in the normal range. -/
theorem sub_le_binary64 {x : ℚ} (h : (2 : ℚ) ^ (-1022 : ℤ) ≤ x) : x - x / 2 ^ 53 ≤ binary64 x := by
  have hulp := ulp_le h
  have hsub := sub_half_ulp_le x
  have hhalf : x / 2 ^ 52 = 2 * (x / 2 ^ 53) := by ring
  linarith

theorem binary64_of_bits {x : ℚ} {k : ℤ} (hlow : 1 / 2 ≤ x) (hhigh : x < 1) (hk : (k : ℚ) ≤ x * 2 ^ 53)
    (hnear : x * 2 ^ 53 < k + 1 / 2) : binary64 x = k / 2 ^ 53 := by
  have hpos : 0 < x := by linarith
  have hlog : Int.log 2 |x| = -1 := by
    rw [abs_of_pos hpos]
    apply le_antisymm
    · have h := (Int.lt_zpow_iff_log_lt (b := 2) (x := 0) (by norm_num) hpos).mp (by simpa using hhigh)
      omega
    · apply (Int.zpow_le_iff_le_log (by norm_num) hpos).mp
      norm_num
      linarith
  have hulp : ulp x = (2 ^ 53)⁻¹ := by
    rw [ulp, lastPlace, hlog]
    norm_num
  rw [binary64, hulp, div_inv_eq_mul, halfEven_of_near hk hnear, div_eq_mul_inv]

end Lib.Rounding
