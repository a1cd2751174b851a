import Mathlib.Algebra.Order.Floor.Div
import Mathlib.Data.Rat.Floor
import Mathlib.Tactic.FieldSimp

namespace Polaris.Lib.Rounding

variable {n k m : ℕ}

/-- The smallest multiple that is not below. -/
def roundUp (n m : ℕ) : ℕ := (n ⌈/⌉ m) * m

theorem ceilDiv_le (hm : 0 < m) : n ⌈/⌉ m ≤ k ↔ n ≤ k * m := by
  rw [ceilDiv_le_iff_le_mul hm, Nat.mul_comm]

theorem ceilDiv_mono (m : ℕ) (h : n ≤ k) : n ⌈/⌉ m ≤ k ⌈/⌉ m := by
  rcases Nat.eq_zero_or_pos m with rfl | hm
  · simp
  · rw [ceilDiv_le hm]
    exact h.trans ((ceilDiv_le hm).mp le_rfl)

theorem le_roundUp (n : ℕ) (hm : 0 < m) : n ≤ roundUp n m := (ceilDiv_le hm).mp le_rfl

theorem roundUp_roundUp (n : ℕ) (hm : 0 < m) : roundUp (roundUp n m) m = roundUp n m := by
  refine Nat.le_antisymm (Nat.mul_le_mul_right m ?_) (le_roundUp _ hm)
  rw [ceilDiv_le hm]
  rfl

theorem ceil_div (n m : ℕ) (hm : 0 < m) : ⌈(n : ℚ) / m⌉₊ = n ⌈/⌉ m := by
  have hq : (0 : ℚ) < m := by exact_mod_cast hm
  refine eq_of_forall_ge_iff fun k => ?_
  rw [Nat.ceil_le, ceilDiv_le hm, div_le_iff₀ hq]
  exact_mod_cast Iff.rfl

/-- Rounding up once more behind a ceiling changes nothing about the ceiling. -/
theorem roundUp_ceil (q : ℚ) (hm : 0 < m) : roundUp ⌈q⌉₊ m = ⌈q / m⌉₊ * m := by
  have hq : (0 : ℚ) < m := by exact_mod_cast hm
  rw [roundUp]
  congr 1
  refine eq_of_forall_ge_iff fun k => ?_
  rw [ceilDiv_le hm, Nat.ceil_le, Nat.ceil_le, div_le_iff₀ hq]
  push_cast
  exact Iff.rfl

end Polaris.Lib.Rounding
