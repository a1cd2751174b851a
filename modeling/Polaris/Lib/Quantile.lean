import Mathlib.Algebra.Order.Ring.Rat
import Mathlib.Data.List.MinMax
import Mathlib.Data.Nat.Cast.Order.Ring

namespace Polaris.Lib.Quantile

variable {α : Type*} [LinearOrder α] {xs ys : List α} {p : ℚ} {q r b c : α}

/-- How many values are not above a bound. -/
def below (xs : List α) (b : α) : ℕ := xs.countP (· ≤ b)

/-- The least value with the part `p` of all values at or below it. -/
structure IsQuantile (xs : List α) (p : ℚ) (q : α) : Prop where
  mem : q ∈ xs
  enough : p * xs.length ≤ below xs q
  least : ∀ y ∈ xs, p * xs.length ≤ below xs y → q ≤ y

theorem below_mono (xs : List α) (h : b ≤ c) : below xs b ≤ below xs c :=
  List.countP_mono_left fun _ _ hx => decide_eq_true ((of_decide_eq_true hx).trans h)

theorem below_append (xs ys : List α) (b : α) : below (xs ++ ys) b = below xs b + below ys b :=
  List.countP_append

theorem exists_below (h : below xs b ≠ 0) : ∃ y ∈ xs, y ≤ b ∧ below xs y = below xs b := by
  have hne : xs.filter (· ≤ b) ≠ [] := by
    intro hnil
    rw [below, List.countP_eq_length_filter, hnil] at h
    exact h rfl
  obtain ⟨y, hy⟩ := Option.ne_none_iff_exists'.mp (mt List.maximum_eq_bot.mp hne)
  have hmem := List.maximum_mem hy
  rw [List.mem_filter, decide_eq_true_eq] at hmem
  refine ⟨y, hmem.1, hmem.2, Nat.le_antisymm (below_mono xs hmem.2) ?_⟩
  refine List.countP_mono_left fun x hx hb => decide_eq_true ?_
  exact List.le_maximum_of_mem (List.mem_filter.mpr ⟨hx, hb⟩) hy

theorem IsQuantile.le_iff (h : IsQuantile xs p q) (hp : 0 < p) : q ≤ b ↔ p * xs.length ≤ below xs b := by
  constructor
  · intro hq
    exact h.enough.trans (by exact_mod_cast below_mono xs hq)
  · intro hb
    have hlen : (0 : ℚ) < xs.length := by exact_mod_cast List.length_pos_of_mem h.mem
    have hpos : (0 : ℚ) < below xs b := (mul_pos hp hlen).trans_le hb
    obtain ⟨y, hy, hyb, hcount⟩ := exists_below (Nat.pos_iff_ne_zero.mp (by exact_mod_cast hpos))
    exact (h.least y hy (hcount ▸ hb)).trans hyb

theorem exists_quantile (h1 : p ≤ 1) (hne : xs ≠ []) : ∃ q, IsQuantile xs p q := by
  obtain ⟨m, hm⟩ := Option.ne_none_iff_exists'.mp (mt List.maximum_eq_bot.mp hne)
  have hall : below xs m = xs.length :=
    List.countP_eq_length.mpr fun x hx => decide_eq_true (List.le_maximum_of_mem hx hm)
  have hlen : p * xs.length ≤ below xs m := by
    rw [hall]
    exact mul_le_of_le_one_left (Nat.cast_nonneg _) h1
  have hmem : m ∈ xs.filter fun y => p * xs.length ≤ below xs y :=
    List.mem_filter.mpr ⟨List.maximum_mem hm, decide_eq_true hlen⟩
  obtain ⟨q, hq⟩ := Option.ne_none_iff_exists'.mp (mt List.minimum_eq_top.mp (List.ne_nil_of_mem hmem))
  have hfound := List.mem_filter.mp (List.minimum_mem hq)
  refine ⟨q, hfound.1, of_decide_eq_true hfound.2, fun y hy hle => ?_⟩
  exact List.minimum_le_of_mem (List.mem_filter.mpr ⟨hy, decide_eq_true hle⟩) hq

end Polaris.Lib.Quantile
