import Mathlib.Algebra.Order.Ring.Nat
import Mathlib.Data.Set.Lattice
import Mathlib.Order.CompletePartialOrder
import Mathlib.Order.Interval.Set.Basic

namespace Polaris.Lib.PrefixBlock

/-- The addresses sharing the leading bits of a base: a half-open interval
whose length is a power of two. -/
def block (k base : Nat) : Set Nat := Set.Ico base (base + 2 ^ k)

/-- Clear the low bits of an address. -/
def clear (k x : Nat) : Nat := x - x % 2 ^ k

theorem clear_dvd (k x : Nat) : 2 ^ k ∣ clear k x := Nat.dvd_sub_mod x

theorem clear_le (k x : Nat) : clear k x ≤ x := Nat.sub_le x _

theorem lt_clear_add (k x : Nat) : x < clear k x + 2 ^ k := by
  have h := Nat.mod_lt x (Nat.two_pow_pos k)
  unfold clear
  omega

theorem clear_of_dvd {k x : Nat} (h : 2 ^ k ∣ x) : clear k x = x := by
  simp [clear, Nat.mod_eq_zero_of_dvd h]

theorem add_le_of_lt {s a b : Nat} (ha : s ∣ a) (hb : s ∣ b) (h : a < b) : a + s ≤ b := by
  obtain ⟨i, rfl⟩ := ha
  obtain ⟨j, rfl⟩ := hb
  have hij : i < j := Nat.lt_of_mul_lt_mul_left h
  calc s * i + s = s * (i + 1) := (Nat.mul_succ s i).symm
    _ ≤ s * j := Nat.mul_le_mul_left s hij

theorem mem_block_iff_clear {k base x : Nat} (hb : 2 ^ k ∣ base) :
    x ∈ block k base ↔ clear k x = base := by
  constructor
  · rintro ⟨hl, hr⟩
    have hle := clear_le k x
    have hlt := lt_clear_add k x
    obtain h | h | h := Nat.lt_trichotomy (clear k x) base
    · have := add_le_of_lt (clear_dvd k x) hb h
      omega
    · exact h
    · have := add_le_of_lt hb (clear_dvd k x) h
      omega
  · rintro rfl
    exact ⟨clear_le k x, lt_clear_add k x⟩

theorem disjoint_of_base_not_mem {m n a b : Nat} (hmn : m ≤ n) (ha : 2 ^ m ∣ a) (hb : 2 ^ n ∣ b)
    (h : a ∉ block n b) : Disjoint (block m a) (block n b) := by
  have hb' : 2 ^ m ∣ b := (Nat.pow_dvd_pow 2 hmn).trans hb
  rw [Set.disjoint_left]
  rintro x ⟨hal, har⟩ ⟨hbl, hbr⟩
  have hab : a < b := by
    by_contra hge
    exact h ⟨by omega, by omega⟩
  have := add_le_of_lt ha hb' hab
  omega

theorem disjoint_of_bases_not_mem {m n a b : Nat} (ha : 2 ^ m ∣ a) (hb : 2 ^ n ∣ b)
    (hab : a ∉ block n b) (hba : b ∉ block m a) : Disjoint (block m a) (block n b) := by
  obtain h | h := Nat.le_total m n
  · exact disjoint_of_base_not_mem h ha hb hab
  · exact (disjoint_of_base_not_mem h hb ha hba).symm

theorem block_subset_of_ends {m n a b : Nat} (h0 : a ∈ block n b) (h1 : a + 2 ^ m - 1 ∈ block n b) :
    block m a ⊆ block n b := by
  rintro x ⟨hl, hr⟩
  have hb := h0.1
  have hr' := h1.2
  exact ⟨by omega, by omega⟩

theorem base_mem_block (k base : Nat) : base ∈ block k base :=
  ⟨Nat.le_refl base, Nat.lt_add_of_pos_right (Nat.two_pow_pos k)⟩

end Polaris.Lib.PrefixBlock
