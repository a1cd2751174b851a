import Mathlib.Algebra.Order.Ring.Nat
import Mathlib.Data.List.TakeDrop
import Mathlib.Tactic.Ring

namespace Polaris.Lib.Paging

variable {α : Type} {size : Nat} {l : List α}

def page (size : Nat) (l : List α) (p : Nat) : List α := (l.drop ((p - 1) * size)).take size

def pageCount (total size : Nat) : Nat := (total + size - 1) / size

theorem le_pageCount (total : Nat) (hsize : 0 < size) : total ≤ pageCount total size * size := by
  have hdiv := Nat.div_add_mod (total + size - 1) size
  have hmod := Nat.mod_lt (total + size - 1) hsize
  rw [Nat.mul_comm] at hdiv
  rw [pageCount]
  omega

theorem flatMap_page (size : Nat) (l : List α)
    (n : Nat) : (List.range' 1 n).flatMap (page size l) = l.take (n * size) := by
  induction n with
  | zero => rw [Nat.zero_mul, List.take_zero]; rfl
  | succ n ih =>
    rw [List.range'_1_concat, List.flatMap_append, ih, List.flatMap_singleton, page, Nat.add_sub_cancel_left,
      ← List.take_add,
      Nat.succ_mul]

/-- The pages of a list, one after another, are the list. -/
theorem flatMap_pages (hsize : 0 < size) (l : List α) :
    (List.range' 1 (pageCount l.length size)).flatMap (page size l) = l := by
  rw [flatMap_page, List.take_of_length_le (le_pageCount _ hsize)]

/-- A search page by page, which ends with the page that reaches the end. -/
def findPaged (size : Nat) (l : List α) (q : α → Bool) : Nat → Nat → Option α
  | 0, _ => none
  | fuel + 1, p =>
    match (page size l p).find? q with
    | some a => some a
    | none => if l.length ≤ p * size then none else findPaged size l q fuel (p + 1)

theorem drop_page (size : Nat) (l : List α) {p : Nat} (hp : 1 ≤ p) :
    l.drop ((p - 1) * size) = page size l p ++ l.drop (p * size) := by
  obtain ⟨n, rfl⟩ := Nat.exists_eq_add_of_le hp
  have hnext : (1 + n) * size = n * size + size := by ring
  rw [page, Nat.add_sub_cancel_left, hnext, ← List.drop_drop, List.take_append_drop]

theorem findPaged_eq {q : α → Bool} {fuel p : Nat} (hp : 1 ≤ p) (hfuel : l.length ≤ (p - 1 + fuel) * size) :
    findPaged size l q fuel p = (l.drop ((p - 1) * size)).find? q := by
  induction fuel generalizing p with
  | zero =>
    rw [Nat.add_zero] at hfuel
    rw [findPaged, List.drop_of_length_le hfuel]
    rfl
  | succ fuel ih =>
    rw [findPaged, drop_page size l hp, List.find?_append]
    cases hfind : (page size l p).find? q with
    | some a => rfl
    | none =>
      dsimp only
      rw [Option.none_or]
      split_ifs with hend
      · rw [List.drop_of_length_le hend]
        rfl
      · rw [ih (Nat.le_add_left 1 p), Nat.add_sub_cancel]
        have hsum : p + 1 - 1 + fuel = p - 1 + (fuel + 1) := by omega
        rw [hsum]
        exact hfuel

end Polaris.Lib.Paging
