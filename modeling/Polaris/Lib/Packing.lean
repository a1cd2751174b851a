import Mathlib.Algebra.Order.Ring.Nat
import Mathlib.Order.Interval.Finset.Nat
import Polaris.Lib.PrefixBlock

namespace Polaris.Lib.Packing

open Polaris.Lib.PrefixBlock

variable {k base : Nat} {bs : List (Nat × Nat)}

/-- The addresses of a list of blocks, each with its bits and its base. -/
def covered (bs : List (Nat × Nat)) : Finset Nat :=
  bs.foldr (fun b s => Finset.Ico b.2 (b.2 + 2 ^ b.1) ∪ s) ∅

theorem mem_covered {x : Nat} : x ∈ covered bs ↔ ∃ b ∈ bs, x ∈ block b.1 b.2 := by
  induction bs with
  | nil => simp [covered]
  | cons b bs ih =>
    rw [covered, List.foldr_cons, Finset.mem_union, ← covered, ih, Finset.mem_Ico]
    simp [block]

theorem card_covered (h : bs.Pairwise fun b c => Disjoint (block b.1 b.2) (block c.1 c.2)) :
    (covered bs).card = (bs.map fun b => 2 ^ b.1).sum := by
  induction bs with
  | nil => rfl
  | cons b bs ih =>
    obtain ⟨hb, hbs⟩ := List.pairwise_cons.mp h
    have hdisjoint : Disjoint (Finset.Ico b.2 (b.2 + 2 ^ b.1)) (covered bs) := by
      refine Finset.disjoint_left.mpr fun x hx hcovered => ?_
      obtain ⟨c, hc, hxc⟩ := mem_covered.mp hcovered
      exact Set.disjoint_left.mp (hb c hc) (Finset.mem_Ico.mp hx) hxc
    rw [covered, List.foldr_cons, ← covered, Finset.card_union_of_disjoint hdisjoint, ih hbs, Nat.card_Ico,
      List.map_cons, List.sum_cons, Nat.add_sub_cancel_left]

theorem sum_blocks_le (hin : ∀ b ∈ bs, block b.1 b.2 ⊆ block k base)
    (h : bs.Pairwise fun b c => Disjoint (block b.1 b.2) (block c.1 c.2)) :
    (bs.map fun b => 2 ^ b.1).sum ≤ 2 ^ k := by
  have hsub : covered bs ⊆ Finset.Ico base (base + 2 ^ k) := by
    intro x hx
    obtain ⟨b, hb, hxb⟩ := mem_covered.mp hx
    exact Finset.mem_Ico.mpr (hin b hb hxb)
  calc (bs.map fun b => 2 ^ b.1).sum = (covered bs).card := (card_covered h).symm
    _ ≤ (Finset.Ico base (base + 2 ^ k)).card := Finset.card_le_card hsub
    _ = 2 ^ k := by rw [Nat.card_Ico, Nat.add_sub_cancel_left]

end Polaris.Lib.Packing
