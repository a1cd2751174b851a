import Mathlib.Data.List.Nodup
import Mathlib.Data.List.Perm.Basic

namespace Polaris.Lib.Slots

variable {busy : List Bool} {held : List Nat} {i : Nat}

def firstFree (busy : List Bool) : Option Nat := busy.findIdx? (! ·)

/-- The slots in use are the ones that are held, each of them once. -/
structure Exact (busy : List Bool) (held : List Nat) : Prop where
  nodup : held.Nodup
  mem : ∀ i, i ∈ held ↔ busy[i]? = some true
  count : busy.count true = held.length

theorem firstFree_eq_none : firstFree busy = none ↔ ∀ b ∈ busy, b = true := by
  simp [firstFree, List.findIdx?_eq_none_iff]

theorem firstFree_eq_some (h : firstFree busy = some i) : busy[i]? = some false := by
  obtain ⟨hi, hfree, -⟩ := List.findIdx?_eq_some_iff_getElem.mp h
  rw [List.getElem?_eq_getElem hi, (Bool.not_eq_true' _).mp hfree]

theorem exact_replicate (n : Nat) : Exact (List.replicate n false) [] where
  nodup := List.nodup_nil
  mem := fun i => by simp [List.getElem?_replicate]
  count := by simp [List.count_replicate]

theorem Exact.acquire (h : Exact busy held) (hi : firstFree busy = some i) :
    Exact (busy.set i true) (i :: held) := by
  have hfree := firstFree_eq_some hi
  obtain ⟨hlen, hget⟩ := List.getElem?_eq_some_iff.mp hfree
  refine ⟨List.nodup_cons.mpr ⟨fun hm => ?_, h.nodup⟩, fun j => ?_, ?_⟩
  · rw [(h.mem i).mp hm] at hfree
    cases hfree
  · rw [List.mem_cons, List.getElem?_set]
    by_cases hj : i = j
    · simp [hj, hj ▸ hlen]
    · rw [if_neg hj, ← h.mem j, or_iff_right (Ne.symm hj)]
  · rw [List.count_set hlen, hget, h.count, List.length_cons]
    simp

theorem Exact.perm (h : Exact busy held) {other : List Nat} (hp : held.Perm other) : Exact busy other :=
  ⟨hp.nodup_iff.mp h.nodup, fun i => hp.mem_iff.symm.trans (h.mem i), h.count.trans hp.length_eq⟩

theorem Exact.release (h : Exact busy (i :: held)) : Exact (busy.set i false) held := by
  obtain ⟨hnot, hnodup⟩ := List.nodup_cons.mp h.nodup
  obtain ⟨hlen, hget⟩ := List.getElem?_eq_some_iff.mp ((h.mem i).mp List.mem_cons_self)
  refine ⟨hnodup, fun j => ?_, ?_⟩
  · rw [List.getElem?_set]
    by_cases hj : i = j
    · simp [← hj, hnot, hlen]
    · rw [if_neg hj, ← h.mem j, List.mem_cons, or_iff_right (Ne.symm hj)]
  · rw [List.count_set hlen, hget, h.count, List.length_cons]
    simp

end Polaris.Lib.Slots
