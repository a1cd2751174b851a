import Mathlib.Data.List.Perm.Basic

namespace Polaris.Lib.Worklist

variable {ι τ : Type}

/-- One pass over the pending items, from the last to the first. An item
that applies is taken off the list at once, so the ones after it in the
walk see its effect. -/
def pass (apply : ι → τ → Option τ) : List ι → τ → List ι × τ
  | [], t => ([], t)
  | i :: items, t =>
    let after := pass apply items t
    match apply i after.2 with
    | some t => (after.1, t)
    | none => (i :: after.1, after.2)

/-- Passes until one makes no progress or nothing is left. -/
def settle (apply : ι → τ → Option τ) : Nat → List ι → τ → τ
  | 0, _, t => t
  | n + 1, items, t =>
    let after := pass apply items t
    if after.1.length < items.length then settle apply n after.1 after.2 else after.2

/-- The items taken off one after another, each applying to the state the
ones before it left. -/
inductive Drains (apply : ι → τ → Option τ) : List ι → τ → List ι → τ → Prop
  | done (items : List ι) (t : τ) : Drains apply items t items t
  | take {items : List ι} {i : ι} {others rest : List ι} {t t' t'' : τ} (hi : items.Perm (i :: others))
      (happly : apply i t = some t') (h : Drains apply others t' rest t'') :
      Drains apply items t rest t''

variable {apply : ι → τ → Option τ} {items rest : List ι} {t t' : τ}

theorem Drains.trans {rest' : List ι} {t'' : τ} (h : Drains apply items t rest t')
    (h' : Drains apply rest t' rest' t'') : Drains apply items t rest' t'' := by
  induction h with
  | done => exact h'
  | take hi happly _ ih => exact .take hi happly (ih h')

theorem Drains.cons (i : ι) (h : Drains apply items t rest t') :
    Drains apply (i :: items) t (i :: rest) t' := by
  induction h with
  | done => exact .done _ _
  | take hi happly _ ih => exact .take ((hi.cons i).trans (List.Perm.swap _ _ _)) happly ih

theorem Drains.subperm (h : Drains apply items t rest t') : rest.Subperm items := by
  induction h with
  | done => exact List.Subperm.refl _
  | take hi _ _ ih => exact (ih.trans (List.sublist_cons_self _ _).subperm).trans hi.symm.subperm

theorem pass_drains (items : List ι) (t : τ) :
    Drains apply items t (pass apply items t).1 (pass apply items t).2 := by
  induction items with
  | nil => exact .done _ _
  | cons i items ih =>
    cases happly : apply i (pass apply items t).2 with
    | some t' =>
      simp only [pass, happly]
      exact (ih.cons i).trans (.take (.refl _) happly (.done _ _))
    | none =>
      simp only [pass, happly]
      exact ih.cons i

theorem pass_length_le (items : List ι) (t : τ) : (pass apply items t).1.length ≤ items.length :=
  (pass_drains items t).subperm.length_le

/-- A pass that takes nothing changes nothing, and every item had its turn. -/
theorem pass_stuck (h : ¬ (pass apply items t).1.length < items.length) :
    pass apply items t = (items, t) ∧ ∀ i ∈ items, apply i t = none := by
  induction items with
  | nil => exact ⟨rfl, by simp⟩
  | cons i items ih =>
    have hle : (pass apply items t).1.length ≤ items.length := pass_length_le items t
    cases happly : apply i (pass apply items t).2 with
    | some t' =>
      simp only [pass, happly, List.length_cons] at h
      omega
    | none =>
      simp only [pass, happly, List.length_cons, Nat.add_lt_add_iff_right] at h ⊢
      obtain ⟨hp, hall⟩ := ih h
      rw [hp] at happly ⊢
      exact ⟨rfl, List.forall_mem_cons.mpr ⟨happly, hall⟩⟩

/-- Settling takes items off until none of those left applies. -/
theorem settle_drains {n : Nat} (hn : items.length ≤ n) :
    ∃ rest, Drains apply items t rest (settle apply n items t) ∧
      ∀ i ∈ rest, apply i (settle apply n items t) = none := by
  induction n generalizing items t with
  | zero =>
    obtain rfl := List.length_eq_zero_iff.mp (Nat.le_zero.mp hn)
    exact ⟨[], .done _ _, by simp⟩
  | succ n ih =>
    by_cases hp : (pass apply items t).1.length < items.length
    · simp only [settle, if_pos hp]
      have hlen : (pass apply items t).1.length ≤ n := by omega
      obtain ⟨rest, hd, hr⟩ := ih (t := (pass apply items t).2) hlen
      exact ⟨rest, (pass_drains items t).trans hd, hr⟩
    · obtain ⟨he, hall⟩ := pass_stuck hp
      simp only [settle, if_neg hp]
      rw [he]
      exact ⟨items, .done _ _, hall⟩

end Polaris.Lib.Worklist
