import Mathlib.Data.List.Basic

namespace Polaris.Lib.Assoc

variable {κ ν : Type} [DecidableEq κ]

/-- The value of a key in a list of entries, the first one counts. -/
def get (m : List (κ × ν)) (k : κ) : Option ν := (m.find? (·.1 = k)).map Prod.snd

/-- A key that is there keeps its place. -/
def set (m : List (κ × ν)) (k : κ) (v : ν) : List (κ × ν) :=
  if m.any (·.1 = k) then m.map fun p => if p.1 = k then (k, v) else p else m ++ [(k, v)]

variable (m : List (κ × ν)) (k k' : κ) (v : ν)

theorem get_isSome : (get m k).isSome = m.any (·.1 = k) := by
  rw [get, Option.isSome_map, Bool.eq_iff_iff, List.find?_isSome, List.any_eq_true]

theorem get_map_set : get (m.map fun p => if p.1 = k then (k, v) else p) k' =
    (get m k').map fun w => if k' = k then v else w := by
  induction m with
  | nil => rfl
  | cons p m ih =>
    rw [get, List.map_cons, List.find?_cons, get, List.find?_cons]
    by_cases hp : p.1 = k
    · rw [if_pos hp]
      by_cases hk : k = k'
      · simp [hp, hk]
      · rw [decide_eq_false hk, hp, decide_eq_false hk]
        exact ih
    · rw [if_neg hp]
      by_cases hk : p.1 = k'
      · have hne : ¬ k' = k := fun h => hp (hk.trans h)
        simp [hk, hne]
      · rw [decide_eq_false hk]
        exact ih

theorem get_set : get (set m k v) k' = if k' = k then some v else get m k' := by
  rw [set]
  by_cases hany : m.any (·.1 = k) = true
  · rw [if_pos hany, get_map_set]
    by_cases hk : k' = k
    · obtain ⟨w, hw⟩ := Option.isSome_iff_exists.mp ((get_isSome m k).trans hany)
      rw [hk, hw, if_pos rfl, Option.map_some, if_pos rfl]
    · rw [if_neg hk]
      simp only [hk, if_false, Option.map_id']
  · rw [if_neg hany, get, List.find?_append]
    by_cases hk : k' = k
    · have hnone : m.find? (·.1 = k') = none := by
        rw [List.find?_eq_none]
        intro p hp hpk
        exact hany (List.any_eq_true.mpr ⟨p, hp, hk ▸ hpk⟩)
      rw [if_pos hk, hnone, hk]
      simp
    · have hlast : [(k, v)].find? (fun p => decide (p.1 = k')) = none := by
        simp [Ne.symm hk]
      rw [if_neg hk, hlast, Option.or_none, get]

end Polaris.Lib.Assoc
