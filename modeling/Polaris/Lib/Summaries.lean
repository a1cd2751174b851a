import Polaris.Lib.Aggregates

namespace Polaris.Lib.Summaries

open Polaris.Lib.Rollup Polaris.Lib.Aggregates

variable {α β κ : Type*}

section Definitions

/-- The average of averages, where one that is missing weighs nothing. -/
def valuedMean (parts : List (Option ℚ × Nat)) : Option ℚ :=
  let total := (parts.map fun p => if p.1.isSome then p.2 else 0).sum
  if total = 0 then none else some ((parts.filterMap fun p => p.1.map (· * (p.2 : ℚ))).sum / total)

variable [DecidableEq κ] (part : α → κ) (counts : α → Bool) (val full : α → Option ℚ) (rows : List α)

def weighs (r : α) : Bool := counts r && (mean ((group part (part r) rows).filterMap val)).isSome

def filled : List α := rows.filter fun r => (val r).isNone && (full r).isSome

def fillOf (r : α) : ℚ := (full r).getD 0

def shift (x : ℚ) (f : α → ℚ) (rows : List α) : ℚ := (rows.map fun r => f r - x).sum

/-- The rows that weigh in a part without a value move the average, each at
the average of its part, as much as the values that only the full data has. -/
def Matched : Prop :=
  (rows.filterMap val = [] → rows.filterMap full = []) ∧
    ∀ x ∈ mean (rows.filterMap full),
      shift x (fun r => partMean part val rows (part r)) (blanks (weighs part counts val rows) val rows) =
        shift x (fillOf full) (filled val full rows)

/-- No value that only the full data has is above all others. -/
def Topped : Prop := ∀ r ∈ rows, ∀ x ∈ full r, ∃ a ∈ rows, ∃ y ∈ val a, x ≤ y

end Definitions

section Order

variable {xs ys : List ℚ}

theorem mean_perm (h : xs.Perm ys) : mean xs = mean ys := by
  have hnil : xs = [] ↔ ys = [] := ⟨fun hx => (hx ▸ h).symm.eq_nil, fun hy => (hy ▸ h).eq_nil⟩
  simp only [mean, h.sum_eq, h.length_eq, hnil]

theorem valuedMean_perm {ps qs : List (Option ℚ × Nat)} (h : ps.Perm qs) : valuedMean ps = valuedMean qs := by
  have htotal := (h.map fun p => if p.1.isSome then p.2 else 0).sum_eq
  have hsum := (h.filterMap fun p => p.1.map (· * (p.2 : ℚ))).sum_eq
  simp only [valuedMean, htotal, hsum]

variable [LinearOrder β]

theorem min?_perm {xs ys : List β} (h : xs.Perm ys) : xs.min? = ys.min? := by
  refine Option.ext fun x => ?_
  simp only [List.min?_eq_some_iff, h.mem_iff]

theorem max?_perm {xs ys : List β} (h : xs.Perm ys) : xs.max? = ys.max? := by
  refine Option.ext fun x => ?_
  simp only [List.max?_eq_some_iff, h.mem_iff]

theorem foldl_min (f : α → Option β) (rows : List α) (least : Option β) :
    rows.foldl (fun m r => Option.merge min m (f r)) least =
      Option.merge min least (rows.filterMap f).min? := by
  induction rows generalizing least with
  | nil => simp
  | cons r rows ih =>
    rw [List.foldl_cons, ih]
    cases hr : f r with
    | none => simp [hr]
    | some x =>
      rw [List.filterMap_cons_some hr, List.min?_cons]
      cases least <;> cases (rows.filterMap f).min? <;> simp [min_assoc]

theorem foldl_max (f : α → Option β) (rows : List α) (most : Option β) :
    rows.foldl (fun m r => Option.merge max m (f r)) most =
      Option.merge max most (rows.filterMap f).max? := by
  induction rows generalizing most with
  | nil => simp
  | cons r rows ih =>
    rw [List.foldl_cons, ih]
    cases hr : f r with
    | none => simp [hr]
    | some x =>
      rw [List.filterMap_cons_some hr, List.max?_cons]
      cases most <;> cases (rows.filterMap f).max? <;> simp [max_assoc]

theorem foldl_sum (f : α → Nat) (rows : List α) (n : Nat) :
    rows.foldl (fun n r => n + f r) n = n + (rows.map f).sum := by
  induction rows generalizing n with
  | nil => rfl
  | cons r rows ih =>
    rw [List.foldl_cons, ih, List.map_cons, List.sum_cons, Nat.add_assoc]

end Order

section Parts

variable [DecidableEq κ] {part : α → κ} {counts : α → Bool} {val full : α → Option ℚ} {rows : List α}
  {ks : List κ}

omit [DecidableEq κ] in
theorem valuedMean_eq (ks : List κ) (m : κ → Option ℚ) (w : κ → Nat) :
    valuedMean (ks.map fun k => (m k, w k)) =
      weightedMean (ks.map fun k => (m k, if (m k).isSome then w k else 0)) := by
  have hproducts : (ks.map fun k => (m k, w k)).filterMap (fun p => p.1.map (· * (p.2 : ℚ))) =
      (ks.map fun k => (m k, if (m k).isSome then w k else 0)).filterMap fun p =>
        p.1.map (· * (p.2 : ℚ)) := by
    rw [List.filterMap_map, List.filterMap_map]
    refine List.filterMap_congr fun k _ => ?_
    cases hk : m k <;> simp [hk]
  have htotal : (ks.map fun k => (m k, w k)).map (fun p => if p.1.isSome then p.2 else 0) =
      (ks.map fun k => (m k, if (m k).isSome then w k else 0)).map (·.2) := by
    rw [List.map_map, List.map_map]
    rfl
  unfold valuedMean weightedMean
  rw [hproducts, htotal]
  by_cases hzero : ((ks.map fun k => (m k, if (m k).isSome then w k else 0)).map (·.2)).sum = 0
  · simp only [hzero, or_true, if_true]
  · have hne : (ks.map fun k => (m k, if (m k).isSome then w k else 0)).filterMap
        (fun p => p.1.map (· * (p.2 : ℚ))) ≠ [] := by
      intro hnil
      refine hzero (List.sum_eq_zero fun n hn => ?_)
      obtain ⟨p, hp, rfl⟩ := List.mem_map.mp hn
      obtain ⟨k, hk, rfl⟩ := List.mem_map.mp hp
      have hnone : m k = none :=
        Option.map_eq_none_iff.mp (List.filterMap_eq_nil_iff.mp hnil _ (List.mem_map_of_mem hk))
      simp [hnone]
    simp only [hzero, hne, or_false, if_false]

theorem filter_weighs (k : κ) : ((group part k rows).filter (weighs part counts val rows)).length =
    if (mean ((group part k rows).filterMap val)).isSome then ((group part k rows).filter counts).length
      else 0 := by
  have hpart : ∀ r ∈ group part k rows, part r = k := fun r hr => of_decide_eq_true (List.mem_filter.mp hr).2
  split_ifs with hk
  · congr 1
    refine List.filter_congr fun r hr => ?_
    rw [weighs, hpart r hr, hk, Bool.and_true]
  · rw [List.length_eq_zero_iff, List.filter_eq_nil_iff]
    intro r hr
    rw [weighs, hpart r hr, Bool.eq_false_iff.mpr hk, Bool.and_false]
    exact Bool.false_ne_true

theorem weighs_of_value (hc : ∀ r ∈ rows, val r ≠ none → counts r = true) {r : α} (hr : r ∈ rows)
    (hv : val r ≠ none) :
    weighs part counts val rows r = true := by
  have hne : (group part (part r) rows).filterMap val ≠ [] := by
    obtain ⟨x, hx⟩ := Option.ne_none_iff_exists'.mp hv
    exact List.ne_nil_of_mem (mem_filterMap_group.mpr ⟨r, hr, rfl, hx⟩)
  simp [weighs, hc r hr hv, mean, hne]

theorem full_split (hfull : ∀ r, ∀ x ∈ val r, full r = some x) (rows : List α) :
    (rows.filterMap full).sum = (rows.filterMap val).sum + ((filled val full rows).map (fillOf full)).sum ∧
      (rows.filterMap full).length = (rows.filterMap val).length + (filled val full rows).length := by
  induction rows with
  | nil => simp [filled]
  | cons r rows ih =>
    obtain ⟨hsum, hlength⟩ := ih
    unfold filled at hsum hlength ⊢
    cases hv : val r with
    | some x =>
      have hx := hfull r x hv
      simp only [List.filterMap_cons, hv, hx, List.filter_cons, Option.isNone_some, Bool.false_and,
        Bool.false_eq_true, if_false, List.sum_cons, List.length_cons, hsum, hlength]
      exact ⟨by ring, by omega⟩
    | none =>
      cases hf : full r with
      | none => simp [hv, hf, hsum, hlength]
      | some x =>
        simp only [List.filterMap_cons, hv, hf, List.filter_cons, Option.isNone_none, Option.isSome_some,
          Bool.and_true, if_true, List.sum_cons, List.length_cons, List.map_cons, fillOf, Option.getD_some,
          hsum, hlength]
        exact ⟨by ring, by omega⟩

theorem shift_eq (x : ℚ) (f : α → ℚ) (rows : List α) :
    shift x f rows = (rows.map f).sum - rows.length * x := by
  unfold shift
  induction rows with
  | nil => simp
  | cons r rows ih =>
    simp only [List.map_cons, List.sum_cons, ih, List.length_cons, Nat.cast_add, Nat.cast_one]
    ring

theorem valuedMean_parts_iff (hn : ks.Nodup) (hmem : ∀ r ∈ rows, part r ∈ ks)
    (hc : ∀ r ∈ rows, val r ≠ none → counts r = true) (hfull : ∀ r, ∀ x ∈ val r, full r = some x) :
    valuedMean (ks.map fun k => (mean ((group part k rows).filterMap val),
      ((group part k rows).filter counts).length)) =
        mean (rows.filterMap full) ↔ Matched part counts val full rows := by
  have hweights : valuedMean (ks.map fun k =>
      (mean ((group part k rows).filterMap val), ((group part k rows).filter counts).length)) =
        weightedMean (ks.map fun k => (mean ((group part k rows).filterMap val),
          ((group part k rows).filter (weighs part counts val rows)).length)) := by
    simp only [filter_weighs]
    exact valuedMean_eq ks _ _
  obtain ⟨hsum, hlength⟩ := full_split hfull rows
  rw [hweights, weightedMean_parts hn hmem fun r hr => weighs_of_value hc hr]
  unfold Matched
  by_cases hv : rows.filterMap val = []
  · rw [if_pos hv]
    by_cases hf : rows.filterMap full = []
    · have hmean : mean (rows.filterMap full) = none := if_pos hf
      rw [hmean]
      refine iff_of_true rfl ⟨fun _ => hf, fun x hx => ?_⟩
      cases hx
    · have hmean : mean (rows.filterMap full) = some _ := if_neg hf
      rw [hmean]
      exact iff_of_false (by rintro ⟨⟩) fun h => hf (h.1 hv)
  · have hpos : 0 < (rows.filterMap val).length := List.length_pos_iff.mpr hv
    have hf : rows.filterMap full ≠ [] := List.length_pos_iff.mp (by omega)
    have hmean : mean (rows.filterMap full) =
        some ((rows.filterMap full).sum / (rows.filterMap full).length) :=
      if_neg hf
    have hcast : ((((rows.filterMap val).length +
        (blanks (weighs part counts val rows) val rows).length : ℕ) : ℚ)) ≠ 0 := by
      rw [Nat.cast_ne_zero]
      omega
    have hcast' : (((rows.filterMap full).length : ℕ) : ℚ) ≠ 0 := by
      rw [Nat.cast_ne_zero]
      omega
    rw [if_neg hv, hmean, and_iff_right fun h => absurd h hv]
    simp only [Option.some.injEq, Option.mem_def, forall_eq', shift_eq]
    have hmul : (rows.filterMap full).sum / (rows.filterMap full).length * (rows.filterMap full).length =
        (rows.filterMap full).sum := div_mul_cancel₀ _ hcast'
    rw [div_eq_iff hcast]
    generalize (rows.filterMap full).sum / (rows.filterMap full).length = x at hmul ⊢
    rw [hsum, hlength] at hmul
    push_cast at hmul ⊢
    constructor
    · intro h
      linear_combination h + hmul
    · intro h
      linear_combination h - hmul

omit [DecidableEq κ] in
theorem max_full_iff (hfull : ∀ r, ∀ x ∈ val r, full r = some x) :
    (rows.filterMap val).max? = (rows.filterMap full).max? ↔ Topped val full rows := by
  constructor
  · intro h r hr x hx
    have hin : x ∈ rows.filterMap full := List.mem_filterMap.mpr ⟨r, hr, hx⟩
    obtain ⟨M, hM⟩ := Option.isSome_iff_exists.mp (List.isSome_max?_of_ne_nil (List.ne_nil_of_mem hin))
    have hle := (List.max?_eq_some_iff.mp hM).2 x hin
    rw [← h] at hM
    obtain ⟨a, ha, hy⟩ := List.mem_filterMap.mp (List.max?_eq_some_iff.mp hM).1
    exact ⟨a, ha, M, hy, hle⟩
  · intro h
    refine Option.ext fun M => ?_
    rw [List.max?_eq_some_iff, List.max?_eq_some_iff]
    constructor
    · rintro ⟨hM, hle⟩
      obtain ⟨a, ha, hval⟩ := List.mem_filterMap.mp hM
      refine ⟨List.mem_filterMap.mpr ⟨a, ha, hfull a M hval⟩, fun x hx => ?_⟩
      obtain ⟨r, hr, hx⟩ := List.mem_filterMap.mp hx
      obtain ⟨b, hb, y, hy, hxy⟩ := h r hr x hx
      exact hxy.trans (hle y (List.mem_filterMap.mpr ⟨b, hb, hy⟩))
    · rintro ⟨hM, hle⟩
      obtain ⟨r, hr, hx⟩ := List.mem_filterMap.mp hM
      obtain ⟨a, ha, y, hy, hMy⟩ := h r hr M hx
      have hyM := hle y (List.mem_filterMap.mpr ⟨a, ha, hfull a y hy⟩)
      rw [le_antisymm hMy hyM]
      refine ⟨List.mem_filterMap.mpr ⟨a, ha, hy⟩, fun z hz => ?_⟩
      obtain ⟨b, hb, hz⟩ := List.mem_filterMap.mp hz
      rw [← le_antisymm hMy hyM]
      exact hle z (List.mem_filterMap.mpr ⟨b, hb, hfull b z hz⟩)

end Parts

end Polaris.Lib.Summaries
