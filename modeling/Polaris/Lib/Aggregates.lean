import Polaris.Lib.Rollup
import Mathlib

namespace Polaris.Lib.Aggregates

open Polaris.Lib.Rollup

variable {α β κ : Type*}

section Definitions

/-- `AVG`, which is null on no rows. -/
def mean (xs : List ℚ) : Option ℚ := if xs = [] then none else some (xs.sum / xs.length)

/-- `(ARRAY_AGG(col ORDER BY order) FILTER (WHERE col IS NOT NULL))[1]`. -/
def first (order : α → Int) (col : α → Option β) (rows : List α) : Option β :=
  ((rows.filter fun r => (col r).isSome).insertionSort fun a b => order a ≤ order b).head?.bind col

/-- `SUM(avg * weight) / NULLIF(SUM(weight), 0)`, where a null average drops
out of the first sum only. -/
def weightedMean (parts : List (Option ℚ × Nat)) : Option ℚ :=
  let products := parts.filterMap fun part => part.1.map (· * (part.2 : ℚ))
  let total := (parts.map (·.2)).sum
  if products = [] ∨ total = 0 then none else some (products.sum / total)

end Definitions

section Sums

variable [DecidableEq κ] {M : Type*} [AddCommMonoid M] {part : α → κ} {ks : List κ} {rows : List α}

theorem sum_indicator (hn : ks.Nodup) {k : κ} (hk : k ∈ ks) (x : M) :
    (ks.map fun j => if k = j then x else 0).sum = x := by
  induction ks with
  | nil => cases hk
  | cons j js ih =>
    obtain ⟨hj, hjs⟩ := List.nodup_cons.mp hn
    rw [List.map_cons, List.sum_cons]
    by_cases hkj : k = j
    · subst hkj
      have hrest : (js.map fun j => if k = j then x else 0) = js.map fun _ => 0 :=
        List.map_congr_left fun i hi => if_neg fun (h : k = i) => hj (h ▸ hi)
      simp [hrest]
    · rw [if_neg hkj, zero_add]
      exact ih hjs ((List.mem_cons.mp hk).resolve_left hkj)

/-- Summing over the parts, and in each part over its rows, is summing over
the rows. -/
theorem sum_parts (hn : ks.Nodup) (hmem : ∀ r ∈ rows, part r ∈ ks) (f : α → M) :
    (ks.map fun k => ((group part k rows).map f).sum).sum = (rows.map f).sum := by
  induction rows with
  | nil => simp [group]
  | cons r rs ih =>
    have hsplit : (ks.map fun k => ((group part k (r :: rs)).map f).sum) =
        ks.map fun k => (if part r = k then f r else 0) + ((group part k rs).map f).sum := by
      refine List.map_congr_left fun k _ => ?_
      by_cases hk : part r = k <;> simp [group, hk]
    rw [hsplit, List.sum_map_add, sum_indicator hn (hmem r (by simp)),
      ih (fun a ha => hmem a (by simp [ha])), List.map_cons, List.sum_cons]

theorem sum_filterMap (val : α → Option M) (rows : List α) :
    (rows.filterMap val).sum = (rows.map fun r => (val r).getD 0).sum := by
  induction rows with
  | nil => rfl
  | cons r rs ih => cases h : val r <;> simp [h, ih]

theorem sum_map_filter (p : α → Bool) (f : α → M) (rows : List α) :
    ((rows.filter p).map f).sum = (rows.map fun r => if p r then f r else 0).sum := by
  induction rows with
  | nil => rfl
  | cons r rs ih => cases h : p r <;> simp [h, ih]

theorem length_parts (hn : ks.Nodup) (hmem : ∀ r ∈ rows, part r ∈ ks) (p : α → Bool) :
    (ks.map fun k => ((group part k rows).filter p).length).sum = (rows.filter p).length := by
  have hlen : ∀ l : List α, (l.filter p).length = (l.map fun r => if p r then 1 else 0).sum := by
    intro l
    rw [← sum_map_filter, List.map_const', List.sum_replicate, nsmul_eq_mul, mul_one, Nat.cast_id]
  simp only [hlen]
  exact sum_parts hn hmem _

end Sums

section Extremes

variable [DecidableEq κ] [LinearOrder β] {part : α → κ} {ks : List κ} {rows : List α}
  {val : α → Option β}

omit [LinearOrder β] in
theorem mem_filterMap_group {k : κ} {x : β} :
    x ∈ (group part k rows).filterMap val ↔ ∃ r ∈ rows, part r = k ∧ val r = some x := by
  simp [group, and_assoc]

theorem min_parts (hmem : ∀ r ∈ rows, part r ∈ ks) :
    (ks.filterMap fun k => ((group part k rows).filterMap val).min?).min? =
      (rows.filterMap val).min? := by
  refine Option.ext fun x => ?_
  rw [List.min?_eq_some_iff, List.min?_eq_some_iff]
  constructor
  · rintro ⟨hx, hle⟩
    obtain ⟨k, hk, hmin⟩ := List.mem_filterMap.mp hx
    obtain ⟨hxk, -⟩ := List.min?_eq_some_iff.mp hmin
    obtain ⟨r, hr, -, hval⟩ := mem_filterMap_group.mp hxk
    refine ⟨List.mem_filterMap.mpr ⟨r, hr, hval⟩, fun y hy => ?_⟩
    obtain ⟨a, ha, hy⟩ := List.mem_filterMap.mp hy
    cases hmin' : ((group part (part a) rows).filterMap val).min? with
    | none =>
      rw [List.min?_eq_none_iff, List.eq_nil_iff_forall_not_mem] at hmin'
      exact absurd (mem_filterMap_group.mpr ⟨a, ha, rfl, hy⟩) (hmin' y)
    | some z =>
      have hz := hle z (List.mem_filterMap.mpr ⟨part a, hmem a ha, hmin'⟩)
      exact hz.trans ((List.min?_eq_some_iff.mp hmin').2 y (mem_filterMap_group.mpr ⟨a, ha, rfl, hy⟩))
  · rintro ⟨hx, hle⟩
    obtain ⟨r, hr, hval⟩ := List.mem_filterMap.mp hx
    have hgroup : ∀ k, ∀ y ∈ (group part k rows).filterMap val, x ≤ y := by
      intro k y hy
      obtain ⟨a, ha, -, hy⟩ := mem_filterMap_group.mp hy
      exact hle y (List.mem_filterMap.mpr ⟨a, ha, hy⟩)
    refine ⟨List.mem_filterMap.mpr ⟨part r, hmem r hr, ?_⟩, fun y hy => ?_⟩
    · exact List.min?_eq_some_iff.mpr ⟨mem_filterMap_group.mpr ⟨r, hr, rfl, hval⟩, hgroup _⟩
    · obtain ⟨k, -, hmin⟩ := List.mem_filterMap.mp hy
      exact hgroup k y (List.min?_eq_some_iff.mp hmin).1

theorem max_parts (hmem : ∀ r ∈ rows, part r ∈ ks) :
    (ks.filterMap fun k => ((group part k rows).filterMap val).max?).max? =
      (rows.filterMap val).max? := by
  have hdual : ∀ xs : List β, xs.max? = @List.min? βᵒᵈ _ xs := by
    intro xs
    cases xs <;> rfl
  simp only [hdual]
  exact @min_parts α βᵒᵈ κ _ _ part ks rows val hmem

end Extremes

section Firsts

variable {order : α → Int} {col : α → Option β} {rows : List α}

theorem first_head {r : α}
    (h : ((rows.filter fun r => (col r).isSome).insertionSort fun a b => order a ≤ order b).head? =
      some r) :
    r ∈ rows ∧ (col r).isSome ∧ ∀ a ∈ rows, col a ≠ none → order r ≤ order a := by
  obtain ⟨tail, htail⟩ := List.head?_eq_some_iff.mp h
  have hperm := List.perm_insertionSort (fun a b => order a ≤ order b)
    (rows.filter fun r => (col r).isSome)
  have hmem : ∀ a, a ∈ r :: tail ↔ a ∈ rows ∧ (col a).isSome := by
    intro a
    rw [← htail, hperm.mem_iff, List.mem_filter]
  have htotal : Std.Total fun a b : α => order a ≤ order b := ⟨fun a b => le_total _ _⟩
  have htrans : IsTrans α fun a b : α => order a ≤ order b := ⟨fun _ _ _ => le_trans⟩
  have hsorted := List.pairwise_insertionSort (fun a b => order a ≤ order b)
    (rows.filter fun r => (col r).isSome)
  rw [htail, List.pairwise_cons] at hsorted
  obtain ⟨hr, hsome⟩ := (hmem r).mp (by simp)
  refine ⟨hr, hsome, fun a ha hne => ?_⟩
  obtain rfl | hin := List.mem_cons.mp ((hmem a).mpr ⟨ha, Option.isSome_iff_ne_none.mpr hne⟩)
  · exact le_refl _
  · exact hsorted.1 a hin

theorem first_eq_none_iff : first order col rows = none ↔ ∀ r ∈ rows, col r = none := by
  unfold first
  cases h : ((rows.filter fun r => (col r).isSome).insertionSort
      fun a b => order a ≤ order b).head? with
  | none =>
    have hnil : rows.filter (fun r => (col r).isSome) = [] := by
      have hlen := List.length_insertionSort (fun a b => order a ≤ order b)
        (rows.filter fun r => (col r).isSome)
      rw [List.head?_eq_none_iff.mp h] at hlen
      exact List.eq_nil_of_length_eq_zero hlen.symm
    simpa [List.filter_eq_nil_iff] using hnil
  | some r =>
    obtain ⟨hr, hsome, -⟩ := first_head h
    refine ⟨fun hnone => ?_, fun hall => hall r hr⟩
    rw [Option.bind_some] at hnone
    simp [hnone] at hsome

theorem first_eq_some {v : β} (h : first order col rows = some v) :
    ∃ r ∈ rows, col r = some v ∧ ∀ a ∈ rows, col a ≠ none → order r ≤ order a := by
  obtain ⟨r, hr, hv⟩ := Option.bind_eq_some_iff.mp h
  obtain ⟨hmem, -, hle⟩ := first_head hr
  exact ⟨r, hmem, hv, hle⟩

theorem first_of_least {r : α} (hr : r ∈ rows) {v : β} (hv : col r = some v)
    (hle : ∀ a ∈ rows, col a ≠ none → order a ≤ order r → a = r) : first order col rows = some v := by
  cases h : first order col rows with
  | none =>
    rw [first_eq_none_iff.mp h r hr] at hv
    cases hv
  | some w =>
    obtain ⟨a, ha, hw, hfirst⟩ := first_eq_some h
    rw [hle a ha (by simp [hw]) (hfirst r hr (by simp [hv])), hv] at hw
    exact hw.symm

variable [DecidableEq κ] {part : α → κ} {ks : List κ} {partOrder : κ → Int}

/-- The parts come one after the other, so the first row of the first part
that has any is the first of all. -/
theorem first_parts (hmem : ∀ k, k ∈ ks ↔ ∃ r ∈ rows, part r = k)
    (hinj : ∀ a ∈ rows, ∀ b ∈ rows, order a = order b → a = b)
    (hpart : ∀ a ∈ rows, ∀ b ∈ rows, order a ≤ order b → partOrder (part a) ≤ partOrder (part b))
    (hparts : ∀ j ∈ ks, ∀ k ∈ ks, partOrder j = partOrder k → j = k) :
    first partOrder (fun k => first order col (group part k rows)) ks = first order col rows := by
  cases h : first order col rows with
  | none =>
    rw [first_eq_none_iff] at h ⊢
    exact fun k _ => first_eq_none_iff.mpr fun r hr => h r (List.mem_filter.mp hr).1
  | some v =>
    obtain ⟨r, hr, hv, hle⟩ := first_eq_some h
    have hgroup : ∀ {k a}, a ∈ group part k rows ↔ a ∈ rows ∧ part a = k := by
      simp [group]
    have hown : first order col (group part (part r) rows) = some v := by
      refine first_of_least (hgroup.mpr ⟨hr, rfl⟩) hv fun a ha hne hlt => ?_
      have hmemA := (hgroup.mp ha).1
      exact hinj a hmemA r hr (le_antisymm hlt (hle a hmemA hne))
    refine first_of_least ((hmem _).mpr ⟨r, hr, rfl⟩) hown fun k hk hne hlt => ?_
    have hsome : ∃ a ∈ rows, part a = k ∧ col a ≠ none := by
      by_contra hnone
      push Not at hnone
      refine hne (first_eq_none_iff.mpr fun a ha => ?_)
      exact hnone a (hgroup.mp ha).1 (hgroup.mp ha).2
    obtain ⟨a, ha, rfl, hcol⟩ := hsome
    have hge := hpart r hr a ha (hle a ha hcol)
    exact hparts _ hk _ ((hmem _).mpr ⟨r, hr, rfl⟩) (le_antisymm hlt hge)

theorem first_map {γ : Type*} {f : γ → α} {xs : List γ} :
    first order col (xs.map f) = first (fun x => order (f x)) (fun x => col (f x)) xs := by
  have hfilter : (xs.map f).filter (fun r => (col r).isSome) =
      (xs.filter fun x => (col (f x)).isSome).map f := by
    rw [List.filter_map]
    rfl
  have hsort := List.map_insertionSort (fun a b : γ => order (f a) ≤ order (f b))
    (fun a b : α => order a ≤ order b) f (xs.filter fun x => (col (f x)).isSome) (by simp)
  unfold first
  rw [hfilter, ← hsort, List.head?_map]
  cases (List.insertionSort (fun a b : γ => order (f a) ≤ order (f b))
    (xs.filter fun x => (col (f x)).isSome)).head? <;> rfl

section Sorted

variable {sorted : List α}

theorem first_of_sorted (hp : sorted.Perm rows) (hs : sorted.Pairwise fun a b => order a < order b) :
    first order col rows = (sorted.filterMap col).head? := by
  have hmem : ∀ a, a ∈ sorted ↔ a ∈ rows := fun a => hp.mem_iff
  cases h : (sorted.filterMap col).head? with
  | none =>
    rw [List.head?_eq_none_iff, List.filterMap_eq_nil_iff] at h
    exact first_eq_none_iff.mpr fun r hr => h r ((hmem r).mpr hr)
  | some v =>
    obtain ⟨tail, htail⟩ := List.head?_eq_some_iff.mp h
    obtain ⟨before, r, after, hsplit, hbefore, hv, -⟩ := List.filterMap_eq_cons_iff.mp htail
    have hr : r ∈ rows := (hmem r).mp (hsplit ▸ List.mem_append_right before List.mem_cons_self)
    refine first_of_least hr hv fun a ha hne hle => ?_
    rw [← hmem, hsplit, List.mem_append, List.mem_cons] at ha
    obtain hin | rfl | hin := ha
    · exact absurd (hbefore a hin) hne
    · rfl
    · rw [hsplit] at hs
      have hlt := (List.pairwise_cons.mp (List.pairwise_append.mp hs).2.1).1 a hin
      exact absurd hle (not_le.mpr hlt)

theorem last_of_sorted (hp : sorted.Perm rows) (hs : sorted.Pairwise fun a b => order a < order b) :
    first (fun r => -order r) col rows = (sorted.filterMap col).getLast? := by
  have hrev : sorted.reverse.Pairwise fun a b => -order a < -order b := by
    rw [List.pairwise_reverse]
    exact hs.imp fun h => neg_lt_neg h
  rw [first_of_sorted (sorted.reverse_perm.trans hp) hrev, List.filterMap_reverse, List.head?_reverse]

theorem max_of_sorted (hp : sorted.Perm rows) (hs : sorted.Pairwise fun a b => order a < order b) :
    (rows.map order).max? = sorted.getLast?.map order := by
  cases h : sorted.getLast? with
  | none =>
    rw [List.getLast?_eq_none_iff] at h
    subst h
    rw [hp.symm.eq_nil]
    rfl
  | some r =>
    obtain ⟨front, rfl⟩ := List.getLast?_eq_some_iff.mp h
    refine List.max?_eq_some_iff.mpr ⟨List.mem_map.mpr ⟨r, hp.subset (by simp), rfl⟩, fun y hy => ?_⟩
    obtain ⟨a, ha, rfl⟩ := List.mem_map.mp hy
    obtain hin | hin := List.mem_append.mp (hp.symm.subset ha)
    · exact ((List.pairwise_append.mp hs).2.2 a hin r (by simp)).le
    · rw [List.mem_singleton.mp hin]

end Sorted

end Firsts

section Means

variable [DecidableEq κ] (part : α → κ) (counts : α → Bool) (val : α → Option ℚ) (rows : List α)

/-- The rows that count towards the weight of their part without a value. -/
def blanks : List α := rows.filter fun r => counts r && (val r).isNone

def partMean (k : κ) : ℚ := (mean ((group part k rows).filterMap val)).getD 0

/-- The rows without a value, each at the average of its part, average to the
average of all. A part without values counts as zero. -/
def Balanced : Prop :=
  ∀ x ∈ mean (rows.filterMap val),
    ((blanks counts val rows).map fun r => partMean part val rows (part r)).sum =
      (blanks counts val rows).length * x

variable {part counts val rows} {ks : List κ}

theorem balanced_of_no_blanks (h : blanks counts val rows = []) : Balanced part counts val rows := by
  intro x _
  simp [h]

theorem mean_mul_length (xs : List ℚ) : (mean xs).getD 0 * xs.length = xs.sum := by
  unfold mean
  by_cases h : xs = []
  · simp [h]
  · have : (xs.length : ℚ) ≠ 0 := by simpa using h
    simp [h, this]

theorem length_counts (hc : ∀ r ∈ rows, val r ≠ none → counts r = true) :
    (rows.filter counts).length = (rows.filterMap val).length + (blanks counts val rows).length := by
  induction rows with
  | nil => rfl
  | cons r rs ih =>
    unfold blanks at ih ⊢
    have ih := ih fun a ha => hc a (List.mem_cons_of_mem r ha)
    cases hv : val r with
    | none =>
      cases hr : counts r with
      | false => simp [hv, hr, ih]
      | true =>
        simp [hv, hr, ih]
        omega
    | some x =>
      have hr := hc r List.mem_cons_self (by simp [hv])
      simp [hv, hr, ih]
      omega

omit [DecidableEq κ] in
theorem sum_products (ks : List κ) (m : κ → Option ℚ) (w : κ → Nat) :
    ((ks.map fun k => (m k, w k)).filterMap fun p => p.1.map (· * (p.2 : ℚ))).sum =
      (ks.map fun k => (m k).getD 0 * w k).sum := by
  induction ks with
  | nil => rfl
  | cons k ks ih =>
    rw [List.filterMap_map] at ih ⊢
    cases h : m k <;> simp [h, ← ih]

theorem sum_blanks (hn : ks.Nodup) (hmem : ∀ r ∈ rows, part r ∈ ks) :
    (ks.map fun k => partMean part val rows k * (blanks counts val (group part k rows)).length).sum =
      ((blanks counts val rows).map fun r => partMean part val rows (part r)).sum := by
  have hblank : ∀ l : List α, ((blanks counts val l).map fun r => partMean part val rows (part r)).sum =
      (l.map fun r => if counts r && (val r).isNone then partMean part val rows (part r) else 0).sum :=
    sum_map_filter _ _
  rw [hblank, ← sum_parts hn hmem]
  refine congrArg List.sum (List.map_congr_left fun k _ => ?_)
  rw [← hblank]
  have hconst : (blanks counts val (group part k rows)).map (fun r => partMean part val rows (part r)) =
      (blanks counts val (group part k rows)).map fun _ => partMean part val rows k := by
    refine List.map_congr_left fun r hr => ?_
    have hk : part r = k := by
      have := (List.mem_filter.mp (List.mem_filter.mp hr).1).2
      simpa using this
    rw [hk]
  rw [hconst, List.map_const', List.sum_replicate, nsmul_eq_mul, mul_comm]

theorem sum_weighted (hn : ks.Nodup) (hmem : ∀ r ∈ rows, part r ∈ ks)
    (hc : ∀ r ∈ rows, val r ≠ none → counts r = true) :
    (ks.map fun k => partMean part val rows k * (((group part k rows).filter counts).length : ℚ)).sum =
      (rows.filterMap val).sum +
        ((blanks counts val rows).map fun r => partMean part val rows (part r)).sum := by
  have hsplit : ∀ k, partMean part val rows k * (((group part k rows).filter counts).length : ℚ) =
      ((group part k rows).filterMap val).sum +
        partMean part val rows k * (blanks counts val (group part k rows)).length := by
    intro k
    have hgroup : ∀ r ∈ group part k rows, val r ≠ none → counts r = true :=
      fun r hr => hc r (List.mem_filter.mp hr).1
    rw [length_counts hgroup, Nat.cast_add, mul_add]
    exact congrArg (· + _) (mean_mul_length _)
  simp only [hsplit]
  rw [List.sum_map_add, sum_blanks hn hmem]
  simp only [sum_filterMap]
  rw [sum_parts hn hmem]

/-- The averages of the parts, weighted by all rows that count: a row without
a value adds the average of its part. -/
theorem weightedMean_parts (hn : ks.Nodup) (hmem : ∀ r ∈ rows, part r ∈ ks)
    (hc : ∀ r ∈ rows, val r ≠ none → counts r = true) :
    weightedMean (ks.map fun k => (mean ((group part k rows).filterMap val),
        ((group part k rows).filter counts).length)) =
      if rows.filterMap val = [] then none
      else some (((rows.filterMap val).sum +
        ((blanks counts val rows).map fun r => partMean part val rows (part r)).sum) /
          (((rows.filterMap val).length + (blanks counts val rows).length : ℕ) : ℚ)) := by
  have hsum := sum_products ks (fun k => mean ((group part k rows).filterMap val))
    (fun k => ((group part k rows).filter counts).length)
  have hweighted := sum_weighted hn hmem hc
  have htotal := length_parts hn hmem counts
  rw [length_counts hc] at htotal
  by_cases hv : rows.filterMap val = []
  · have hnone : ∀ k, mean ((group part k rows).filterMap val) = none := by
      intro k
      have hk : (group part k rows).filterMap val = [] := by
        rw [List.filterMap_eq_nil_iff] at hv ⊢
        exact fun r hr => hv r (List.mem_filter.mp hr).1
      simp [mean, hk]
    have hproducts : ((ks.map fun k => (mean ((group part k rows).filterMap val),
        ((group part k rows).filter counts).length)).filterMap
          fun p => p.1.map (· * (p.2 : ℚ))) = [] := by
      simp [hnone]
    rw [if_pos hv]
    exact if_pos (.inl hproducts)
  · have hproducts : ((ks.map fun k => (mean ((group part k rows).filterMap val),
        ((group part k rows).filter counts).length)).filterMap
          fun p => p.1.map (· * (p.2 : ℚ))) ≠ [] := by
      obtain ⟨x, hx⟩ := List.exists_mem_of_ne_nil _ hv
      obtain ⟨r, hr, hval⟩ := List.mem_filterMap.mp hx
      have hgroup : (group part (part r) rows).filterMap val ≠ [] :=
        List.ne_nil_of_mem (mem_filterMap_group.mpr ⟨r, hr, rfl, hval⟩)
      rw [Ne, List.filterMap_eq_nil_iff]
      intro hall
      have := hall _ (List.mem_map.mpr ⟨part r, hmem r hr, rfl⟩)
      simp [mean, hgroup] at this
    have hpos : 0 < (rows.filterMap val).length := List.length_pos_iff.mpr hv
    have htotal' : ((ks.map fun k => (mean ((group part k rows).filterMap val),
        ((group part k rows).filter counts).length)).map (·.2)).sum =
          (rows.filterMap val).length + (blanks counts val rows).length := by
      rw [List.map_map]
      exact htotal
    unfold weightedMean
    rw [if_neg hv, if_neg (not_or.mpr ⟨hproducts, by omega⟩), htotal', hsum]
    exact congrArg (fun x => some (x / _)) hweighted

theorem weightedMean_parts_iff (hn : ks.Nodup) (hmem : ∀ r ∈ rows, part r ∈ ks)
    (hc : ∀ r ∈ rows, val r ≠ none → counts r = true) :
    weightedMean (ks.map fun k => (mean ((group part k rows).filterMap val),
        ((group part k rows).filter counts).length)) = mean (rows.filterMap val) ↔
      Balanced part counts val rows := by
  rw [weightedMean_parts hn hmem hc]
  by_cases hv : rows.filterMap val = []
  · have hmean : mean (rows.filterMap val) = none := if_pos hv
    rw [if_pos hv, hmean]
    refine iff_of_true rfl fun x hx => ?_
    rw [hmean] at hx
    cases hx
  · have hn' : ((rows.filterMap val).length : ℚ) ≠ 0 := by simpa using hv
    have hpos : 0 < (rows.filterMap val).length := List.length_pos_iff.mpr hv
    have hcast : ((((rows.filterMap val).length + (blanks counts val rows).length : ℕ) : ℚ)) ≠ 0 := by
      rw [Nat.cast_ne_zero]
      omega
    have hmean : mean (rows.filterMap val) =
        some ((rows.filterMap val).sum / (rows.filterMap val).length) := if_neg hv
    unfold Balanced
    rw [if_neg hv, hmean]
    simp only [Option.some.injEq, Option.mem_def, forall_eq']
    rw [div_eq_div_iff hcast hn', mul_div_assoc', eq_div_iff hn', Nat.cast_add]
    constructor
    · intro h
      linear_combination h
    · intro h
      linear_combination h

end Means

end Polaris.Lib.Aggregates
