import Mathlib.Data.List.Basic
import Mathlib.Data.List.Dedup

namespace Polaris.Lib.Rollup

variable {α ρ κ : Type*} [DecidableEq κ]

section Tables

variable (key : ρ → κ)

/-- A table with one row per key. A row whose key is taken replaces the row
that has it. -/
def upsert (row : ρ) : List ρ → List ρ
  | [] => [row]
  | r :: rs => if key r = key row then row :: rs else r :: upsert row rs

def lookup (k : κ) (table : List ρ) : Option ρ := table.find? (fun r => key r = k)

theorem lookup_cons (k : κ) (r : ρ) (rs : List ρ) :
    lookup key k (r :: rs) = if key r = k then some r else lookup key k rs := by
  unfold lookup
  by_cases h : key r = k <;> simp [h]

theorem lookup_eq_none {k : κ} {rs : List ρ} (h : k ∉ rs.map key) : lookup key k rs = none := by
  refine List.find?_eq_none.mpr fun r hr hk => h ?_
  exact of_decide_eq_true hk ▸ List.mem_map_of_mem hr

theorem lookup_upsert (k : κ) (row : ρ) (table : List ρ) :
    lookup key k (upsert key row table) = if key row = k then some row else lookup key k table := by
  induction table with
  | nil => exact lookup_cons key k row []
  | cons r rs ih =>
    unfold upsert
    by_cases hr : key r = key row
    · rw [if_pos hr, lookup_cons, lookup_cons, hr]
      by_cases hk : key row = k <;> simp [hk]
    · rw [if_neg hr, lookup_cons, lookup_cons, ih]
      by_cases hk : key r = k
      · have hne : key row ≠ k := fun h => hr (hk.trans h.symm)
        simp [hk, hne]
      · simp [hk]

theorem lookup_foldl_upsert (k : κ) (rows table : List ρ) (hnodup : (rows.map key).Nodup) :
    lookup key k (rows.foldl (fun t r => upsert key r t) table) =
      (lookup key k rows).or (lookup key k table) := by
  induction rows generalizing table with
  | nil => rfl
  | cons r rs ih =>
    obtain ⟨hr, hrs⟩ := List.nodup_cons.mp hnodup
    rw [List.foldl_cons, ih _ hrs, lookup_upsert, lookup_cons]
    by_cases hk : key r = k
    · simp [hk, lookup_eq_none key (hk ▸ hr)]
    · simp [hk]

theorem mem_of_mem_upsert {row r : ρ} {table : List ρ} (h : r ∈ upsert key row table) :
    r = row ∨ r ∈ table := by
  induction table with
  | nil => exact .inl (List.mem_singleton.mp h)
  | cons t ts ih =>
    unfold upsert at h
    split_ifs at h
    · exact (List.mem_cons.mp h).imp_right (List.mem_cons_of_mem t)
    · obtain rfl | h := List.mem_cons.mp h
      · exact .inr List.mem_cons_self
      · exact (ih h).imp_right (List.mem_cons_of_mem t)

theorem mem_of_mem_foldl_upsert {r : ρ} {rows table : List ρ}
    (h : r ∈ rows.foldl (fun t r => upsert key r t) table) : r ∈ rows ∨ r ∈ table := by
  induction rows generalizing table with
  | nil => exact .inr h
  | cons row rows ih =>
    obtain h | h := ih h
    · exact .inl (List.mem_cons_of_mem row h)
    · obtain rfl | h := mem_of_mem_upsert key h
      · exact .inl List.mem_cons_self
      · exact .inr h

theorem key_mem_upsert {k : κ} {row : ρ} {table : List ρ} :
    k ∈ (upsert key row table).map key ↔ k = key row ∨ k ∈ table.map key := by
  induction table with
  | nil => simp [upsert]
  | cons t ts ih =>
    unfold upsert
    split_ifs with ht
    · simp [ht]
    · rw [List.map_cons, List.mem_cons, ih, List.map_cons, List.mem_cons]
      exact or_left_comm

theorem key_mem_foldl_upsert {k : κ} {rows table : List ρ} :
    k ∈ (rows.foldl (fun t r => upsert key r t) table).map key ↔ k ∈ rows.map key ∨ k ∈ table.map key := by
  induction rows generalizing table with
  | nil => simp
  | cons row rows ih =>
    rw [List.foldl_cons, ih, key_mem_upsert, List.map_cons, List.mem_cons, or_assoc]
    exact or_left_comm

theorem nodup_upsert {row : ρ} {table : List ρ} (h : (table.map key).Nodup) :
    ((upsert key row table).map key).Nodup := by
  induction table with
  | nil => simp [upsert]
  | cons r rs ih =>
    obtain ⟨hr, hrs⟩ := List.nodup_cons.mp h
    unfold upsert
    by_cases hk : key r = key row
    · rw [if_pos hk, List.map_cons, ← hk]
      exact h
    · rw [if_neg hk, List.map_cons, List.nodup_cons, key_mem_upsert]
      exact ⟨fun hmem => hmem.elim hk hr, ih hrs⟩

theorem nodup_foldl_upsert {rows table : List ρ} (h : (table.map key).Nodup) :
    ((rows.foldl (fun t r => upsert key r t) table).map key).Nodup := by
  induction rows generalizing table with
  | nil => exact h
  | cons r rows ih => exact ih (nodup_upsert key h)

end Tables

section Groups

variable (key : α → κ)

def group (k : κ) (rows : List α) : List α := rows.filter (fun r => key r = k)

def keys (rows : List α) : List κ := (rows.map key).dedup

theorem mem_keys {k : κ} {rows : List α} : k ∈ keys key rows ↔ group key k rows ≠ [] := by
  simp [keys, group, List.filter_eq_nil_iff]

/-- `INSERT … SELECT … GROUP BY … ON CONFLICT DO UPDATE`: every group of the
selected rows is aggregated and upserted under its key. -/
def insertSelect (rowKey : ρ → κ) (aggregate : κ → List α → ρ) (rows : List α) (table : List ρ) :
    List ρ :=
  ((keys key rows).map (fun k => aggregate k (group key k rows))).foldl
    (fun t r => upsert rowKey r t) table

/-- A key with selected rows reads their aggregate, and any other key reads
what it read before. -/
theorem lookup_insertSelect {rowKey : ρ → κ} {aggregate : κ → List α → ρ}
    (hkey : ∀ k g, rowKey (aggregate k g) = k) (k : κ) (rows : List α) (table : List ρ) :
    lookup rowKey k (insertSelect key rowKey aggregate rows table) =
      if group key k rows = [] then lookup rowKey k table
      else some (aggregate k (group key k rows)) := by
  have hmap : ((keys key rows).map (fun k => aggregate k (group key k rows))).map rowKey =
      keys key rows := by
    simp [List.map_map, Function.comp_def, hkey]
  have hfind : ∀ ks : List κ, lookup rowKey k (ks.map (fun k => aggregate k (group key k rows))) =
      if k ∈ ks then some (aggregate k (group key k rows)) else none := by
    intro ks
    induction ks with
    | nil => rfl
    | cons j js ih =>
      rw [List.map_cons, lookup_cons, hkey, ih]
      by_cases hj : j = k
      · simp [hj]
      · simp [hj, Ne.symm hj]
  have hnodup : (keys key rows).Nodup := List.nodup_dedup _
  unfold insertSelect
  rw [lookup_foldl_upsert _ _ _ _ (by rw [hmap]; exact hnodup), hfind]
  by_cases h : group key k rows = []
  · simp [h, mem_keys]
  · simp [h, mem_keys]

theorem upsert_fresh {rowKey : ρ → κ} {row : ρ} {table : List ρ} (h : rowKey row ∉ table.map rowKey) :
    upsert rowKey row table = table ++ [row] := by
  induction table with
  | nil => rfl
  | cons r rs ih =>
    rw [List.map_cons, List.mem_cons, not_or] at h
    rw [upsert, if_neg (Ne.symm h.1), ih h.2, List.cons_append]

theorem foldl_upsert_fresh {rowKey : ρ → κ} {rows table : List ρ}
    (h : ((table ++ rows).map rowKey).Nodup) :
    rows.foldl (fun t r => upsert rowKey r t) table = table ++ rows := by
  induction rows generalizing table with
  | nil => simp
  | cons r rs ih =>
    have hr : rowKey r ∉ table.map rowKey := by
      rw [List.map_append, List.map_cons, List.nodup_append] at h
      exact fun hmem => h.2.2 _ hmem _ (by simp) rfl
    rw [List.foldl_cons, upsert_fresh hr, ih (by simpa using h)]
    simp

theorem insertSelect_nil {rowKey : ρ → κ} {aggregate : κ → List α → ρ}
    (hkey : ∀ k g, rowKey (aggregate k g) = k) (rows : List α) :
    insertSelect key rowKey aggregate rows [] =
      (keys key rows).map fun k => aggregate k (group key k rows) := by
  unfold insertSelect
  rw [foldl_upsert_fresh, List.nil_append]
  have hmap : ((keys key rows).map fun k => aggregate k (group key k rows)).map rowKey =
      keys key rows := by
    simp [List.map_map, Function.comp_def, hkey]
  rw [List.nil_append, hmap]
  exact List.nodup_dedup _

theorem nodup_insertSelect_nil {rowKey : ρ → κ} {aggregate : κ → List α → ρ}
    (hkey : ∀ k g, rowKey (aggregate k g) = k) (rows : List α) :
    ((insertSelect key rowKey aggregate rows []).map rowKey).Nodup := by
  rw [insertSelect_nil key hkey]
  have hmap : ((keys key rows).map fun k => aggregate k (group key k rows)).map rowKey = keys key rows := by
    simp [List.map_map, Function.comp_def, hkey]
  rw [hmap]
  exact List.nodup_dedup _

end Groups

end Polaris.Lib.Rollup
