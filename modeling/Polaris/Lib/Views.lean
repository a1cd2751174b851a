import Polaris.Lib.Store

namespace Polaris.Lib.Views

open Polaris.Lib.Store Polaris.Lib.Store.Table

variable {ρ α : Type}

/-- Some of the columns of a row. -/
structure View (ρ α : Type) where
  get : ρ → α
  set : α → ρ → ρ
  get_set : ∀ a r, get (set a r) = a
  set_get : ∀ r, set (get r) r = r

def mapRows {β : Type} (f : Row α → β) (t : Table (noKey (α := α))) : Table (noKey (α := β)) where
  rows := t.rows.map fun r => ⟨r.id, f r⟩
  nextId := t.nextId
  unique := unique_noKey _
  ids_lt := by
    intro r hr
    obtain ⟨a, ha, rfl⟩ := List.mem_map.mp hr
    exact t.ids_lt a ha
  ids_nodup := by
    rw [List.map_map]
    exact t.ids_nodup

namespace View

variable (v : View ρ α) (fresh : ρ) (t : Table (noKey (α := ρ))) (u : Table (noKey (α := α)))

def table : Table (noKey (α := α)) := mapRows (fun r => v.get r.data) t

def dataOf (id : Nat) : ρ := ((t.find id).map (·.data)).getD fresh

/-- The table after a change of what is seen. A row keeps its other columns,
and a new one has those of the fresh row. -/
def restore : Table (noKey (α := ρ)) := mapRows (fun r => v.set r.data (dataOf fresh t r.id)) u

variable {v fresh t u}

theorem dataOf_mem {r : Row ρ} (hr : r ∈ t.rows) : dataOf fresh t r.id = r.data := by
  rw [dataOf, find_of_mem hr]
  rfl

theorem dataOf_nextId : dataOf fresh t t.nextId = fresh := by
  rw [dataOf]
  cases h : t.find t.nextId with
  | none => rfl
  | some r =>
    obtain ⟨hr, hid⟩ := mem_of_find h
    exact absurd (t.ids_lt r hr) (by omega)

theorem set_dataOf {r : Row ρ} (hr : r ∈ t.rows) : v.set (v.get r.data) (dataOf fresh t r.id) = r.data := by
  rw [dataOf_mem hr, v.set_get]

theorem restore_table : v.restore fresh t (v.table t) = t := by
  refine Table.ext ?_ rfl
  change (t.rows.map _).map _ = t.rows
  rw [List.map_map]
  refine (List.map_congr_left fun r hr => ?_).trans (List.map_id t.rows)
  exact congrArg (Row.mk r.id) (set_dataOf hr)

/-- An update of what is seen is an update of the table. -/
theorem restore_amendWhere (p : Row α → Bool) (f : α → α) :
    v.restore fresh t ((v.table t).amendWhere p f) =
      t.amendWhere (fun r => p ⟨r.id, v.get r.data⟩) (fun d => v.set (f (v.get d)) d) := by
  have hseen := (v.table t).amendWhere_rows p f
  have htable := t.amendWhere_rows (fun r => p ⟨r.id, v.get r.data⟩) (fun d => v.set (f (v.get d)) d)
  refine Table.ext ?_ (hseen.2.trans htable.2.symm)
  change ((v.table t).amendWhere p f).rows.map _ = _
  rw [hseen.1, htable.1]
  change ((t.rows.map _).map _).map _ = _
  rw [List.map_map, List.map_map]
  refine List.map_congr_left fun r hr => ?_
  rw [Function.comp_apply, Function.comp_apply]
  cases hp : p ⟨r.id, v.get r.data⟩ with
  | true =>
    rw [amend_of_pos hp, amend_of_pos (r := r) hp]
    change Row.mk r.id (v.set (f (v.get r.data)) (dataOf fresh t r.id)) = _
    rw [dataOf_mem hr]
  | false =>
    rw [amend_of_neg hp, amend_of_neg (r := r) hp]
    exact congrArg (Row.mk r.id) (set_dataOf hr)

theorem restore_append (a : α) : v.restore fresh t ((v.table t).append a) = t.append (v.set a fresh) := by
  have hseen := (v.table t).append_rows a
  have htable := t.append_rows (v.set a fresh)
  refine Table.ext ?_ (hseen.2.trans htable.2.symm)
  change ((v.table t).append a).rows.map _ = _
  rw [hseen.1, htable.1, List.map_append]
  congr 1
  · exact congrArg Table.rows (@restore_table _ _ v fresh t)
  · change [Row.mk t.nextId (v.set a (dataOf fresh t t.nextId))] = _
    rw [dataOf_nextId]

end View

end Polaris.Lib.Views
