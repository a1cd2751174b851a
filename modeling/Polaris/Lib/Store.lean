import Mathlib.Data.List.Basic
import Mathlib.Data.List.Nodup
import Mathlib.Data.List.Pairwise

namespace Polaris.Lib.Store

variable {α κ : Type}

structure Row (α : Type) where
  id : Nat
  data : α
  deriving DecidableEq

/-- No two rows share a key. A row without a key, as one with a null in a key
column, shares it with none. -/
def Unique (key : α → Option κ) (rows : List (Row α)) : Prop :=
  rows.Pairwise fun a b => key a.data = key b.data → key a.data = none

instance [DecidableEq κ] (key : α → Option κ) (rows : List (Row α)) : Decidable (Unique key rows) :=
  inferInstanceAs (Decidable (rows.Pairwise _))

structure Table (key : α → Option κ) where
  rows : List (Row α)
  nextId : Nat
  unique : Unique key rows
  ids_lt : ∀ r ∈ rows, r.id < nextId
  ids_nodup : (rows.map Row.id).Nodup

def amend (p : Row α → Bool) (f : α → α) (r : Row α) : Row α :=
  if p r then ⟨r.id, f r.data⟩ else r

theorem amend_id (p : Row α → Bool) (f : α → α) (r : Row α) : (amend p f r).id = r.id := by
  unfold amend
  split <;> rfl

theorem amend_of_pos {p : Row α → Bool} {r : Row α} (h : p r = true) (f : α → α) :
    amend p f r = ⟨r.id, f r.data⟩ := if_pos h

theorem amend_of_neg {p : Row α → Bool} {r : Row α} (h : p r = false) (f : α → α) :
    amend p f r = r := by simp [amend, h]

namespace Table

variable {key : α → Option κ} (t : Table key)

def empty (key : α → Option κ) : Table key := ⟨[], 0, List.Pairwise.nil, by simp, by simp⟩

def find (id : Nat) : Option (Row α) := t.rows.find? (·.id = id)

theorem map_amend_id (p : Row α → Bool) (f : α → α) (rows : List (Row α)) :
    (rows.map (amend p f)).map Row.id = rows.map Row.id := by
  simp [amend_id, Function.comp_def]

section Statements

variable [DecidableEq κ]

/-- One statement each. Nothing is written when the key would be violated. -/
def insert (data : α) : Option (Table key) :=
  if h : Unique key (t.rows ++ [⟨t.nextId, data⟩]) then
    some {
      rows := t.rows ++ [⟨t.nextId, data⟩]
      nextId := t.nextId + 1
      unique := h
      ids_lt := by
        intro r hr
        obtain hr | hr := List.mem_append.mp hr
        · exact Nat.lt_succ_of_lt (t.ids_lt r hr)
        · simp [List.mem_singleton.mp hr]
      ids_nodup := by
        rw [List.map_append, List.nodup_append]
        refine ⟨t.ids_nodup, by simp, ?_⟩
        intro a ha b hb hab
        obtain ⟨r, hr, rfl⟩ := List.mem_map.mp ha
        have hlt := t.ids_lt r hr
        simp only [List.map_cons, List.map_nil, List.mem_singleton] at hb
        omega }
  else none

def updateWhere (p : Row α → Bool) (f : α → α) : Option (Table key) :=
  if h : Unique key (t.rows.map (amend p f)) then
    some {
      rows := t.rows.map (amend p f)
      nextId := t.nextId
      unique := h
      ids_lt := by
        intro r hr
        obtain ⟨a, ha, rfl⟩ := List.mem_map.mp hr
        exact (amend_id p f a).symm ▸ t.ids_lt a ha
      ids_nodup := by
        rw [map_amend_id]
        exact t.ids_nodup }
  else none

end Statements

def deleteWhere (p : Row α → Bool) : Table key where
  rows := t.rows.filter fun r => ! p r
  nextId := t.nextId
  unique := t.unique.filter _
  ids_lt := fun r hr => t.ids_lt r (List.mem_filter.mp hr).1
  ids_nodup := t.ids_nodup.sublist (List.filter_sublist.map Row.id)

variable {t}

theorem mem_of_find {id : Nat} {r : Row α} (h : t.find id = some r) : r ∈ t.rows ∧ r.id = id :=
  ⟨List.mem_of_find?_eq_some h, by simpa using List.find?_some h⟩

theorem eq_of_id {a b : Row α} (ha : a ∈ t.rows) (hb : b ∈ t.rows) (h : a.id = b.id) : a = b :=
  List.inj_on_of_nodup_map t.ids_nodup ha hb h

theorem find_of_mem {r : Row α} (hr : r ∈ t.rows) : t.find r.id = some r := by
  cases h : t.find r.id with
  | none => simpa using (List.find?_eq_none.mp h) r hr
  | some a =>
    obtain ⟨ha, hid⟩ := mem_of_find h
    rw [eq_of_id ha hr hid]

theorem eq_of_key {a b : Row α} (ha : a ∈ t.rows) (hb : b ∈ t.rows) (h : key a.data = key b.data)
    (hk : key a.data ≠ none) : a = b := by
  by_contra hne
  have : Std.Symm fun a b : Row α => key a.data = key b.data → key a.data = none :=
    ⟨fun _ _ hxy e => e.trans (hxy e.symm)⟩
  exact hk (List.Pairwise.forall t.unique ha hb hne h)

theorem mem_map_amend {r x : Row α} {f : α → α} (hr : r ∈ t.rows) :
    x ∈ t.rows.map (amend (·.id = r.id) f) ↔ (x ∈ t.rows ∧ x ≠ r) ∨ x = ⟨r.id, f r.data⟩ := by
  have hid : ∀ y ∈ t.rows, y ≠ r → y.id ≠ r.id := fun y hy hne h => hne (eq_of_id hy hr h)
  rw [List.mem_map]
  constructor
  · rintro ⟨y, hy, rfl⟩
    by_cases hyr : y = r
    · rw [hyr]
      exact .inr (amend_of_pos (by simp) f)
    · rw [amend_of_neg (by simpa using hid y hy hyr)]
      exact .inl ⟨hy, hyr⟩
  · rintro (⟨hx, hne⟩ | rfl)
    · exact ⟨x, hx, amend_of_neg (by simpa using hid x hx hne) f⟩
    · exact ⟨r, hr, amend_of_pos (by simp) f⟩

theorem mem_deleteWhere {p : Row α → Bool} {r : Row α} :
    r ∈ (t.deleteWhere p).rows ↔ r ∈ t.rows ∧ p r = false := by
  simp [deleteWhere]

section Statements

variable [DecidableEq κ] {t' : Table key}

theorem insert_rows {data : α} (h : t.insert data = some t') :
    t'.rows = t.rows ++ [⟨t.nextId, data⟩] ∧ t'.nextId = t.nextId + 1 := by
  unfold insert at h
  split_ifs at h
  cases h
  exact ⟨rfl, rfl⟩

theorem insert_isSome {data : α} (h : ∀ r ∈ t.rows, key r.data = key data → key data = none) :
    ∃ t', t.insert data = some t' := by
  have hu : Unique key (t.rows ++ [⟨t.nextId, data⟩]) := by
    refine List.pairwise_append.mpr ⟨t.unique, by simp, ?_⟩
    intro a ha b hb hab
    cases List.mem_singleton.mp hb
    exact hab.trans (h a ha hab)
  exact ⟨_, dif_pos hu⟩

theorem updateWhere_rows {p : Row α → Bool} {f : α → α} (h : t.updateWhere p f = some t') :
    t'.rows = t.rows.map (amend p f) ∧ t'.nextId = t.nextId := by
  unfold updateWhere at h
  split_ifs at h
  cases h
  exact ⟨rfl, rfl⟩

theorem find_updateWhere {p : Row α → Bool} {f : α → α} {id : Nat} {r : Row α}
    (h : t.updateWhere p f = some t') (hr : t.find id = some r) : t'.find id = some (amend p f r) := by
  obtain ⟨hmem, rfl⟩ := mem_of_find hr
  have hmem' : amend p f r ∈ t'.rows := (updateWhere_rows h).1 ▸ List.mem_map_of_mem hmem
  exact amend_id p f r ▸ find_of_mem hmem'

/-- An update violates the key only where a row it changes meets one it
leaves, as long as changed rows with one key had one key before. -/
theorem updateWhere_isSome {p : Row α → Bool} {f : α → α}
    (hinj : ∀ a ∈ t.rows, ∀ b ∈ t.rows, p a → p b → key (f a.data) = key (f b.data) →
      key (f a.data) ≠ none → key a.data = key b.data ∧ key a.data ≠ none)
    (hfree : ∀ a ∈ t.rows, p a → ∀ b ∈ t.rows, p b = false → key b.data = key (f a.data) →
      key b.data = none) :
    ∃ t', t.updateWhere p f = some t' := by
  have hu : Unique key (t.rows.map (amend p f)) := by
    refine List.pairwise_map.mpr (t.unique.imp_of_mem ?_)
    intro a b ha hb hab e
    by_contra hne
    cases hpa : p a <;> cases hpb : p b
    · rw [amend_of_neg hpa] at e hne
      rw [amend_of_neg hpb] at e
      exact hne (hab e)
    · rw [amend_of_neg hpa] at e hne
      rw [amend_of_pos hpb] at e
      exact hne (hfree b hb hpb a ha hpa e)
    · rw [amend_of_pos hpa] at e hne
      rw [amend_of_neg hpb] at e
      exact hne (e.trans (hfree a ha hpa b hb hpb e.symm))
    · rw [amend_of_pos hpa] at e hne
      rw [amend_of_pos hpb] at e
      obtain ⟨hk, hk'⟩ := hinj a ha b hb hpa hpb e hne
      exact hk' (hab hk)
  exact ⟨_, dif_pos hu⟩

theorem updateWhere_of_key {p : Row α → Bool} {f : α → α} (hf : ∀ a, key (f a) = key a) :
    ∃ t', t.updateWhere p f = some t' := by
  refine updateWhere_isSome (fun a _ b _ _ _ e hne => ?_) (fun a ha hpa b hb hpb e => ?_)
  · rw [hf, hf] at e
    exact ⟨e, hf a.data ▸ hne⟩
  · by_contra hne
    rw [hf] at e
    rw [eq_of_key hb ha e hne, hpa] at hpb
    cases hpb

end Statements

section Forall

variable {P : Row α → Prop}

theorem forall_deleteWhere (h : ∀ r ∈ t.rows, P r) (p : Row α → Bool) :
    ∀ r ∈ (t.deleteWhere p).rows, P r :=
  fun r hr => h r (mem_deleteWhere.mp hr).1

variable [DecidableEq κ] {t' : Table key}

theorem forall_insert {data : α} (h : ∀ r ∈ t.rows, P r) (hnew : P ⟨t.nextId, data⟩)
    (ht : t.insert data = some t') : ∀ r ∈ t'.rows, P r := by
  rw [(insert_rows ht).1]
  intro r hr
  obtain hr | hr := List.mem_append.mp hr
  · exact h r hr
  · exact List.mem_singleton.mp hr ▸ hnew

theorem forall_updateWhere {p : Row α → Bool} {f : α → α} (h : ∀ r ∈ t.rows, P r)
    (hf : ∀ r ∈ t.rows, p r → P ⟨r.id, f r.data⟩) (ht : t.updateWhere p f = some t') :
    ∀ r ∈ t'.rows, P r := by
  rw [(updateWhere_rows ht).1]
  intro r hr
  obtain ⟨a, ha, rfl⟩ := List.mem_map.mp hr
  cases hp : p a with
  | false => exact (amend_of_neg hp f).symm ▸ h a ha
  | true => exact (amend_of_pos hp f).symm ▸ hf a ha hp

end Forall

section Keyless

/-- A table whose only key is the id. -/
def noKey (_ : α) : Option Unit := none

theorem unique_noKey (rows : List (Row α)) : Unique noKey rows :=
  List.pairwise_of_forall fun _ _ _ => rfl

variable (t : Table (noKey (α := α)))

def append (data : α) : Table (noKey (α := α)) :=
  (t.insert data).get (Option.isSome_iff_exists.mpr (insert_isSome fun _ _ _ => rfl))

def amendWhere (p : Row α → Bool) (f : α → α) : Table (noKey (α := α)) :=
  (t.updateWhere p f).get (Option.isSome_iff_exists.mpr (updateWhere_of_key fun _ => rfl))

theorem append_rows (data : α) :
    (t.append data).rows = t.rows ++ [⟨t.nextId, data⟩] ∧ (t.append data).nextId = t.nextId + 1 :=
  insert_rows (Option.some_get _).symm

theorem amendWhere_rows (p : Row α → Bool) (f : α → α) :
    (t.amendWhere p f).rows = t.rows.map (amend p f) ∧ (t.amendWhere p f).nextId = t.nextId :=
  updateWhere_rows (Option.some_get _).symm

variable {t} {r : Row α}

theorem mem_append {data : α} : r ∈ (t.append data).rows ↔ r ∈ t.rows ∨ r = ⟨t.nextId, data⟩ := by
  rw [(t.append_rows data).1, List.mem_append, List.mem_singleton]

theorem mem_amendWhere {p : Row α → Bool} {f : α → α} :
    r ∈ (t.amendWhere p f).rows ↔ ∃ s ∈ t.rows, amend p f s = r := by
  rw [(t.amendWhere_rows p f).1, List.mem_map]

theorem forall_append {P : Row α → Prop} {data : α} (h : ∀ r ∈ t.rows, P r) (hnew : P ⟨t.nextId, data⟩) :
    ∀ r ∈ (t.append data).rows, P r := by
  intro r hr
  obtain hr | rfl := mem_append.mp hr
  · exact h r hr
  · exact hnew

theorem forall_amendWhere {P : Row α → Prop} {p : Row α → Bool} {f : α → α}
    (h : ∀ r ∈ t.rows, p r = false → P r)
    (hf : ∀ r ∈ t.rows, p r → P ⟨r.id, f r.data⟩) : ∀ r ∈ (t.amendWhere p f).rows, P r := by
  intro r' hr'
  obtain ⟨r, hr, rfl⟩ := mem_amendWhere.mp hr'
  cases hp : p r with
  | true => exact (amend_of_pos hp f).symm ▸ hf r hr hp
  | false => exact (amend_of_neg hp f).symm ▸ h r hr hp

theorem ext {t t' : Table (noKey (α := α))} (hrows : t.rows = t'.rows) (hnext : t.nextId = t'.nextId) :
    t = t' := by
  cases t
  cases t'
  cases hrows
  cases hnext
  rfl

variable {f g : α → α}

/-- Two updates of one row are one update. -/
theorem amendWhere_amendWhere (id : Nat) :
    (t.amendWhere (·.id = id) f).amendWhere (·.id = id) g = t.amendWhere (·.id = id) fun d => g (f d) := by
  have hfirst := t.amendWhere_rows (·.id = id) f
  have hboth := t.amendWhere_rows (·.id = id) fun d => g (f d)
  have hsecond := (t.amendWhere (·.id = id) f).amendWhere_rows (·.id = id) g
  refine ext ?_ (hsecond.2.trans (hfirst.2.trans hboth.2.symm))
  rw [hsecond.1, hfirst.1, hboth.1, List.map_map]
  refine List.map_congr_left fun r _ => ?_
  rw [Function.comp_apply]
  cases hid : decide (r.id = id) with
  | true => rw [amend_of_pos (r := r) hid, amend_of_pos (r := r) hid, amend_of_pos (by exact hid)]
  | false => rw [amend_of_neg (r := r) hid, amend_of_neg (r := r) hid, amend_of_neg (by exact hid)]

theorem append_amendWhere (data : α) :
    (t.append data).amendWhere (·.id = t.nextId) g = t.append (g data) := by
  have hold := t.append_rows data
  have hnew := t.append_rows (g data)
  have hboth := (t.append data).amendWhere_rows (·.id = t.nextId) g
  refine ext ?_ (hboth.2.trans (hold.2.trans hnew.2.symm))
  rw [hboth.1, hold.1, hnew.1, List.map_append]
  congr 1
  · refine (List.map_congr_left fun r hr => ?_).trans (List.map_id t.rows)
    have hlt := t.ids_lt r hr
    refine amend_of_neg ?_ g
    rw [decide_eq_false_iff_not]
    omega
  · exact congrArg (fun r => [r]) (amend_of_pos (by simp) g)

end Keyless

end Table

end Polaris.Lib.Store
