import Mathlib.Data.Set.Basic
import Polaris.ConflictRaces

namespace Polaris.ConflictMerge

open Polaris.Cidr Polaris.ConflictResolution Polaris.ConflictRaces
open Polaris.ManufacturerNormalize (setAliasMap)
open Polaris.Reservations (truthy truthy_some)

section Macs

variable {rows macs : List MacEntry} {existing ghost : Asset}

/-- The MACs of the rows up to separators and case. A text without a hex digit
is no MAC. -/
def macSet (rows : List MacEntry) : Set (List Char) := {k | k ≠ [] ∧ ∃ r ∈ rows, macKey r.mac = k}

theorem mem_macSet {k : List Char} : k ∈ macSet rows ↔ k ≠ [] ∧ ∃ r ∈ rows, macKey r.mac = k := Iff.rfl

theorem macSet_mono (h : ∀ r ∈ rows, r ∈ macs) : macSet rows ⊆ macSet macs := by
  rintro k ⟨hk, r, hr, hkey⟩
  exact ⟨hk, r, h r hr, hkey⟩

theorem macSet_cons (m : MacEntry) (macs : List MacEntry) :
    macSet (m :: macs) = macSet [m] ∪ macSet macs := by
  ext k
  simp only [Set.mem_union, mem_macSet, List.mem_cons, List.not_mem_nil, or_false, exists_eq_or_imp,
    exists_eq_left]
  tauto

theorem macSet_shape (rows : List MacEntry) : macSet (shapeMacRows rows) = macSet rows := by
  ext k
  simp only [mem_macSet, shapeMacRows, List.mem_map, List.mem_mergeSort]
  refine and_congr_right fun _ => ⟨?_, ?_⟩
  · rintro ⟨_, ⟨r, hr, rfl⟩, hkey⟩
    exact ⟨r, hr, hkey⟩
  · rintro ⟨r, hr, hkey⟩
    exact ⟨_, ⟨r, hr, rfl⟩, hkey⟩

theorem macSet_addMac (m : MacEntry) (rows : List MacEntry) :
    macSet (addMac rows m) = macSet rows ∪ macSet [m] := by
  ext k
  rw [addMac, Set.mem_union, mem_macSet, mem_macSet, mem_macSet]
  split
  · next h =>
    simp only [List.mem_append, List.mem_singleton, exists_eq_left]
    constructor
    · rintro ⟨hk, r, hr | rfl, hkey⟩
      · exact .inl ⟨hk, r, hr, hkey⟩
      · exact .inr ⟨hk, hkey⟩
    · rintro (⟨hk, r, hr, hkey⟩ | ⟨hk, hkey⟩)
      · exact ⟨hk, r, .inl hr, hkey⟩
      · exact ⟨hk, m, .inr rfl, hkey⟩
  · next h =>
    refine ⟨.inl, ?_⟩
    rintro (hin | ⟨hk, r, hr, hkey⟩)
    · exact hin
    · obtain rfl := List.mem_singleton.mp hr
      rw [← hkey] at hk
      rw [not_and, not_not] at h
      obtain ⟨r', hr', heq⟩ := List.any_eq_true.mp (h hk)
      exact ⟨hkey ▸ hk, r', hr', (of_decide_eq_true heq).trans hkey⟩

theorem macSet_foldl_addMac (macs rows : List MacEntry) :
    macSet (macs.foldl addMac rows) = macSet rows ∪ macSet macs := by
  induction macs generalizing rows with
  | nil => simp [macSet]
  | cons m macs ih =>
    rw [List.foldl_cons, ih, macSet_addMac, macSet_cons m macs, Set.union_assoc]

theorem prefix_foldl_addMac (macs rows : List MacEntry) : rows <+: macs.foldl addMac rows := by
  induction macs generalizing rows with
  | nil => exact List.prefix_refl rows
  | cons m macs ih =>
    refine List.IsPrefix.trans ?_ (ih (addMac rows m))
    rw [addMac]
    split
    · exact List.prefix_append rows [m]
    · exact List.prefix_refl rows

theorem macSet_of_none (h : mergedMacs existing ghost = none) :
    macSet existing.macAddressRows = macSet existing.macAddressRows ∪ macSet ghost.macAddressRows := by
  rw [mergedMacs] at h
  split at h
  · cases h
  · next hlen =>
    have hp := prefix_foldl_addMac (shapeMacRows ghost.macAddressRows) (shapeMacRows existing.macAddressRows)
    have heq := hp.eq_of_length (Nat.le_antisymm hp.length_le (Nat.not_lt.mp hlen))
    have hset := macSet_foldl_addMac (shapeMacRows ghost.macAddressRows)
      (shapeMacRows existing.macAddressRows)
    rw [← heq, macSet_shape, macSet_shape] at hset
    exact hset

theorem macSet_of_some (h : mergedMacs existing ghost = some macs) :
    macSet macs = macSet existing.macAddressRows ∪ macSet ghost.macAddressRows := by
  rw [mergedMacs] at h
  split at h
  · cases h
    rw [macSet_foldl_addMac, macSet_shape, macSet_shape]
  · cases h

theorem macSet_reconciled (macs : List MacEntry) : macSet (reconciled macs) = macSet macs := by
  have hempty : macKey "" = [] := by decide
  ext k
  simp only [mem_macSet, reconciled, List.mem_mergeSort, List.mem_filter, decide_eq_true_eq]
  refine and_congr_right fun hk => ⟨?_, ?_⟩
  · rintro ⟨r, ⟨hr, -⟩, hkey⟩
    exact ⟨r, hr, hkey⟩
  · rintro ⟨r, hr, hkey⟩
    refine ⟨r, ⟨hr, fun hne => hk ?_⟩, hkey⟩
    rw [← hkey, hne, hempty]

theorem macSet_overwrite (m m' : MacEntry) (hm : m'.mac = m.mac) (rows : List MacEntry) :
    macSet (rows.filter (·.mac ≠ m.mac) ++ [m']) = macSet rows ∪ macSet [m] := by
  ext k
  simp only [Set.mem_union, mem_macSet, List.mem_append, List.mem_filter, List.mem_singleton,
    decide_eq_true_eq,
    exists_eq_left]
  constructor
  · rintro ⟨hk, r, ⟨hr, -⟩ | rfl, hkey⟩
    · exact .inl ⟨hk, r, hr, hkey⟩
    · exact .inr ⟨hk, hm ▸ hkey⟩
  · rintro (⟨hk, r, hr, hkey⟩ | ⟨hk, hkey⟩)
    · by_cases hmac : r.mac = m.mac
      · exact ⟨hk, m', .inr rfl, by rw [hm, ← hmac, hkey]⟩
      · exact ⟨hk, r, .inl ⟨hr, hmac⟩, hkey⟩
    · exact ⟨hk, m', .inr rfl, by rw [hm, hkey]⟩

theorem macSet_insertMacs (macs : List MacEntry) (a : Asset) :
    macSet (insertMacs macs a).macAddressRows = macSet a.macAddressRows ∪ macSet macs := by
  rw [← macSet_reconciled macs]
  change macSet ((reconciled macs).foldl _ a.macAddressRows) = _
  generalize reconciled macs = entries
  generalize a.macAddressRows = rows
  induction entries generalizing rows with
  | nil => simp [macSet]
  | cons m entries ih =>
    rw [List.foldl_cons, ih,
      macSet_overwrite m { m with source := if m.source = "" then "unknown" else m.source } rfl,
      macSet_cons m entries, Set.union_assoc]

/-- The merged MACs are all that the two statements leave. -/
theorem macSet_reconcile (h : mergedMacs existing ghost = some macs) {a : Asset}
    (ha : a.macAddressRows = existing.macAddressRows) :
    macSet (insertMacs macs (pruneMacs macs a)).macAddressRows =
      macSet existing.macAddressRows ∪ macSet ghost.macAddressRows := by
  have hprune : macSet (pruneMacs macs a).macAddressRows ⊆ macSet existing.macAddressRows :=
    macSet_mono fun r hr => ha ▸ (List.mem_filter.mp hr).1
  rw [macSet_insertMacs, macSet_of_some h, Set.union_eq_self_of_subset_left]
  exact hprune.trans Set.subset_union_left

theorem macSet_wiped (h : mergedMacs existing ghost = some macs) (hr : reconciled macs = []) (a : Asset) :
    macSet (pruneMacs macs a).macAddressRows = macSet existing.macAddressRows ∪ macSet
      ghost.macAddressRows := by
  rw [← macSet_of_some h, ← macSet_reconciled macs, hr, pruneMacs, hr]
  simp [macSet]

end Macs

section Fields

variable (N : Naming) (existing : Asset) (proposed : ProposedFields) (fieldWinners : FieldWinners)

/-- The fields that a merge chooses about. -/
inductive Field
  | hostname | serialNumber | macAddress | manufacturer | model | assignedTo | os | osVersion
  deriving DecidableEq

namespace Field

def name : Field → String
  | hostname => "hostname"
  | serialNumber => "serialNumber"
  | macAddress => "macAddress"
  | manufacturer => "manufacturer"
  | model => "model"
  | assignedTo => "assignedTo"
  | os => "os"
  | osVersion => "osVersion"

def ofAsset (a : Asset) : Field → Option String
  | hostname => a.hostname
  | serialNumber => a.serialNumber
  | macAddress => a.macAddress
  | manufacturer => a.manufacturer
  | model => a.model
  | assignedTo => a.assignedTo
  | os => a.os
  | osVersion => a.osVersion

def ofProposed (p : ProposedFields) : Field → Option String
  | hostname => p.hostname
  | serialNumber => p.serialNumber
  | macAddress => p.macAddress
  | manufacturer => p.manufacturer
  | model => p.model
  | assignedTo => p.assignedTo
  | os => p.os
  | osVersion => p.osVersion

def ofUpdate (u : AssetUpdate) : Field → Option String
  | hostname => u.hostname
  | serialNumber => u.serialNumber
  | macAddress => u.macAddress
  | manufacturer => u.manufacturer
  | model => u.model
  | assignedTo => u.assignedTo
  | os => u.os
  | osVersion => u.osVersion

/-- The fields that the source of the proposal is the authority for. -/
def isOs : Field → Bool
  | os | osVersion => true
  | _ => false

end Field

def defaultWinner : Field → Winner
  | .os | .osVersion => .proposed
  | .hostname =>
    if (falsy existing.hostname && ! falsy proposed.hostname) || isNetbiosUpgrade N existing proposed then
      .proposed
    else .existing
  | field => if falsy (field.ofAsset existing) && ! falsy (field.ofProposed proposed) then .proposed
    else .existing

def winner (field : Field) : Winner :=
  (fieldWinners field.name).getD (defaultWinner N existing proposed field)

variable {N existing proposed fieldWinners}

theorem acceptUpdate_field (actor : Option String) (now : Nat) (field : Field) :
    field.ofUpdate (acceptUpdate N existing proposed fieldWinners actor now) =
      chosen (winner N existing proposed fieldWinners field) (field.ofProposed proposed) := by
  cases field <;> rfl

theorem absorbGhost_field (u : AssetUpdate) (ghost : Asset) (field : Field) (hf : field ≠ .hostname) :
    field.ofUpdate (absorbGhost u existing ghost) = absorbed (field.ofUpdate u)
      (if field.isOs then none else field.ofAsset existing) (field.ofAsset ghost) := by
  cases field with
  | hostname => exact absurd rfl hf
  | serialNumber | macAddress | manufacturer | model | assignedTo | os | osVersion => rfl

theorem clampUpdate_field (u : AssetUpdate) (field : Field) :
    field.ofUpdate (clampUpdate u existing) = field.ofUpdate u := by
  cases field <;> rfl

def Field.stored (N : Naming) : Field → String → Option String
  | .manufacturer => fun v => N.stored (some v)
  | _ => some

theorem applyUpdate_field (N : Naming) (u : AssetUpdate) (a : Asset) (field : Field) :
    field.ofAsset (applyUpdate N u a) = (field.ofUpdate u).elim (field.ofAsset a) (field.stored N) := by
  have hor : ∀ x y : Option String, x.or y = x.elim y some := fun x y => by cases x <;> rfl
  cases field with
  | manufacturer => rfl
  | hostname | serialNumber | macAddress | model | assignedTo | os | osVersion => exact hor _ _

/-- The update of a merge, with the ghost when there is one. -/
def mergeUpdate (N : Naming) (existing : Asset) (proposed : ProposedFields)
    (fieldWinners : FieldWinners) (actor : Option String) (now : Nat) (ghost : Option Asset) : AssetUpdate :=
  let update := acceptUpdate N existing proposed fieldWinners actor now
  clampUpdate (ghost.elim update (absorbGhost update existing)) existing

/-- The ghost has nothing else to say about a field that it would overwrite. -/
def GhostAgrees (existing : Asset) (ghost : Option Asset) (field : Field) : Prop :=
  field.isOs → ∀ g ∈ ghost, ∀ v ∈ truthy (field.ofAsset g), field.ofAsset existing = some v

variable {actor : Option String} {now : Nat} {ghost : Option Asset}

theorem chosen_proposed {v : String} {p : Option String} (h : truthy p = some v) :
    chosen .proposed p = some v := by
  rw [chosen, if_pos rfl, h]

theorem falsy_some {v : String} {s : Option String} (h : truthy s = some v) : falsy s = false := by
  rw [falsy, h]
  rfl

theorem mergeUpdate_taken {field : Field} {v : String}
    (hw : winner N existing proposed fieldWinners field = .proposed)
    (hv : truthy (field.ofProposed proposed) = some v) :
    field.ofUpdate (mergeUpdate N existing proposed fieldWinners actor now ghost) = some v := by
  have hu := @acceptUpdate_field N existing proposed fieldWinners actor now field
  rw [hw, chosen_proposed hv] at hu
  rw [mergeUpdate, clampUpdate_field]
  cases ghost with
  | none => exact hu
  | some g =>
    by_cases hf : field = .hostname
    · subst hf
      exact hu
    · have htruthy : truthy (some v) = some v := by
        simp [truthy, (truthy_some hv).2]
      rw [Option.elim, absorbGhost_field _ _ _ hf, hu, absorbed, falsy_some htruthy, Bool.false_and,
        if_neg nofun]

theorem mergeUpdate_kept {field : Field} (hw : winner N existing proposed fieldWinners field = .existing)
    (he : truthy (field.ofAsset existing) ≠ none) :
    field.ofUpdate (mergeUpdate N existing proposed fieldWinners actor now ghost) =
      if field.isOs then ghost.bind fun g => truthy (field.ofAsset g) else none := by
  have hu := @acceptUpdate_field N existing proposed fieldWinners actor now field
  rw [hw, chosen, if_neg nofun] at hu
  rw [mergeUpdate, clampUpdate_field]
  cases ghost with
  | none =>
    rw [Option.elim, hu]
    split <;> rfl
  | some g =>
    by_cases hf : field = .hostname
    · subst hf
      exact hu
    · rw [Option.elim, absorbGhost_field _ _ _ hf, hu, absorbed]
      cases hos : field.isOs with
      | true => simp [falsy, truthy]
      | false =>
        obtain ⟨v, hv⟩ := Option.ne_none_iff_exists'.mp he
        simp [falsy, hv]

theorem field_kept_iff {field : Field} {a : Asset}
    (ha : a = applyUpdate N (mergeUpdate N existing proposed fieldWinners actor now ghost) existing)
    (hw : winner N existing proposed fieldWinners field = .existing)
    (he : truthy (field.ofAsset existing) ≠ none) :
    field.ofAsset a = field.ofAsset existing ↔ GhostAgrees existing ghost field := by
  rw [ha, applyUpdate_field, mergeUpdate_kept hw he, GhostAgrees]
  cases hos : field.isOs with
  | false => simp
  | true =>
    have hstored : field.stored N = some := by
      cases field with
      | manufacturer => cases hos
      | hostname | serialNumber | macAddress | model | assignedTo | os | osVersion => rfl
    cases ghost with
    | none => simp
    | some g =>
      rw [if_pos rfl, Option.bind_some, hstored]
      cases hv : truthy (field.ofAsset g) with
      | none => simp [hv]
      | some v => simp [hv, eq_comm]

end Fields

section Run

variable (N : Naming)

/-- The statements of one request, each with its time. -/
def serve (times : List Nat) (db : Db) (t : Task) : Db × Task :=
  times.foldl (fun s now => act N s.1 now s.2) (db, t)

def succeeded (t : Task) : Bool :=
  match t.stage with
  | .done (.ok _) => true
  | _ => false

theorem stage_of_succeeded {t : Task} (h : succeeded t = true) : t.stage = .done (.ok ()) := by
  rw [succeeded] at h
  split at h
  · next heq => exact heq
  · cases h

/-- What a merge is about: the tables before it, the conflict with its asset,
and the choices. -/
structure Merge where
  db : Db
  c : Conflict
  id : Nat
  existing : Asset
  fieldWinners : FieldWinners
  actor : Option String

variable (m : Merge)

structure Merge.Reads (req : Request) : Prop where
  conflict : m.db.conflict = some m.c
  assetId : m.c.assetId = some m.id
  asset : m.db.assets m.id = some m.existing
  kind : req.kind = .merge m.fieldWinners
  actor : req.username = m.actor

/-- The other asset that has the source row of the proposed device. -/
def Merge.ghost : Option (Nat × Asset) := findGhost N m.db m.c m.id

def Merge.macs : Option (List MacEntry) := (m.ghost N).bind fun g => mergedMacs m.existing g.2

def Merge.winner (field : Field) : Winner :=
  ConflictMerge.winner N m.existing m.c.proposedAssetFields m.fieldWinners field

def Merge.update (now : Nat) : AssetUpdate :=
  mergeUpdate N m.existing m.c.proposedAssetFields m.fieldWinners m.actor now
    ((m.ghost N).map Prod.snd)

/-- The asset has the fields of the update. -/
def Merge.Updated (a : Asset) : Prop :=
  ∃ now, ∀ field : Field, field.ofAsset a = field.ofAsset (applyUpdate N (m.update N now) m.existing)

def Merge.Gone (db : Db) : Prop := ∀ g ∈ m.ghost N, db.assets g.1 = none

def Merge.union : Set (List Char) :=
  macSet m.existing.macAddressRows ∪ (m.ghost N).elim ∅ fun g => macSet g.2.macAddressRows

/-- The asset is as the merge leaves it. -/
def Merge.Settled (db : Db) : Prop :=
  m.Gone N db ∧ ∃ a, db.assets m.id = some a ∧ m.Updated N a ∧
    macSet a.macAddressRows = m.union N

def Merge.Owned (db : Db) : Prop :=
  (db.sources (sourceKindOf m.c.proposedAssetFields) (N.toLowerCase (m.c.proposedDeviceId.getD ""))).map
    (·.assetId) = some m.id

/-- How far the merge has come. -/
def Merge.Progress (db : Db) : Stage → Prop
  | .read => db = m.db
  | .findSource c id existing update =>
    db = m.db ∧ c = m.c ∧ id = m.id ∧ existing = m.existing ∧ ∃ now, update =
      acceptUpdate N m.existing m.c.proposedAssetFields m.fieldWinners m.actor now
  | .deleteGhost c id existing update ghostId macs =>
    db = m.db ∧ c = m.c ∧ id = m.id ∧ existing = m.existing ∧ macs = m.macs N ∧
      (m.ghost N).map Prod.fst = some ghostId ∧ ∃ now, clampUpdate update existing = m.update N now
  | .updateAsset c id update macs =>
    c = m.c ∧ id = m.id ∧ macs = m.macs N ∧ (∃ now, update = m.update N now) ∧
      db.assets m.id = some m.existing ∧ m.Gone N db
  | .pruneMacs c id macs =>
    c = m.c ∧ id = m.id ∧ m.macs N = some macs ∧ m.Gone N db ∧
      ∃ a, db.assets m.id = some a ∧ m.Updated N a ∧ a.macAddressRows = m.existing.macAddressRows
  | .insertMacs c id macs =>
    c = m.c ∧ id = m.id ∧ m.macs N = some macs ∧ m.Gone N db ∧
      ∃ a, db.assets m.id = some (pruneMacs macs a) ∧ m.Updated N a ∧
        a.macAddressRows = m.existing.macAddressRows
  | .upsertSource c id => c = m.c ∧ id = m.id ∧ m.Settled N db
  | .resolve => m.Settled N db ∧ m.Owned N db
  | .done (.ok _) => m.Settled N db ∧ m.Owned N db
  | .done (.error _) => True
  | .createAsset _ _ | .updateReservation _ _ => False

variable {N m} {db : Db} {req : Request} {wrote : Bool} {now : Nat}

theorem begin_merge (h : m.Reads req) {stage : Stage} (hb : begin N m.db req now = .ok stage) :
    m.Progress N m.db stage := by
  rw [begin, h.conflict] at hb
  dsimp only at hb
  split at hb
  · cases hb
  · split at hb
    · cases hb
    · next hmerge =>
      split at hb
      · cases hb
      · have htype : m.c.entityType = .asset := by
          rw [not_and, not_not] at hmerge
          exact hmerge (by rw [Request.isMerge, h.kind])
        rw [effect, htype, h.kind] at hb
        dsimp only at hb
        rw [acceptAssetConflict, h.assetId, Option.bind_some, h.asset, h.actor] at hb
        dsimp only [Option.map_some] at hb
        split at hb
        · cases hb
        · cases hb
          exact ⟨rfl, rfl, rfl, rfl, now, rfl⟩

/-- The statements start from what the request has read. -/
structure Merge.Begins (N : Naming) (m : Merge) (req : Request) : Prop where
  asset : m.db.assets m.id = some m.existing
  begin : ∀ now stage, begin N m.db req now = .ok stage → m.Progress N m.db stage

theorem Merge.Reads.begins (h : m.Reads req) : m.Begins N req := ⟨h.asset, fun _ _ hb => begin_merge h hb⟩

theorem assets_deleteAsset {id : Nat} (h : (db.assets id).isSome) :
    (db.deleteAsset id).1.assets = Function.update db.assets id none := by
  have hnone : ¬ (db.assets id).isNone := by simpa using Option.isSome_iff_ne_none.mp h
  rw [Db.deleteAsset, if_neg hnone]

theorem assets_updateAsset {id : Nat} {a : Asset} (f : Asset → Asset) (h : db.assets id = some a) :
    (db.updateAsset id f).1.assets = Function.update db.assets id (some (f a)) ∧
      (db.updateAsset id f).2 = .ok () := by
  unfold Db.updateAsset
  split
  · next hn =>
    rw [h] at hn
    cases hn
  · next a' ha =>
    cases ha.symm.trans h
    exact ⟨rfl, rfl⟩

theorem Merge.Gone.update {f : Asset → Asset} {a : Asset} (hg : m.Gone N db) (ha : db.assets m.id = some a) :
    m.Gone N (db.updateAsset m.id f).1 := by
  intro g hmem
  rw [(assets_updateAsset f ha).1, Function.update_of_ne (findGhost_some hmem).1]
  exact hg g hmem

theorem macs_none (h : m.macs N = none) : macSet m.existing.macAddressRows = m.union N := by
  rw [Merge.macs] at h
  rw [Merge.union]
  cases hg : m.ghost N with
  | none => simp
  | some g =>
    rw [hg] at h
    exact macSet_of_none h

theorem macs_some {macs : List MacEntry} (h : m.macs N = some macs) :
    ∃ g, mergedMacs m.existing g = some macs ∧
      m.union N = macSet m.existing.macAddressRows ∪ macSet g.macAddressRows := by
  obtain ⟨g, hg, hmacs⟩ := Option.bind_eq_some_iff.mp h
  refine ⟨g.2, hmacs, ?_⟩
  rw [Merge.union, hg]
  rfl

theorem progress_find {existing : Asset} {update : AssetUpdate} {id : Nat} {c : Conflict}
    (ha : m.db.assets m.id = some m.existing)
    (h : m.Progress N db (.findSource c id existing update)) :
    m.Progress N db (afterFind N db c id existing update) := by
  obtain ⟨rfl, rfl, rfl, rfl, now, rfl⟩ := h
  have hghost : findGhost N m.db m.c m.id = m.ghost N := rfl
  rw [afterFind, hghost]
  cases hg : m.ghost N with
  | none =>
    refine ⟨rfl, rfl, ?_, ⟨now, ?_⟩, ha, fun g hmem => ?_⟩
    · rw [Merge.macs, hg, Option.bind_none]
    · rw [Merge.update, hg]
      rfl
    · rw [hg] at hmem
      cases hmem
  | some g =>
    refine ⟨rfl, rfl, rfl, rfl, ?_, ?_, now, ?_⟩
    · rw [Merge.macs, hg, Option.bind_some]
    · rw [hg, Option.map_some]
    · rw [Merge.update, hg]
      rfl

theorem progress_delete {existing : Asset} {update : AssetUpdate} {ghostId id : Nat} {c : Conflict}
    {macs : Option (List MacEntry)} (ha : m.db.assets m.id = some m.existing)
    (h : m.Progress N db (.deleteGhost c id existing update ghostId macs)) :
    m.Progress N (db.deleteAsset ghostId).1 (.updateAsset c id (clampUpdate update existing) macs) := by
  obtain ⟨rfl, rfl, rfl, rfl, rfl, hghost, now, hu⟩ := h
  obtain ⟨g, hg, rfl⟩ := Option.map_eq_some_iff.mp hghost
  obtain ⟨hne, hsome⟩ := findGhost_some hg
  refine ⟨rfl, rfl, rfl, ⟨now, hu⟩, ?_, fun g' hg' => ?_⟩
  · rw [assets_deleteAsset hsome, Function.update_of_ne hne.symm]
    exact ha
  · rw [hg, Option.mem_some_iff] at hg'
    rw [assets_deleteAsset hsome, ← hg', Function.update_self]

theorem progress_update {update : AssetUpdate} {id : Nat} {c : Conflict} {macs : Option (List MacEntry)}
    (h : m.Progress N db (.updateAsset c id update macs)) :
    (db.updateAsset id (applyUpdate N update)).2 = .ok () ∧
      m.Progress N (db.updateAsset id (applyUpdate N update)).1 (afterUpdate c id macs) := by
  obtain ⟨rfl, rfl, rfl, ⟨now, rfl⟩, ha, hgone⟩ := h
  obtain ⟨hassets, hok⟩ := assets_updateAsset (applyUpdate N (m.update N now)) ha
  have htarget : (db.updateAsset m.id (applyUpdate N (m.update N now))).1.assets m.id =
      some (applyUpdate N (m.update N now) m.existing) := by
    rw [hassets, Function.update_self]
  refine ⟨hok, ?_⟩
  cases hm : m.macs N with
  | none => exact ⟨rfl, rfl, hgone.update ha, _, htarget, ⟨now, fun _ => rfl⟩, macs_none hm⟩
  | some macs => exact ⟨rfl, rfl, hm, hgone.update ha, _, htarget, ⟨now, fun _ => rfl⟩, rfl⟩

theorem pruneMacs_field (macs : List MacEntry) (a : Asset) (field : Field) :
    field.ofAsset (pruneMacs macs a) = field.ofAsset a := by
  cases field <;> rfl

theorem insertMacs_field (macs : List MacEntry) (a : Asset) (field : Field) :
    field.ofAsset (insertMacs macs a) = field.ofAsset a := by
  cases field <;> rfl

theorem Merge.Updated.congr {a a' : Asset} (h : m.Updated N a)
    (heq : ∀ field : Field, field.ofAsset a' = field.ofAsset a) : m.Updated N a' := by
  obtain ⟨now, hu⟩ := h
  exact ⟨now, fun field => (heq field).trans (hu field)⟩

theorem progress_prune {id : Nat} {c : Conflict} {macs : List MacEntry}
    (h : m.Progress N db (.pruneMacs c id macs)) :
    m.Progress N (db.updateAsset id (pruneMacs macs)).1 (afterPrune c id macs) := by
  obtain ⟨rfl, rfl, hmacs, hgone, a, ha, hu, hrows⟩ := h
  obtain ⟨hassets, -⟩ := assets_updateAsset (pruneMacs macs) ha
  have htarget : (db.updateAsset m.id (pruneMacs macs)).1.assets m.id = some (pruneMacs macs a) := by
    rw [hassets, Function.update_self]
  rw [afterPrune]
  split
  · next hr =>
    obtain ⟨g, hg, hunion⟩ := macs_some hmacs
    exact ⟨rfl, rfl, hgone.update ha, _, htarget, hu.congr (pruneMacs_field macs a),
      hunion ▸ macSet_wiped hg hr a⟩
  · exact ⟨rfl, rfl, hmacs, hgone.update ha, a, htarget, hu, hrows⟩

theorem progress_insert {id : Nat} {c : Conflict} {macs : List MacEntry}
    (h : m.Progress N db (.insertMacs c id macs)) :
    (db.updateAsset id (insertMacs macs)).2 = .ok () ∧
      m.Progress N (db.updateAsset id (insertMacs macs)).1 (.upsertSource c id) := by
  obtain ⟨rfl, rfl, hmacs, hgone, a, ha, hu, hrows⟩ := h
  obtain ⟨hassets, hok⟩ := assets_updateAsset (insertMacs macs) ha
  obtain ⟨g, hg, hunion⟩ := macs_some hmacs
  refine ⟨hok, rfl, rfl, hgone.update ha, insertMacs macs (pruneMacs macs a), ?_, ?_, ?_⟩
  · rw [hassets, Function.update_self]
  · exact (hu.congr (pruneMacs_field macs a)).congr (insertMacs_field macs _)
  · rw [macSet_reconcile hg hrows, hunion]

theorem progress_upsert {id : Nat} {c : Conflict} (h : m.Progress N db (.upsertSource c id)) :
    m.Progress N (upsertConflictAssetSource N db c id now).1 .resolve := by
  obtain ⟨rfl, rfl, hgone, a, ha, hsettled⟩ := h
  have hsome : (db.assets m.id).isSome := Option.isSome_of_mem ha
  rw [upsertConflictAssetSource, Db.upsertSource]
  split
  · refine ⟨⟨hgone, a, ha, hsettled⟩, ?_⟩
    rw [Merge.Owned]
    dsimp only
    rw [Function.update_self, Function.update_self, Option.map_some, Db.takeOver_assetId]
    rfl
  · next hnot => exact absurd hsome hnot

theorem progress_resolve {status : ConflictStatus} {resolvedBy : Option String}
    (h : m.Progress N db .resolve) :
    m.Settled N (db.resolveConflict status resolvedBy now).1 ∧
      m.Owned N (db.resolveConflict status resolvedBy now).1 := by
  unfold Db.resolveConflict
  split
  · exact h
  · exact h

theorem progress_after {t : Task} {result : Except Failure Unit} {stage : Stage} (h : m.Progress N db stage) :
    m.Progress N db (t.after result stage).stage ∧ (t.after result stage).req = t.req := by
  cases result with
  | ok _ => exact ⟨h, rfl⟩
  | error e => exact ⟨trivial, rfl⟩

theorem progress_act {t : Task} (h : m.Begins N t.req) (hp : m.Progress N db t.stage) :
    m.Progress N (act N db now t).1 (act N db now t).2.stage ∧
      (act N db now t).2.req = t.req := by
  obtain ⟨req, wrote, stage⟩ := t
  cases stage with
  | read =>
    have hdb : db = m.db := hp
    subst hdb
    rw [act]
    dsimp only
    split
    · exact ⟨trivial, rfl⟩
    · next hb => exact ⟨h.begin now _ hb, rfl⟩
  | findSource c id existing update => exact ⟨progress_find h.asset hp, rfl⟩
  | deleteGhost c id existing update ghost macs => exact progress_after (progress_delete h.asset hp)
  | updateAsset c id update macs => exact progress_after (progress_update hp).2
  | pruneMacs c id macs => exact ⟨progress_prune hp, rfl⟩
  | insertMacs c id macs => exact progress_after (progress_insert hp).2
  | createAsset c data => exact hp.elim
  | upsertSource c id => exact progress_after (progress_upsert hp)
  | updateReservation id update => exact hp.elim
  | resolve =>
    refine ⟨?_, rfl⟩
    have hsettled : m.Settled N (db.resolveConflict req.verdict req.username now).1 ∧
        m.Owned N (db.resolveConflict req.verdict req.username now).1 := progress_resolve hp
    change m.Progress N _ (.done _)
    cases (db.resolveConflict req.verdict req.username now).2 with
    | ok _ => exact hsettled
    | error e => trivial
  | done result => exact ⟨hp, rfl⟩

theorem progress_serve {t : Task} (times : List Nat) (h : m.Begins N t.req) (hp : m.Progress N db t.stage) :
    m.Progress N (serve N times db t).1 (serve N times db t).2.stage := by
  induction times generalizing db t with
  | nil => exact hp
  | cons now times ih =>
    obtain ⟨hp', hreq⟩ : m.Progress N (act N db now t).1 (act N db now t).2.stage ∧
        (act N db now t).2.req = t.req := progress_act h hp
    have hr : m.Begins N (act N db now t).2.req := by
      rw [hreq]
      exact h
    exact ih hr hp'

/-- What a merge gives its operator: a kept field is as it was unless the ghost
overwrites it, and a taken one has the text that the client stores. -/
structure Honoured (N : Naming) (m : Merge) (db : Db) (a : Asset) : Prop where
  target : db.assets m.id = some a
  kept : ∀ field : Field, m.winner N field = .existing → truthy (field.ofAsset m.existing) ≠ none →
    GhostAgrees m.existing ((m.ghost N).map Prod.snd) field → field.ofAsset a = field.ofAsset m.existing
  taken : ∀ field : Field, m.winner N field = .proposed →
    ∀ v ∈ truthy (field.ofProposed m.c.proposedAssetFields), field.ofAsset a = field.stored N v
  owned : m.Owned N db
  gone : m.Gone N db
  macs : macSet a.macAddressRows = m.union N

/-- A merge that succeeds honours the choices. -/
theorem merge_honoured (N : Naming) (m : Merge) (req : Request) (times : List Nat) (h : m.Reads req)
    (hok : (serve N times m.db { req := req }).2.stage = .done (.ok ())) :
    ∃ a, Honoured N m (serve N times m.db { req := req }).1 a := by
  have hp : m.Progress N (serve N times m.db { req := req }).1
      (serve N times m.db { req := req }).2.stage := progress_serve times h.begins rfl
  rw [hok] at hp
  obtain ⟨⟨hgone, a, ha, ⟨now, hu⟩, hmacs⟩, howned⟩ := hp
  refine ⟨a, ha, fun field hw he hg => ?_, fun field hw v hv => ?_, howned, hgone, hmacs⟩
  · rw [hu field]
    exact (field_kept_iff rfl hw he).mpr hg
  · rw [hu field, applyUpdate_field, Merge.update, mergeUpdate_taken hw hv, Option.elim_some]

end Run

section Ghosts

/-- The device that another asset stands for. -/
def ghostLaptop (os : Option String) : Asset :=
  { hostname := some "LAPTOP-7", os := os
    macAddressRows := [{ mac := "AA:BB:CC:00:00:07", lastSeen := 5 }] }

def knownLaptop : Asset := { laptop with os := some "Windows 11" }

def ghostSource : AssetSource :=
  { assetId := 1, integrationId := none, observed := .entra "5f0c" none none none true none none,
    inferred := false
    syncedAt := none, firstSeen := 0, lastSeen := 0 }

def ghostDb (os : Option String) : Db :=
  { sampleDb with
    assets := fun id => if id = 0 then some knownLaptop else if id = 1 then some (ghostLaptop os) else none
    nextAsset := 2
    sources := fun kind externalId => if kind = .entra ∧ externalId = "5f0c" then some ghostSource else none
    unused := fun id h => by rw [if_neg (by omega), if_neg (by omega)]
    source_asset := by
      intro kind externalId s hs
      split at hs
      · cases hs
        rfl
      · cases hs
    conflict_asset := by
      rintro c ⟨⟩ id ⟨⟩
      rfl }

def keepsOs : FieldWinners := fun field => if field = "os" then some .existing else none

def keepOs : Request := { kind := .merge keepsOs, session := operator, username := some "kim" }

def laptopMerge (os : Option String) : Merge where
  db := ghostDb os
  c := sampleConflict
  id := 0
  existing := knownLaptop
  fieldWinners := keepsOs
  actor := some "kim"

def vendorConflict : Conflict :=
  { sampleConflict with
    proposedAssetFields := { sampleConflict.proposedAssetFields with manufacturer := some "Dell Inc." } }

def vendorMerge : Merge :=
  { laptopMerge (some "Windows 11") with
    db := { ghostDb (some "Windows 11") with
      conflict := some vendorConflict
      conflict_asset := by
        rintro c ⟨⟩ id ⟨⟩
        rfl
      conflict_reservation := by rintro c ⟨⟩ id ⟨⟩ }
    c := vendorConflict }

def dellNaming : Naming :=
  { asciiNaming with aliasMap := some (setAliasMap asciiNaming.toLowerCase [("Dell Inc.", "Dell")]) }

def vendorServed : Db × Task := serve dellNaming (List.range 8) vendorMerge.db { req := keepOs }

/-- The ghost agrees on the operating system that is kept. -/
theorem merge_honoured_laptop : vendorServed.2.stage = .done (.ok ()) ∧
    ∃ a, Honoured dellNaming vendorMerge vendorServed.1 a ∧ a.os = some "Windows 11" := by
  have hok : vendorServed.2.stage = .done (.ok ()) := stage_of_succeeded (by decide +kernel)
  obtain ⟨a, ha⟩ := merge_honoured dellNaming vendorMerge keepOs (List.range 8) ⟨rfl, rfl, rfl, rfl, rfl⟩ hok
  have hghost : (vendorMerge.ghost dellNaming).map Prod.snd = some (ghostLaptop (some "Windows 11")) := by
    decide +kernel
  refine ⟨hok, a, ha, ha.kept .os (by rfl) (by decide) fun _ g hg v hv => ?_⟩
  rw [hghost] at hg
  cases hg
  cases hv
  rfl

/-- The winner is the proposed manufacturer, and another text is stored. -/
theorem proposed_manufacturer_rewritten : vendorServed.2.stage = .done (.ok ()) ∧
    vendorMerge.winner dellNaming .manufacturer = .proposed ∧
      vendorMerge.c.proposedAssetFields.manufacturer = some "Dell Inc." ∧
      (vendorServed.1.assets 0).map (·.manufacturer) = some (some "Dell") :=
  ⟨stage_of_succeeded (by decide +kernel), by decide +kernel, rfl, by decide +kernel⟩

end Ghosts

end Polaris.ConflictMerge
