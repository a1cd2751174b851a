import Polaris.DependencyCycles
import Polaris.DependencySuppression

namespace Polaris.DependencyOverrides

open Polaris.DependencyTree Polaris.DependencyCycles Polaris.Lib.Runs
open Polaris.DependencySuppression (loadEffectiveParents parentsOf parentsOf_loadEffectiveParents)

section Model

/-- The assets and the rows of the tree. With them stand the ids given out so
far and the last override that each child was given and not released from. -/
structure Db where
  assets : List Asset := []
  tree : State := {}
  known : List String := []
  asked : String → Option (List String) := fun _ => none

def Db.has (db : Db) (id : String) : Bool := db.assets.any (·.id = id)

/-- The two foreign keys of a row. -/
def Db.referenced (db : Db) (rows : List Row) : Bool :=
  rows.all fun r => db.has r.assetId && db.has r.parentAssetId

def getEffectiveParents (db : Db) (assetId : String) : List Asset :=
  let rows := db.tree.rows.filter (·.assetId = assetId)
  if rows.length = 0 then []
  else
    let overrides := rows.filter (·.source = .override)
    let effective := if 0 < overrides.length then overrides else rows.filter (·.source = .computed)
    effective.filterMap fun r => db.assets.find? (·.id = r.parentAssetId)

inductive Op
  | create (a : Asset)
  | update (a : Asset)
  | deleteAsset (id : String)
  | putOverride (id : String) (parentAssetIds : List String)
  | deleteOverride (id : String)
  | recompute (interfaceEdges : List InterfaceEdge) (lldpRows : List LldpRow) (integrationId : Option String)

variable (toLowerCase : String → String)

/-- Rows go with either of their assets, no id is given out twice, and a
write that breaks a foreign key is undone. -/
def step (db : Db) : Op → Db
  | .create a =>
    if a.id ∈ db.known then db else { db with assets := db.assets ++ [a], known := db.known ++ [a.id] }
  | .update a => { db with assets := db.assets.map fun x => if x.id = a.id then a else x }
  | .deleteAsset id =>
    { db with
      assets := db.assets.filter (·.id ≠ id)
      tree := { db.tree with rows := db.tree.rows.filter fun r => r.assetId ≠ id ∧ r.parentAssetId ≠ id }
      asked := Function.update db.asked id none }
  | .putOverride id parentAssetIds =>
    match putOverride db.assets id parentAssetIds db.tree with
    | .error _ => db
    | .ok (tree, proposedParentIds) =>
      if db.referenced tree.rows then
        { db with tree := tree, asked := Function.update db.asked id (some proposedParentIds) }
      else db
  | .deleteOverride id =>
    match deleteOverride db.assets id db.tree with
    | .error _ => db
    | .ok (tree, _) => { db with tree := tree, asked := Function.update db.asked id none }
  | .recompute interfaceEdges lldpRows integrationId =>
    let tree := (recomputeDependencyTree toLowerCase ⟨db.assets, interfaceEdges, lldpRows⟩
      integrationId db.tree).1
    if db.referenced tree.rows then { db with tree := tree } else db

def run (ops : List Op) : Db := ops.foldl (step toLowerCase) {}

/-- What the operator set, or what was computed where nothing is set. -/
def Meant (db : Db) (id parent : String) : Prop :=
  match db.asked id with
  | some parentAssetIds => parent ∈ parentAssetIds ∧ db.has parent
  | none => Has db.tree.rows .computed id parent

/-- Both readers of the rows see what is meant. -/
structure Honoured (db : Db) (id : String) : Prop where
  reconcile : ∀ parent, parent ∈ parentsOf (loadEffectiveParents db.tree.rows) id ↔ Meant db id parent
  path : ∀ parent, parent ∈ (getEffectiveParents db id).map Asset.id ↔ Meant db id parent

/-- A parent that was set is still there, or none is computed. -/
def Backed (db : Db) (id : String) : Prop :=
  ∀ parentAssetIds ∈ db.asked id, (∃ p ∈ parentAssetIds, db.has p) ∨ ∀ p, ¬ Has db.tree.rows .computed id p

end Model

section Readers

variable {db : Db} {id parent : String} {rows : List Row}

theorem referenced_iff : db.referenced rows = true ↔ ∀ r ∈ rows, db.has r.assetId ∧
    db.has r.parentAssetId := by
  simp [Db.referenced]

theorem filter_parentsFrom (source : Source) :
    ((db.tree.rows.filter (·.assetId = id)).filter (·.source = source)).map Row.parentAssetId =
      parentsFrom db.tree.rows source id := by
  rw [parentsFrom, List.filter_filter]

theorem map_found (h : ∀ r ∈ rows, db.has r.parentAssetId) :
    (rows.filterMap fun r => db.assets.find? (·.id = r.parentAssetId)).map Asset.id = rows.map
      Row.parentAssetId := by
  induction rows with
  | nil => rfl
  | cons r rows ih =>
    obtain ⟨a, ha, hid⟩ := List.any_eq_true.mp (h r List.mem_cons_self)
    have hsome : (db.assets.find? (·.id = r.parentAssetId)).isSome := List.find?_isSome.mpr ⟨a, ha, hid⟩
    obtain ⟨b, hb⟩ := Option.isSome_iff_exists.mp hsome
    have hbid : b.id = r.parentAssetId := by simpa using List.find?_some hb
    have hcons : ((r :: rows).filterMap fun r => db.assets.find? (·.id = r.parentAssetId)) =
        b :: rows.filterMap fun r => db.assets.find? (·.id = r.parentAssetId) := List.filterMap_cons_some hb
    rw [hcons, List.map_cons, List.map_cons, hbid, ih fun r hr => h r (List.mem_cons_of_mem _ hr)]

theorem getEffectiveParents_ids (h : ∀ r ∈ db.tree.rows, db.has r.assetId ∧ db.has r.parentAssetId) :
    (getEffectiveParents db id).map Asset.id = effectiveParentsOf db.tree.rows id := by
  have hfound : ∀ source, (((db.tree.rows.filter (·.assetId = id)).filter (·.source = source)).filterMap
      fun r => db.assets.find? (·.id = r.parentAssetId)).map Asset.id =
        parentsFrom db.tree.rows source id := by
    intro source
    rw [map_found fun r hr => (h r (List.mem_filter.mp (List.mem_filter.mp hr).1).1).2, filter_parentsFrom]
  have hlength : 0 < ((db.tree.rows.filter (·.assetId = id)).filter (·.source = .override)).length ↔
      parentsFrom db.tree.rows .override id ≠ [] := by
    rw [← filter_parentsFrom, List.length_pos_iff, ne_eq, ne_eq, List.map_eq_nil_iff]
  rw [getEffectiveParents, effectiveParentsOf]
  by_cases hrows : db.tree.rows.filter (·.assetId = id) = []
  · have hnone : ∀ source, parentsFrom db.tree.rows source id = [] := by
      intro source
      rw [← filter_parentsFrom, hrows]
      rfl
    rw [if_pos (List.length_eq_zero_iff.mpr hrows), hnone, hnone, if_pos rfl]
    rfl
  · rw [if_neg (mt List.length_eq_zero_iff.mp hrows)]
    dsimp only
    by_cases hnone : parentsFrom db.tree.rows .override id = []
    · rw [if_pos hnone, if_neg (mt hlength.mp (not_not_intro hnone)), hfound]
    · rw [if_neg hnone, if_pos (hlength.mpr hnone), hfound]

end Readers

section Steps

/-- The override rows of a child are what it was asked to have, less the
assets that are gone. -/
structure Kept (db : Db) : Prop where
  referenced : ∀ r ∈ db.tree.rows, db.has r.assetId ∧ db.has r.parentAssetId
  overrides : ∀ id p, Has db.tree.rows .override id p ↔ ∃ ps ∈ db.asked id, p ∈ ps ∧ db.has p
  known : ∀ p, db.has p → p ∈ db.known
  asked : ∀ id, ∀ ps ∈ db.asked id, ∀ p ∈ ps, p ∈ db.known

variable {toLowerCase : String → String} {db : Db}

theorem Kept.create (h : Kept db) (a : Asset) : Kept (step toLowerCase db (.create a)) := by
  rw [step]
  split
  next => exact h
  next hnew =>
    have hhas : ∀ p, Db.has { db with assets := db.assets ++ [a], known := db.known ++ [a.id] } p = true ↔
        db.has p ∨ p = a.id := by
      intro p
      simp only [Db.has, List.any_append, List.any_cons, List.any_nil, Bool.or_false, Bool.or_eq_true,
        decide_eq_true_eq]
      exact or_congr_right eq_comm
    refine ⟨fun r hr => ?_, fun id p => ?_, fun p hp => ?_, fun id ps hps p hp => ?_⟩
    · exact ⟨(hhas _).mpr (Or.inl (h.referenced r hr).1), (hhas _).mpr (Or.inl (h.referenced r hr).2)⟩
    · simp only [hhas]
      refine (h.overrides id p).trans ⟨fun ⟨ps, hps, hp, hasp⟩ => ⟨ps, hps, hp, Or.inl hasp⟩, ?_⟩
      rintro ⟨ps, hps, hp, hasp | rfl⟩
      · exact ⟨ps, hps, hp, hasp⟩
      · exact absurd (h.asked id ps hps _ hp) hnew
    · obtain hp | rfl := (hhas p).mp hp
      · exact List.mem_append_left _ (h.known p hp)
      · exact List.mem_append_right _ List.mem_cons_self
    · exact List.mem_append_left _ (h.asked id ps hps p hp)

theorem has_update (a : Asset) (p : String) :
    Db.has { db with assets := db.assets.map fun x => if x.id = a.id then a else x } p = db.has p := by
  rw [Db.has, Db.has, List.any_map]
  refine congrArg _ (funext fun x => ?_)
  rw [Function.comp]
  split
  next hx => rw [hx]
  next => rfl

theorem Kept.update (h : Kept db) (a : Asset) : Kept (step toLowerCase db (.update a)) := by
  rw [step]
  refine ⟨fun r hr => ?_, fun id p => ?_, fun p hp => ?_, h.asked⟩
  · rw [has_update, has_update]
    exact h.referenced r hr
  · rw [has_update]
    exact h.overrides id p
  · rw [has_update] at hp
    exact h.known p hp

theorem Kept.deleteAsset (h : Kept db) (id : String) : Kept (step toLowerCase db (.deleteAsset id)) := by
  rw [step]
  have hhas : ∀ p, Db.has { db with
      assets := db.assets.filter (·.id ≠ id)
      tree := { db.tree with rows := db.tree.rows.filter fun r => r.assetId ≠ id ∧ r.parentAssetId ≠ id }
      asked := Function.update db.asked id none } p = true ↔ db.has p ∧ p ≠ id := by
    intro p
    simp only [Db.has, List.any_eq_true, List.mem_filter, decide_eq_true_eq]
    constructor
    · rintro ⟨x, ⟨hx, hne⟩, rfl⟩
      exact ⟨⟨x, hx, rfl⟩, hne⟩
    · rintro ⟨⟨x, hx, rfl⟩, hne⟩
      exact ⟨x, ⟨hx, hne⟩, rfl⟩
  have hasked : ∀ child ps, ps ∈ Function.update db.asked id none child ↔ ps ∈ db.asked child ∧
    child ≠ id := by
    intro child ps
    by_cases hc : child = id
    · simp [hc]
    · simp [hc]
  refine ⟨fun r hr => ?_, fun child p => ?_, fun p hp => h.known p ((hhas p).mp hp).1, fun child ps hps =>
    h.asked child ps ((hasked child ps).mp hps).1⟩
  · obtain ⟨hr, hne⟩ := List.mem_filter.mp hr
    obtain ⟨hc, hp⟩ := of_decide_eq_true hne
    exact ⟨(hhas _).mpr ⟨(h.referenced r hr).1, hc⟩, (hhas _).mpr ⟨(h.referenced r hr).2, hp⟩⟩
  · have hrows : Has (db.tree.rows.filter fun r => r.assetId ≠ id ∧ r.parentAssetId ≠ id) .override child p ↔
        Has db.tree.rows .override child p ∧ child ≠ id ∧ p ≠ id := by
      simp only [Has, List.mem_filter, decide_eq_true_eq]
      constructor
      · rintro ⟨r, ⟨hr, hne⟩, rfl, rfl, hs⟩
        exact ⟨⟨r, hr, rfl, rfl, hs⟩, hne⟩
      · rintro ⟨⟨r, hr, rfl, rfl, hs⟩, hne⟩
        exact ⟨r, ⟨hr, hne⟩, rfl, rfl, hs⟩
    simp only [hrows, h.overrides, hhas, hasked]
    constructor
    · rintro ⟨⟨ps, hps, hp, hasp⟩, hc, hne⟩
      exact ⟨ps, ⟨hps, hc⟩, hp, hasp, hne⟩
    · rintro ⟨ps, ⟨hps, hc⟩, hp, hasp, hne⟩
      exact ⟨⟨ps, hps, hp, hasp⟩, hc, hne⟩

theorem mem_asked {id child : String} {v : Option (List String)} {ps : List String} :
    ps ∈ Function.update db.asked id v child ↔ (child = id ∧ ps ∈ v) ∨
      (child ≠ id ∧ ps ∈ db.asked child) := by
  by_cases hc : child = id
  · simp [hc]
  · simp [hc]

theorem Kept.putOverride (h : Kept db) (id : String) (parentAssetIds : List String) :
    Kept (step toLowerCase db (.putOverride id parentAssetIds)) := by
  rw [step]
  split
  next => exact h
  next tree proposed hput =>
    split
    next href =>
      obtain ⟨-, -, hrows, -⟩ := putOverride_ok hput
      rw [referenced_iff] at href
      have hproposed : ∀ p ∈ proposed, db.has p := by
        intro p hp
        obtain ⟨r, hr, -, hparent, -⟩ : Has tree.rows .override id p := by
          rw [hrows, has_insertRows]
          exact Or.inr ⟨_, List.mem_map_of_mem hp, rfl, rfl, rfl⟩
        rw [← hparent]
        exact (href r hr).2
      refine ⟨href, fun child p => ?_, h.known, fun child ps hps p hp => ?_⟩
      · rw [show Has tree.rows .override child p ↔ _ from by rw [hrows, has_insertRows, has_withoutOverride]]
        change _ ↔ ∃ ps ∈ Function.update db.asked id (some proposed) child, p ∈ ps ∧ db.has p = true
        simp only [mem_asked]
        constructor
        · rintro (⟨hhas, hno⟩ | ⟨r, hr, rfl, rfl, -⟩)
          · obtain ⟨ps, hps, hp⟩ := (h.overrides child p).mp hhas
            exact ⟨ps, Or.inr ⟨fun hc => hno ⟨hc, trivial⟩, hps⟩, hp⟩
          · obtain ⟨q, hq, rfl⟩ := List.mem_map.mp hr
            exact ⟨proposed, Or.inl ⟨rfl, rfl⟩, hq, hproposed q hq⟩
        · rintro ⟨ps, ⟨rfl, hps⟩ | ⟨hc, hps⟩, hp, hasp⟩
          · obtain rfl := Option.some.inj hps
            exact Or.inr ⟨_, List.mem_map_of_mem hp, rfl, rfl, rfl⟩
          · exact Or.inl ⟨(h.overrides child p).mpr ⟨ps, hps, hp, hasp⟩, fun hand => hc hand.1⟩
      · obtain ⟨-, hps⟩ | ⟨-, hps⟩ := mem_asked.mp hps
        · obtain rfl := Option.some.inj hps
          exact h.known p (hproposed p hp)
        · exact h.asked child ps hps p hp
    next => exact h

theorem Kept.deleteOverride (h : Kept db) (id : String) :
    Kept (step toLowerCase db (.deleteOverride id)) := by
  rw [step, DependencyTree.deleteOverride]
  split
  next => exact h
  next tree count hdelete =>
    split at hdelete
    next => cases hdelete
    next =>
      cases hdelete
      refine ⟨fun r hr => h.referenced r (List.mem_filter.mp hr).1, fun child p => ?_, h.known,
        fun child ps hps => ?_⟩
      · rw [has_withoutOverride, h.overrides]
        change _ ↔ ∃ ps ∈ Function.update db.asked id none child, p ∈ ps ∧ db.has p = true
        by_cases hc : child = id
        · simp [hc]
        · simp [hc]
      · obtain ⟨-, hps⟩ | ⟨-, hps⟩ := mem_asked.mp hps
        · cases hps
        · exact h.asked child ps hps

theorem Kept.recompute (h : Kept db) (interfaceEdges : List InterfaceEdge) (lldpRows : List LldpRow)
    (integrationId : Option String) :
    Kept (step toLowerCase db (.recompute interfaceEdges lldpRows integrationId)) := by
  rw [step]
  split
  next href =>
    refine ⟨referenced_iff.mp href, fun child p => ?_, h.known, h.asked⟩
    rw [has_recompute]
    refine (Iff.trans ?_ (h.overrides child p))
    constructor
    · rintro (⟨hhas, -⟩ | ⟨hs, -⟩)
      · exact hhas
      · cases hs
    · exact fun hhas => Or.inl ⟨hhas, fun hand => by cases hand.1⟩
  next => exact h

theorem kept_step (h : Kept db) (op : Op) : Kept (step toLowerCase db op) := by
  cases op with
  | create a => exact h.create a
  | update a => exact h.update a
  | deleteAsset id => exact h.deleteAsset id
  | putOverride id parentAssetIds => exact h.putOverride id parentAssetIds
  | deleteOverride id => exact h.deleteOverride id
  | recompute interfaceEdges lldpRows integrationId => exact h.recompute interfaceEdges lldpRows integrationId

theorem kept_empty : Kept {} := by
  refine ⟨fun r hr => absurd hr List.not_mem_nil,
    fun id p => ⟨fun ⟨r, hr, _⟩ => absurd hr List.not_mem_nil, ?_⟩,
    fun p hp => absurd hp Bool.false_ne_true, fun id ps hps => absurd hps (by simp)⟩
  rintro ⟨ps, hps, -⟩
  cases hps

theorem kept_run (toLowerCase : String → String) (ops : List Op) : Kept (run toLowerCase ops) := by
  rw [run]
  exact foldl_invariant (I := Kept) (fun _ op h _ => kept_step h op) kept_empty along_true

end Steps

section Claims

variable {toLowerCase : String → String} {db : Db} {id : String}

theorem Kept.effective_iff (h : Kept db) :
    (∀ parent, parent ∈ effectiveParentsOf db.tree.rows id ↔ Meant db id parent) ↔ Backed db id := by
  simp only [mem_effectiveParentsOf, h.overrides, Meant, Backed]
  cases hasked : db.asked id with
  | none => simp
  | some ps =>
    simp only [Option.mem_def, Option.some.injEq, exists_eq_left', forall_eq']
    by_cases hsome : ∃ p ∈ ps, db.has p
    · obtain ⟨p, hp, hasp⟩ := hsome
      refine ⟨fun _ => Or.inl ⟨p, hp, hasp⟩,
        fun _ q => ⟨fun hor => hor.elim (fun hq => hq) fun hand => ?_, Or.inl⟩⟩
      exact absurd ⟨hp, hasp⟩ (hand.1 p)
    · have hnone : ∀ p, ¬ (p ∈ ps ∧ db.has p = true) := fun p hp => hsome ⟨p, hp⟩
      constructor
      · exact fun hmeant => Or.inr fun p hp => hnone p ((hmeant p).mp (Or.inr ⟨hnone, hp⟩))
      · intro hor p
        have hcomputed := hor.resolve_left hsome
        exact ⟨fun hp => hp.elim (fun hp => hp) fun hand => absurd hand.2 (hcomputed p), Or.inl⟩

/-- In every state that is reached an override is in force just when one of
its parents is still there or none is computed. -/
theorem honoured_iff_backed (toLowerCase : String → String) (ops : List Op) (id : String) :
    Honoured (run toLowerCase ops) id ↔ Backed (run toLowerCase ops) id := by
  have hkept := kept_run toLowerCase ops
  rw [← hkept.effective_iff]
  constructor
  · intro h parent
    rw [← h.reconcile parent, parentsOf_loadEffectiveParents]
  · intro h
    refine ⟨fun parent => ?_, fun parent => ?_⟩
    · rw [parentsOf_loadEffectiveParents]
      exact h parent
    · rw [getEffectiveParents_ids hkept.referenced]
      exact h parent

/-- A switch that was given no parents, and the ops before. -/
def pinned : List Op :=
  [.create { id := "fg1", assetType := .firewall }, .create { id := "sw1", assetType := .switch },
    .recompute [⟨"fg1", "sw1"⟩] [] none, .putOverride "sw1" []]

theorem pinned_not_honoured : ¬ Honoured (run plainLower pinned) "sw1" := by
  intro h
  have hmem : "fg1" ∈ parentsOf (loadEffectiveParents (run plainLower pinned).tree.rows) "sw1" := by
    rw [parentsOf_loadEffectiveParents]
    decide +kernel
  have hasked : (run plainLower pinned).asked "sw1" = some [] := by decide +kernel
  have hmeant := (h.reconcile "fg1").mp hmem
  rw [Meant, hasked] at hmeant
  exact absurd hmeant.1 List.not_mem_nil

end Claims

end Polaris.DependencyOverrides
