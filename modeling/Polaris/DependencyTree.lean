import Mathlib.Data.List.Sort
import Mathlib.Logic.Function.Basic
import Polaris.Cidr
import Polaris.Lib.Reach
import Polaris.Lib.Text

namespace Polaris.DependencyTree

open Polaris.Cidr Polaris.Lib.Reach Polaris.Lib.Text

section Data

inductive AssetType
  | server | switch | router | firewall | workstation | printer | accessPoint | other
  deriving DecidableEq

def AssetType.infra : AssetType → Bool
  | .firewall | .switch | .accessPoint => true
  | _ => false

inductive DetectedVia
  | controller | interface | lldp | manual
  deriving DecidableEq

inductive Source
  | computed | override
  deriving DecidableEq

structure Topology where
  controllerFortigate : Option String := none
  parentSwitch : Option String := none
  deriving DecidableEq

structure Asset where
  id : String
  hostname : Option String := none
  assetType : AssetType := .other
  fortinetTopology : Option Topology := none
  discoveredByIntegrationId : Option String := none
  deriving DecidableEq

structure InterfaceEdge where
  sourceAssetId : String
  targetAssetId : String

structure LldpRow where
  assetId : String
  matchedAssetId : Option String

structure DependencyEdge where
  childAssetId : String
  parentAssetId : String
  detectedVia : DetectedVia
  deriving DecidableEq

structure Row where
  assetId : String
  parentAssetId : String
  source : Source
  detectedVia : DetectedVia
  deriving DecidableEq

end Data

section Edges

variable (toLowerCase : String → String) (assets : List Asset)

def byHostname (host : String) : Option Asset :=
  assets.reverse.find? fun a => (a.hostname.getD "") ≠ "" && toLowerCase (a.hostname.getD "") = host

def addEdge (edges : List DependencyEdge) (e : DependencyEdge) : List DependencyEdge :=
  if e.childAssetId = e.parentAssetId ∨ e ∈ edges then edges else edges ++ [e]

def controlledBy (host : Option String) (type : AssetType) (a : Asset) : List DependencyEdge :=
  if (host.map toLowerCase).getD "" = "" then []
  else
    match byHostname toLowerCase assets ((host.map toLowerCase).getD "") with
    | none => []
    | some parent => if parent.assetType = type then [⟨a.id, parent.id, .controller⟩] else []

def controllerEdges (a : Asset) : List DependencyEdge :=
  match a.fortinetTopology with
  | none => []
  | some top =>
    match a.assetType with
    | .switch => controlledBy toLowerCase assets top.controllerFortigate .firewall a
    | .accessPoint =>
      if (top.parentSwitch.map toLowerCase).getD "" ≠ "" then
        controlledBy toLowerCase assets top.parentSwitch .switch a
      else controlledBy toLowerCase assets top.controllerFortigate .firewall a
    | _ => []

def bothWays (a b : String) (detectedVia : DetectedVia) : List DependencyEdge :=
  if assets.any (·.id = a) && assets.any (·.id = b) then [⟨a, b, detectedVia⟩, ⟨b, a, detectedVia⟩] else []

def buildDependencyEdgesFromInputs (interfaceEdges : List InterfaceEdge)
    (lldpEdges : List (String × String)) :
    List DependencyEdge :=
  (assets.flatMap (controllerEdges toLowerCase assets) ++
    interfaceEdges.flatMap (fun e => bothWays assets e.sourceAssetId e.targetAssetId .interface) ++
      lldpEdges.flatMap fun e => bothWays assets e.1 e.2 .lldp).foldl addEdge []

end Edges

section Layers

def physicalRank : DetectedVia → Nat
  | .interface => 3
  | .lldp => 2
  | .controller => 1
  | .manual => 0

def isPhysical : DetectedVia → Bool
  | .interface | .lldp => true
  | .controller | .manual => false

abbrev Layers := String → Option Nat

variable (toLowerCase : String → String) (assets : List Asset) (edges : List DependencyEdge)

def adjacent (physical : Bool) (id : String) : List String :=
  ((edges.filter fun e => isPhysical e.detectedVia = physical).flatMap fun e =>
    (if e.childAssetId = id then [e.parentAssetId] else []) ++
      if e.parentAssetId = id then [e.childAssetId] else []).eraseDups

def layerNeighbor (curLayer : Nat) (s : Layers × List String) (n : String) : Layers × List String :=
  if (s.1 n).isSome then s else (Function.update s.1 n (some (curLayer + 1)), s.2 ++ [n])

def visitLayer (layers : Layers) (cur : String) : Except Empty (Layers × List String) :=
  match layers cur with
  | none => .ok (layers, [])
  | some curLayer => .ok ((adjacent edges true cur).foldl (layerNeighbor curLayer) (layers, []))

def endpoints : List String := edges.flatMap fun e => [e.childAssetId, e.parentAssetId]

def physicalBfs (layers : Layers) (seed : List String) : Layers :=
  match drain (visitLayer edges) ((endpoints edges).length + seed.length) layers seed with
  | .ok (layers, _) => layers

def sortTexts (texts : List String) : List String := texts.insertionSort (· ≤ ·)

def rootLayers : Layers := fun id => if assets.any fun a =>
    a.id = id && a.assetType = .firewall then some 1 else none

def closest (layers : Layers) (best : Option (String × Nat)) (n : String) : Option (String × Nat) :=
  match layers n with
  | none => best
  | some nLayer => if ∀ b ∈ best, nLayer < b.2 then some (n, nLayer) else best

/-- The assets without a layer that have a controller with one, each with the
controller nearest to the root. -/
def attachable (layers : Layers) : List (String × String) :=
  (assets.filter fun a => (layers a.id).isNone).filterMap fun a =>
    ((adjacent edges false a.id).foldl (closest layers) none).map fun best => (a.id, best.1)

def buckets (layers : Layers) : List (String × List String) :=
  let attached := attachable assets edges layers
  let entries := (attached.map Prod.snd).eraseDups.map fun p => (p, (attached.filter (·.2 = p)).map Prod.fst)
  entries.insertionSort fun a b => String.intercalate "," (a.1 :: a.2) ≤ String.intercalate "," (b.1 :: b.2)

def neighborsInBucket (memberIds : List String) (id : String) : List String :=
  (adjacent edges true id).filter (· ∈ memberIds)

def chainEnds (memberIds : List String) : List String :=
  memberIds.filter fun id => (neighborsInBucket edges memberIds id).length = 1

def isSimpleChain (memberIds : List String) : Bool :=
  3 ≤ memberIds.length &&
    ((memberIds.map fun id => (neighborsInBucket edges memberIds id).length).sum =
      2 * (memberIds.length - 1)) &&
    (chainEnds edges memberIds).length = 2 &&
    !memberIds.any fun id => 2 < (neighborsInBucket edges memberIds id).length

def sortName (id : String) : String :=
  toLowerCase (((assets.reverse.find? (·.id = id)).bind Asset.hostname).getD id)

def chainHead (memberIds : List String) : Option String :=
  ((chainEnds edges memberIds).insertionSort fun a b =>
    sortName toLowerCase assets a ≤ sortName toLowerCase assets b).head?

def attachBucket (layers : Layers) (bucket : String × List String) : Layers :=
  match layers bucket.1 with
  | none => layers
  | some parentLayer =>
    if isSimpleChain edges bucket.2 then
      match chainHead toLowerCase assets edges bucket.2 with
      | none => layers
      | some head => physicalBfs edges (Function.update layers head (some (parentLayer + 1))) [head]
    else
      physicalBfs edges
        (bucket.2.foldl (fun layers id => Function.update layers id (some (parentLayer + 1))) layers)
        bucket.2

def attach : Nat → Layers → Layers
  | 0, layers => layers
  | n + 1, layers =>
    match buckets assets edges layers with
    | [] => layers
    | bucket :: more => attach n ((bucket :: more).foldl (attachBucket toLowerCase assets edges) layers)

def keepEdge (layers : Layers) (kept : List DependencyEdge) (e : DependencyEdge) : List DependencyEdge :=
  match layers e.childAssetId, layers e.parentAssetId with
  | some childLayer, some parentLayer =>
    if parentLayer + 1 ≠ childLayer then kept
    else if kept.any fun k => k.childAssetId = e.childAssetId && k.parentAssetId = e.parentAssetId then
      kept.map fun k =>
        if k.childAssetId = e.childAssetId ∧ k.parentAssetId = e.parentAssetId ∧
          physicalRank k.detectedVia < physicalRank e.detectedVia then e else k
    else kept ++ [e]
  | _, _ => kept

structure LayerAssignment where
  layers : Layers
  keptEdges : List DependencyEdge
  unresolved : List String

def assignLayers : LayerAssignment :=
  let roots := sortTexts ((assets.filter (·.assetType = .firewall)).map Asset.id)
  let layers := attach toLowerCase assets edges assets.length (physicalBfs edges (rootLayers assets) roots)
  { layers := layers
    keptEdges := edges.foldl (keepEdge layers) []
    unresolved := (assets.filter fun a => (layers a.id).isNone).map Asset.id }

end Layers

section Loops

variable {toLowerCase : String → String} {assets : List Asset} {edges : List DependencyEdge}
  {layers layers' : Layers} {id : String}

theorem mem_adjacent {physical : Bool} {n : String} (h : n ∈ adjacent edges physical id) :
    n ∈ endpoints edges := by
  rw [adjacent, List.mem_eraseDups] at h
  obtain ⟨e, he, hn⟩ := List.mem_flatMap.mp h
  refine List.mem_flatMap.mpr ⟨e, (List.mem_filter.mp he).1, ?_⟩
  obtain hn | hn := List.mem_append.mp hn
  · split at hn
    · exact List.mem_cons_of_mem _ hn
    · cases hn
  · split at hn
    · exact List.mem_singleton.mp hn ▸ List.mem_cons_self
    · cases hn

/-- How many of the items have no layer yet. -/
def unlayered (ids : List String) (layers : Layers) : Nat := (ids.filter fun id => (layers id).isNone).length

theorem unlayered_le {ids : List String} (h : ∀ id, (layers id).isSome → (layers' id).isSome) :
    unlayered ids layers' ≤ unlayered ids layers := by
  refine (List.monotone_filter_right ids fun id hid => ?_).length_le
  rw [Option.isNone_iff_eq_none] at hid ⊢
  by_contra hne
  have hsome := h id (Option.isSome_iff_ne_none.mpr hne)
  rw [hid] at hsome
  cases hsome

theorem unlayered_cons (a : String) (ids : List String) (layers : Layers) :
    unlayered (a :: ids) layers = (if (layers a).isSome then 0 else 1) + unlayered ids layers := by
  rw [unlayered, List.filter_cons]
  cases layers a with
  | none => exact Nat.add_comm _ 1
  | some l => exact (Nat.zero_add _).symm

theorem unlayered_lt {ids : List String} (h : ∀ id, (layers id).isSome → (layers' id).isSome) (hid : id ∈ ids)
    (hnone : layers id = none) (hsome : (layers' id).isSome) :
    unlayered ids layers' < unlayered ids layers := by
  induction ids with
  | nil => cases hid
  | cons a ids ih =>
    have hle : unlayered ids layers' ≤ unlayered ids layers := unlayered_le h
    rw [unlayered_cons, unlayered_cons]
    obtain rfl | hid := List.mem_cons.mp hid
    · rw [if_pos hsome, hnone, if_neg nofun]
      omega
    · have hlt := ih hid
      by_cases ha : (layers a).isSome
      · rw [if_pos (h a ha), if_pos ha]
        omega
      · rw [if_neg ha]
        split <;> omega

theorem isSome_update {v : Nat} (id : String) (n : String) (h : (layers n).isSome) :
    (Function.update layers id (some v) n).isSome := by
  by_cases hn : n = id
  · rw [hn, Function.update_self]
    rfl
  · rwa [Function.update_of_ne hn]

theorem layerNeighbor_foldl (curLayer : Nat) {ns : List String} (hns : ∀ n ∈ ns, n ∈ endpoints edges)
    (s : Layers × List String) :
    (∀ id, (s.1 id).isSome → ((ns.foldl (layerNeighbor curLayer) s).1 id).isSome) ∧
      unlayered (endpoints edges) (ns.foldl (layerNeighbor curLayer) s).1 +
        (ns.foldl (layerNeighbor curLayer) s).2.length ≤ unlayered (endpoints edges) s.1 + s.2.length := by
  induction ns generalizing s with
  | nil => exact ⟨fun _ h => h, Nat.le_refl _⟩
  | cons n ns ih =>
    obtain ⟨hmono, hle⟩ := ih (fun n hn => hns n (List.mem_cons_of_mem _ hn)) (layerNeighbor curLayer s n)
    rw [List.foldl_cons]
    rw [layerNeighbor] at hmono hle ⊢
    split at hmono
    next hs =>
      rw [if_pos hs] at hle ⊢
      exact ⟨hmono, hle⟩
    next hs =>
      rw [if_neg hs] at hle ⊢
      refine ⟨fun id hid => hmono id (isSome_update n id hid), ?_⟩
      have hlt : unlayered (endpoints edges) (Function.update s.1 n (some (curLayer + 1))) <
        unlayered (endpoints edges) s.1 := unlayered_lt
        (fun id hid => isSome_update n id hid) (hns n List.mem_cons_self) (by simpa using hs)
        (by rw [Function.update_self]; rfl)
      dsimp only at hle
      rw [List.length_append, List.length_singleton] at hle
      omega

theorem visitLayer_weight (s : Layers) (a : String) (s' : Layers) (more : List String)
    (h : visitLayer edges s a = .ok (s', more)) :
    unlayered (endpoints edges) s' + more.length ≤ unlayered (endpoints edges) s := by
  rw [visitLayer] at h
  split at h
  next =>
    cases h
    exact Nat.le_refl _
  next curLayer hcur =>
    have hfold := (layerNeighbor_foldl curLayer
      (show ∀ n ∈ adjacent edges true a, n ∈ endpoints edges from fun n hn => mem_adjacent hn) (s, [])).2
    rw [Except.ok.inj h] at hfold
    exact hfold

/-- The queue of the search is empty when it ends. -/
theorem physicalBfs_ends {seed rest : List String}
    (h : drain (visitLayer edges) ((endpoints edges).length + seed.length) layers seed =
      .ok (layers', rest)) :
    rest = [] :=
  drain_ends visitLayer_weight (Nat.add_le_add_right (List.length_filter_le _ _) _) h

theorem physicalBfs_mono (seed : List String) (h : (layers id).isSome) :
    (physicalBfs edges layers seed id).isSome := by
  cases hd : drain (visitLayer edges) ((endpoints edges).length + seed.length) layers seed with
  | error e => exact e.elim
  | ok r =>
    obtain ⟨layers', rest⟩ := r
    rw [physicalBfs, hd]
    refine drain_invariant (I := fun l _ => (l id).isSome) (fun s a queue s' more hs hv => ?_) h hd
    rw [visitLayer] at hv
    split at hv
    next =>
      cases hv
      exact hs
    next curLayer _ =>
      have hmono := (layerNeighbor_foldl curLayer
        (show ∀ n ∈ adjacent edges true a, n ∈ endpoints edges from fun n hn => mem_adjacent hn) (s,
          [])).1 id hs
      rwa [Except.ok.inj hv] at hmono

theorem isSome_updates {v : Nat} (ids : List String) (h : id ∈ ids ∨ (layers id).isSome) :
    (ids.foldl (fun layers n => Function.update layers n (some v)) layers id).isSome := by
  induction ids generalizing layers with
  | nil => exact h.resolve_left List.not_mem_nil
  | cons n ids ih =>
    apply ih
    obtain h | h := h
    · obtain rfl | h := List.mem_cons.mp h
      · refine .inr ?_
        dsimp only
        rw [Function.update_self]
        rfl
      · exact .inl h
    · exact .inr (isSome_update n id h)

theorem attachBucket_mono (bucket : String × List String) (h : (layers id).isSome) :
    (attachBucket toLowerCase assets edges layers bucket id).isSome := by
  cases hparent : layers bucket.1 with
  | none => rwa [attachBucket, hparent]
  | some parentLayer =>
    rw [attachBucket, hparent]
    dsimp only
    by_cases hchain : isSimpleChain edges bucket.2
    · rw [if_pos hchain]
      cases hhead : chainHead toLowerCase assets edges bucket.2 with
      | none => exact h
      | some head => exact physicalBfs_mono _ (isSome_update head id h)
    · rw [if_neg hchain]
      exact physicalBfs_mono _ (isSome_updates _ (.inr h))

theorem attachBuckets_mono (more : List (String × List String)) (h : (layers id).isSome) :
    (more.foldl (attachBucket toLowerCase assets edges) layers id).isSome := by
  induction more generalizing layers with
  | nil => exact h
  | cons bucket more ih => exact ih (attachBucket_mono bucket h)

theorem closest_layer {ns : List String} {best : Option (String × Nat)}
    (hbest : ∀ b ∈ best, layers b.1 = some b.2) :
    ∀ b ∈ ns.foldl (closest layers) best, layers b.1 = some b.2 := by
  induction ns generalizing best with
  | nil => exact hbest
  | cons n ns ih =>
    apply ih
    rw [closest]
    split
    next => exact hbest
    next nLayer hn =>
      split
      next =>
        rintro b ⟨⟩
        exact hn
      next => exact hbest

theorem mem_attachable {a p : String} (h : (a, p) ∈ attachable assets edges layers) :
    a ∈ assets.map Asset.id ∧ layers a = none ∧ (layers p).isSome := by
  obtain ⟨asset, hasset, hattached⟩ := List.mem_filterMap.mp h
  obtain ⟨best, hbest, heq⟩ := Option.map_eq_some_iff.mp hattached
  cases heq
  obtain ⟨hmem, hnone⟩ := List.mem_filter.mp hasset
  have hlayer := closest_layer (show ∀ b ∈ (none : Option (String × Nat)),
    layers b.1 = some b.2 from nofun) best hbest
  exact ⟨List.mem_map_of_mem hmem, by simpa using hnone, by rw [hlayer]; rfl⟩

theorem mem_buckets {bucket : String × List String} (h : bucket ∈ buckets assets edges layers) :
    (∀ m ∈ bucket.2, (m, bucket.1) ∈ attachable assets edges layers) ∧ bucket.2 ≠ [] := by
  rw [buckets, List.mem_insertionSort] at h
  obtain ⟨p, hp, rfl⟩ := List.mem_map.mp h
  obtain ⟨⟨a, p'⟩, hap, rfl⟩ := List.mem_map.mp (List.mem_eraseDups.mp hp)
  refine ⟨fun m hm => ?_, ?_⟩
  · obtain ⟨⟨m', q⟩, hm', rfl⟩ := List.mem_map.mp hm
    obtain ⟨hmem, hq⟩ := List.mem_filter.mp hm'
    obtain rfl := of_decide_eq_true hq
    exact hmem
  · exact List.ne_nil_of_mem (List.mem_map_of_mem (List.mem_filter.mpr ⟨hap, by simp⟩))

theorem chainHead_mem {memberIds : List String} (h : isSimpleChain edges memberIds = true) :
    ∃ head ∈ memberIds, chainHead toLowerCase assets edges memberIds = some head := by
  simp only [isSimpleChain, Bool.and_eq_true, decide_eq_true_eq] at h
  have hlen : ((chainEnds edges memberIds).insertionSort fun a b =>
      sortName toLowerCase assets a ≤ sortName toLowerCase assets b).length = 2 := by
    rw [List.length_insertionSort]
    exact h.1.2
  obtain ⟨head, tail, hsorted⟩ := List.exists_cons_of_length_eq_add_one hlen
  have hmem : head ∈ chainEnds edges memberIds := by
    rw [← List.mem_insertionSort fun a b => sortName toLowerCase assets a ≤ sortName toLowerCase assets b,
      hsorted]
    exact List.mem_cons_self
  exact ⟨head, (List.mem_filter.mp hmem).1, by rw [chainHead, hsorted]; rfl⟩

theorem attachBucket_progress {bucket : String × List String} (h : bucket ∈ buckets assets edges layers) :
    ∃ a ∈ assets.map Asset.id, layers a = none ∧
      (attachBucket toLowerCase assets edges layers bucket a).isSome := by
  obtain ⟨hmembers, hne⟩ := mem_buckets h
  obtain ⟨m, hm⟩ := List.exists_mem_of_ne_nil _ hne
  obtain ⟨parentLayer, hparent⟩ := Option.isSome_iff_exists.mp (mem_attachable (hmembers m hm)).2.2
  rw [attachBucket, hparent]
  dsimp only
  split
  next hchain =>
    obtain ⟨head, hhead, hsome⟩ : ∃ head ∈ bucket.2,
      chainHead toLowerCase assets edges bucket.2 = some head :=
      chainHead_mem hchain
    obtain ⟨hasset, hnone, -⟩ := mem_attachable (hmembers head hhead)
    refine ⟨head, hasset, hnone, ?_⟩
    rw [hsome]
    apply physicalBfs_mono
    rw [Function.update_self]
    rfl
  next =>
    obtain ⟨hasset, hnone, -⟩ := mem_attachable (hmembers m hm)
    exact ⟨m, hasset, hnone, physicalBfs_mono _ (isSome_updates _ (.inl hm))⟩

theorem attach_ends {n : Nat} (h : unlayered (assets.map Asset.id) layers ≤ n) :
    buckets assets edges (attach toLowerCase assets edges n layers) = [] := by
  induction n generalizing layers with
  | zero =>
    rw [attach, List.eq_nil_iff_forall_not_mem]
    intro bucket hbucket
    obtain ⟨a, ha, hnone, -⟩ : ∃ a ∈ assets.map Asset.id, layers a = none ∧
      (attachBucket toLowerCase assets edges layers bucket a).isSome := attachBucket_progress hbucket
    have hlt : unlayered (assets.map Asset.id) (Function.update layers a (some 1)) <
      unlayered (assets.map Asset.id) layers := unlayered_lt (fun n hn => isSome_update a n hn) ha hnone
      (by rw [Function.update_self]; rfl)
    omega
  | succ n ih =>
    rw [attach]
    split
    next hnil => exact hnil
    next bucket more hbuckets =>
      apply ih
      obtain ⟨a, ha, hnone, hsome⟩ : ∃ a ∈ assets.map Asset.id, layers a = none ∧
        (attachBucket toLowerCase assets edges layers bucket a).isSome :=
        attachBucket_progress (hbuckets ▸ List.mem_cons_self)
      have hlt : unlayered (assets.map Asset.id)
        ((bucket :: more).foldl (attachBucket toLowerCase assets edges)
        layers) <
          unlayered (assets.map Asset.id) layers := unlayered_lt
        (fun n hn => attachBuckets_mono _ hn) ha hnone (attachBuckets_mono more hsome)
      omega

/-- The loop over the controllers ends with nothing left to attach. -/
theorem assignLayers_ends :
    buckets assets edges (assignLayers toLowerCase assets edges).layers = [] := by
  apply attach_ends
  rw [unlayered]
  exact (List.length_filter_le _ _).trans_eq (List.length_map _)

end Loops

section Store

structure State where
  rows : List Row := []
  dependencyLayer : Layers := fun _ => none

variable (rows : List Row)

def parentsFrom (source : Source) (child : String) : List String :=
  (rows.filter fun r => r.source = source && r.assetId = child).map Row.parentAssetId

def effectiveParentsOf (child : String) : List String :=
  if parentsFrom rows .override child = [] then parentsFrom rows .computed child
  else parentsFrom rows .override child

def sameRow (r r' : Row) : Bool :=
  r.assetId = r'.assetId && r.parentAssetId = r'.parentAssetId && r.source = r'.source

/-- `createMany` with `skipDuplicates`. -/
def insertRows (data : List Row) : List Row :=
  data.foldl (fun rows r => if rows.any (sameRow r) then rows else rows ++ [r]) rows

def withoutOverride (id : String) : List Row := rows.filter fun r => ¬ (r.assetId = id ∧ r.source = .override)

end Store

section Recompute

structure Signals where
  assets : List Asset
  interfaceEdges : List InterfaceEdge := []
  lldpRows : List LldpRow := []

structure Recomputed where
  inScope : Nat
  edgesWritten : Nat
  unresolved : Nat
  deriving DecidableEq

variable (toLowerCase : String → String) (signals : Signals) (integrationId : Option String)

def Signals.inventory : List Asset := signals.assets.filter (·.assetType.infra)

def Signals.inScope : List String :=
  if integrationId.getD "" ≠ "" then
    (signals.inventory.filter (·.discoveredByIntegrationId = integrationId)).map Asset.id
  else signals.inventory.map Asset.id

def Signals.lldpEdges : List (String × String) :=
  signals.lldpRows.filterMap fun r =>
    if signals.inventory.any (·.id = r.assetId) && r.matchedAssetId.getD "" ≠ "" then
      r.matchedAssetId.map fun peer => (r.assetId, peer)
    else none

def Signals.assignment : LayerAssignment :=
  assignLayers toLowerCase signals.inventory
    (buildDependencyEdgesFromInputs toLowerCase signals.inventory signals.interfaceEdges signals.lldpEdges)

def computedRow (e : DependencyEdge) : Row := ⟨e.childAssetId, e.parentAssetId, .computed, e.detectedVia⟩

def Signals.scopedKept : List DependencyEdge :=
  (signals.assignment toLowerCase).keptEdges.filter fun e => e.childAssetId ∈ signals.inScope integrationId

def recomputeDependencyTree (s : State) : State × Recomputed :=
  if signals.inventory = [] then (s, ⟨0, 0, 0⟩)
  else
    let inScope := signals.inScope integrationId
    let scopedKept := signals.scopedKept toLowerCase integrationId
    let cleared := s.rows.filter fun r => ¬ (r.source = .computed ∧ r.assetId ∈ inScope)
    ({ rows := insertRows cleared (scopedKept.map computedRow)
       dependencyLayer := fun id =>
        if id ∈ inScope then (signals.assignment toLowerCase).layers id else s.dependencyLayer id },
      ⟨inScope.length, scopedKept.length, (signals.assignment toLowerCase).unresolved.length⟩)

end Recompute

section Routes

def cycleFailure : Failure := .app 400 "Proposed override would form a dependency cycle"

/-- The climb of the override route, from the proposed parents up. -/
def cycleCheck (next : String → List String) (nodes : List String) (id : String) (proposed : List String) :
    Except Failure (List String × List String) :=
  search next id cycleFailure nodes proposed

variable (assets : List Asset) (id : String) (parentAssetIds : List String)

def bodyIssues : List String :=
  (if 20 < parentAssetIds.length then ["parentAssetIds: Array must contain at most 20 element(s)"] else []) ++
    parentAssetIds.zipIdx.filterMap fun p =>
      if p.1 = "" then some ("parentAssetIds." ++ toString p.2 ++
        ": String must contain at least 1 character(s)")
      else none

def shownName (a : Asset) : String := if a.hostname.getD "" ≠ "" then a.hostname.getD "" else a.id

def checkParents (s : State) (proposed : List String) : Except Failure Unit :=
  let found := assets.filter (·.id ∈ proposed)
  let wrongType := found.filter (!·.assetType.infra)
  if found.length ≠ proposed.length then .error (.app 400 "One or more proposed parent assets not found")
  else if wrongType ≠ [] then
    .error (.app 400 ("Dependency parents must be firewall/switch/access_point: " ++
      String.intercalate ", " (wrongType.map shownName)))
  else (cycleCheck (effectiveParentsOf s.rows) (s.rows.map Row.assetId) id proposed).map fun _ => ()

def putOverride (s : State) : Except Failure (State × List String) :=
  let proposedParentIds := parentAssetIds.eraseDups
  if bodyIssues parentAssetIds ≠ [] then
    .error (.app 400 (String.intercalate "; " (bodyIssues parentAssetIds)))
  else if !assets.any (·.id = id) then .error (.app 404 "Asset not found")
  else if id ∈ proposedParentIds then .error (.app 400 "An asset cannot be its own dependency parent")
  else
    (if proposedParentIds = [] then .ok () else checkParents assets id s proposedParentIds).map fun _ =>
      ({ s with
          rows := insertRows (withoutOverride s.rows id)
            (proposedParentIds.map fun parentId => ⟨id, parentId, .override, .manual⟩) },
        proposedParentIds)

def deleteOverride (s : State) : Except Failure (State × Nat) :=
  if !assets.any (·.id = id) then .error (.app 404 "Asset not found")
  else .ok ({ s with rows := withoutOverride s.rows id }, s.rows.length - (withoutOverride s.rows id).length)

end Routes

section Runs

inductive Op
  | putOverride (assets : List Asset) (id : String) (parentAssetIds : List String)
  | deleteOverride (assets : List Asset) (id : String)
  | recompute (signals : Signals) (integrationId : Option String)

variable (toLowerCase : String → String)

/-- A refused request leaves the rows as they are. -/
def step (s : State) : Op → State
  | .putOverride assets id parentAssetIds =>
    match putOverride assets id parentAssetIds s with
    | .ok (s', _) => s'
    | .error _ => s
  | .deleteOverride assets id =>
    match deleteOverride assets id s with
    | .ok (s', _) => s'
    | .error _ => s
  | .recompute signals integrationId => (recomputeDependencyTree toLowerCase signals integrationId s).1

def run (s : State) (ops : List Op) : State := ops.foldl (step toLowerCase) s

end Runs

end Polaris.DependencyTree
