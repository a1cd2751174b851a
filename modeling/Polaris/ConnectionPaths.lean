import Mathlib.Data.List.Sort
import Polaris.Lib.Walks
import Polaris.Reservations

namespace Polaris.ConnectionPaths

open Polaris.Lib.Text
open Polaris.Lib.Walks
open Polaris.Reservations (MonitorStatus truthy)

section Data

structure FortinetTopology where
  controllerFortigate : Option String := none
  parentSwitch : Option String := none
  uplinkInterface : Option String := none
  deriving DecidableEq

structure Asset where
  id : String
  hostname : Option String := none
  serialNumber : Option String := none
  ipAddress : Option String := none
  macAddress : Option String := none
  assetType : String
  monitorStatus : Option MonitorStatus := none
  monitored : Bool := false
  lastMonitorAt : Option Nat := none
  lastSeenSwitch : Option String := none
  fortinetTopology : Option FortinetTopology := none
  deriving DecidableEq

inductive DependencySource
  | computed | override
  deriving DecidableEq

structure AssetDependencyParent where
  assetId : String
  parentAssetId : String
  source : DependencySource

structure Db where
  assets : List Asset
  parents : List AssetDependencyParent
  nodup : (assets.map (·.id)).Nodup

inductive HopKind
  | endpoint | switch | firewall
  deriving DecidableEq

structure Hop where
  kind : HopKind
  asset : Asset
  endpointPort : Option String := none
  uplinkInterface : Option String := none
  deriving DecidableEq

structure ConnectionPath where
  asset : Asset
  hops : List Hop
  alternateUplinks : Nat
  siteId : Option String

end Data

section Lookups

variable (db : Db)

def findUnique (id : String) : Option Asset := db.assets.find? (·.id = id)

def parseLastSeenSwitch (s : Option String) : Option (String × String) :=
  (truthy s).map fun s =>
    match s.toList.findIdx? (· = '/') with
    | none => (trim s, "")
    | some i => (trim (String.ofList (s.toList.take i)), trim (String.ofList (s.toList.drop (i + 1))))

def findSwitchByName (switchId : String) : Option Asset :=
  db.assets.find? fun a =>
    a.assetType = "switch" && (a.hostname = some switchId || a.serialNumber = some switchId)

def getEffectiveParents (assetId : String) : List Asset :=
  let rows := db.parents.filter (·.assetId = assetId)
  let overrides := rows.filter (·.source = .override)
  let effective := if overrides = [] then rows.filter (·.source = .computed) else overrides
  effective.filterMap fun r => findUnique db r.parentAssetId

/-- Parents that are up come first, and among those the one that was probed
last. -/
def prefers (a b : Asset) : Bool :=
  let aUp := if a.monitorStatus = some .up then 0 else 1
  let bUp := if b.monitorStatus = some .up then 0 else 1
  if aUp ≠ bUp then aUp ≤ bUp else b.lastMonitorAt.getD 0 ≤ a.lastMonitorAt.getD 0

def sortParentsByPreference (parents : List Asset) : List Asset := parents.insertionSort (prefers · ·)

def resolveTopologyFallback (asset : Option Asset) : Option Asset :=
  asset.bind fun a => a.fortinetTopology.bind fun ft =>
    let firewall := fun name => db.assets.find? fun f => f.hostname = some name && f.assetType = "firewall"
    match a.assetType, truthy ft.controllerFortigate, truthy ft.parentSwitch with
    | "switch", some name, _ => firewall name
    | "access_point", _, some name =>
      db.assets.find? fun f => f.hostname = some name && f.assetType = "switch"
    | "access_point", some name, none => firewall name
    | _, _, _ => none

def uplinkInterfaceOf (a : Asset) : Option String := truthy (a.fortinetTopology.bind (·.uplinkInterface))

def kindOf (a : Asset) : HopKind := if a.assetType = "firewall" then .firewall else .switch

end Lookups

section Paths

variable (db : Db)

def MAX_HOPS : Nat := 16

def parentHop (best : Asset) : Hop where
  kind := kindOf best
  asset := best
  uplinkInterface := if kindOf best = .switch then uplinkInterfaceOf best else none

def walk : Nat → String → List String → List Hop × Nat
  | 0, _, _ => ([], 0)
  | n + 1, cursorId, seen =>
    let parents := getEffectiveParents db cursorId
    if parents = [] then
      match resolveTopologyFallback db (findUnique db cursorId) with
      | none => ([], 0)
      | some fallback =>
        if fallback.id ∈ seen then ([], 0)
        else
          let hop : Hop := { kind := kindOf fallback, asset := fallback }
          if fallback.assetType = "firewall" then ([hop], 0)
          else
            let (hops, others) := walk n fallback.id (fallback.id :: seen)
            (hop :: hops, others)
    else
      let sorted := sortParentsByPreference parents
      match sorted.head? with
      | none => ([], 0)
      | some best =>
        if best.id ∈ seen then ([], 0)
        else if kindOf best = .firewall then ([parentHop best], sorted.length - 1)
        else
          let (hops, others) := walk n best.id (best.id :: seen)
          (parentHop best :: hops, others + (sorted.length - 1))

def leafKind (asset : Asset) : HopKind :=
  if asset.assetType = "firewall" then .firewall
  else if asset.assetType = "switch" ∨ asset.assetType = "access_point" then .switch
  else .endpoint

/-- The hops below the walk, and where it starts. -/
def foot (asset : Asset) : List Hop × Option String :=
  let leaf : Hop := { kind := leafKind asset, asset := asset }
  match leafKind asset with
  | .firewall => ([leaf], none)
  | .switch => ([{ leaf with uplinkInterface := uplinkInterfaceOf asset }], some asset.id)
  | .endpoint =>
    match parseLastSeenSwitch asset.lastSeenSwitch with
    | none => ([leaf], none)
    | some (switchId, port) =>
      match findSwitchByName db switchId with
      | none => ([leaf], none)
      | some sw =>
        if sw.id = asset.id then ([leaf], none)
        else
          ([leaf,
            { kind := .switch, asset := sw, endpointPort := truthy (some port),
              uplinkInterface := uplinkInterfaceOf sw }],
            some sw.id)

def siteOf (hops : List Hop) : Option String :=
  hops.getLast?.bind fun last => if last.kind = .firewall then some last.asset.id else none

def resolveConnectionPath (assetId : String) : Option ConnectionPath :=
  (findUnique db assetId).map fun asset =>
    let (hops, start) := foot db asset
    let (above, others) :=
      match start with
      | none => ([], 0)
      | some id => walk db MAX_HOPS id (hops.map (·.asset.id)).reverse
    { asset := asset, hops := hops ++ above, alternateUplinks := others, siteId := siteOf (hops ++ above) }

end Paths

section Steps

variable {db : Db} {id : String} {a : Asset}

def above (db : Db) (id : String) : Option Asset :=
  if getEffectiveParents db id = [] then resolveTopologyFallback db (findUnique db id)
  else (sortParentsByPreference (getEffectiveParents db id)).head?

def hopTo (db : Db) (id : String) (a : Asset) : Hop :=
  if getEffectiveParents db id = [] then { kind := kindOf a, asset := a } else parentHop a

def othersOf (db : Db) (id : String) : Nat := (getEffectiveParents db id).length - 1

theorem kindOf_eq_firewall : kindOf a = .firewall ↔ a.assetType = "firewall" := by
  rw [kindOf]
  split
  next h => exact iff_of_true rfl h
  next h => exact iff_of_false (fun hk => by cases hk) h

theorem walk_succ (n : Nat) (seen : List String) : walk db (n + 1) id seen =
    match above db id with
    | none => ([], 0)
    | some a =>
      if a.id ∈ seen then ([], 0)
      else if kindOf a = .firewall then ([hopTo db id a], othersOf db id)
      else (hopTo db id a :: (walk db n a.id (a.id :: seen)).1, (walk db n a.id (a.id :: seen)).2 +
        othersOf db id) := by
  rw [walk, above]
  dsimp only
  by_cases hparents : getEffectiveParents db id = []
  · rw [if_pos hparents, if_pos hparents]
    cases resolveTopologyFallback db (findUnique db id) with
    | none => rfl
    | some a =>
      dsimp only
      rw [hopTo, if_pos hparents, othersOf, hparents, if_congr (kindOf_eq_firewall (a := a)) rfl rfl]
      rfl
  · rw [if_neg hparents, if_neg hparents]
    rw [sortParentsByPreference, List.length_insertionSort]
    cases ((getEffectiveParents db id).insertionSort (prefers · ·)).head? with
    | none => rfl
    | some a =>
      dsimp only
      rw [hopTo, if_neg hparents, othersOf]

def next (db : Db) (id : String) : Option String := (above db id).map (·.id)

def isFirewall (db : Db) (id : String) : Bool := (findUnique db id).any (·.assetType = "firewall")

theorem findUnique_of_mem (h : a ∈ db.assets) : findUnique db a.id = some a := by
  cases hfound : findUnique db a.id with
  | none =>
    have hnone := List.find?_eq_none.mp hfound a h
    exact absurd (decide_eq_true rfl) hnone
  | some b =>
    rw [findUnique] at hfound
    have hid : b.id = a.id := by simpa using List.find?_some hfound
    rw [List.inj_on_of_nodup_map db.nodup (List.mem_of_find?_eq_some hfound) h hid]

theorem isFirewall_iff (h : a ∈ db.assets) : isFirewall db a.id = true ↔ kindOf a = .firewall := by
  rw [isFirewall, findUnique_of_mem h, Option.any_some, decide_eq_true_iff, kindOf_eq_firewall]

theorem mem_resolveTopologyFallback {lower : Option Asset}
    (h : resolveTopologyFallback db lower = some a) : a ∈
    db.assets := by
  obtain ⟨l, -, h⟩ := Option.bind_eq_some_iff.mp h
  obtain ⟨ft, -, h⟩ := Option.bind_eq_some_iff.mp h
  dsimp only at h
  split at h <;> first | exact List.mem_of_find?_eq_some h | cases h

theorem above_mem (h : above db id = some a) : a ∈ db.assets := by
  rw [above] at h
  split at h
  · exact mem_resolveTopologyFallback h
  · have hmem : a ∈ getEffectiveParents db id := (List.mem_insertionSort _).mp (List.mem_of_head? h)
    obtain ⟨row, -, hrow⟩ := List.mem_filterMap.mp hmem
    exact List.mem_of_find?_eq_some hrow

theorem hopTo_asset : (hopTo db id a).asset = a := by
  rw [hopTo]
  split <;> rfl

theorem hopTo_kind : (hopTo db id a).kind = kindOf a := by
  rw [hopTo]
  split <;> rfl

/-- The hops of the walk, their kinds, and how many parents were passed over
on the way. -/
theorem walk_spec (db : Db) (id : String) (n : Nat) (seen : List String) :
    (walk db n id seen).1.map (·.asset.id) = follow (next db) (isFirewall db) n id seen ∧
      (∀ hop ∈ (walk db n id seen).1, hop.asset ∈ db.assets ∧ hop.kind = kindOf hop.asset) ∧
      (walk db n id seen).2 = ((id :: follow (next db) (isFirewall db) n id seen).dropLast.map
        (othersOf db)).sum := by
  induction n generalizing id seen with
  | zero => exact ⟨rfl, List.forall_mem_nil _, rfl⟩
  | succ n ih =>
    rw [walk_succ, follow, next]
    cases ha : above db id with
    | none => exact ⟨rfl, List.forall_mem_nil _, rfl⟩
    | some a =>
      dsimp only [Option.map_some]
      by_cases hseen : a.id ∈ seen
      · rw [if_pos hseen, if_pos hseen]
        exact ⟨rfl, List.forall_mem_nil _, rfl⟩
      · have hmem : a ∈ db.assets := above_mem ha
        have hhop : (hopTo db id a).asset ∈ db.assets ∧
          (hopTo db id a).kind = kindOf (hopTo db id a).asset := by
          rw [hopTo_asset, hopTo_kind]
          exact ⟨hmem, rfl⟩
        rw [if_neg hseen, if_neg hseen, if_congr (isFirewall_iff hmem) rfl rfl]
        by_cases hk : kindOf a = .firewall
        · rw [if_pos hk, if_pos hk]
          refine ⟨by rw [List.map_singleton, hopTo_asset], fun hop h => List.mem_singleton.mp h ▸ hhop, ?_⟩
          exact (Nat.add_zero _).symm
        · rw [if_neg hk, if_neg hk]
          obtain ⟨hids, hhops, hothers⟩ := ih a.id (a.id :: seen)
          refine ⟨by rw [List.map_cons, hopTo_asset, hids], List.forall_mem_cons.mpr ⟨hhop, hhops⟩, ?_⟩
          rw [hothers, List.dropLast_cons_cons, List.map_cons, List.sum_cons, Nat.add_comm]

end Steps

section Sound

variable {db : Db} {asset : Asset} {assetId : String}

/-- The hop is the switch that the asset was last seen at. -/
def Wired (db : Db) (asset : Asset) (hop : Hop) : Prop :=
  ∃ name port, parseLastSeenSwitch asset.lastSeenSwitch = some (name, port) ∧
    findSwitchByName db name = some hop.asset

/-- What is below the walk: the asset, a firewall or one that leads nowhere,
or the switch that the walk starts from. -/
inductive Foot (db : Db) (asset : Asset) : List Hop × Option String → Prop
  | firewall (h : asset.assetType = "firewall") :
    Foot db asset ([{ kind := .firewall, asset := asset }], none)
  | alone {leaf : Hop} (hasset : leaf.asset = asset) (h : asset.assetType ≠ "firewall")
    (hkind : leaf.kind ≠ .firewall) :
      Foot db asset ([leaf], none)
  | switch {leaf : Hop} (hasset : leaf.asset = asset) (h : asset.assetType ≠ "firewall")
    (hkind : leaf.kind = .switch) :
      Foot db asset ([leaf], some asset.id)
  | wired {leaf hop : Hop} (hasset : leaf.asset = asset) (h : asset.assetType ≠ "firewall")
    (hkind : leaf.kind = .endpoint)
      (hswitch : hop.kind = .switch) (hwired : Wired db asset hop) (hne : hop.asset.id ≠ asset.id) :
      Foot db asset ([leaf, hop], some hop.asset.id)

theorem foot_spec (db : Db) (asset : Asset) : Foot db asset (foot db asset) := by
  have hleaf : leafKind asset = .firewall ↔ asset.assetType = "firewall" := by
    rw [leafKind]
    split
    next h => exact iff_of_true rfl h
    next h => split <;> exact iff_of_false (fun hk => by cases hk) h
  rw [foot]
  dsimp only
  split
  next hk => rw [hk]; exact .firewall (hleaf.mp hk)
  next hk => exact .switch rfl (fun h => by rw [hleaf.mpr h] at hk; cases hk) hk
  next hk =>
    have hnot : asset.assetType ≠ "firewall" := fun h => by rw [hleaf.mpr h] at hk; cases hk
    have hlow : leafKind asset ≠ .firewall := fun h => hnot (hleaf.mp h)
    split
    next => exact .alone rfl hnot hlow
    next name port hparse =>
      split
      next => exact .alone rfl hnot hlow
      next sw hsw =>
        split
        next => exact .alone rfl hnot hlow
        next hne => exact .wired rfl hnot hk rfl ⟨name, port, hparse, hsw⟩ hne

theorem Wired.mem {hop : Hop} (h : Wired db asset hop) :
    hop.asset ∈ db.assets ∧ hop.asset.assetType = "switch" := by
  obtain ⟨name, port, -, hfound⟩ := h
  refine ⟨List.mem_of_find?_eq_some hfound, ?_⟩
  have hp := List.find?_some hfound
  rw [Bool.and_eq_true] at hp
  exact of_decide_eq_true hp.1

/-- One hop is above the other: the switch of an endpoint, or the asset that
is preferred above. -/
def Above (db : Db) (lower upper : Hop) : Prop :=
  if lower.kind = .endpoint then Wired db lower.asset upper else above db lower.asset.id = some upper.asset

/-- What holds of a path: no asset twice, each hop above the one before, no
firewall but at the top, and the parents that were passed over are counted. -/
structure Sound (db : Db) (p : ConnectionPath) : Prop where
  distinct : (p.hops.map (·.asset.id)).Nodup
  bounded : p.hops.length ≤ MAX_HOPS + 2
  linked : p.hops.IsChain (Above db)
  below : ∀ hop ∈ p.hops.dropLast, hop.kind ≠ .firewall
  others : p.alternateUplinks = ((p.hops.dropLast.filter (·.kind ≠ .endpoint)).map
    (othersOf db ·.asset.id)).sum

theorem kindOf_ne_endpoint (a : Asset) : kindOf a ≠ .endpoint := by
  rw [kindOf]
  split <;> exact fun h => by cases h

theorem rise_linked {hop : Hop} (hmem : hop.asset ∈ db.assets) (hkind : hop.kind = .switch) (n : Nat)
    (seen : List String) :
    (hop :: (walk db n hop.asset.id seen).1).IsChain (Above db) := by
  obtain ⟨hids, hhops, -⟩ := walk_spec db hop.asset.id n seen
  have hchain : List.IsChain (fun a b => next db a = some b) ((hop :: (walk db n hop.asset.id seen).1).map
    (·.asset.id)) := by
    rw [List.map_cons, hids]
    exact chain_follow
  refine ((List.isChain_map _).mp hchain).imp_of_mem_imp fun a b ha hb hnext => ?_
  have hlow : a.kind ≠ .endpoint := by
    obtain rfl | ha := List.mem_cons.mp ha
    · rw [hkind]
      exact fun h => by cases h
    · rw [(hhops a ha).2]
      exact kindOf_ne_endpoint _
  have hin : b.asset ∈ db.assets := by
    obtain rfl | hb := List.mem_cons.mp hb
    · exact hmem
    · exact (hhops b hb).1
  obtain ⟨c, hc, hid⟩ := Option.map_eq_some_iff.mp hnext
  rw [Above, if_neg hlow, hc, List.inj_on_of_nodup_map db.nodup (above_mem hc) hin hid]

theorem rise_below {hop : Hop} (hkind : hop.kind = .switch) (n : Nat) (seen : List String) :
    ∀ h ∈ (hop :: (walk db n hop.asset.id seen).1).dropLast, h.kind ≠ .firewall := by
  obtain ⟨hids, hhops, -⟩ := walk_spec db hop.asset.id n seen
  have hgoes : ∀ h ∈ (walk db n hop.asset.id seen).1.dropLast, h.kind ≠ .firewall := by
    intro h hh hfire
    have hmem := List.dropLast_subset _ hh
    have hdrop : h.asset.id ∈ (follow (next db) (isFirewall db) n hop.asset.id seen).dropLast := by
      rw [← hids, ← List.map_dropLast]
      exact List.mem_map_of_mem hh
    have hstop := goes_follow _ hdrop
    rw [(isFirewall_iff (hhops h hmem).1).mpr ((hhops h hmem).2.symm.trans hfire)] at hstop
    cases hstop
  cases hw : (walk db n hop.asset.id seen).1 with
  | nil => exact List.forall_mem_nil _
  | cons u us =>
    rw [List.dropLast_cons_cons, ← hw]
    exact List.forall_mem_cons.mpr ⟨by rw [hkind]; exact fun h => (by cases h), hgoes⟩

theorem rise_others {hop : Hop} (hkind : hop.kind = .switch) (n : Nat) (seen : List String) :
    (walk db n hop.asset.id seen).2 =
      (((hop :: (walk db n hop.asset.id seen).1).dropLast.filter (·.kind ≠ .endpoint)).map
        (othersOf db ·.asset.id)).sum := by
  obtain ⟨hids, hhops, hothers⟩ := walk_spec db hop.asset.id n seen
  have hall : ∀ h ∈ (hop :: (walk db n hop.asset.id seen).1).dropLast,
    decide (h.kind ≠ .endpoint) = true := by
    intro h hh
    obtain rfl | hmem := List.mem_cons.mp (List.dropLast_subset _ hh)
    · rw [hkind]
      rfl
    · rw [(hhops h hmem).2]
      exact decide_eq_true (kindOf_ne_endpoint _)
  have hcons : hop.asset.id :: (walk db n hop.asset.id seen).1.map (·.asset.id) =
      (hop :: (walk db n hop.asset.id seen).1).map (·.asset.id) := rfl
  rw [hothers, ← hids, List.filter_eq_self.mpr hall, hcons, ← List.map_dropLast, List.map_map]
  rfl

theorem rise_fresh (db : Db) (id : String) (n : Nat) (seen : List String) :
    ((walk db n id seen).1.map (·.asset.id)).Nodup ∧
      (∀ w ∈ (walk db n id seen).1.map (·.asset.id), w ∉ seen) ∧
      (walk db n id seen).1.length ≤ n := by
  obtain ⟨hids, -, -⟩ := walk_spec db id n seen
  have hlength : (follow (next db) (isFirewall db) n id seen).length ≤ n := length_follow
  rw [← hids, List.length_map] at hlength
  rw [hids]
  exact ⟨fresh_follow.1, fresh_follow.2, hlength⟩

theorem sound_alone (asset : Asset) (leaf : Hop) (site : Option String) : Sound db ⟨asset, [leaf], 0, site⟩ :=
  ⟨List.nodup_singleton _, Nat.le_add_left 1 _, List.isChain_singleton _, List.forall_mem_nil _, rfl⟩

theorem sound_switch {leaf : Hop} (hmem : leaf.asset ∈ db.assets) (hkind : leaf.kind = .switch) {n : Nat}
    (hn : n ≤ MAX_HOPS)
    (asset : Asset) (site : Option String) :
    Sound db ⟨asset, leaf :: (walk db n leaf.asset.id [leaf.asset.id]).1,
      (walk db n leaf.asset.id [leaf.asset.id]).2, site⟩ := by
  obtain ⟨hnodup, hnew, hlength⟩ := rise_fresh db leaf.asset.id n [leaf.asset.id]
  refine ⟨?_, ?_, rise_linked hmem hkind n _, rise_below hkind n _, rise_others hkind n _⟩
  · exact List.nodup_cons.mpr ⟨fun hw => hnew _ hw (List.mem_singleton_self _), hnodup⟩
  · exact Nat.succ_le_succ (hlength.trans (hn.trans (Nat.le_succ _)))

theorem sound_wired {leaf hop : Hop} (hkind : leaf.kind = .endpoint) (hswitch : hop.kind = .switch)
    (hwired : Wired db leaf.asset hop) (hne : hop.asset.id ≠ leaf.asset.id) {n : Nat} (hn : n ≤ MAX_HOPS)
    (asset : Asset)
    (site : Option String) :
    Sound db ⟨asset, leaf :: hop :: (walk db n hop.asset.id [hop.asset.id, leaf.asset.id]).1,
      (walk db n hop.asset.id [hop.asset.id, leaf.asset.id]).2, site⟩ := by
  obtain ⟨hnodup, hnew, hlength⟩ := rise_fresh db hop.asset.id n [hop.asset.id, leaf.asset.id]
  have hnotLeaf : leaf.asset.id ∉ hop.asset.id :: (walk db n hop.asset.id [hop.asset.id, leaf.asset.id]).1.map
    (·.asset.id) := by
    intro hw
    obtain heq | hw := List.mem_cons.mp hw
    · exact hne heq.symm
    · exact hnew _ hw (List.mem_cons_of_mem _ (List.mem_singleton_self _))
  refine ⟨?_, ?_, List.isChain_cons_cons.mpr ⟨?_, rise_linked hwired.mem.1 hswitch n _⟩, ?_, ?_⟩
  · exact List.nodup_cons.mpr ⟨hnotLeaf, List.nodup_cons.mpr ⟨fun hw => hnew _ hw List.mem_cons_self, hnodup⟩⟩
  · exact Nat.succ_le_succ (Nat.succ_le_succ (hlength.trans hn))
  · rw [Above, if_pos hkind]
    exact hwired
  · rw [List.dropLast_cons_cons, List.forall_mem_cons, hkind]
    exact ⟨HopKind.noConfusion, rise_below hswitch n _⟩
  · rw [List.dropLast_cons_cons, List.filter_cons_of_neg (by rw [hkind]; decide)]
    exact rise_others hswitch n _

/-- Every path that is resolved is sound. -/
theorem path_sound (assetId : String) {p : ConnectionPath} (h : resolveConnectionPath db assetId = some p) :
    Sound db p := by
  obtain ⟨asset, hfound, rfl⟩ := Option.map_eq_some_iff.mp h
  have hmem : asset ∈ db.assets := List.mem_of_find?_eq_some hfound
  have hfoot := foot_spec db asset
  generalize foot db asset = ft at hfoot
  cases hfoot with
  | firewall h => exact sound_alone _ _ _
  | alone hasset h hkind => exact sound_alone _ _ _
  | switch hasset h hkind =>
    subst hasset
    simp only [List.map_cons, List.map_nil, List.reverse_cons, List.reverse_nil, List.nil_append,
      List.cons_append]
    exact sound_switch hmem hkind (Nat.le_refl MAX_HOPS) _ _
  | wired hasset h hkind hswitch hwired hne =>
    subst hasset
    simp only [List.map_cons, List.map_nil, List.reverse_cons, List.reverse_nil, List.nil_append,
      List.cons_append]
    exact sound_wired hkind hswitch hwired hne (Nat.le_refl MAX_HOPS) _ _

/-- A workstation at a switch that an operator has put under two others, of
which the one that is up comes first, below two firewalls. -/
def branch : Db where
  assets := [{ id := "pc", assetType := "workstation", lastSeenSwitch := some "SW1/port3" },
    { id := "sw", assetType := "switch", hostname := some "SW1",
      fortinetTopology := some { controllerFortigate := some "FG1", uplinkInterface := some "fortilink" } },
    { id := "agg1", assetType := "switch", monitorStatus := some .down, lastMonitorAt := some 9 },
    { id := "agg2", assetType := "switch", monitorStatus := some .up, lastMonitorAt := some 5 },
    { id := "fg1", assetType := "firewall", hostname := some "FG1", lastMonitorAt := some 3 },
    { id := "fg2", assetType := "firewall", lastMonitorAt := some 7 }]
  parents := [⟨"sw", "fg1", .computed⟩, ⟨"sw", "agg1", .override⟩, ⟨"sw", "agg2", .override⟩,
    ⟨"agg2", "fg1", .computed⟩, ⟨"agg2", "fg2", .computed⟩]
  nodup := by decide

theorem branch_path_sound : ∃ p, resolveConnectionPath branch "pc" = some p ∧
    p.hops.map (·.asset.id) = ["pc", "sw", "agg2", "fg2"] ∧ p.alternateUplinks = 2 ∧ p.siteId = some "fg2" ∧
      Sound branch p :=
  ⟨_, rfl, rfl, rfl, rfl, path_sound "pc" rfl⟩

end Sound

section Sites

variable {db : Db} {asset : Asset} {assetId f : String}

theorem isFirewall_false (hmem : asset ∈ db.assets) (h : asset.assetType ≠ "firewall") :
    isFirewall db asset.id = false :=
  Bool.eq_false_iff.mpr fun hx => h (kindOf_eq_firewall.mp ((isFirewall_iff hmem).mp hx))

theorem siteOf_cons_cons (leaf hop : Hop) (hops : List Hop) :
    siteOf (leaf :: hop :: hops) = siteOf (hop :: hops) := by
  rw [siteOf, siteOf, List.getLast?_cons_cons]

theorem siteOf_eq_some_iff {hops : List Hop} (hhops : ∀ hop ∈ hops, hop.asset ∈ db.assets ∧
    hop.kind = kindOf hop.asset) :
    siteOf hops = some f ↔ (hops.map (·.asset.id)).getLast? = some f ∧ isFirewall db f = true := by
  rw [siteOf, List.getLast?_map]
  cases hlast : hops.getLast? with
  | none => exact iff_of_false (fun h => by cases h) fun h => by cases h.1
  | some last =>
    obtain ⟨hmem, hkind⟩ := hhops last (List.mem_of_getLast? hlast)
    rw [Option.bind_some, Option.map_some, Option.some_inj, hkind, ← if_congr (isFirewall_iff hmem) rfl rfl]
    by_cases hfire : isFirewall db last.asset.id = true
    · rw [if_pos hfire, Option.some_inj]
      exact ⟨fun h => ⟨h, h ▸ hfire⟩, And.left⟩
    · rw [if_neg hfire]
      exact iff_of_false (fun h => by cases h) fun h => hfire (h.1 ▸ h.2)

theorem site_rise_iff {hop : Hop} (hkind : hop.kind = .switch) (n : Nat) (seen : List String) :
    siteOf (hop :: (walk db n hop.asset.id seen).1) = some f ↔
      ∃ ws, Way (next db) (isFirewall db) hop.asset.id ws f ∧ ws.length < n ∧ ∀ w ∈ ws ++ [f], w ∉ seen := by
  obtain ⟨hids, hhops, -⟩ := walk_spec db hop.asset.id n seen
  rw [← follow_iff, ← hids, ← siteOf_eq_some_iff hhops]
  cases (walk db n hop.asset.id seen).1 with
  | nil =>
    rw [siteOf, List.getLast?_singleton, Option.bind_some, hkind]
    exact iff_of_false (fun h => by cases h) fun h => by cases h
  | cons u us => rw [siteOf_cons_cons]

theorem way_new_iff {start : String} {ws : List String} (hway : Way (next db) (isFirewall db) start ws f)
    (hstart : isFirewall db start = false) (hasset : isFirewall db asset.id = false) :
    (∀ w ∈ ws ++ [f], w ∉ [start, asset.id]) ↔ asset.id ∉ ws := by
  constructor
  · exact fun h hmem => h _ (List.mem_append_left _ hmem) (List.mem_cons_of_mem _ (List.mem_singleton_self _))
  · intro hnot w hw hmem
    have hcase : w = start ∨ w = asset.id := by simpa using hmem
    obtain hw | hw := List.mem_append.mp hw
    · obtain rfl | rfl := hcase
      · exact hway.start_notMem hw
      · exact hnot hw
    · rw [List.mem_singleton.mp hw] at hcase
      have hstop := hway.stops
      obtain rfl | rfl := hcase
      · exact Bool.false_ne_true (hstart.symm.trans hstop)
      · exact Bool.false_ne_true (hasset.symm.trans hstop)

/-- Where the way up from an asset leads. -/
def Leads (db : Db) (asset : Asset) (start : Option String) (f : String) : Prop :=
  asset.assetType = "firewall" ∧ f = asset.id ∨
    ∃ s ws, start = some s ∧ Way (next db) (isFirewall db) s ws f ∧ ws.length < MAX_HOPS ∧ asset.id ∉ ws

theorem leads_none : Leads db asset none f ↔ asset.assetType = "firewall" ∧ f = asset.id := by
  rw [Leads]
  exact or_iff_left fun ⟨s, ws, h, _⟩ => by cases h

theorem leads_some (hnot : asset.assetType ≠ "firewall") {s : String} : Leads db asset (some s) f ↔
    ∃ ws, Way (next db) (isFirewall db) s ws f ∧ ws.length < MAX_HOPS ∧ asset.id ∉ ws := by
  rw [Leads, or_iff_right fun h => hnot h.1]
  constructor
  · rintro ⟨_, ws, ⟨⟩, h⟩
    exact ⟨ws, h⟩
  · rintro ⟨ws, h⟩
    exact ⟨s, ws, rfl, h⟩

/-- The site of a path is the asset itself where that is a firewall, and else
the one firewall that the preferred parents lead to, if that takes no more
steps than are allowed and does not go through the asset again. -/
theorem site_iff : (resolveConnectionPath db assetId).bind (·.siteId) = some f ↔
    ∃ asset, findUnique db assetId = some asset ∧ Leads db asset (foot db asset).2 f := by
  rw [resolveConnectionPath]
  cases hfound : findUnique db assetId with
  | none => exact iff_of_false (fun h => by cases h) fun ⟨_, h, _⟩ => by cases h
  | some asset =>
    have hmem : asset ∈ db.assets := List.mem_of_find?_eq_some hfound
    simp only [Option.map_some, Option.bind_some, Option.some_inj, exists_eq_left']
    have hfoot := foot_spec db asset
    generalize foot db asset = ft at hfoot
    cases hfoot with
    | firewall h =>
      rw [leads_none]
      exact ⟨fun hf => ⟨h, (Option.some.inj hf).symm⟩, fun hf => congrArg some hf.2.symm⟩
    | alone hasset h hkind =>
      rw [leads_none]
      simp only [List.append_nil, siteOf, List.getLast?_singleton, Option.bind_some, if_neg hkind]
      exact iff_of_false (fun hf => by cases hf) fun hf => h hf.1
    | switch hasset h hkind =>
      subst hasset
      have hlow := isFirewall_false hmem h
      rw [leads_some h]
      simp only [List.map_cons, List.map_nil, List.reverse_cons, List.reverse_nil, List.nil_append,
        List.cons_append]
      rw [site_rise_iff hkind]
      refine exists_congr fun ws => and_congr_right fun hway => and_congr_right fun _ => ?_
      rw [← way_new_iff hway hlow hlow]
      simp
    | wired hasset h hkind hswitch hwired hne =>
      subst hasset
      have hlow := isFirewall_false hmem h
      have hstart := isFirewall_false hwired.mem.1 (by rw [hwired.mem.2]; decide +kernel)
      rw [leads_some h]
      simp only [List.map_cons, List.map_nil, List.reverse_cons, List.reverse_nil, List.nil_append,
        List.cons_append]
      rw [siteOf_cons_cons, site_rise_iff hswitch]
      exact exists_congr fun ws => and_congr_right fun hway => and_congr_right fun _ =>
        way_new_iff hway hstart hlow

end Sites

end Polaris.ConnectionPaths
