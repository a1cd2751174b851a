import Polaris.AssetSync
import Polaris.GatewayKnowledge

namespace Polaris.GatewayWrites

open Polaris.AssetLookup Polaris.AssetSync Polaris.GatewaySync Polaris.Lib.Store Polaris.Netmask
open Polaris.ClusterSync (Device Member ProjectedAsset Source findExisting mirrored)
open Polaris.ConflictResolution (AssetStatus MacEntry)
open Polaris.DhcpAssociation (DhcpEntry attributed seen)
open Polaris.GatewayKnowledge (mem_of_findByEntry mem_of_findInfra_rest mem_upsertFortigateEndpointSource)
open Polaris.SubnetDiscovery (DiscoveredSubnet)

section Statements

/-- The last sighting that the updates of a phase write. -/
def seenBy (c : GatewaySync.Sync) : Option Job → Option Nat
  | some (.member _ _) | some (.switch _) | some (.accessPoint _) | some .dhcp | some (.inventory _) =>
    some c.now
  | _ => none

/-- No phase quarantines an asset, and its sightings are those of the sync. -/
structure Tame (c : GatewaySync.Sync) (job : Option Job) (u : AssetUpdate) : Prop where
  status : u.status ≠ some .quarantined
  lastSeen : u.lastSeen = seenBy c job

def TameWrite (c : GatewaySync.Sync) (job : Option Job) : Write → Prop
  | .updateAsset _ _ u => Tame c job u
  | _ => True

def TameStmt (c : GatewaySync.Sync) (job : Option Job) : Stmt → Prop
  | .write w => TameWrite c job w
  | .createAsset _ row _ _ _ => row.status ≠ .quarantined
  | .project _ _ _ u => ∀ p, Tame c job (u p)
  | .correct => job = some .corrections
  | .createSubnet _ => True

def Updates (id : Nat) : Write → Prop
  | .updateAsset i _ _ => i = id
  | _ => False

/-- An update of the asset is still to come. -/
def Pending (seq : List Stmt) (batch : List (List Write)) (id : Nat) : Prop :=
  (∃ w, Stmt.write w ∈ seq ∧ Updates id w) ∨ ∃ ws ∈ batch, ∃ w ∈ ws, Updates id w

/-- What a phase does to the memory of the last sightings. -/
structure TamePlan (c : GatewaySync.Sync) (job : Option Job) (mem : Memory) (plan : Plan) : Prop where
  seq : ∀ s ∈ plan.seq, TameStmt c job s
  batch : ∀ ws ∈ plan.batch, ∀ w ∈ ws, TameWrite c job w
  tracks : ∀ id, lastSeenOf plan.memory id = lastSeenOf mem id ∨
    lastSeenOf plan.memory id = some c.now ∧ Pending plan.seq plan.batch id ∧ seenBy c job = some c.now

variable {C : Casing} {N : Package} {c : GatewaySync.Sync} {job : Option Job} {mem : Memory}
  {a a' : AssetLookup.Asset} {id : Nat}

theorem lastSeenOf_of_find (h : findById mem.idx id = some a) : lastSeenOf mem id = a.lastSeen := by
  rw [lastSeenOf, h, Option.bind_some]

theorem lastSeenOf_touch (i : Nat) : lastSeenOf (mem.touch i) id = lastSeenOf mem id := rfl

theorem lastSeenOf_reindex : lastSeenOf (mem.reindex C a') id = if id = a'.id then a'.lastSeen
    else lastSeenOf mem
    id := by
  change (findById (add C mem.idx a') id).bind (·.lastSeen) = _
  rw [findById_add]
  split
  · rfl
  · rfl

theorem lastSeenOf_reindex_same (ha : findById mem.idx a.id = some a) (hid : a'.id = a.id)
    (hseen : a'.lastSeen = a.lastSeen) :
    lastSeenOf (mem.reindex C a') id = lastSeenOf mem id := by
  rw [lastSeenOf_reindex]
  split
  · next h => rw [h, hid, lastSeenOf_of_find ha, hseen]
  · rfl

theorem tamePlan_idle {mem' : Memory} (hseen : ∀ id, lastSeenOf mem' id = lastSeenOf mem id) :
    TamePlan c job mem { memory := mem' } :=
  ⟨fun _ hs => absurd hs List.not_mem_nil, fun _ hs => absurd hs List.not_mem_nil, fun id => .inl (hseen id)⟩

end Statements

section Lookups

variable {C : Casing} {idx : AssetIndex} {a : AssetLookup.Asset} {i : Nat}

theorem findById_self (h : findById idx i = some a) :
    findById idx a.id = some a := (mem_findById h).2.symm ▸ h

theorem findById_of_bind {key : Option Nat} (h : key.bind (findById idx) = some a) :
    findById idx a.id = some a := by
  obtain ⟨i, -, h⟩ := Option.bind_eq_some_iff.mp h
  exact findById_self h

theorem findById_of_serial {serial : String}
    (h : (if serial = "" then none else findBySerial idx serial) = some a) :
    findById idx a.id = some a := by
  split at h
  · cases h
  · exact findById_of_bind h

theorem findById_of_findExisting {d : Device} {m : Member} (h : findExisting C idx d m = some a) :
    findById idx a.id = some a := by
  obtain h | ⟨-, h⟩ := Option.or_eq_some_iff.mp h
  · exact findById_of_serial h
  · split at h
    · exact findById_of_findByEntry h
    · cases h

theorem findById_of_findInfra {serial name : String} {mac ip : Option String}
    (h : findInfra C idx serial mac name ip = some a) :
    findById idx a.id = some a := by
  obtain h | ⟨-, h⟩ := Option.or_eq_some_iff.mp h
  · exact findById_of_serial h
  · obtain h | ⟨-, h⟩ := Option.or_eq_some_iff.mp h
    · obtain ⟨mac, -, h⟩ := Option.bind_eq_some_iff.mp h
      exact findById_of_bind h
    · split at h
      · cases h
      · exact findById_of_findByEntry h

end Lookups

section Plans

variable {C : Casing} {N : Package} {c : GatewaySync.Sync} {mem : Memory} {plan : Plan}
  {a : AssetLookup.Asset}

theorem tame_sources {job : Option Job} {row : Source} {serial : String} :
    ∀ s ∈ (if serial = "" then [] else (upsertUnitSource row).map Stmt.write), TameStmt c job s := by
  intro s hs
  split at hs
  · exact absurd hs List.not_mem_nil
  · obtain ⟨w, hw, rfl⟩ := List.mem_map.mp hs
    obtain rfl | hw := List.mem_cons.mp hw
    · trivial
    · obtain rfl := List.mem_singleton.mp hw
      trivial

theorem tame_reconcile {job : Option Job} {id : Nat} {macs : List MacEntry} :
    ∀ w ∈ reconcileMacAddresses id macs, TameWrite c job w := by
  intro w hw
  rw [reconcileMacAddresses] at hw
  split at hw
  · obtain rfl := List.mem_singleton.mp hw
    trivial
  · obtain rfl | hw := List.mem_cons.mp hw
    · trivial
    · obtain rfl := List.mem_singleton.mp hw
      trivial

theorem tame_map {job : Option Job} {ws : List Write} (h : ∀ w ∈ ws, TameWrite c job w) :
    ∀ s ∈ ws.map Stmt.write,
    TameStmt c job s := by
  intro s hs
  obtain ⟨w, hw, rfl⟩ := List.mem_map.mp hs
  exact h w hw

theorem reactivates (status : AssetStatus) :
    (if status = .decommissioned then some AssetStatus.active else none) ≠ some .quarantined := by
  split
  · decide
  · decide

theorem TamePlan.subnet (entry : DiscoveredSubnet) :
    TamePlan c (some (.subnet entry)) mem (planSubnet N c mem entry) := by
  rw [planSubnet]
  split
  · exact tamePlan_idle fun _ => rfl
  split
  · exact tamePlan_idle fun _ => rfl
  split
  · exact tamePlan_idle fun _ => rfl
  split
  · exact tamePlan_idle fun _ => rfl
  · refine ⟨fun s hs => ?_, fun _ hs => absurd hs List.not_mem_nil, fun _ => .inl rfl⟩
    obtain rfl := List.mem_singleton.mp hs
    trivial

theorem TamePlan.subnetUpdates : TamePlan c (some .subnetUpdates) mem (planSubnetUpdates mem) := by
  refine ⟨fun _ hs => absurd hs List.not_mem_nil, fun ws hws w hw => ?_, fun _ => .inl rfl⟩
  obtain ⟨u, -, rfl⟩ := List.mem_map.mp hws
  obtain rfl := List.mem_singleton.mp hw
  trivial

theorem TamePlan.member (d : Device) (m : Member) :
    TamePlan c (some (.member d m)) mem (planMember C c mem d m) := by
  rw [planMember]
  split
  · next a hfind =>
    refine ⟨fun s hs => ?_, fun _ hs => absurd hs List.not_mem_nil,
      fun id => .inl (lastSeenOf_reindex_same (findById_of_findExisting hfind) rfl rfl)⟩
    obtain hs | hs := List.mem_append.mp hs
    · exact tame_sources s hs
    · obtain rfl := List.mem_singleton.mp hs
      exact fun p => ⟨reactivates a.status, rfl⟩
  · refine ⟨fun s hs => ?_, fun _ hs => absurd hs List.not_mem_nil, fun _ => .inl rfl⟩
    obtain rfl := List.mem_singleton.mp hs
    exact fun h => AssetStatus.noConfusion h

theorem swStatus_tame (sw : FortiSwitch) : swStatus sw ≠ .quarantined := by
  rw [swStatus]
  split
  · decide
  · decide

theorem TamePlan.switch (sw : FortiSwitch) : TamePlan c (some (.switch sw)) mem (planSwitch C c mem sw) := by
  rw [planSwitch]
  split
  · next a hfind =>
    refine ⟨fun s hs => ?_, fun _ hs => absurd hs List.not_mem_nil,
      fun id => .inl (lastSeenOf_reindex_same (findById_of_findInfra hfind) rfl rfl)⟩
    obtain hs | hs := List.mem_append.mp hs
    · obtain hs | hs := List.mem_append.mp hs
      · exact tame_sources s hs
      · obtain rfl := List.mem_singleton.mp hs
        exact fun p => ⟨fun h => swStatus_tame sw (Option.some.inj h), rfl⟩
    · split at hs
      · exact absurd hs List.not_mem_nil
      · exact tame_map tame_reconcile s hs
  · refine ⟨fun s hs => ?_, fun _ hs => absurd hs List.not_mem_nil, fun _ => .inl rfl⟩
    obtain rfl := List.mem_singleton.mp hs
    exact swStatus_tame sw

theorem TamePlan.accessPoint (ap : FortiAp) :
    TamePlan c (some (.accessPoint ap)) mem (planAp C c mem ap) := by
  rw [planAp]
  split
  · next a hfind =>
    refine ⟨fun s hs => ?_, fun _ hs => absurd hs List.not_mem_nil,
      fun id => .inl (lastSeenOf_reindex_same (findById_of_findInfra hfind) rfl rfl)⟩
    obtain hs | hs := List.mem_append.mp hs
    · exact tame_sources s hs
    · obtain rfl := List.mem_singleton.mp hs
      exact fun p => ⟨reactivates a.status, rfl⟩
  · refine ⟨fun s hs => ?_, fun _ hs => absurd hs List.not_mem_nil, fun _ => .inl rfl⟩
    obtain rfl := List.mem_singleton.mp hs
    exact fun h => AssetStatus.noConfusion h

theorem TamePlan.queue {job : Option Job} {mem' : Memory} {ws : List Write} (h : TamePlan c job mem plan)
    (hws : ∀ w ∈ ws, TameWrite c job w)
    (hseen : ∀ id, lastSeenOf mem' id = lastSeenOf plan.memory id ∨
      lastSeenOf mem' id = some c.now ∧ (∃ w ∈ ws, Updates id w) ∧ seenBy c job = some c.now) :
    TamePlan c job mem { plan with memory := mem', batch := plan.batch ++ [ws] } := by
  refine ⟨h.seq, fun ws' hws' => ?_, fun id => ?_⟩
  · obtain hws' | hws' := List.mem_append.mp hws'
    · exact h.batch ws' hws'
    · obtain rfl := List.mem_singleton.mp hws'
      exact hws
  · obtain hsame | ⟨hnow, hw, hjob⟩ := hseen id
    · obtain hold | ⟨hnow, hpending, hjob⟩ := h.tracks id
      · exact .inl (hsame.trans hold)
      · refine .inr ⟨hsame.trans hnow, hpending.imp_right ?_, hjob⟩
        rintro ⟨ws', hws', hw⟩
        exact ⟨ws', List.mem_append_left _ hws', hw⟩
    · exact .inr ⟨hnow, .inr ⟨ws, List.mem_append_right _ List.mem_cons_self, hw⟩, hjob⟩

theorem TamePlan.lease (h : TamePlan c (some .dhcp) mem plan) (entry : DhcpEntry) :
    TamePlan c (some .dhcp) mem (planLease C N c plan entry) := by
  rw [planLease]
  split
  · exact h
  · next a hfind =>
    refine h.queue (fun w hw => ?_) fun id => ?_
    · obtain rfl | hw := List.mem_cons.mp hw
      · exact ⟨fun h => AssetStatus.noConfusion (Option.some.inj h), rfl⟩
      · exact tame_reconcile w hw
    · have hseen : lastSeenOf ((if entry.device ≠ "" ∧
        a.isInfra = false then plan.memory.touch a.id else plan.memory).reindex C
          (seen C N (plan.memory.allSubnets.map lan) c.now entry a)) id =
          if id = a.id then some c.now else lastSeenOf plan.memory id := by
        rw [lastSeenOf_reindex, apply_ite (lastSeenOf · id), lastSeenOf_touch, ite_self]
        rfl
      rw [hseen]
      split
      · next hid => exact .inr ⟨rfl, ⟨_, List.mem_cons_self, hid.symm⟩, rfl⟩
      · exact .inl rfl

theorem TamePlan.dhcp : TamePlan c (some .dhcp) mem (planDhcp C N c mem) := by
  have hfold : ∀ (entries : List DhcpEntry) (plan : Plan), TamePlan c (some .dhcp) mem plan →
      TamePlan c (some .dhcp) mem (entries.foldl (planLease C N c) plan) := by
    intro entries
    induction entries with
    | nil => exact fun _ h => h
    | cons entry entries ih => exact fun plan h => ih _ (h.lease entry)
  exact hfold c.result.dhcpEntries _ (tamePlan_idle fun _ => rfl)

theorem TamePlan.inventory (inv : InventoryDevice) :
    TamePlan c (some (.inventory inv)) mem (planInventory C c mem inv) := by
  rw [planInventory]
  split
  · exact tamePlan_idle fun _ => rfl
  split
  · next a hfind =>
    refine ⟨fun s hs => ?_, fun _ hs => absurd hs List.not_mem_nil, fun id => ?_⟩
    · obtain rfl | hs := List.mem_cons.mp hs
      · exact ⟨reactivates a.status, rfl⟩
      · split at hs
        · exact absurd hs List.not_mem_nil
        · exact tame_map tame_reconcile s hs
    · have hseen : lastSeenOf (mem.reindex C (inventorySeen C c inv a)) id = if id = a.id then some c.now
        else lastSeenOf mem id :=
        lastSeenOf_reindex
      dsimp only
      rw [apply_ite (lastSeenOf · id), lastSeenOf_touch, ite_self, hseen]
      split
      · next hid => exact .inr ⟨rfl, .inl ⟨_, List.mem_cons_self, hid.symm⟩, rfl⟩
      · exact .inl rfl
  · split
    · exact tamePlan_idle fun _ => rfl
    · refine ⟨fun s hs => ?_, fun _ hs => absurd hs List.not_mem_nil, fun _ => .inl rfl⟩
      obtain rfl := List.mem_singleton.mp hs
      exact fun h => AssetStatus.noConfusion h

theorem lastSeenOf_cleared {id : Nat} :
    lastSeenOf { mem with idx := { mem.idx with byId := mem.idx.byId.map (cleared C c) } } id =
      lastSeenOf mem id := by
  change ((mem.idx.byId.map (cleared C c)).find? (·.id = id)).bind (·.lastSeen) = _
  rw [List.find?_map]
  change ((findById mem.idx id).map (cleared C c)).bind (·.lastSeen) = _
  rw [lastSeenOf]
  cases findById mem.idx id with
  | none => rfl
  | some a => rfl

theorem TamePlan.sweep : TamePlan c (some .sweep) mem (planSweep C c mem) := by
  rw [planSweep]
  refine ⟨fun _ hs => absurd hs List.not_mem_nil, fun ws hws w hw => ?_, fun _ => .inl lastSeenOf_cleared⟩
  obtain ⟨a, -, rfl⟩ := List.mem_map.mp hws
  exact tame_reconcile w hw

theorem lastSeenOf_switchPorts {id : Nat} (rows : List SwitchMacEntry) :
    lastSeenOf (rows.foldl (planSwitchPort C) mem) id = lastSeenOf mem id := by
  induction rows generalizing mem with
  | nil => rfl
  | cons row rows ih =>
    refine ih.trans ?_
    rw [planSwitchPort]
    split
    · rfl
    split
    · rfl
    split
    · rfl
    · rfl

theorem TamePlan.arp (h : TamePlan c (some .enrichment) mem plan) (row : ArpEntry) :
    TamePlan c (some .enrichment) mem (planArp C plan row) := by
  rw [planArp]
  split
  · exact h
  split
  · exact h
  · next a hfind =>
    split
    · exact h
    · have ha : findById plan.memory.idx a.id = some a := findById_of_bind hfind
      refine h.queue (fun w hw => ?_) fun id => .inl ?_
      · obtain rfl := List.mem_singleton.mp hw
        exact ⟨by rintro ⟨⟩, rfl⟩
      · rw [apply_ite (lastSeenOf · id), lastSeenOf_touch, ite_self]
        exact lastSeenOf_reindex_same ha rfl rfl

theorem TamePlan.enrichment : TamePlan c (some .enrichment) mem (planEnrichment C c mem) := by
  have hfold : ∀ (rows : List ArpEntry) (plan : Plan), TamePlan c (some .enrichment) mem plan →
      TamePlan c (some .enrichment) mem (rows.foldl (planArp C) plan) := by
    intro rows
    induction rows with
    | nil => exact fun _ h => h
    | cons row rows ih => exact fun plan h => ih _ (h.arp row)
  exact hfold c.result.arpTable _ (tamePlan_idle fun _ => lastSeenOf_switchPorts c.result.switchMacTable)

theorem TamePlan.endpointSources : TamePlan c (some .endpointSources) mem (planEndpointSources C c mem) := by
  refine ⟨fun _ hs => absurd hs List.not_mem_nil, fun ws hws w hw => ?_, fun _ => .inl rfl⟩
  obtain ⟨a, -, rfl⟩ := List.mem_map.mp hws
  obtain ⟨mac, rfl | rfl⟩ := mem_upsertFortigateEndpointSource hw
  · trivial
  · trivial

theorem TamePlan.corrections : TamePlan c (some .corrections) mem { memory := mem, seq := [.correct] } := by
  refine ⟨fun s hs => ?_, fun _ hs => absurd hs List.not_mem_nil, fun _ => .inl rfl⟩
  obtain rfl := List.mem_singleton.mp hs
  rfl

/-- Every phase writes what the others can rely on. -/
theorem tamePlan (job : Job) : TamePlan c (some job) mem (job.plan C N c mem) := by
  cases job with
  | subnet entry => exact TamePlan.subnet entry
  | subnetUpdates => exact TamePlan.subnetUpdates
  | member d m => exact TamePlan.member d m
  | switch sw => exact TamePlan.switch sw
  | accessPoint ap => exact TamePlan.accessPoint ap
  | dhcp => exact TamePlan.dhcp
  | inventory inv => exact TamePlan.inventory inv
  | sweep => exact TamePlan.sweep
  | enrichment => exact TamePlan.enrichment
  | endpointSources => exact TamePlan.endpointSources
  | corrections => exact TamePlan.corrections

theorem tame_corrections {rows : List Source} :
    ∀ ws ∈ corrections c mem rows, ∀ w ∈ ws, TameWrite c (some .corrections) w := by
  intro ws hws w hw
  obtain ⟨a, -, ha⟩ := List.mem_filterMap.mp hws
  dsimp only at ha
  split at ha
  · cases ha
  · obtain rfl := Option.some.inj ha
    obtain rfl := List.mem_singleton.mp hw
    exact ⟨by rintro ⟨⟩, rfl⟩

end Plans

section Calls

variable {C : Casing} {N : Package} {order : List Source → List Source} {c : GatewaySync.Sync}
  {job : Option Job}
  {mem : Memory}
  {t : Call} {db : Db} {j : Nat}

/-- A call of which every statement is one of its phase. -/
structure TameCall (c : GatewaySync.Sync) (job : Option Job) (t : Call) : Prop where
  sync : t.sync = c
  todo : ∀ next ∈ t.todo, job = some next
  seq : ∀ s ∈ t.seq, TameStmt c job s
  batch : ∀ ws ∈ t.batch, ∀ w ∈ ws, TameWrite c job w

theorem not_pending (hseq : t.seq = []) (hbatch : t.batch.all List.isEmpty = true)
    (id : Nat) : ¬ Pending t.seq t.batch id := by
  rintro (⟨w, hw, -⟩ | ⟨ws, hws, w, hw, -⟩)
  · rw [hseq] at hw
    exact List.not_mem_nil hw
  · have hempty := List.all_eq_true.mp hbatch ws hws
    rw [List.isEmpty_iff.mp hempty] at hw
    exact List.not_mem_nil hw

theorem due_write {w : Write} {rest : List Stmt} (hseq : t.seq = .write w :: rest) :
    due j t = Write.asset w := by
  rw [due, hseq]

theorem due_batch {w : Write} {ws : List Write} (hseq : t.seq = []) (hbatch : t.batch[j]? = some (w :: ws)) :
    due j t = Write.asset w := by
  rw [due, hseq, hbatch]
  rfl

theorem pending_tail {w : Write} {rest : List Stmt} {id : Nat} (hw : ¬ Updates id w)
    (h : Pending (.write w :: rest) t.batch id) : Pending rest t.batch id := by
  obtain ⟨w', hw', hid⟩ | h := h
  · obtain heq | hw' := List.mem_cons.mp hw'
    · cases heq
      exact absurd hid hw
    · exact .inl ⟨w', hw', hid⟩
  · exact .inr h

theorem pending_set {w : Write} {ws : List Write} {id : Nat} (hbatch : t.batch[j]? = some (w :: ws))
    (hw : ¬ Updates id w)
    (h : Pending t.seq t.batch id) : Pending t.seq (t.batch.set j ws) id := by
  obtain h | ⟨ws', hws', w', hw', hid⟩ := h
  · exact .inl h
  · obtain hset | rfl := Lib.Runs.mem_set_or ws hbatch hws'
    · exact .inr ⟨ws', hset, w', hw', hid⟩
    · obtain rfl | hw' := List.mem_cons.mp hw'
      · exact absurd hid hw
      · exact .inr ⟨ws, Lib.Runs.mem_set_self hbatch, w', hw', hid⟩

/-- What a step of a call does to the assets, to the memory of the last
sightings and to the updates still to come. -/
def Effect (c : GatewaySync.Sync) (job : Option Job) (db : Db) (t : Call) (mem mem' : Memory)
    (r : Db × Call) : Option AssetWrite → Prop
  | none =>
    r.1.assets = db.assets ∧ ∀ id,
      (lastSeenOf mem' id = lastSeenOf mem id ∨
        lastSeenOf mem' id = some c.now ∧ Pending r.2.seq r.2.batch id ∧ seenBy c job = some c.now) ∧
      (Pending t.seq t.batch id → seenBy c job = some c.now → Pending r.2.seq r.2.batch id)
  | some (.update id u) =>
    r.1.assets = db.assets.amendWhere (·.id = id) u.apply ∧ Tame c job u ∧ mem' = mem ∧
      ∀ i ≠ id, Pending t.seq t.batch i → Pending r.2.seq r.2.batch i
  | some (.create row) =>
    r.1.assets = db.assets.append row ∧ row.status ≠ .quarantined ∧
      (∀ i, lastSeenOf mem' i = if i = db.assets.nextId then row.lastSeen else lastSeenOf mem i) ∧
      ∀ i, Pending t.seq t.batch i → Pending r.2.seq r.2.batch i

theorem effect_write {w : Write} {r : Db × Call} {source : SubnetDiscovery.Source} (h : TameWrite c job w)
    (hassets : r.1 = db.write t.key source w)
    (hpending : ∀ id, ¬ Updates id w → Pending t.seq t.batch id → Pending r.2.seq r.2.batch id) :
    Effect c job db t mem mem r (Write.asset w) := by
  cases w with
  | updateAsset id reported u =>
    refine ⟨hassets ▸ rfl, h, rfl, fun i hi hp => hpending i (fun hid => hi hid.symm) hp⟩
  | updateSubnet | upsertSource | deleteSources | deleteMacs | upsertMacs =>
    exact ⟨hassets ▸ rfl, fun id => ⟨.inl rfl, fun hp _ => hpending id (fun hid => hid) hp⟩⟩

theorem Pending.append {seq seq' : List Stmt} {batch : List (List Write)} {id : Nat}
    (h : Pending seq batch id)
    (hsub : ∀ w, Stmt.write w ∈ seq → Stmt.write w ∈ seq') : Pending seq' batch id :=
  h.imp_left fun ⟨w, hw, hid⟩ => ⟨w, hsub w hw, hid⟩

theorem lastSeenOf_createAsset {row : ClusterSync.AssetRow} {endpoint : Bool} {n id : Nat} :
    lastSeenOf (mem.createAsset C n row endpoint) id = if id = n then row.lastSeen
      else lastSeenOf mem id := by
  rw [Memory.createAsset, apply_ite (lastSeenOf · id), lastSeenOf_touch, ite_self, lastSeenOf_reindex]
  rfl

theorem run_effect {s : Stmt} {rest : List Stmt} (hseq : t.seq = s :: rest) (h : TameCall c job t) :
    TameCall c job (s.run C order db t mem rest).2 ∧
      ∃ mem', (t.memory = some mem → (s.run C order db t mem rest).2.memory = some mem') ∧
        Effect c job db t mem mem' (s.run C order db t mem rest) (due j t) := by
  have hs : TameStmt c job s := h.seq s (hseq ▸ List.mem_cons_self)
  have hrest : ∀ s' ∈ rest, TameStmt c job s' := fun s' hs' => h.seq s' (hseq ▸ List.mem_cons_of_mem s hs')
  cases s with
  | write w =>
    refine ⟨⟨h.sync, h.todo, hrest, h.batch⟩, mem, id, ?_⟩
    rw [due_write hseq]
    refine effect_write hs rfl fun id hid hp => ?_
    rw [hseq] at hp
    exact pending_tail hid hp
  | createSubnet subnet =>
    refine ⟨⟨h.sync, h.todo, hrest, h.batch⟩, _, fun _ => rfl, ?_⟩
    rw [due, hseq]
    refine ⟨rfl, fun id => ⟨.inl rfl, fun hp _ => ?_⟩⟩
    refine Pending.append (hseq ▸ hp) fun w hw => ?_
    exact (List.mem_cons.mp hw).resolve_left nofun
  | createAsset reported row macs source endpoint =>
    refine ⟨⟨h.sync, h.todo, fun s' hs' => ?_, h.batch⟩, _, fun _ => rfl, ?_⟩
    · obtain hs' | hs' := List.mem_append.mp hs'
      · obtain ⟨w, hw, rfl⟩ := List.mem_map.mp hs'
        obtain ⟨row', -, hw⟩ := List.mem_flatMap.mp hw
        obtain rfl | hw := List.mem_cons.mp hw
        · trivial
        · obtain rfl := List.mem_singleton.mp hw
          trivial
      · exact hrest s' hs'
    · rw [due, hseq]
      refine ⟨rfl, hs, fun i => lastSeenOf_createAsset, fun i hp => ?_⟩
      refine Pending.append (hseq ▸ hp) fun w hw => ?_
      exact List.mem_append_right _ ((List.mem_cons.mp hw).resolve_left nofun)
  | project id reported sweep u =>
    refine ⟨⟨h.sync, h.todo, fun s' hs' => ?_, h.batch⟩, mem, fun hmem => hmem, ?_⟩
    · obtain hs' | hs' := List.mem_append.mp hs'
      · split at hs'
        · obtain rfl := List.mem_singleton.mp hs'
          trivial
        · exact absurd hs' List.not_mem_nil
      · obtain rfl | hs' := List.mem_cons.mp hs'
        · exact hs _
        · exact hrest s' hs'
    · rw [due, hseq]
      refine ⟨rfl, fun id => ⟨.inl rfl, fun hp _ => ?_⟩⟩
      refine Pending.append (hseq ▸ hp) fun w hw => ?_
      exact List.mem_append_right _ (List.mem_cons_of_mem _ ((List.mem_cons.mp hw).resolve_left nofun))
  | correct =>
    refine ⟨⟨h.sync, h.todo, hrest, ?_⟩, mem, fun hmem => hmem, ?_⟩
    · obtain rfl : job = some .corrections := hs
      exact h.sync ▸ tame_corrections
    · rw [due, hseq]
      refine ⟨rfl, fun id => ⟨.inl rfl, fun _ hjob => ?_⟩⟩
      obtain rfl : job = some .corrections := hs
      cases hjob

theorem act_effect (hmem : t.memory = some mem) (h : TameCall c job t) :
    TameCall c job (act C N order j db t).2 ∧
      ∃ mem', (act C N order j db t).2.memory = some mem' ∧
        Effect c job db t mem mem' (act C N order j db t) (due j t) := by
  rw [act, hmem]
  dsimp only
  split
  · next s rest hseq =>
    obtain ⟨htame, mem', hmem', heffect⟩ := @run_effect C order c job mem t db j s rest hseq h
    exact ⟨htame, mem', hmem' hmem, heffect⟩
  · next hseq =>
    split
    · next w ws hbatch =>
      have hw : TameWrite c job w := h.batch _ (List.mem_of_getElem? hbatch) w List.mem_cons_self
      refine ⟨⟨h.sync, h.todo, h.seq, fun ws' hws' => ?_⟩, mem, rfl, ?_⟩
      · obtain rfl | ⟨i, -, hi⟩ := Lib.Runs.mem_set_cases hws'
        · exact fun w' hw' => h.batch _ (List.mem_of_getElem? hbatch) w' (List.mem_cons_of_mem w hw')
        · exact h.batch ws' (List.mem_of_getElem? hi)
      · rw [due_batch hseq hbatch]
        exact effect_write hw rfl fun id hid hp => pending_set hbatch hid hp
    · next hnone =>
      have hdue : due j t = none := by
        rw [due, hseq]
        cases hbatch : t.batch[j]? with
        | none => rfl
        | some ws => cases ws with
          | nil => rfl
          | cons w ws => exact absurd hbatch (hnone w ws)
      rw [hdue]
      split
      · next hempty =>
        split
        · next htodo => exact ⟨h, mem, hmem, rfl, fun id => ⟨.inl rfl, fun hp _ => hp⟩⟩
        · next next todo htodo =>
          obtain rfl := h.todo next (htodo ▸ List.mem_cons_self)
          obtain rfl := h.sync
          have hplan : TamePlan t.sync (some next) mem (next.plan C N t.sync mem) := tamePlan next
          refine ⟨⟨rfl, fun n hn => h.todo n (htodo ▸ List.mem_cons_of_mem next hn), hplan.seq,
            hplan.batch⟩, _,
            rfl, rfl, fun id => ?_⟩
          exact ⟨hplan.tracks id, fun hp => absurd hp (not_pending hseq hempty id)⟩
      · exact ⟨h, mem, hmem, rfl, fun id => ⟨.inl rfl, fun hp _ => hp⟩⟩

end Calls

end Polaris.GatewayWrites
