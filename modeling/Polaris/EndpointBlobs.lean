import Polaris.AssetProjection
import Polaris.GatewaySync
import Polaris.ReservationSync

namespace Polaris.EndpointBlobs

open Polaris.AssetLookup Polaris.DhcpAssociation Polaris.Lib.Text Polaris.ManufacturerNormalize
open Polaris.AssetProjection (Field Observed Value projectAssetFromSources)
open Polaris.GatewaySync (Memory Plan SwitchMacEntry Sync cleared inventoryIp inventorySeen ipSourceOf
  newEndpoint
  planArp planDhcp
  planEnrichment planLease planSweep planSwitchPort)
open Polaris.Reservations (truthy truthy_some)
open Polaris.ReservationSync (SyncMode mapGet mapSet)

section Data

/-- The columns of an asset in memory that no lookup reads. -/
structure Columns where
  manufacturer : Option String := none
  ipSource : Option String := none
  lastSeenSwitch : Option String := none
  lastSeenAp : Option String := none
  deriving DecidableEq

structure Endpoint extends AssetLookup.Asset, Columns

structure InventoryDevice extends GatewaySync.InventoryDevice where
  hardwareVendor : String := ""
  switchName : String := ""
  switchPort : String := ""
  apName : String := ""

structure OverrideEntry where
  manufacturer : String
  device : Option String := none

/-- The vendors by OUI, and what an operator has put over them. -/
structure OuiTables where
  overridesMap : String → Option OverrideEntry := fun _ => none
  ouiMap : String → Option String := fun _ => none

structure Call extends Sync where
  mode : SyncMode
  clients : List InventoryDevice
  inventory : result.deviceInventory = clients.map (·.toInventoryDevice)
  oui : OuiTables
  aliases : Option AliasMap

/-- Where a call stands, from the end of its infrastructure phases on. -/
structure State where
  memory : Memory
  columns : Nat → Columns

end Data

section Oui

variable (C : Casing) (t : OuiTables)

def normalizeMacPrefix (mac : String) : Option String :=
  let clean := C.toUpperCase (String.ofList
    (mac.toList.filter fun ch => !(ch = ':' || ch = '-' || ch = '.' || isSpace ch)))
  if clean.length < 6 then none else some (String.ofList (clean.toList.take 6))

def lookupOuiOverride (mac : String) : Option OverrideEntry := (normalizeMacPrefix C mac).bind t.overridesMap

def lookupOui (mac : String) : Option String :=
  (normalizeMacPrefix C mac).bind fun oui =>
    match t.overridesMap oui with
    | some o => some o.manufacturer
    | none => truthy (t.ouiMap oui)

def applyOverride (asset : Endpoint) : Endpoint :=
  match truthy asset.macAddress, truthy asset.manufacturer with
  | some mac, some _ =>
    match lookupOuiOverride C t mac with
    | none => asset
    | some o =>
      { asset with
        manufacturer := (truthy (some o.manufacturer)).or asset.manufacturer
        model := (truthy o.device).or asset.model }
  | _, _ => asset

def fillVendor (asset : Endpoint) : Endpoint :=
  match truthy asset.macAddress, truthy asset.manufacturer with
  | some mac, none =>
    match truthy (lookupOui C t mac) with
    | none => asset
    | some vendor =>
      { asset with
        manufacturer := some vendor
        model := ((lookupOuiOverride C t mac).bind fun o => truthy o.device).or asset.model }
  | _, _ => asset

def brand (asset : Endpoint) : Endpoint := fillVendor C t (applyOverride C t asset)

end Oui

section Phases

variable (C : Casing) (N : Netmask.Package) (c : Call)

def State.newId (s : State) : Nat := (s.memory.idx.byId.map (·.id)).foldr max 0 + 1

def switchConn (inv : InventoryDevice) : Option String :=
  if inv.switchName = "" then none
  else some (if inv.switchPort = "" then inv.switchName else inv.switchName ++ "/port" ++ inv.switchPort)

def apConn (inv : InventoryDevice) : Option String := truthy (some inv.apName)

def noted (inv : InventoryDevice) (x : Columns) : Columns :=
  { x with
    manufacturer := if truthy x.manufacturer = none then (truthy (some inv.hardwareVendor)).or x.manufacturer
      else x.manufacturer
    lastSeenSwitch := (switchConn inv).or x.lastSeenSwitch
    lastSeenAp := (apConn inv).or x.lastSeenAp }

def newColumns (inv : InventoryDevice) : Columns where
  manufacturer := normalizeManufacturer C.toLowerCase c.aliases (truthy (some inv.hardwareVendor))
  ipSource := ipSourceOf c.toSync inv.device
  lastSeenSwitch := switchConn inv
  lastSeenAp := apConn inv

def matchClient (s : State) (inv : InventoryDevice) : Option AssetLookup.Asset :=
  if inv.macAddress = "" ∧ inv.ipAddress = "" then none
  else findByEntry C s.memory.idx (some inv.macAddress) (some inv.hostname) (some inv.ipAddress) false

def takeInventory (s : State) (inv : InventoryDevice) : State :=
  match matchClient C s inv with
  | some a =>
    let after := inventorySeen C c.toSync inv.toInventoryDevice a
    let known := s.memory.reindex C after
    { memory := if after.isInfra then known else known.touch a.id
      columns := Function.update s.columns a.id (noted inv (s.columns a.id)) }
  | none =>
    match if inv.macAddress = "" then none else inventoryIp C c.toSync inv.toInventoryDevice with
    | none => s
    | some ip =>
      { memory := s.memory.createAsset C s.newId (newEndpoint C c.toSync inv.toInventoryDevice ip) true
        columns := Function.update s.columns s.newId (newColumns C c inv) }

def attached (row : SwitchMacEntry) : Bool :=
  !row.isFortilinkPeer && row.mac ≠ "" && row.switchId ≠ "" && row.portName ≠ ""

def portLabel (row : SwitchMacEntry) : String := row.switchId ++ "/" ++ row.portName

def portRank (label : String) : Nat :=
  let rows := c.result.switchMacTable.filter fun row => attached row && portLabel row = label
  ((rows.map fun row => C.toUpperCase row.mac).dedup).length

def rankPort (idx : AssetIndex) (best : List (Nat × String × Nat)) (row : SwitchMacEntry) :
    List (Nat × String × Nat) :=
  if attached row then
    match findByMac C idx row.mac with
    | none => best
    | some a =>
      if a.assetType = .switch ∨ a.assetType = .firewall then best
      else
        let rank := portRank C c (portLabel row)
        match mapGet a.id best with
        | none => mapSet a.id (portLabel row, rank) best
        | some pick => if rank < pick.2 then mapSet a.id (portLabel row, rank) best else best
  else best

def assetBestPort (idx : AssetIndex) : List (Nat × String × Nat) :=
  c.result.switchMacTable.foldl (rankPort C c idx) []

def plugged (best : List (Nat × String × Nat)) (id : Nat) (x : Columns) : Columns :=
  match mapGet id best with
  | none => x
  | some pick => { x with lastSeenSwitch := some pick.1 }

/-- Phase 7.5. -/
def enrich (s : State) : State where
  memory := (planEnrichment C c.toSync s.memory).memory
  columns id := plugged (assetBestPort C c s.memory.idx) id (s.columns id)

def State.endpoint (s : State) (a : AssetLookup.Asset) : Endpoint :=
  { toAsset := a, toColumns := s.columns a.id }

/-- Phase 9. -/
def brandAll (s : State) : State where
  memory :=
    { s.memory with
      idx := { s.memory.idx with
        byId := s.memory.idx.byId.map fun a => (brand C c.oui (s.endpoint a)).toAsset } }
  columns id :=
    match findById s.memory.idx id with
    | none => s.columns id
    | some a => (brand C c.oui (s.endpoint a)).toColumns

def swept (s : State) : State := { s with memory := (planSweep C c.toSync s.memory).memory }

def leased (s : State) : State := { s with memory := (planDhcp C N c.toSync s.memory).memory }

/-- Phases 6 to 7b. -/
def sighted (s : State) : State :=
  let s := c.clients.foldl (takeInventory C c) (leased C N c s)
  enrich C c (swept C c s)

def gathered (s : State) : State := if c.mode = .full ∨ c.mode = .skipDeprecation then sighted C N c s else s

/-- The assets as they are when the sources are written. -/
def merged (s : State) : State :=
  if c.mode = .full ∨ c.mode = .finalize then brandAll C c (gathered C N c s) else gathered C N c s

end Phases

section Blobs

variable (C : Casing) (N : Netmask.Package) (c : Call)

def jsonText : Option String → Value
  | some s => .text s
  | none => .other

def buildFortigateEndpointObservedBlob (asset : Endpoint) (integrationType : String) : Observed :=
  some [("mac", jsonText (asset.macAddress.map C.toUpperCase)), ("hostname", jsonText asset.hostname),
    ("ipAddress", jsonText asset.ipAddress), ("ipSource", jsonText asset.ipSource), ("os", jsonText asset.os),
    ("osVersion", jsonText asset.osVersion), ("hardwareVendor", jsonText asset.manufacturer),
      ("model", jsonText asset.model),
    ("learnedLocation", jsonText asset.learnedLocation), ("lastSeenSwitch", jsonText asset.lastSeenSwitch),
    ("lastSeenAp", jsonText asset.lastSeenAp), ("discoveredVia", .text integrationType)]

structure EndpointSource where
  assetId : Nat
  externalId : String
  integrationId : String
  observed : Observed
  deriving DecidableEq

def upsertFortigateEndpointSource (asset : Endpoint) : Option EndpointSource :=
  (truthy asset.macAddress).bind fun mac =>
    if C.toUpperCase (trim mac) = "" then none
    else
      some { assetId := asset.id, externalId := C.toUpperCase (trim mac), integrationId := c.integration.id
             observed := buildFortigateEndpointObservedBlob C asset c.integration.type }

/-- Phase 10. -/
def endpointSources (s : State) : List EndpointSource :=
  (merged C N c s).memory.fortigateEndpointAssetIds.filterMap fun id =>
    (findById (merged C N c s).memory.idx id).bind fun a =>
      upsertFortigateEndpointSource C c ((merged C N c s).endpoint a)

def projected (row : EndpointSource) : Field → Option Value :=
  (projectAssetFromSources C.toLowerCase c.aliases [⟨.fortigateEndpoint, false, row.observed⟩]).projected

end Blobs

section Blank

variable {C : Casing} {N : Netmask.Package} {c : Call} {idx : AssetIndex} {a : AssetLookup.Asset}
  {s s' : State}
  {i : Nat}

def blankAsset (a : AssetLookup.Asset) : AssetLookup.Asset :=
  { a with os := none, osVersion := none, model := none }

def blankIndex (idx : AssetIndex) : AssetIndex := { idx with byId := idx.byId.map blankAsset }

def blankMemory (mem : Memory) : Memory := { mem with idx := blankIndex mem.idx }

def blankColumns (x : Columns) : Columns := { x with manufacturer := none }

def State.blank (s : State) : State := ⟨blankMemory s.memory, fun id => blankColumns (s.columns id)⟩

/-- The states differ at most in the OS, its version, the manufacturer and the
model of assets. -/
def Alike (s s' : State) : Prop := s.blank = s'.blank

theorem findById_blank : findById (blankIndex idx) i = (findById idx i).map blankAsset := by
  rw [findById, blankIndex, List.find?_map]
  rfl

theorem bind_blank (o : Option Nat) :
    o.bind (findById (blankIndex idx)) = (o.bind (findById idx)).map blankAsset := by
  cases o with
  | none => rfl
  | some i => exact findById_blank

theorem findByMac_blank {mac : String} : findByMac C (blankIndex idx) mac = (findByMac C idx mac).map
    blankAsset := bind_blank _

theorem findByEntry_blank {mac hostname ip : Option String} {b : Bool} :
    findByEntry C (blankIndex idx) mac hostname ip b =
      (findByEntry C idx mac hostname ip b).map blankAsset := by
  have hbind : ∀ (o : Option String) (f : String → Option Nat),
    (o.bind fun k => (f k).bind (findById (blankIndex idx))) =
      (o.bind fun k => (f k).bind (findById idx)).map blankAsset := by
    intro o f
    cases o with
    | none => rfl
    | some k => exact bind_blank (f k)
  have hip : ((truthy ip).bind fun ip => if b then (idx.byIp ip).bind (findById (blankIndex idx)) else none) =
      ((truthy ip).bind fun ip => if b then (idx.byIp ip).bind (findById idx) else none).map blankAsset := by
    cases b with
    | true => exact hbind _ _
    | false => cases truthy ip <;> rfl
  rw [findByEntry, findByEntry, Option.map_or, Option.map_or]
  exact congrArg₂ Option.or (hbind _ _) (congrArg₂ Option.or (hbind _ _) hip)

theorem setId_blank (assets : List AssetLookup.Asset) : (setId a assets).map blankAsset = setId (blankAsset a)
    (assets.map blankAsset) := by
  have hany : (assets.map blankAsset).any (fun x => decide (x.id = (blankAsset a).id)) = assets.any fun x =>
    decide (x.id = a.id) := by
    rw [List.any_map]
    rfl
  rw [setId, setId, hany]
  split
  · rw [List.map_map, List.map_map]
    refine List.map_congr_left fun x _ => ?_
    dsimp only [Function.comp]
    change blankAsset (if x.id = a.id then a else x) = if x.id = a.id then blankAsset a else blankAsset x
    split <;> rfl
  · rw [List.map_append]
    rfl

theorem add_blank : blankIndex (add C idx a) = add C (blankIndex idx) (blankAsset a) := by
  rw [add, blankIndex]
  dsimp only
  rw [setId_blank]
  rfl

theorem Alike.step (h : Alike s s') {f : State → State} (hf : ∀ s, (f s).blank = (f s.blank).blank) :
    Alike (f s) (f s') :=
  (hf s).trans ((congrArg (fun t => (f t).blank) h).trans (hf s').symm)

end Blank

section Steps

variable {C : Casing} {N : Netmask.Package} {c : Call} {idx : AssetIndex} {mem : Memory} {s s' : State}

theorem blankMemory_blank : blankMemory (blankMemory mem) = blankMemory mem := by
  rw [blankMemory, blankMemory, blankIndex, blankIndex, List.map_map]
  rfl

theorem blank_blank : s.blank.blank = s.blank := congrArg (State.mk · _) blankMemory_blank

theorem reindex_blank (a : AssetLookup.Asset) : blankMemory (mem.reindex C a) = (blankMemory mem).reindex C
    (blankAsset a) :=
  congrArg (fun idx => { mem with idx := idx }) add_blank

theorem attributed_blank (entry : DhcpEntry) :
    attributed C (blankIndex idx) entry = (attributed C idx entry).map
    blankAsset := by
  rw [attributed, attributed]
  split
  · rfl
  · exact findByEntry_blank

theorem planLease_blank {plan plan' : Plan} (h : plan'.memory = blankMemory plan.memory) (entry : DhcpEntry) :
    (planLease C N c.toSync plan' entry).memory = blankMemory (planLease C N c.toSync plan entry).memory := by
  have hasset : attributed C plan'.memory.idx entry = (attributed C plan.memory.idx entry).map
    blankAsset := by
    rw [h]
    exact attributed_blank entry
  rw [planLease, planLease, hasset]
  cases attributed C plan.memory.idx entry with
  | none => exact h
  | some a =>
    dsimp only [Option.map_some]
    rw [reindex_blank, h]
    change Memory.reindex C (if entry.device ≠ "" ∧
      a.isInfra = false then (blankMemory plan.memory).touch a.id else blankMemory plan.memory) _ = _
    split <;> rfl

theorem leased_blank : leased C N c s.blank = (leased C N c s).blank :=
  congrArg (State.mk · _)
    (List.foldl_rel (r := fun plan' plan : Plan => plan'.memory = blankMemory plan.memory) rfl
    fun entry _ _ _ h => planLease_blank h entry)

theorem matchClient_blank (inv : InventoryDevice) : matchClient C s.blank inv = (matchClient C s inv).map
    blankAsset := by
  rw [matchClient, matchClient]
  split
  · rfl
  · exact findByEntry_blank

theorem newId_blank : s.blank.newId = s.newId := by
  rw [State.newId, State.newId]
  change ((s.memory.idx.byId.map blankAsset).map (·.id)).foldr max 0 + 1 = _
  rw [List.map_map]
  rfl

theorem blank_update {columns columns' : Nat → Columns} {i : Nat} {x x' : Columns}
    (h : ∀ id, blankColumns (columns id) = blankColumns (columns' id))
    (hx : blankColumns x = blankColumns x') :
    (fun id => blankColumns (Function.update columns i x id)) = fun id =>
      blankColumns (Function.update columns' i x' id) := by
  funext id
  rw [Function.update_apply, Function.update_apply]
  split
  · exact hx
  · exact h id

theorem reindex_known {a a' : AssetLookup.Asset} (h : blankAsset a' = blankAsset a) :
    blankMemory (mem.reindex C a) = blankMemory ((blankMemory mem).reindex C a') := by
  rw [reindex_blank, reindex_blank, blankMemory_blank, h]

theorem takeInventory_blank (inv : InventoryDevice) :
    (takeInventory C c s inv).blank = (takeInventory C c s.blank inv).blank := by
  rw [takeInventory, takeInventory, matchClient_blank]
  cases matchClient C s inv with
  | some a =>
    dsimp only [Option.map_some]
    have hinfra : (inventorySeen C c.toSync inv.toInventoryDevice (blankAsset a)).isInfra =
      (inventorySeen C c.toSync inv.toInventoryDevice a).isInfra := rfl
    rw [hinfra]
    have hknown : blankMemory (s.memory.reindex C (inventorySeen C c.toSync inv.toInventoryDevice a)) =
        blankMemory (s.blank.memory.reindex C
          (inventorySeen C c.toSync inv.toInventoryDevice (blankAsset a))) :=
      reindex_known rfl
    refine congrArg₂ State.mk ?_ (blank_update (fun _ => rfl) rfl)
    dsimp only
    split
    · exact hknown
    · exact congrArg (Memory.touch · a.id) hknown
  | none =>
    dsimp only [Option.map_none]
    split
    · exact blank_blank.symm
    · rw [newId_blank]
      exact congrArg₂ State.mk (congrArg (Memory.touch · s.newId) (reindex_known rfl))
        (blank_update (fun _ => rfl) rfl)

theorem swept_blank : swept C c s.blank = (swept C c s).blank := by
  refine congrArg (State.mk · _) ?_
  change Memory.mk _ _
      { s.memory.idx with byId := (s.memory.idx.byId.map blankAsset).map (cleared C c.toSync) } _ _ _ =
    Memory.mk _ _
      { s.memory.idx with byId := (s.memory.idx.byId.map (cleared C c.toSync)).map blankAsset } _ _ _
  rw [List.map_map, List.map_map]
  rfl

theorem planSwitchPort_blank (row : SwitchMacEntry) :
    planSwitchPort C (blankMemory mem) row = blankMemory (planSwitchPort C mem row) := by
  have hasset : findByMac C (blankMemory mem).idx row.mac = (findByMac C mem.idx row.mac).map blankAsset :=
    findByMac_blank
  rw [planSwitchPort, planSwitchPort, hasset]
  split
  · rfl
  · cases findByMac C mem.idx row.mac with
    | none => rfl
    | some a =>
      dsimp only [Option.map_some]
      change (if a.isInfra = true then blankMemory mem else (blankMemory mem).touch a.id) = _
      split <;> rfl

theorem planArp_blank {plan plan' : Plan} (h : plan'.memory = blankMemory plan.memory)
    (row : GatewaySync.ArpEntry) :
    (planArp C plan' row).memory = blankMemory (planArp C plan row).memory := by
  have hasset : findByMac C plan'.memory.idx row.mac = (findByMac C plan.memory.idx row.mac).map
    blankAsset := by
    rw [h]
    exact findByMac_blank
  rw [planArp, planArp, hasset]
  split
  · exact h
  · cases findByMac C plan.memory.idx row.mac with
    | none => exact h
    | some a =>
      dsimp only [Option.map_some]
      have hip : (blankAsset a).ipAddress = a.ipAddress := rfl
      rw [hip]
      split
      · exact h
      · have hinfra : (blankAsset a).isInfra = a.isInfra := rfl
        have hknown : plan'.memory.reindex C { blankAsset a with ipAddress := some row.ip } =
            blankMemory (plan.memory.reindex C { a with ipAddress := some row.ip }) := by
          rw [reindex_blank, h]
          rfl
        dsimp only
        rw [hinfra, hknown]
        split <;> rfl

theorem rankPort_blank (best : List (Nat × String × Nat)) (row : SwitchMacEntry) :
    rankPort C c (blankIndex idx) best row = rankPort C c idx best row := by
  rw [rankPort, rankPort, findByMac_blank]
  cases findByMac C idx row.mac <;> rfl

theorem plugged_blank (best : List (Nat × String × Nat)) (id : Nat) (x : Columns) :
    plugged best id (blankColumns x) = blankColumns (plugged best id x) := by
  rw [plugged, plugged]
  split <;> rfl

theorem enrich_blank : enrich C c s.blank = (enrich C c s).blank := by
  have hports : (c.result.switchMacTable.foldl (planSwitchPort C) (blankMemory s.memory)) =
      blankMemory (c.result.switchMacTable.foldl (planSwitchPort C) s.memory) :=
    List.foldl_rel (r := fun mem' mem => mem' = blankMemory mem) rfl fun row _ _ _ h =>
      h ▸ planSwitchPort_blank row
  have harp := List.foldl_rel (l := c.result.arpTable) (f := planArp C) (g := planArp C)
    (a := { memory := c.result.switchMacTable.foldl (planSwitchPort C) (blankMemory s.memory) })
    (b := { memory := c.result.switchMacTable.foldl (planSwitchPort C) s.memory })
    (r := fun plan' plan : Plan => plan'.memory = blankMemory plan.memory) hports fun row _ _ _ h =>
      planArp_blank h row
  have hbest : assetBestPort C c s.blank.memory.idx = assetBestPort C c s.memory.idx :=
    congrArg (fun f => c.result.switchMacTable.foldl f []) (funext fun best => funext (rankPort_blank best))
  refine congrArg₂ State.mk harp (funext fun id => ?_)
  rw [hbest]
  exact plugged_blank _ _ _

theorem brand_blank (t : OuiTables) (e : Endpoint) :
    blankAsset (brand C t e).toAsset = blankAsset e.toAsset ∧
      blankColumns (brand C t e).toColumns = blankColumns e.toColumns := by
  have hover : blankAsset (applyOverride C t e).toAsset = blankAsset e.toAsset ∧
      blankColumns (applyOverride C t e).toColumns = blankColumns e.toColumns := by
    rw [applyOverride]
    split
    · split <;> exact ⟨rfl, rfl⟩
    · exact ⟨rfl, rfl⟩
  have hfill : ∀ e, blankAsset (fillVendor C t e).toAsset = blankAsset e.toAsset ∧
      blankColumns (fillVendor C t e).toColumns = blankColumns e.toColumns := by
    intro e
    rw [fillVendor]
    split
    · split <;> exact ⟨rfl, rfl⟩
    · exact ⟨rfl, rfl⟩
  exact ⟨(hfill _).1.trans hover.1, (hfill _).2.trans hover.2⟩

theorem brandAll_blank : (brandAll C c s).blank = s.blank := by
  refine congrArg₂ State.mk ?_ (funext fun id => ?_)
  · change Memory.mk _ _ { s.memory.idx with byId := (s.memory.idx.byId.map _).map blankAsset } _ _ _ =
      Memory.mk _ _ { s.memory.idx with byId := s.memory.idx.byId.map blankAsset } _ _ _
    rw [List.map_map]
    have hmap : s.memory.idx.byId.map (blankAsset ∘ fun a => (brand C c.oui (s.endpoint a)).toAsset) =
      s.memory.idx.byId.map blankAsset :=
      List.map_congr_left fun a _ => (brand_blank c.oui (s.endpoint a)).1
    rw [hmap]
    rfl
  · rw [brandAll]
    dsimp only
    cases hf : findById s.memory.idx id with
    | none => rfl
    | some a =>
      exact (brand_blank c.oui (s.endpoint a)).2.trans
        (congrArg (fun i => blankColumns (s.columns i)) (mem_findById hf).2)

theorem Alike.commutes (h : Alike s s') {f : State → State} (hf : ∀ s, f s.blank = (f s).blank) :
    Alike (f s) (f s') :=
  h.step fun s => ((congrArg State.blank (hf s)).trans blank_blank).symm

theorem Alike.lease (h : Alike s s') : Alike (leased C N c s) (leased C N c s') :=
    h.commutes fun _ => leased_blank

theorem Alike.take (h : Alike s s') (inv : InventoryDevice) :
    Alike (takeInventory C c s inv) (takeInventory C c s' inv) :=
  h.step (f := fun s => takeInventory C c s inv) fun _ => takeInventory_blank inv

theorem Alike.clients (h : Alike s s') (clients : List InventoryDevice) :
    Alike (clients.foldl (takeInventory C c) s) (clients.foldl (takeInventory C c) s') :=
  List.foldl_rel (r := Alike) h fun inv _ _ _ h => h.take inv

/-- Whatever the four values are, the sync goes the same way. -/
theorem Alike.gather (h : Alike s s') : Alike (gathered C N c s) (gathered C N c s') := by
  rw [gathered, gathered]
  split
  · exact (((h.lease (N := N)).clients c.clients).commutes fun _ => swept_blank).commutes fun _ =>
      enrich_blank
  · exact h

theorem Alike.merge (h : Alike s s') : Alike (merged C N c s) (merged C N c s') := by
  rw [merged, merged]
  split
  · exact brandAll_blank.trans (h.gather.trans brandAll_blank.symm)
  · exact h.gather

end Steps

section Values

/-- The values that other sources give as well. -/
structure Facts where
  os : Option String
  osVersion : Option String
  manufacturer : Option String
  model : Option String
  deriving DecidableEq

def factsOf (manufacturer : Option String) (a : AssetLookup.Asset) : Facts :=
  ⟨a.os, a.osVersion, manufacturer, a.model⟩

def State.facts (s : State) (id : Nat) : Option Facts :=
    (findById s.memory.idx id).map (factsOf (s.columns id).manufacturer)

/-- The value, or where it is empty the one that is supplied. -/
def settled (supply v : Option String) : Option String := if truthy v = none then supply.or v else v

/-- What a client's entry makes of the values. -/
def note (inv : InventoryDevice) (f : Facts) : Facts where
  os := settled (truthy (some inv.os)) f.os
  osVersion := (truthy (some inv.osVersion)).or f.osVersion
  manufacturer := settled (truthy (some inv.hardwareVendor)) f.manufacturer
  model := f.model

variable {C : Casing} {N : Netmask.Package} {c : Call} {idx idx' : AssetIndex} {mem : Memory} {s s' : State}
  {a b : AssetLookup.Asset} {i : Nat}

/-- The indexes hold the same assets, as far as the values go. -/
def SameFacts (idx idx' : AssetIndex) : Prop :=
    ∀ id x, (findById idx' id).map (factsOf x) = (findById idx id).map (factsOf x)

theorem SameFacts.refl (idx : AssetIndex) : SameFacts idx idx := fun _ _ => rfl

theorem SameFacts.trans {idx'' : AssetIndex} (h : SameFacts idx idx') (h' : SameFacts idx' idx'') :
    SameFacts idx idx'' :=
  fun id x => (h' id x).trans (h id x)

theorem sameFacts_add (hfind : findById idx a.id = some b) (h : ∀ x, factsOf x a = factsOf x b) :
    SameFacts idx (add C idx a) := by
  intro id x
  rw [findById_add]
  split
  next hid => rw [hid, hfind, Option.map_some, Option.map_some, h]
  next => rfl

theorem sameFacts_planLease (plan : Plan) (entry : DhcpEntry) :
    SameFacts plan.memory.idx (planLease C N c.toSync plan entry).memory.idx := by
  rw [planLease]
  split
  next => exact .refl _
  next a hasset =>
    have hfind : findById plan.memory.idx a.id = some a := by
      rw [attributed] at hasset
      split at hasset
      · cases hasset
      · exact findById_of_findByEntry hasset
    have hsame : SameFacts plan.memory.idx
        (add C plan.memory.idx (seen C N (plan.memory.allSubnets.map GatewaySync.lan) c.now entry a)) :=
      sameFacts_add hfind fun _ => rfl
    dsimp only
    split <;> exact hsame

theorem sameFacts_leased : SameFacts s.memory.idx (leased C N c s).memory.idx :=
  List.foldlRecOn (motive := fun plan : Plan => SameFacts s.memory.idx plan.memory.idx) _ _ (.refl _)
    fun plan h entry _ => h.trans (sameFacts_planLease plan entry)

theorem sameFacts_swept : SameFacts s.memory.idx (swept C c s).memory.idx := by
  intro id x
  change (List.find? _ (s.memory.idx.byId.map (cleared C c.toSync))).map _ = _
  rw [List.find?_map, Option.map_map]
  rfl

theorem planSwitchPort_idx (mem : Memory) (row : SwitchMacEntry) :
    (planSwitchPort C mem row).idx = mem.idx := by
  rw [planSwitchPort]
  split
  · rfl
  · split
    · rfl
    · split <;> rfl

theorem sameFacts_planArp (plan : Plan) (row : GatewaySync.ArpEntry) :
    SameFacts plan.memory.idx (planArp C plan row).memory.idx := by
  rw [planArp]
  split
  · exact .refl _
  · split
    next => exact .refl _
    next a hasset =>
      split
      · exact .refl _
      · obtain ⟨i, -, hfind⟩ := Option.bind_eq_some_iff.mp hasset
        have hown : findById plan.memory.idx a.id = some a := (mem_findById hfind).2.symm ▸ hfind
        have hsame : SameFacts plan.memory.idx (add C plan.memory.idx { a with ipAddress := some row.ip }) :=
          sameFacts_add hown fun _ => rfl
        dsimp only
        split <;> exact hsame

theorem sameFacts_enrich : SameFacts s.memory.idx (enrich C c s).memory.idx := by
  have hports : (c.result.switchMacTable.foldl (planSwitchPort C) s.memory).idx = s.memory.idx :=
    List.foldlRecOn (motive := fun mem : Memory => mem.idx = s.memory.idx) _ _ rfl
      fun mem h row _ => (planSwitchPort_idx mem row).trans h
  exact List.foldlRecOn (motive := fun plan : Plan => SameFacts s.memory.idx plan.memory.idx)
    c.result.arpTable (planArp C)
    (b := { memory := c.result.switchMacTable.foldl (planSwitchPort C) s.memory }) (hports ▸ .refl _)
    fun plan h row _ => h.trans (sameFacts_planArp plan row)

theorem facts_leased : (leased C N c s).facts i = s.facts i := sameFacts_leased i _

theorem facts_swept : (swept C c s).facts i = s.facts i := sameFacts_swept i _

theorem facts_enrich : (enrich C c s).facts i = s.facts i := by
  have hcolumn : ((enrich C c s).columns i).manufacturer = (s.columns i).manufacturer := by
    change (plugged _ i (s.columns i)).manufacturer = _
    rw [plugged]
    split <;> rfl
  rw [State.facts, hcolumn]
  exact sameFacts_enrich i _

theorem factsOf_seen (inv : InventoryDevice) (a : AssetLookup.Asset) (x : Columns) :
    factsOf (noted inv x).manufacturer (inventorySeen C c.toSync inv.toInventoryDevice a) = note inv
      (factsOf x.manufacturer a) := by
  have hos : (if truthy a.os = none then truthy (some inv.os) else none).or a.os = settled
    (truthy (some inv.os))
    a.os := by
    rw [settled]
    split <;> rfl
  exact congrArg (Facts.mk · _ _ _) hos

theorem facts_matched {inv : InventoryDevice} (hasset : matchClient C s inv = some a) :
    (takeInventory C c s inv).facts i = if a.id = i then (s.facts i).map (note inv) else s.facts i := by
  have hfind : findById s.memory.idx a.id = some a := by
    rw [matchClient] at hasset
    split at hasset
    · cases hasset
    · exact findById_of_findByEntry hasset
  have hidx : (takeInventory C c s inv).memory.idx = add C s.memory.idx
    (inventorySeen C c.toSync inv.toInventoryDevice a) := by
    rw [takeInventory, hasset]
    dsimp only
    split <;> rfl
  have hcolumns : (takeInventory C c s inv).columns = Function.update s.columns a.id
    (noted inv (s.columns a.id)) := by
    rw [takeInventory, hasset]
  rw [State.facts, hidx, hcolumns, findById_add, Function.update_apply]
  change Option.map _ (if i = a.id then _ else _) = _
  by_cases hid : i = a.id
  · subst hid
    rw [if_pos rfl, if_pos rfl, if_pos rfl, State.facts, hfind]
    exact congrArg some (factsOf_seen inv a _)
  · rw [if_neg hid, if_neg hid, if_neg (Ne.symm hid), State.facts]

theorem newId_fresh : findById s.memory.idx s.newId = none := by
  have hle : ∀ (ids : List Nat), ∀ n ∈ ids, n ≤ ids.foldr max 0 := by
    intro ids
    induction ids with
    | nil => exact fun n hn => absurd hn List.not_mem_nil
    | cons m ids ih =>
      intro n hn
      obtain rfl | hn := List.mem_cons.mp hn
      · exact Nat.le_max_left _ _
      · exact (ih n hn).trans (Nat.le_max_right _ _)
  refine List.find?_eq_none.mpr fun a ha hid => ?_
  have hmax := hle (s.memory.idx.byId.map (·.id)) a.id (List.mem_map_of_mem ha)
  have heq : a.id = (s.memory.idx.byId.map (·.id)).foldr max 0 + 1 := of_decide_eq_true hid
  omega

/-- The address of a client that gets an asset of its own. -/
def newIp (C : Casing) (c : Call) (inv : InventoryDevice) : Option String :=
  if inv.macAddress = "" then none else inventoryIp C c.toSync inv.toInventoryDevice

theorem facts_unmatched {inv : InventoryDevice} (hasset : matchClient C s inv = none) :
    (takeInventory C c s inv).facts i =
      match newIp C c inv with
      | none => s.facts i
      | some ip =>
        if i = s.newId then
          some (factsOf (newColumns C c inv).manufacturer
            (ClusterSync.indexed ⟨s.newId, newEndpoint C c.toSync inv.toInventoryDevice ip⟩))
        else s.facts i := by
  rw [takeInventory, hasset, newIp]
  dsimp only
  split
  · rfl
  next ip _ =>
    have hidx : (s.memory.createAsset C s.newId (newEndpoint C c.toSync inv.toInventoryDevice ip) true).idx =
      add C s.memory.idx
        (ClusterSync.indexed ⟨s.newId, newEndpoint C c.toSync inv.toInventoryDevice ip⟩) := rfl
    have hid : (ClusterSync.indexed ⟨s.newId, newEndpoint C c.toSync inv.toInventoryDevice ip⟩).id =
      s.newId := rfl
    rw [State.facts, hidx, findById_add, hid]
    dsimp only
    rw [Function.update_apply]
    split
    · rfl
    · rfl

theorem facts_kept {inv : InventoryDevice} {f : Facts} (hasset : matchClient C s inv = none)
    (hf : s.facts i = some f) :
    (takeInventory C c s inv).facts i = some f := by
  have hne : i ≠ s.newId := by
    rintro rfl
    rw [State.facts, newId_fresh] at hf
    cases hf
  rw [facts_unmatched hasset, ← hf]
  split
  · rfl
  · exact if_neg hne

def entriesOf (C : Casing) (c : Call) (id : Nat) : State → List InventoryDevice → List InventoryDevice
  | _, [] => []
  | s, inv :: rest =>
    if (matchClient C s inv).map (·.id) = some id then inv :: entriesOf C c id (takeInventory C c s inv) rest
    else entriesOf C c id (takeInventory C c s inv) rest

/-- The first value that an entry names. -/
def named (f : InventoryDevice → String) (entries : List InventoryDevice) : Option String :=
  entries.findSome? fun inv => truthy (some (f inv))

theorem named_none {f : InventoryDevice → String} {entries : List InventoryDevice} :
    named f entries = none ↔ ∀ inv ∈ entries, f inv = "" := by
  rw [named, List.findSome?_eq_none_iff]
  simp [truthy]

/-- What is left of the values once the entries are noted. -/
def reported (entries : List InventoryDevice) (f : Facts) : Facts where
  os := settled (named (·.os) entries) f.os
  osVersion := (named (·.osVersion) entries.reverse).or f.osVersion
  manufacturer := settled (named (·.hardwareVendor) entries) f.manufacturer
  model := f.model

theorem settled_none (v : Option String) : settled none v = v := by
  rw [settled]
  split <;> rfl

/-- The supplies are texts that are not empty. -/
def Full (supply : Option String) : Prop := ∀ o, supply = some o → truthy (some o) = some o

theorem full_truthy (v : Option String) : Full (truthy v) := by
  intro o h
  obtain ⟨rfl, -⟩ := truthy_some h
  exact h

theorem full_named (f : InventoryDevice → String) (entries : List InventoryDevice) :
    Full (named f entries) := by
  intro o h
  obtain ⟨inv, -, hinv⟩ := List.exists_of_findSome?_eq_some h
  exact full_truthy _ o hinv

theorem Full.or {n w : Option String} (hn : Full n) (hw : Full w) : Full (n.or w) := by
  intro o h
  obtain h | ⟨-, h⟩ := Option.or_eq_some_iff.mp h
  · exact hn o h
  · exact hw o h

theorem settled_full {supply v : Option String} (h : (truthy v).isSome = true) : settled supply v = v :=
  if_neg (Option.isSome_iff_ne_none.mp h)

theorem settled_empty {supply v : Option String} (h : truthy v = none) : settled supply v = supply.or v :=
  if_pos h

theorem settled_or {n : Option String} (hn : Full n)
    (w v : Option String) : settled (n.or w) v = settled w (settled n v) := by
  cases hv : truthy v with
  | some x =>
    have hfull : (truthy v).isSome = true := by rw [hv]; rfl
    rw [settled_full hfull, settled_full hfull, settled_full hfull]
  | none =>
    rw [settled_empty hv, settled_empty hv]
    cases n with
    | none => exact (settled_empty hv).symm
    | some o =>
      have hfull : (truthy (some o)).isSome = true := by rw [hn o rfl]; rfl
      exact (settled_full hfull).symm

theorem settled_cons (f : InventoryDevice → String) (inv : InventoryDevice) (rest : List InventoryDevice)
    (v : Option String) :
    settled (named f (inv :: rest)) v = settled (named f rest) (settled (truthy (some (f inv))) v) := by
  have hnamed : named f (inv :: rest) = (truthy (some (f inv))).or (named f rest) := by
    rw [named, List.findSome?_cons]
    cases truthy (some (f inv)) <;> rfl
  rw [hnamed, settled_or (full_truthy _)]

theorem reported_cons (inv : InventoryDevice) (rest : List InventoryDevice) (f : Facts) :
    reported (inv :: rest) f = reported rest (note inv f) := by
  have hversion : (named (·.osVersion) (inv :: rest).reverse).or f.osVersion =
      (named (·.osVersion) rest.reverse).or ((truthy (some inv.osVersion)).or f.osVersion) := by
    rw [List.reverse_cons, named, List.findSome?_append, Option.or_assoc]
    refine congrArg ((named (·.osVersion) rest.reverse).or ·) ?_
    rw [List.findSome?_singleton]
  rw [reported, reported, settled_cons, settled_cons, hversion]
  rfl

theorem reported_nil (f : Facts) : reported [] f = f := by
  rw [reported]
  exact congrArg₂ (Facts.mk · f.osVersion · f.model) (settled_none _) (settled_none _)

theorem facts_clients {f : Facts} (clients : List InventoryDevice) (hf : s.facts i = some f) :
    (clients.foldl (takeInventory C c) s).facts i = some (reported (entriesOf C c i s clients) f) := by
  induction clients generalizing s f with
  | nil => rw [entriesOf, reported_nil]; exact hf
  | cons inv clients ih =>
    rw [List.foldl_cons, entriesOf]
    cases hasset : matchClient C s inv with
    | none =>
      rw [if_neg (by simp)]
      exact ih (facts_kept hasset hf)
    | some a =>
      have hmatched := facts_matched (C := C) (c := c) (i := i) hasset
      rw [hf] at hmatched
      by_cases hid : a.id = i
      · rw [if_pos hid] at hmatched
        rw [Option.map_some, if_pos (congrArg some hid), reported_cons]
        exact ih hmatched
      · rw [if_neg hid] at hmatched
        rw [Option.map_some, if_neg fun h => hid (Option.some.inj h)]
        exact ih hmatched

theorem Alike.candidate (h : Alike s s') (inv : InventoryDevice) :
    (matchClient C s inv).map blankAsset = (matchClient C s' inv).map blankAsset := by
  rw [← matchClient_blank, h, matchClient_blank]

theorem Alike.matched (h : Alike s s') (inv : InventoryDevice) :
    (matchClient C s inv).map (·.id) = (matchClient C s' inv).map (·.id) := by
  have hids := congrArg (Option.map (·.id)) (h.candidate (C := C) inv)
  rw [Option.map_map, Option.map_map] at hids
  exact hids

theorem Alike.entries (h : Alike s s') (clients : List InventoryDevice) :
    entriesOf C c i s clients = entriesOf C c i s' clients := by
  induction clients generalizing s s' with
  | nil => rfl
  | cons inv clients ih =>
    rw [entriesOf, entriesOf, h.matched inv, ih (h.take inv)]

theorem Alike.find (h : Alike s s') (i : Nat) :
    (findById s.memory.idx i).map blankAsset = (findById s'.memory.idx i).map blankAsset := by
  rw [← findById_blank, ← findById_blank]
  exact congrArg (fun t => findById t.memory.idx i) h

theorem Alike.unknown (h : Alike s s') (hnone : s.facts i = none) : s'.facts i = none := by
  have hfind := h.find i
  rw [State.facts, Option.map_eq_none_iff] at hnone ⊢
  rw [hnone] at hfind
  exact Option.map_eq_none_iff.mp hfind.symm

theorem Alike.facts_takeInventory (h : Alike s s') (inv : InventoryDevice) (hf : s.facts i = s'.facts i) :
    (takeInventory C c s inv).facts i = (takeInventory C c s' inv).facts i := by
  have hids := h.matched (C := C) inv
  cases hasset : matchClient C s inv with
  | some a =>
    rw [hasset] at hids
    obtain ⟨a', hasset', hid⟩ := Option.map_eq_some_iff.mp hids.symm
    rw [facts_matched hasset, facts_matched hasset', hf, hid]
  | none =>
    rw [hasset] at hids
    have hasset' := Option.map_eq_none_iff.mp hids.symm
    have hnew : s.newId = s'.newId := by
      rw [← newId_blank, h, newId_blank]
    rw [facts_unmatched hasset, facts_unmatched hasset', hnew, hf]

theorem Alike.facts_clients (h : Alike s s') (clients : List InventoryDevice) (hf : s.facts i = s'.facts i) :
    (clients.foldl (takeInventory C c) s).facts i = (clients.foldl (takeInventory C c)
      s').facts i :=
  (List.foldl_rel (r := fun s s' => Alike s s' ∧ s.facts i = s'.facts i) ⟨h, hf⟩ fun inv _ _ _ h =>
    ⟨h.1.take inv, h.1.facts_takeInventory inv h.2⟩).2

def branded (C : Casing) (t : OuiTables) (mac : Option String) (f : Facts) : Facts where
  os := f.os
  osVersion := f.osVersion
  manufacturer :=
    ((mac.bind (lookupOuiOverride C t)).bind fun o => truthy (some o.manufacturer)).or
      (settled (mac.bind fun mac => truthy (lookupOui C t mac)) f.manufacturer)
  model :=
    if ((mac.bind (lookupOuiOverride C t)).bind fun o => truthy (some o.manufacturer)).isSome ∨
      (truthy f.manufacturer).isSome then
      ((mac.bind (lookupOuiOverride C t)).bind fun o => truthy o.device).or f.model
    else f.model

theorem lookupOui_of_override {t : OuiTables} {mac : String} {o : OverrideEntry}
    (h : lookupOuiOverride C t mac = some o) :
    lookupOui C t mac = some o.manufacturer := by
  obtain ⟨oui, houi, ho⟩ := Option.bind_eq_some_iff.mp h
  rw [lookupOui, houi, Option.bind_some, ho]

theorem truthy_or {v w : Option String} {x : String} (h : truthy w = some x) :
    (truthy ((truthy v).or w)).isSome = true := by
  cases hv : truthy v with
  | none => rw [Option.none_or, h]; rfl
  | some y =>
    obtain ⟨rfl, -⟩ := truthy_some hv
    rw [Option.some_or, hv]
    rfl

theorem fillVendor_full {t : OuiTables} {e : Endpoint} (h : (truthy e.manufacturer).isSome = true) :
    fillVendor C t e = e := by
  obtain ⟨m, hm⟩ := Option.isSome_iff_exists.mp h
  rw [fillVendor, hm]
  cases truthy e.macAddress <;> rfl

theorem facts_brand (t : OuiTables) (e : Endpoint) :
    factsOf (brand C t e).manufacturer (brand C t e).toAsset = branded C t (truthy e.macAddress)
      (factsOf e.manufacturer e.toAsset) := by
  rw [brand]
  cases hmac : truthy e.macAddress with
  | none => simp [applyOverride, fillVendor, hmac, branded, factsOf, settled_none]
  | some mac =>
    cases hm : truthy e.manufacturer with
    | none =>
      have hover : applyOverride C t e = e := by rw [applyOverride, hmac, hm]
      rw [hover, fillVendor, hmac, hm]
      dsimp only
      cases ho : lookupOuiOverride C t mac with
      | none => cases hv : truthy (lookupOui C t mac) <;> simp [branded, factsOf, ho, hv, hm, settled]
      | some o =>
        rw [lookupOui_of_override ho]
        cases hv : truthy (some o.manufacturer) <;>
          simp [branded, factsOf, ho, hv, hm, settled, lookupOui_of_override ho]
    | some m =>
      have hset : ∀ supply, settled supply e.manufacturer = e.manufacturer := fun supply =>
        if_neg (by simp [hm])
      rw [applyOverride, hmac, hm]
      dsimp only
      cases ho : lookupOuiOverride C t mac with
      | none =>
        dsimp only
        rw [fillVendor_full (by simp [hm])]
        simp [branded, factsOf, ho, hm, hset]
      | some o =>
        dsimp only
        rw [fillVendor_full (truthy_or hm)]
        simp [branded, factsOf, ho, hm, hset]

theorem brand_id (t : OuiTables) (e : Endpoint) : (brand C t e).id = e.id := by
  have hids := congrArg AssetLookup.Asset.id (brand_blank (C := C) t e).1
  exact hids

theorem findById_brandAll : findById (brandAll C c s).memory.idx i =
    (findById s.memory.idx i).map fun a => (brand C c.oui (s.endpoint a)).toAsset := by
  change List.find? _ (s.memory.idx.byId.map _) = _
  rw [List.find?_map]
  refine congrArg _ (congrArg (List.find? · s.memory.idx.byId) (funext fun a => ?_))
  rw [Function.comp_apply, brand_id]
  rfl

/-- The MAC that an asset has when the OUI tables are asked. -/
def State.mac (s : State) (id : Nat) : Option String := (findById s.memory.idx id).bind fun a =>
    truthy a.macAddress

theorem facts_brandAll : (brandAll C c s).facts i = (s.facts i).map (branded C c.oui (s.mac i)) := by
  rw [State.facts, State.facts, State.mac, findById_brandAll]
  cases hf : findById s.memory.idx i with
  | none => rfl
  | some a =>
    have hid : a.id = i := (mem_findById hf).2
    have hcolumns : (brandAll C c s).columns i = (brand C c.oui (s.endpoint a)).toColumns := by
      rw [brandAll]
      dsimp only
      rw [hf]
    have hendpoint : (s.endpoint a).manufacturer = (s.columns i).manufacturer := hid ▸ rfl
    rw [Option.map_some, Option.map_some, Option.map_some, hcolumns, facts_brand, hendpoint]
    rfl

end Values

section Condition

variable (C : Casing) (N : Netmask.Package) (c : Call)

/-- The clients of the sync that are taken for the asset. -/
def clientsOf (s : State) (id : Nat) : List InventoryDevice :=
  if c.mode = .full ∨ c.mode = .skipDeprecation then entriesOf C c id (leased C N c s) c.clients else []

def overrideOf (mac : Option String) : Option OverrideEntry :=
  if c.mode = .full ∨ c.mode = .finalize then mac.bind (lookupOuiOverride C c.oui) else none

def vendorOf (mac : Option String) : Option String :=
  if c.mode = .full ∨ c.mode = .finalize then mac.bind fun mac => truthy (lookupOui C c.oui mac) else none

/-- The values are equal, or what is supplied takes their place. -/
def Meet (supply v v' : Option String) : Prop :=
  v = v' ∨ ∃ o, supply = some o ∧ (truthy v = none ∨ v = some o) ∧ (truthy v' = none ∨ v' = some o)

def modelOf (o : Option OverrideEntry) (entries : List InventoryDevice) (f : Facts) : Option String :=
  if (o.bind fun o => truthy (some o.manufacturer)).isSome ∨ (named (·.hardwareVendor) entries).isSome ∨
    (truthy f.manufacturer).isSome then
    (o.bind fun o => truthy o.device).or f.model
  else f.model

/-- The values of an asset are the same in both states, but for what the
clients and the OUI tables say themselves. -/
structure Agree (entries : List InventoryDevice) (o : Option OverrideEntry) (vendor : Option String)
  (f f' : Facts) : Prop where
  os : Meet (named (·.os) entries) f.os f'.os
  osVersion : (∀ inv ∈ entries, inv.osVersion = "") → f.osVersion = f'.osVersion
  manufacturer : (o.bind fun o => truthy (some o.manufacturer)) = none →
    Meet ((named (·.hardwareVendor) entries).or vendor) f.manufacturer f'.manufacturer
  model : modelOf o entries f = modelOf o entries f'

def Settled (s s' : State) (id : Nat) : Prop :=
  ∀ f ∈ s.facts id, ∀ f' ∈ s'.facts id,
    Agree (clientsOf C N c s id) (overrideOf C c ((gathered C N c s).mac id))
      (vendorOf C c ((gathered C N c s).mac id)) f f'

variable {C N c} {s s' : State} {i : Nat} {f f' : Facts} {entries : List InventoryDevice}

theorem settled_meet {supply v v' : Option String} (hs : Full supply) :
    settled supply v = settled supply v' ↔ Meet supply v v' := by
  cases supply with
  | none => simp [settled_none, Meet]
  | some o =>
    have ho := hs o rfl
    constructor
    · intro h
      by_cases hv : truthy v = none
      · rw [settled_empty hv, Option.some_or] at h
        by_cases hv' : truthy v' = none
        · exact .inr ⟨o, rfl, .inl hv, .inl hv'⟩
        · rw [settled_full (Option.isSome_iff_ne_none.mpr hv')] at h
          exact .inr ⟨o, rfl, .inl hv, .inr h.symm⟩
      · rw [settled_full (Option.isSome_iff_ne_none.mpr hv)] at h
        by_cases hv' : truthy v' = none
        · rw [settled_empty hv', Option.some_or] at h
          exact .inr ⟨o, rfl, .inr h, .inl hv'⟩
        · rw [settled_full (Option.isSome_iff_ne_none.mpr hv')] at h
          exact .inl h
    · have hone : ∀ v, truthy v = none ∨ v = some o → settled (some o) v = some o := by
        rintro v (hv | rfl)
        · rw [settled_empty hv, Option.some_or]
        · exact settled_full (by rw [ho]; rfl)
      rintro (rfl | ⟨o', ho', hv, hv'⟩)
      · rfl
      · cases ho'
        rw [hone v hv, hone v' hv']

theorem facts_gathered (hf : s.facts i = some f) :
    (gathered C N c s).facts i = some (reported (clientsOf C N c s i) f) := by
  rw [gathered, clientsOf]
  split
  · rw [sighted, facts_enrich, facts_swept]
    exact facts_clients c.clients (facts_leased.trans hf)
  · rw [reported_nil, hf]

/-- The values as the sync leaves them. -/
def completed (C : Casing) (c : Call) (entries : List InventoryDevice) (mac : Option String) (f : Facts) :
    Facts :=
  if c.mode = .full ∨ c.mode = .finalize then branded C c.oui mac (reported entries f) else reported entries f

theorem facts_merged (hf : s.facts i = some f) :
    (merged C N c s).facts i = some (completed C c (clientsOf C N c s i) ((gathered C N c s).mac i) f) := by
  rw [merged, completed]
  split
  · rw [facts_brandAll, facts_gathered hf, Option.map_some]
  · exact facts_gathered hf

theorem full_vendorOf (mac : Option String) : Full (vendorOf C c mac) := by
  rw [vendorOf]
  split
  · intro o h
    obtain ⟨mac, -, h⟩ := Option.bind_eq_some_iff.mp h
    exact full_truthy _ o h
  · exact fun o h => absurd h (Option.some_ne_none o).symm

theorem completed_eq (entries : List InventoryDevice) (mac : Option String) (f : Facts) :
    completed C c entries mac f =
    { os := settled (named (·.os) entries) f.os
      osVersion := (named (·.osVersion) entries.reverse).or f.osVersion
      manufacturer := ((overrideOf C c mac).bind fun o => truthy (some o.manufacturer)).or
        (settled ((named (·.hardwareVendor) entries).or (vendorOf C c mac)) f.manufacturer)
      model := modelOf (overrideOf C c mac) entries f } := by
  have hfull : (truthy (settled (named (·.hardwareVendor) entries) f.manufacturer)).isSome = true ↔
      (named (·.hardwareVendor) entries).isSome = true ∨ (truthy f.manufacturer).isSome = true := by
    cases hv : truthy f.manufacturer with
    | some x => rw [settled_full (by rw [hv]; rfl), hv]; simp
    | none =>
      rw [settled_empty hv]
      cases hn : named (·.hardwareVendor) entries with
      | none => rw [Option.none_or, hv]; simp
      | some o => rw [Option.some_or, full_named _ _ o hn]; simp
  rw [completed, overrideOf, vendorOf, settled_or (full_named _ _), modelOf]
  split
  · rw [branded, reported]
    simp only [hfull]
  · rw [settled_none]
    simp [reported]

theorem completed_agree (mac : Option String) :
    completed C c entries mac f = completed C c entries mac f' ↔
      Agree entries (overrideOf C c mac) (vendorOf C c mac) f f' := by
  have hor : ∀ x v v' : Option String, x.or v = x.or v' ↔ (x = none → v = v') := by
    intro x v v'
    cases x <;> simp
  have hversion : (named (·.osVersion) entries.reverse).or f.osVersion =
    (named (·.osVersion) entries.reverse).or
    f'.osVersion ↔
      ((∀ inv ∈ entries, inv.osVersion = "") → f.osVersion = f'.osVersion) := by
    rw [hor, named_none]
    simp only [List.mem_reverse]
  rw [completed_eq, completed_eq, Facts.mk.injEq, settled_meet (full_named _ _), hversion, hor,
    settled_meet ((full_named _ _).or (full_vendorOf mac))]
  exact ⟨fun ⟨h₁, h₂, h₃, h₄⟩ => ⟨h₁, h₂, h₃, h₄⟩, fun h => ⟨h.os, h.osVersion, h.manufacturer, h.model⟩⟩

theorem Alike.mac (h : Alike s s') (i : Nat) : s.mac i = s'.mac i := by
  have hmac := congrArg (Option.bind · fun a => truthy a.macAddress) (h.find i)
  simp only [Option.bind_map] at hmac
  exact hmac

theorem Alike.taken (h : Alike s s') (i : Nat) : clientsOf C N c s i = clientsOf C N c s' i := by
  rw [clientsOf, clientsOf, h.lease.entries]

theorem Alike.facts_unknown (h : Alike s s') (hf : s.facts i = none) :
    (merged C N c s).facts i = (merged C N c s').facts i := by
  have hgathered : (gathered C N c s).facts i = (gathered C N c s').facts i := by
    have hsame : s.facts i = s'.facts i := hf.trans (h.unknown hf).symm
    rw [gathered, gathered]
    split
    · rw [sighted, sighted, facts_enrich, facts_enrich, facts_swept, facts_swept]
      exact h.lease.facts_clients c.clients (facts_leased.trans (hsame.trans facts_leased.symm))
    · exact hsame
  rw [merged, merged]
  split
  · rw [facts_brandAll, facts_brandAll, hgathered, h.gather.mac i]
  · exact hgathered

/-- The values that a run leaves an asset are the same in both runs just where
the states agree on them. -/
theorem Alike.settled (h : Alike s s') :
    (merged C N c s).facts i = (merged C N c s').facts i ↔ Settled C N c s s' i := by
  cases hf : s.facts i with
  | none =>
    exact iff_of_true (h.facts_unknown hf) fun f hfm =>
      absurd (hf.symm.trans hfm) (Option.some_ne_none f).symm
  | some f =>
    obtain ⟨f', hf'⟩ : ∃ f', s'.facts i = some f' := by
      cases hf' : s'.facts i with
      | some f' => exact ⟨f', rfl⟩
      | none => exact absurd (hf.symm.trans (Alike.unknown h.symm hf')) (Option.some_ne_none f)
    rw [facts_merged hf, facts_merged hf', ← h.taken, ← h.gather.mac i, Option.some.injEq, completed_agree,
      Settled]
    constructor
    · intro hagree g hg g' hg'
      cases Option.some.inj (hf.symm.trans hg)
      cases Option.some.inj (hf'.symm.trans hg')
      exact hagree
    · exact fun hagree => hagree f hf f' hf'

end Condition

section Runs

variable {C : Casing} {N : Netmask.Package} {c : Call} {s s' : State} {i : Nat}

/-- The sync touches the asset, and it has a MAC to be known by. -/
def Recorded (C : Casing) (N : Netmask.Package) (c : Call) (s : State) (id : Nat) : Prop :=
  id ∈ (gathered C N c s).memory.fortigateEndpointAssetIds ∧ ∃ mac ∈ (gathered C N c s).mac id,
    C.toUpperCase (trim mac) ≠ ""

theorem filterMap_eq_iff {α β : Type} {f g : α → Option β} {l : List α}
    (h : ∀ a ∈ l, (f a).isSome = (g a).isSome) :
    l.filterMap f = l.filterMap g ↔ ∀ a ∈ l, f a = g a := by
  induction l with
  | nil => simp
  | cons a l ih =>
    have hrest := ih fun b hb => h b (List.mem_cons_of_mem a hb)
    have hhead := h a List.mem_cons_self
    rw [List.forall_mem_cons, ← hrest]
    cases hf : f a <;> cases hg : g a <;> simp [hf, hg] at hhead ⊢

theorem jsonText_inj {v v' : Option String} : jsonText v = jsonText v' ↔ v = v' := by
  cases v <;> cases v' <;> simp [jsonText]

theorem blob_iff {e e' : Endpoint} {integrationType : String}
    (ha : blankAsset e.toAsset = blankAsset e'.toAsset)
    (hx : blankColumns e.toColumns = blankColumns e'.toColumns) :
    buildFortigateEndpointObservedBlob C e integrationType =
      buildFortigateEndpointObservedBlob C e' integrationType ↔
      factsOf e.manufacturer e.toAsset = factsOf e'.manufacturer e'.toAsset := by
  simp only [blankAsset, AssetLookup.Asset.mk.injEq] at ha
  simp only [blankColumns, Columns.mk.injEq] at hx
  simp [buildFortigateEndpointObservedBlob, jsonText_inj, factsOf, ha, hx]

/-- The row that an asset gets. -/
def sourceOf (C : Casing) (c : Call) (s : State) (id : Nat) : Option EndpointSource :=
  (findById s.memory.idx id).bind fun a => upsertFortigateEndpointSource C c (s.endpoint a)

/-- The MAC that a row is kept under. -/
def Usable (C : Casing) (mac : Option String) : Prop := ∃ m ∈ mac, C.toUpperCase (trim m) ≠ ""

theorem upsert_unusable {e : Endpoint} (h : ¬Usable C (truthy e.macAddress)) :
    upsertFortigateEndpointSource C c e = none := by
  rw [upsertFortigateEndpointSource]
  cases hmac : truthy e.macAddress with
  | none => rfl
  | some m =>
    have hempty : C.toUpperCase (trim m) = "" := by_contra fun hne => h ⟨m, hmac, hne⟩
    exact if_pos hempty

theorem upsert_usable {e : Endpoint} {m : String} (hmac : truthy e.macAddress = some m)
    (hm : C.toUpperCase (trim m) ≠ "") :
    upsertFortigateEndpointSource C c e =
      some ⟨e.id, C.toUpperCase (trim m), c.integration.id,
        buildFortigateEndpointObservedBlob C e c.integration.type⟩ := by
  rw [upsertFortigateEndpointSource, hmac]
  exact if_neg hm

theorem upsert_iff (e e' : Endpoint) (ha : blankAsset e.toAsset = blankAsset e'.toAsset)
    (hx : blankColumns e.toColumns = blankColumns e'.toColumns) :
    (upsertFortigateEndpointSource C c e).isSome = (upsertFortigateEndpointSource C c e').isSome ∧
      (upsertFortigateEndpointSource C c e = upsertFortigateEndpointSource C c e' ↔
        (Usable C (truthy e.macAddress) →
          factsOf e.manufacturer e.toAsset = factsOf e'.manufacturer e'.toAsset)) := by
  have hmac : e.macAddress = e'.macAddress := by injection ha
  have hid : e.id = e'.id := by injection ha
  by_cases hu : Usable C (truthy e.macAddress)
  · obtain ⟨m, hm, hne⟩ := hu
    rw [upsert_usable hm hne, upsert_usable (hmac ▸ hm) hne, Option.some.injEq, EndpointSource.mk.injEq, hid,
      blob_iff ha hx]
    exact ⟨rfl, fun h _ => h.2.2.2, fun h => ⟨rfl, rfl, rfl, h ⟨m, hm, hne⟩⟩⟩
  · rw [upsert_unusable hu, upsert_unusable (hmac ▸ hu)]
    exact ⟨rfl, iff_of_true rfl fun h => absurd h hu⟩

theorem Alike.source (h : Alike s s') (i : Nat) : (sourceOf C c s i).isSome = (sourceOf C c s' i).isSome ∧
    (sourceOf C c s i = sourceOf C c s' i ↔ (Usable C (s.mac i) → s.facts i = s'.facts i)) := by
  have hfind := h.find i
  rw [sourceOf, sourceOf, State.mac, State.facts, State.facts]
  cases ha : findById s.memory.idx i with
  | none =>
    rw [ha] at hfind
    rw [Option.map_eq_none_iff.mp hfind.symm]
    exact ⟨rfl, iff_of_true rfl fun _ => rfl⟩
  | some a =>
    rw [ha] at hfind
    obtain ⟨a', ha', hblank⟩ := Option.map_eq_some_iff.mp hfind.symm
    have hid : a.id = i := (mem_findById ha).2
    have hid' : a'.id = i := (mem_findById ha').2
    have hcolumns : blankColumns (s.endpoint a).toColumns = blankColumns (s'.endpoint a').toColumns := by
      change blankColumns (s.columns a.id) = blankColumns (s'.columns a'.id)
      rw [hid, hid']
      exact congrArg (fun t => State.columns t i) h
    have hrow := upsert_iff (C := C) (c := c) (s.endpoint a) (s'.endpoint a') hblank.symm hcolumns
    rw [ha', Option.map_some, Option.map_some, Option.some.injEq]
    subst hid
    have hmanufacturer : (s'.endpoint a').manufacturer = (s'.columns a.id).manufacturer :=
      congrArg (fun i => (s'.columns i).manufacturer) hid'
    rw [hmanufacturer] at hrow
    exact hrow

theorem merged_blank : (merged C N c s).blank = (gathered C N c s).blank := by
  rw [merged]
  split
  · exact brandAll_blank
  · rfl

theorem Alike.touched (h : Alike s s') :
    s.memory.fortigateEndpointAssetIds = s'.memory.fortigateEndpointAssetIds :=
  congrArg (fun t => t.memory.fortigateEndpointAssetIds) h

/-- Two runs of a sync write the same blobs, and the same values follow from
them, just where they agree on the values of each asset they record. -/
theorem endpoint_blobs (C : Casing) (N : Netmask.Package) (c : Call) (s s' : State) (h : Alike s s') :
    (endpointSources C N c s = endpointSources C N c s' ∧
      ∀ field, (endpointSources C N c s).map (projected C c · field) = (endpointSources C N c s').map
        (projected C c · field)) ↔
      ∀ id, Recorded C N c s id → Settled C N c s s' id := by
  have hmerged : Alike (merged C N c s) (merged C N c s') := h.merge
  have htouched : (merged C N c s).memory.fortigateEndpointAssetIds =
      (gathered C N c s).memory.fortigateEndpointAssetIds :=
    Alike.touched merged_blank
  have hmac : ∀ id, (merged C N c s).mac id = (gathered C N c s).mac id := Alike.mac merged_blank
  have hrows : endpointSources C N c s = endpointSources C N c s' ↔
      ∀ id ∈ (merged C N c s).memory.fortigateEndpointAssetIds,
        sourceOf C c (merged C N c s) id = sourceOf C c (merged C N c s') id := by
    rw [endpointSources, endpointSources, ← hmerged.touched]
    exact filterMap_eq_iff fun id _ => (hmerged.source id).1
  calc _ ↔ endpointSources C N c s = endpointSources C N c s' :=
        and_iff_left_of_imp fun heq field => congrArg (List.map (projected C c · field)) heq
    _ ↔ _ := hrows
    _ ↔ _ := forall_congr' fun id => by
      rw [(hmerged.source id).2, hmac, htouched, h.settled, Recorded, and_imp]
      rfl

section Tablet

def tabletMac : String := "00:00:00:00:00:01"

/-- A tablet whose OS another source may have supplied. -/
def tablet (os : Option String) : State where
  memory :=
    { blocks := [], allSubnets := [], preloaded := []
      idx := add asciiCasing {} { id := 1, macAddress := some tabletMac, assetType := .workstation, os := os } }
  columns _ := {}

def tabletCall (os : String) : Call where
  integration := ⟨"fg", "fortigate", "FG"⟩
  now := 2
  result := { deviceInventory := [{ device := "fg1", macAddress := tabletMac, hostname := "", os := os }] }
  mode := .full
  clients := [{ device := "fg1", macAddress := tabletMac, hostname := "", os := os }]
  inventory := rfl
  oui := {}
  aliases := none

theorem tablet_alike (os os' : Option String) : Alike (tablet os) (tablet os') := rfl

/-- Where the FortiGate names the OS itself, it does not matter that the asset
had none. -/
theorem own_os_recorded :
    endpointSources asciiCasing Netmask.reference (tabletCall "Windows") (tablet none) =
      endpointSources asciiCasing Netmask.reference (tabletCall "Windows") (tablet (some "Windows")) := by
  refine ((endpoint_blobs asciiCasing Netmask.reference (tabletCall "Windows") _ _ (tablet_alike _ _)).mpr
    ?_).1
  rintro id ⟨hid, -⟩ f hf f' hf'
  have htouched : (gathered asciiCasing Netmask.reference (tabletCall "Windows")
      (tablet none)).memory.fortigateEndpointAssetIds = [1] := by
    decide +kernel
  rw [htouched, List.mem_singleton] at hid
  subst hid
  have hos :
      named (·.os) (clientsOf asciiCasing Netmask.reference (tabletCall "Windows") (tablet none) 1) =
        some "Windows" := by
    decide +kernel
  have hfacts : ∀ os, (tablet os).facts 1 = some ⟨os, none, none, none⟩ := fun _ => rfl
  cases Option.some.inj ((hfacts none).symm.trans hf)
  cases Option.some.inj ((hfacts (some "Windows")).symm.trans hf')
  exact ⟨.inr ⟨"Windows", hos, .inl rfl, .inr rfl⟩, fun _ => rfl, fun _ => .inl rfl, rfl⟩

end Tablet

end Runs

end Polaris.EndpointBlobs
