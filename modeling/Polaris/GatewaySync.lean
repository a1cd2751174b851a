import Polaris.ClusterSync
import Polaris.DhcpAssociation
import Polaris.SubnetDiscovery
import Mathlib.Data.List.Sort

namespace Polaris.GatewaySync

open Polaris.AssetLookup Polaris.ClusterSync Polaris.Lib.Store Polaris.Lib.Text Polaris.Netmask
open Polaris.ConflictResolution hiding Asset Db AssetSource SourceKind
open Polaris.DhcpAssociation hiding Subnet
open Polaris.Reservations hiding Subnet Db
open Polaris.SubnetDiscovery (Subnet DiscoveredSubnet SubnetUpdate findParentBlock siblingsByBlockId
  subnetByCidr)
open Polaris.SubnetService (IpBlock)
open Polaris.Cidr (normalizeCidr cidrOverlaps)

section Data

structure MacRow where
  assetId : Nat
  entry : MacEntry
  addedBy : Option Nat := none
  deriving DecidableEq

/-- The tables, and the MAC rows that a call removed although another call
had added them. -/
structure Db where
  blocks : List IpBlock
  subnets : Table (Table.noKey (α := Subnet))
  assets : Table (Table.noKey (α := AssetRow))
  sources : List Source := []
  macRows : List MacRow := []
  lost : List MacRow := []

structure FortiSwitch where
  device : String
  name : String
  serial : String
  ipAddress : String := ""
  fgtInterface : String := ""
  osVersion : String := ""
  state : String := "Authorized"
  baseMac : String := ""

structure FortiAp where
  device : String
  name : String
  serial : String
  model : String := ""
  ipAddress : String := ""
  baseMac : String := ""
  osVersion : String := ""

structure InventoryDevice where
  device : String
  macAddress : String
  ipAddress : String := ""
  hostname : String := ""
  os : String := ""
  osVersion : String := ""

structure SwitchMacEntry where
  switchId : String
  portName : String
  mac : String
  isFortilinkPeer : Bool := false

structure ArpEntry where
  fortigateDevice : String
  ip : String
  mac : String

structure DiscoveryResult where
  subnets : List DiscoveredSubnet := []
  devices : List Device := []
  fortiSwitches : List FortiSwitch := []
  fortiAps : List FortiAp := []
  dhcpEntries : List DhcpEntry := []
  deviceInventory : List InventoryDevice := []
  inventoryDevices : List String := []
  switchMacTable : List SwitchMacEntry := []
  arpTable : List ArpEntry := []

/-- What a call is given. The addresses are those of the reservations it
finds under a hostname. -/
structure Sync where
  integration : Integration
  now : Nat
  result : DiscoveryResult
  resHostnameToIp : String → Option String := fun _ => none

def Sync.source (c : Sync) : SubnetDiscovery.Source := ⟨c.integration.id, c.integration.type, c.now⟩

end Data

section Statements

structure AssetUpdate where
  hostname : Option String := none
  serialNumber : Option String := none
  model : Option String := none
  os : Option String := none
  osVersion : Option String := none
  ipAddress : Option (Option String) := none
  ipSource : Option (Option String) := none
  macAddress : Option String := none
  learnedLocation : Option (Option String) := none
  assetType : Option AssetType := none
  status : Option AssetStatus := none
  fortinetTopology : Option Topology := none
  discoveredByIntegrationId : Option String := none
  lastSeen : Option Nat := none
  deriving DecidableEq

def AssetUpdate.apply (u : AssetUpdate) (a : AssetRow) : AssetRow where
  hostname := u.hostname.or a.hostname
  serialNumber := u.serialNumber.or a.serialNumber
  model := u.model.or a.model
  os := u.os.or a.os
  osVersion := u.osVersion.or a.osVersion
  ipAddress := u.ipAddress.getD a.ipAddress
  ipSource := u.ipSource.getD a.ipSource
  macAddress := u.macAddress.or a.macAddress
  learnedLocation := u.learnedLocation.getD a.learnedLocation
  assetType := u.assetType.getD a.assetType
  status := u.status.getD a.status
  fortinetTopology := u.fortinetTopology.or a.fortinetTopology
  discoveredByIntegrationId := u.discoveredByIntegrationId.or a.discoveredByIntegrationId
  lastSeen := u.lastSeen.or a.lastSeen

/-- One statement. An update notes the serial that its asset was looked up
under. -/
inductive Write
  | updateSubnet (u : SubnetUpdate)
  | upsertSource (row : Source) (confirm : Bool)
  | deleteSources (drop : Source → Bool)
  | updateAsset (id : Nat) (reported : Option String) (u : AssetUpdate)
  | deleteMacs (id : Nat) (macs : List MacEntry)
  | upsertMacs (id : Nat) (macs : List MacEntry)

def sameSource (row s : Source) : Bool := s.sourceKind = row.sourceKind && s.externalId = row.externalId

def upsertSource (row : Source) (confirm : Bool) (sources : List Source) : List Source :=
  if sources.any (sameSource row) then
    sources.map fun s => if sameSource row s then
      { row with inferred := if confirm then false else s.inferred } else s
  else sources ++ [row]

def isMac (id : Nat) (mac : String) (r : MacRow) : Bool := r.assetId = id && r.entry.mac = mac

def upsertMac (key id : Nat) (rows : List MacRow) (m : MacEntry) : List MacRow :=
  if rows.any (isMac id m.mac) then rows.map fun r => if isMac id m.mac r then { r with entry := m } else r
  else rows ++ [⟨id, m, some key⟩]

def unlisted (id : Nat) (macs : List MacEntry) (r : MacRow) : Bool :=
  r.assetId = id && r.entry.mac ∉ macs.map (·.mac)

def Db.write (key : Nat) (c : SubnetDiscovery.Source) (db : Db) : Write → Db
  | .updateSubnet u => { db with subnets := db.subnets.amendWhere (·.id = u.id) (c.applyUpdate u) }
  | .upsertSource row confirm => { db with sources := upsertSource row confirm db.sources }
  | .deleteSources drop => { db with sources := db.sources.filter (!drop ·) }
  | .updateAsset id _ u => { db with assets := db.assets.amendWhere (·.id = id) u.apply }
  | .deleteMacs id macs =>
    { db with
      macRows := db.macRows.filter (!unlisted id macs ·)
      lost := db.lost ++ db.macRows.filter fun r => unlisted id macs r && r.addedBy.any (· ≠ key) }
  | .upsertMacs id macs => { db with macRows := macs.foldl (upsertMac key id) db.macRows }

/-- Two statements, the rows that are not listed first. -/
def reconcileMacAddresses (id : Nat) (macs : List MacEntry) : List Write :=
  let newMacs := macs.filter (·.mac ≠ "")
  if newMacs = [] then [.deleteMacs id []] else [.deleteMacs id newMacs, .upsertMacs id newMacs]

def manualRow (id : Nat) (s : Source) : Bool :=
  s.assetId = id && s.sourceKind = .manual && s.externalId = toString id

def endpointRow (id : Nat) (s : Source) : Bool := s.assetId = id && s.sourceKind = .fortigateEndpoint

def upsertUnitSource (row : Source) : List Write :=
  [.upsertSource row true, .deleteSources (manualRow row.assetId)]

/-- The statements of a phase. A creation goes on with the id that it is
given, and a projection with the rows that it reads. -/
inductive Stmt
  | write (w : Write)
  | createSubnet (subnet : Subnet)
  | createAsset (reported : Option String) (row : AssetRow) (macs : List MacEntry)
    (source : Option Source) (endpoint : Bool)
  | project (id : Nat) (reported : Option String) (sweep : Bool) (u : ProjectedAsset → AssetUpdate)
  | correct

end Statements

section Memory

/-- What a call keeps to itself: its preload, with its own creations. -/
structure Memory where
  blocks : List IpBlock
  allSubnets : List (Row Subnet)
  idx : AssetIndex
  subnetUpdates : List SubnetUpdate := []
  fortigateEndpointAssetIds : List Nat := []
  preloaded : List MacRow

/-- The statements that a phase goes on with. The lists of a batch run side
by side. -/
structure Plan where
  memory : Memory
  seq : List Stmt := []
  batch : List (List Write) := []

variable (C : Casing) (N : Package) (c : Sync) (mem : Memory)

def newestFirst (macs : List MacEntry) : List MacEntry := macs.insertionSort fun a b =>
    b.lastSeen ≤ a.lastSeen

def shapeMacRows (id : Nat) (rows : List MacRow) : List MacEntry :=
  newestFirst ((rows.filter (·.assetId = id)).map (·.entry))

def hydrated (macRows : List MacRow) (r : Row AssetRow) : AssetLookup.Asset :=
  { indexed r with macAddresses := shapeMacRows r.id macRows }

def preload (db : Db) : Memory where
  blocks := db.blocks
  allSubnets := db.subnets.rows
  idx := build C (db.assets.rows.map (hydrated db.macRows))
  preloaded := db.macRows

def Memory.touch (id : Nat) : Memory :=
  { mem with fortigateEndpointAssetIds :=
      if id ∈ mem.fortigateEndpointAssetIds then mem.fortigateEndpointAssetIds
      else mem.fortigateEndpointAssetIds ++ [id] }

def Memory.reindex (a : AssetLookup.Asset) : Memory := { mem with idx := add C mem.idx a }

def mergeDeviceMac (mac source device : String) (macs : List MacEntry) : List MacEntry :=
  let dev := truthy (some device)
  newestFirst <|
    if macs.any (·.mac = mac) then
      amendFirst (·.mac = mac) (fun m => { m with
        lastSeen := c.now, source := source, device := dev.or m.device }) macs
    else macs ++ [{ mac := mac, lastSeen := c.now, source := source, device := dev }]

end Memory

section Networks

variable (N : Package) (c : Sync) (mem : Memory)

def planSubnet (entry : DiscoveredSubnet) : Plan :=
  match normalizeCidr N entry.cidr with
  | .error _ => { memory := mem }
  | .ok cidr =>
    match subnetByCidr mem.allSubnets cidr with
    | some existing =>
      { memory := { mem with subnetUpdates := mem.subnetUpdates ++ [c.source.updateOf existing entry] } }
    | none =>
      match findParentBlock N mem.blocks cidr with
      | none => { memory := mem }
      | some matchingBlock =>
        match (siblingsByBlockId mem.allSubnets matchingBlock.id).find? fun s =>
          cidrOverlaps N s.data.cidr cidr with
        | some _ => { memory := mem }
        | none => { memory := mem, seq := [.createSubnet (c.source.newSubnet matchingBlock cidr entry)] }

def planSubnetUpdates : Plan := { memory := mem, batch := mem.subnetUpdates.map fun u => [.updateSubnet u] }

end Networks

section Firewalls

variable (C : Casing) (c : Sync) (mem : Memory) (d : Device) (m : Member)

def firewallSource (id : Nat) : Source :=
  { assetId := id, sourceKind := .fortigateFirewall, externalId := m.serial,
    integrationId := some c.integration.id
    observed := buildFortigateFirewallObservedBlob d c.integration.type m }

def memberUpdate (a : AssetLookup.Asset) (p : ProjectedAsset) : AssetUpdate where
  learnedLocation := some ((truthy (some (memberName d m))).or a.learnedLocation)
  lastSeen := some c.now
  fortinetTopology := some (memberTopology d m)
  discoveredByIntegrationId := some c.integration.id
  status := if a.status = .decommissioned then some .active else none
  hostname := p.hostname
  model := p.model
  osVersion := p.osVersion
  serialNumber := p.serialNumber
  ipAddress := if standby d m then some none else p.ipAddress.map some
  ipSource :=
    if standby d m then some none
    else p.ipAddress.map fun _ => (truthy (some (memberName d m))).or (some c.integration.type)

def planMember : Plan :=
  match findExisting C mem.idx d m with
  | some a =>
    { memory := mem.reindex C (mirrored d m a)
      seq := (if m.serial = "" then [] else (upsertUnitSource (firewallSource c d m a.id)).map .write) ++
        [.project a.id (truthy (some m.serial)) false (memberUpdate c d m a)] }
  | none =>
    { memory := mem
      seq := [.createAsset (truthy (some m.serial))
        (newMember c.integration c.now d m (projectedAsset [firewallSource c d m 0])) []
        (if m.serial = "" then none else some (firewallSource c d m 0)) false] }

end Firewalls

section Infrastructure

variable (C : Casing) (c : Sync) (mem : Memory) (idx : AssetIndex) (a : AssetLookup.Asset)
  (p : ProjectedAsset)

def findInfra (serial : String) (mac : Option String) (name : String) (ip : Option String) :
    Option AssetLookup.Asset :=
  (if serial = "" then none else findBySerial idx serial).or
    ((mac.bind (findByMac C idx)).or (if name = "" then none else findByEntry C idx none (some name) ip true))

def baseMac (mac : String) : Option String := if mac = "" then none else some (macKey C mac)

def infraSource (kind : SourceKind) (id : Nat) (serial : String) (observed : String → Option String) :
    Source :=
  { assetId := id, sourceKind := kind, externalId := serial, integrationId := some c.integration.id,
    observed := observed }

def ipSourceOf (device : String) : Option String := (truthy (some device)).or (some c.integration.type)

variable (sw : FortiSwitch) (ap : FortiAp)

def buildFortiswitchObservedBlob : String → Option String
  | "kind" => some "fortiswitch"
  | "serial" => truthy (some sw.serial)
  | "switchId" => truthy (some sw.name)
  | "model" => some "FortiSwitch"
  | "osVersion" => truthy (some sw.osVersion)
  | "mgmtIp" => truthy (some sw.ipAddress)
  | "baseMac" => truthy (some sw.baseMac)
  | "controllerFortigate" => truthy (some sw.device)
  | "uplinkInterface" => truthy (some sw.fgtInterface)
  | "state" => truthy (some sw.state)
  | _ => none

def swStatus : AssetStatus := if sw.state = "Unauthorized" then .storage else .active

def swTopology : Topology := { role := "fortiswitch", controllerFortigate := truthy (some sw.device) }

def swMacs : List MacEntry :=
  match baseMac C sw.baseMac with
  | none => a.macAddresses
  | some mac => mergeDeviceMac c mac "fmg-discovery" sw.device a.macAddresses

def switchUpdate : AssetUpdate where
  status := some (swStatus sw)
  lastSeen := some c.now
  fortinetTopology := some (swTopology sw)
  assetType := if a.assetType = .switch then none else some .switch
  hostname := p.hostname
  osVersion := p.osVersion
  serialNumber := p.serialNumber
  learnedLocation := p.learnedLocation.map some
  ipAddress := p.ipAddress.map some
  ipSource := p.ipAddress.map fun _ => ipSourceOf c sw.device
  macAddress :=
    if (baseMac C sw.baseMac).isSome ∧
      truthy a.macAddress = none then (swMacs C c a sw).head?.map (·.mac) else none

def switchSeen : AssetLookup.Asset :=
  { a with
    assetType := .switch
    macAddresses := swMacs C c a sw
    ipAddress := (truthy (some sw.ipAddress)).or a.ipAddress
    status := if a.status = .decommissioned then swStatus sw else a.status }

def newSwitch : AssetRow where
  ipAddress := p.ipAddress
  ipSource := p.ipAddress.bind fun _ => ipSourceOf c sw.device
  macAddress := baseMac C sw.baseMac
  hostname := p.hostname
  serialNumber := p.serialNumber
  model := some "FortiSwitch"
  assetType := .switch
  status := swStatus sw
  osVersion := p.osVersion
  learnedLocation := p.learnedLocation
  lastSeen := some c.now
  fortinetTopology := some (swTopology sw)

def discoveredMac (mac : Option String) : List MacEntry :=
  mac.toList.map fun mac => { mac := mac, lastSeen := c.now, source := "fmg-discovery" }

def switchSource (id : Nat) : Source :=
  infraSource c .fortiswitch id sw.serial (buildFortiswitchObservedBlob sw)

def planSwitch : Plan :=
  match findInfra C mem.idx sw.serial (baseMac C sw.baseMac) sw.name (truthy (some sw.ipAddress)) with
  | some a =>
    { memory := mem.reindex C (switchSeen C c a sw)
      seq := (if sw.serial = "" then [] else (upsertUnitSource (switchSource c sw a.id)).map .write) ++
        [.project a.id (truthy (some sw.serial)) (a.assetType ≠ .switch) (switchUpdate C c a · sw)] ++
        if sw.baseMac = "" then [] else (reconcileMacAddresses a.id (swMacs C c a sw)).map .write }
  | none =>
    { memory := mem
      seq := [.createAsset (truthy (some sw.serial)) (newSwitch C c (projectedAsset [switchSource c sw 0]) sw)
        (discoveredMac c (baseMac C sw.baseMac))
          (if sw.serial = "" then none else some (switchSource c sw 0)) false] }

def buildFortiapObservedBlob : String → Option String
  | "kind" => some "fortiap"
  | "serial" => truthy (some ap.serial)
  | "name" => truthy (some ap.name)
  | "model" => truthy (some ap.model)
  | "osVersion" => truthy (some ap.osVersion)
  | "mgmtIp" => truthy (some ap.ipAddress)
  | "baseMac" => truthy (some ap.baseMac)
  | "controllerFortigate" => truthy (some ap.device)
  | _ => none

def apTopology : Topology := { role := "fortiap", controllerFortigate := truthy (some ap.device) }

def dhcpByHostname (name : String) : Option DhcpEntry :=
  c.result.dhcpEntries.find? fun e =>
    e.hostname ≠ "" && e.ipAddress ≠ "" && C.toLowerCase e.hostname = C.toLowerCase name

def dhcpFallback : Option DhcpEntry := (dhcpByHostname C c ap.name).or (dhcpByHostname C c ap.serial)

def resolvedIp : Option String :=
  (truthy (some ap.ipAddress)).or (truthy ((dhcpFallback C c ap).map (·.ipAddress)))

def apMac : Option String :=
  baseMac C (if ap.baseMac ≠ "" then ap.baseMac else ((dhcpFallback C c ap).map (·.macAddress)).getD "")

def apUpdate : AssetUpdate where
  lastSeen := some c.now
  fortinetTopology := some (apTopology ap)
  status := if a.status = .decommissioned then some .active else none
  assetType := if a.assetType = .accessPoint then none else some .accessPoint
  hostname := p.hostname
  model := p.model
  osVersion := p.osVersion
  serialNumber := p.serialNumber
  learnedLocation := p.learnedLocation.map some
  ipAddress := p.ipAddress.map some
  ipSource := p.ipAddress.map fun _ => ipSourceOf c ap.device

def apSeen : AssetLookup.Asset :=
  { a with
    assetType := .accessPoint
    ipAddress := (resolvedIp C c ap).or a.ipAddress
    status := if a.status = .decommissioned then .active else a.status }

def newAp : AssetRow where
  ipAddress := p.ipAddress
  ipSource := p.ipAddress.bind fun _ => ipSourceOf c ap.device
  macAddress := apMac C c ap
  hostname := p.hostname
  serialNumber := p.serialNumber
  model := p.model.or (some "FortiAP")
  assetType := .accessPoint
  osVersion := p.osVersion
  learnedLocation := p.learnedLocation
  lastSeen := some c.now
  fortinetTopology := some (apTopology ap)

def apSource (id : Nat) : Source := infraSource c .fortiap id ap.serial (buildFortiapObservedBlob ap)

def planAp : Plan :=
  match findInfra C mem.idx ap.serial (apMac C c ap) ap.name (resolvedIp C c ap) with
  | some a =>
    { memory := mem.reindex C (apSeen C c a ap)
      seq := (if ap.serial = "" then [] else (upsertUnitSource (apSource c ap a.id)).map .write) ++
        [.project a.id (truthy (some ap.serial)) (a.assetType ≠ .accessPoint) (apUpdate c a · ap)] }
  | none =>
    { memory := mem
      seq := [.createAsset (truthy (some ap.serial)) (newAp C c (projectedAsset [apSource c ap 0]) ap)
        (discoveredMac c (apMac C c ap)) (if ap.serial = "" then none else some (apSource c ap 0)) false] }

end Infrastructure

section Endpoints

variable (C : Casing) (N : Package) (c : Sync) (mem : Memory)

def lan (r : Row Subnet) : DhcpAssociation.Subnet :=
  { id := toString r.id, cidr := r.data.cidr, status := r.data.status, name := r.data.name }

def dhcpUpdate (entry : DhcpEntry) (a : AssetLookup.Asset) : AssetUpdate :=
  let after := seen C N (mem.allSubnets.map lan) c.now entry a
  { macAddress := after.macAddress
    status := some .active
    lastSeen := some c.now
    ipAddress := if a.isInfra then none else some (some entry.ipAddress)
    ipSource := if a.isInfra then none else some (ipSourceOf c entry.device)
    learnedLocation := if a.isInfra then none else (truthy (some entry.device)).map some }

def planLease (plan : Plan) (entry : DhcpEntry) : Plan :=
  match attributed C plan.memory.idx entry with
  | none => plan
  | some a =>
    let after := seen C N (plan.memory.allSubnets.map lan) c.now entry a
    let mem := if entry.device ≠ "" ∧ a.isInfra = false then plan.memory.touch a.id else plan.memory
    { plan with
      memory := mem.reindex C after
      batch := plan.batch ++
        [.updateAsset a.id none (dhcpUpdate C N c plan.memory entry a) ::
          reconcileMacAddresses a.id after.macAddresses] }

def planDhcp : Plan := c.result.dhcpEntries.foldl (planLease C N c) { memory := mem }

def hasInfix (s sub : List Char) : Bool := s.tails.any (sub.isPrefixOf ·)

/-- `windows`, blanks, and one of the versions. -/
def namesWindows (s : List Char) : Bool :=
  s.tails.any fun rest =>
    "windows".toList.isPrefixOf rest &&
      match rest.drop 7 with
      | [] => false
      | ch :: more =>
        isSpace ch && (["10", "11", "7", "8", "xp", "vista"].any fun v => v.toList.isPrefixOf
          (more.dropWhile isSpace))

def inferAssetTypeFromOs (os : String) : AssetType :=
  let lower := (C.toLowerCase os).toList
  let has (names : List String) : Bool := names.any fun name => hasInfix lower name.toList
  if os = "" then .other
  else if has ["server", "centos", "red hat", "rhel", "rocky linux", "almalinux", "oracle linux",
      "freebsd", "openbsd", "netbsd", "esxi", "vmware"] then .server
  else if namesWindows lower || has ["macos", "mac os x", "os x", "linux mint", "ubuntu", "fedora",
      "debian", "arch linux", "manjaro", "pop!_os", "elementary os", "zorin os"] then .workstation
  else .other

def leasedMacs : List DhcpEntry := c.result.dhcpEntries.filter (·.macAddress ≠ "")

def handledByDhcp (inv : InventoryDevice) : Bool :=
  inv.macAddress ≠ "" && (leasedMacs c).any fun e => macKey C e.macAddress = macKey C inv.macAddress

def dhcpMacToIp (mac : String) : Option String :=
  ((leasedMacs c).find? fun e => e.ipAddress ≠ "" && macKey C e.macAddress = mac).map (·.ipAddress)

def inventoryMacs (inv : InventoryDevice) (a : AssetLookup.Asset) : List MacEntry :=
  if inv.macAddress = "" ∨ handledByDhcp C c inv = true then a.macAddresses
  else mergeDeviceMac c (macKey C inv.macAddress) "device-inventory" inv.device a.macAddresses

def inventoryUpdate (inv : InventoryDevice) (a : AssetLookup.Asset) : AssetUpdate where
  lastSeen := some c.now
  status := if a.status = .decommissioned then some .active else none
  ipAddress := if handledByDhcp C c inv = false ∧ inv.ipAddress ≠ "" ∧
    some inv.ipAddress ≠ a.ipAddress then some (some inv.ipAddress) else none
  os := if truthy a.os = none then truthy (some inv.os) else none
  assetType := if inv.os ≠ "" ∧ a.assetType = .other ∧ inferAssetTypeFromOs C inv.os ≠ .other then
    some (inferAssetTypeFromOs C inv.os) else none
  osVersion := truthy (some inv.osVersion)
  learnedLocation := if truthy a.learnedLocation = none then (truthy (some inv.device)).map some else none
  macAddress := if inv.macAddress = "" ∨
    handledByDhcp C c inv = true then none else (inventoryMacs C c inv a).head?.map (·.mac)

def inventorySeen (inv : InventoryDevice) (a : AssetLookup.Asset) : AssetLookup.Asset :=
  let u := inventoryUpdate C c inv a
  { a with
    lastSeen := u.lastSeen
    status := u.status.getD a.status
    ipAddress := u.ipAddress.getD a.ipAddress
    os := u.os.or a.os
    assetType := u.assetType.getD a.assetType
    osVersion := u.osVersion.or a.osVersion
    learnedLocation := u.learnedLocation.getD a.learnedLocation
    macAddress := u.macAddress.or a.macAddress
    macAddresses := inventoryMacs C c inv a }

def inventoryIp (inv : InventoryDevice) : Option String :=
  (truthy (some inv.ipAddress)).or ((truthy (dhcpMacToIp C c (macKey C inv.macAddress))).or
    (if inv.hostname = "" then none else truthy (c.resHostnameToIp (C.toLowerCase inv.hostname))))

def newEndpoint (inv : InventoryDevice) (ip : String) : AssetRow where
  ipAddress := some ip
  ipSource := ipSourceOf c inv.device
  macAddress := some (macKey C inv.macAddress)
  hostname := truthy (some inv.hostname)
  assetType := inferAssetTypeFromOs C inv.os
  os := truthy (some inv.os)
  osVersion := truthy (some inv.osVersion)
  learnedLocation := truthy (some inv.device)
  lastSeen := some c.now

/-- Phase 7, one client. -/
def planInventory (inv : InventoryDevice) : Plan :=
  if inv.macAddress = "" ∧ inv.ipAddress = "" then { memory := mem }
  else
    match findByEntry C mem.idx (some inv.macAddress) (some inv.hostname) (some inv.ipAddress) false with
    | some a =>
      let after := inventorySeen C c inv a
      let known := mem.reindex C after
      { memory := if after.isInfra then known else known.touch a.id
        seq := .write (.updateAsset a.id none (inventoryUpdate C c inv a)) ::
          if inv.macAddress = "" ∨ handledByDhcp C c inv = true then []
          else (reconcileMacAddresses a.id after.macAddresses).map .write }
    | none =>
      match if inv.macAddress = "" then none else inventoryIp C c inv with
      | none => { memory := mem }
      | some ip =>
        { memory := mem
          seq := [.createAsset none (newEndpoint C c inv ip)
            [{ mac := macKey C inv.macAddress, lastSeen := c.now, source := "device-inventory",
               device := truthy (some inv.device) }]
            none true] }

def seenMacOnDevice (mac device : String) : Bool :=
  c.result.deviceInventory.any fun inv =>
    inv.macAddress ≠ "" && inv.device ≠ "" && macKey C inv.macAddress = mac && inv.device = device

def staleStamp (m : MacEntry) : Bool :=
  (truthy m.device).any fun device => device ∈ c.result.inventoryDevices && !seenMacOnDevice C c m.mac device

def clearStamp (m : MacEntry) : MacEntry := if staleStamp C c m then { m with device := none } else m

def cleared (a : AssetLookup.Asset) : AssetLookup.Asset :=
  { a with macAddresses := a.macAddresses.map (clearStamp C c) }

/-- Phase 7b. -/
def planSweep : Plan :=
  let stale := mem.idx.byId.filter fun a => a.macAddresses.any (staleStamp C c)
  { memory := { mem with idx := { mem.idx with byId := mem.idx.byId.map (cleared C c) } }
    batch := stale.map fun a => reconcileMacAddresses a.id (cleared C c a).macAddresses }

def planSwitchPort (mem : Memory) (row : SwitchMacEntry) : Memory :=
  if row.isFortilinkPeer = true ∨ row.mac = "" ∨ row.switchId = "" ∨ row.portName = "" then mem
  else
    match findByMac C mem.idx row.mac with
    | none => mem
    | some a => if a.isInfra then mem else mem.touch a.id

def planArp (plan : Plan) (row : ArpEntry) : Plan :=
  if row.mac = "" ∨ row.ip = "" then plan
  else
    match findByMac C plan.memory.idx row.mac with
    | none => plan
    | some a =>
      if truthy a.ipAddress ≠ none then plan
      else
        let known := plan.memory.reindex C { a with ipAddress := some row.ip }
        { plan with
          memory := if a.isInfra then known else known.touch a.id
          batch := plan.batch ++
            [[.updateAsset a.id none { ipAddress := some (some row.ip),
                                       ipSource := some (some (row.fortigateDevice ++ ":arp")) }]] }

/-- Phase 7.5. -/
def planEnrichment : Plan :=
  c.result.arpTable.foldl (planArp C) { memory := c.result.switchMacTable.foldl (planSwitchPort C) mem }

def buildFortigateEndpointObservedBlob (a : AssetLookup.Asset) : String → Option String
  | "mac" => a.macAddress.map C.toUpperCase
  | "hostname" => a.hostname
  | "ipAddress" => a.ipAddress
  | "os" => a.os
  | "osVersion" => a.osVersion
  | "model" => a.model
  | "learnedLocation" => a.learnedLocation
  | "discoveredVia" => some c.integration.type
  | _ => none

def endpointSource (a : AssetLookup.Asset) (mac : String) : Source :=
  { assetId := a.id, sourceKind := .fortigateEndpoint, externalId := C.toUpperCase (trim mac)
    integrationId := some c.integration.id, observed := buildFortigateEndpointObservedBlob C c a }

def upsertFortigateEndpointSource (a : AssetLookup.Asset) : List Write :=
  match truthy a.macAddress with
  | none => []
  | some mac =>
    if C.toUpperCase (trim mac) = "" then []
    else [.upsertSource (endpointSource C c a mac) false,
      .deleteSources fun s => s.assetId = a.id && s.sourceKind = .manual]

def touched : List AssetLookup.Asset := mem.fortigateEndpointAssetIds.filterMap (findById mem.idx)

/-- Phase 10. -/
def planEndpointSources : Plan :=
  { memory := mem, batch := (touched mem).map (upsertFortigateEndpointSource C c) }

def differs (next now : Option String) : Option String := next.filter (some · ≠ now)

def correction (a : AssetLookup.Asset) (p : ProjectedAsset) : AssetUpdate where
  hostname := differs p.hostname a.hostname
  os := differs p.os a.os
  osVersion := differs p.osVersion a.osVersion
  model := differs p.model a.model
  learnedLocation := (differs p.learnedLocation a.learnedLocation).map some
  ipAddress := (differs p.ipAddress a.ipAddress).map some
  ipSource := (differs p.ipAddress a.ipAddress).map fun _ =>
    some (c.integration.type ++ ":fortigate-endpoint")
  serialNumber := differs p.serialNumber a.serialNumber

def corrections (rows : List Source) : List (List Write) :=
  (touched mem).filterMap fun a =>
    let u := correction c a (projectedAsset (rows.filter (·.assetId = a.id)))
    if u = {} then none else some [.updateAsset a.id none u]

end Endpoints

section Calls

variable (C : Casing) (N : Package) (order : List Source → List Source)

inductive Job
  | subnet (entry : DiscoveredSubnet)
  | subnetUpdates
  | member (d : Device) (m : Member)
  | switch (sw : FortiSwitch)
  | accessPoint (ap : FortiAp)
  | dhcp
  | inventory (inv : InventoryDevice)
  | sweep
  | enrichment
  | endpointSources
  | corrections

/-- The phases of a call in mode skip-deprecation that write subnets, assets,
their sources or their MACs. -/
def jobs (r : DiscoveryResult) : List Job :=
  r.subnets.map .subnet ++ [.subnetUpdates] ++ r.devices.flatMap (fun d => (members d).map (.member d)) ++
    r.fortiSwitches.map .switch ++ r.fortiAps.map .accessPoint ++ [.dhcp] ++
      r.deviceInventory.map .inventory ++
    [.sweep, .enrichment, .endpointSources, .corrections]

def Job.plan (c : Sync) (mem : Memory) : Job → Plan
  | .subnet entry => planSubnet N c mem entry
  | .subnetUpdates => planSubnetUpdates mem
  | .member d m => planMember C c mem d m
  | .switch sw => planSwitch C c mem sw
  | .accessPoint ap => planAp C c mem ap
  | .dhcp => planDhcp C N c mem
  | .inventory inv => planInventory C c mem inv
  | .sweep => planSweep C c mem
  | .enrichment => planEnrichment C c mem
  | .endpointSources => planEndpointSources C c mem
  | .corrections => { memory := mem, seq := [.correct] }

/-- A call: nothing before its preload, then the statements under way and the
phases to come. -/
structure Call where
  key : Nat
  sync : Sync
  memory : Option Memory := none
  todo : List Job := []
  seq : List Stmt := []
  batch : List (List Write) := []

def Call.start (key : Nat) (c : Sync) : Call := { key := key, sync := c }

def Db.createAsset (key : Nat) (db : Db) (row : AssetRow) (macs : List MacEntry) : Db :=
  { db with
    assets := db.assets.append row
    macRows := db.macRows ++ macs.map fun m => ⟨db.assets.nextId, m, some key⟩ }

def Memory.createSubnet (mem : Memory) (id : Nat) (subnet : Subnet) : Memory :=
  { mem with allSubnets := mem.allSubnets ++ [⟨id, subnet⟩] }

def Memory.createAsset (mem : Memory) (id : Nat) (row : AssetRow) (endpoint : Bool) : Memory :=
  let known := mem.reindex C (indexed ⟨id, row⟩)
  if endpoint then known.touch id else known

def Stmt.run (db : Db) (t : Call) (mem : Memory) (rest : List Stmt) : Stmt → Db × Call
  | .write w => (db.write t.key t.sync.source w, { t with seq := rest })
  | .createSubnet subnet =>
    ({ db with subnets := db.subnets.append subnet },
      { t with memory := some (mem.createSubnet db.subnets.nextId subnet), seq := rest })
  | .createAsset _ row macs source endpoint =>
    let id := db.assets.nextId
    (db.createAsset t.key row macs,
      { t with
        memory := some (mem.createAsset C id row endpoint)
        seq := (source.toList.flatMap fun s => upsertUnitSource { s with assetId := id }).map .write ++
          rest })
  | .project id reported sweep u =>
    let projected := projectedAsset (order (db.sources.filter (·.assetId = id)))
    (db, { t with
      seq := (if sweep then [.write (.deleteSources (endpointRow id))] else []) ++
        .write (.updateAsset id reported (u projected)) :: rest })
  | .correct =>
    let rows := order (db.sources.filter fun s => s.assetId ∈ mem.fortigateEndpointAssetIds)
    (db, { t with seq := rest, batch := corrections t.sync mem rows })

/-- The next step of a call: its preload, a statement, or the next phase. In
a batch it is a statement of the chosen list. -/
def act (j : Nat) (db : Db) (t : Call) : Db × Call :=
  match t.memory with
  | none => (db, { t with memory := some (preload C db), todo := jobs t.sync.result })
  | some mem =>
    match t.seq with
    | s :: rest => s.run C order db t mem rest
    | [] =>
      match t.batch[j]? with
      | some (w :: ws) => (db.write t.key t.sync.source w, { t with batch := t.batch.set j ws })
      | _ =>
        if t.batch.all List.isEmpty then
          match t.todo with
          | [] => (db, t)
          | job :: todo =>
            let plan := job.plan C N t.sync mem
            (db, { t with memory := some plan.memory, todo := todo, seq := plan.seq, batch := plan.batch })
        else (db, t)

def Call.done (t : Call) : Bool :=
  t.memory.isSome && t.todo.isEmpty && t.seq.isEmpty && t.batch.all List.isEmpty

end Calls

end Polaris.GatewaySync
