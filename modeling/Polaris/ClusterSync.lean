import Polaris.AssetLookup
import Polaris.AssetProjection

namespace Polaris.ClusterSync

open Polaris.AssetLookup Polaris.Lib.Store Polaris.Lib.Text Polaris.Reservations
open Polaris.AssetProjection hiding Field Number Tier obsString
open Polaris.ConflictResolution hiding Asset Db AssetSource SourceKind Observed

section Projection

abbrev SourceKind := AssetSourceKind

structure Source where
  assetId : Nat
  sourceKind : SourceKind
  externalId : String
  integrationId : Option String := none
  inferred : Bool := false
  observed : String → Option String := fun _ => none

/-- The keys of a blob that the rules read. -/
def observedKeys : List String :=
  ["hostname", "serialNumber", "serial", "manufacturer", "hardwareVendor", "model", "os", "osVersion",
    "dnsHostName", "cn", "deviceName", "displayName", "switchId", "name", "operatingSystem",
    "operatingSystemVersion", "ouPath", "learnedLocation", "controllerFortigate", "ipAddress", "mgmtIp"]

def observedBlob (observed : String → Option String) : Observed :=
  some (observedKeys.map fun key => (key, (observed key).elim .other .text))

def Source.row (s : Source) : AssetSource := ⟨s.sourceKind, s.inferred, observedBlob s.observed⟩

def textOf : Value → Option String
  | .text s => some s
  | _ => none

def projectedText (sources : List Source) (rules : List FieldRule) : Option String :=
  (projectField (sources.map Source.row) rules).bind fun p => textOf p.2

structure ProjectedAsset where
  hostname : Option String
  serialNumber : Option String
  model : Option String
  os : Option String
  osVersion : Option String
  learnedLocation : Option String
  ipAddress : Option String

/-- What a sync writes of the projection of its rows. -/
def projectedAsset (sources : List Source) : ProjectedAsset where
  hostname := projectedText sources HOSTNAME_RULES
  serialNumber := projectedText sources SERIAL_RULES
  model := projectedText sources MODEL_RULES
  os := projectedText sources OS_RULES
  osVersion := projectedText sources OS_VERSION_RULES
  learnedLocation := projectedText sources LEARNED_LOCATION_RULES
  ipAddress := projectedText sources IP_ADDRESS_RULES

end Projection

section Data

inductive HaMode
  | standalone | activePassive | activeActive
  deriving DecidableEq

def HaMode.text : HaMode → String
  | .standalone => "standalone"
  | .activePassive => "a-p"
  | .activeActive => "a-a"

structure Topology where
  role : String
  controllerFortigate : Option String := none
  haMode : Option HaMode := none
  haRole : Option String := none
  haPeerSerial : Option String := none
  deriving DecidableEq

structure AssetRow where
  hostname : Option String := none
  serialNumber : Option String := none
  model : Option String := none
  os : Option String := none
  osVersion : Option String := none
  ipAddress : Option String := none
  ipSource : Option String := none
  macAddress : Option String := none
  learnedLocation : Option String := none
  assetType : AssetType := .other
  status : AssetStatus := .active
  fortinetTopology : Option Topology := none
  discoveredByIntegrationId : Option String := none
  lastSeen : Option Nat := none
  deriving DecidableEq

structure Db where
  assets : Table (Table.noKey (α := AssetRow))
  sources : List Source := []

structure HaMember where
  serial : String
  name : String := ""
  isPrimary : Bool := false

structure Device where
  name : String
  hostname : String := ""
  serial : String := ""
  model : String := ""
  osVersion : String := ""
  mgmtIp : String := ""
  haMode : HaMode := .standalone
  haMembers : List HaMember := []

structure Integration where
  id : String
  type : String
  label : String

end Data

section Member

variable (d : Device)

def fgHostname : String := if d.hostname = "" then d.name else d.hostname

def clusterMode : HaMode :=
  if d.haMembers = [] then .standalone else if d.haMode = .activeActive then .activeActive else .activePassive

/-- One physical unit of the device. -/
structure Member where
  serial : String
  memberHostname : String
  isPrimary : Bool
  peerSerial : Option String

def haMember (m : HaMember) : Member where
  serial := m.serial
  memberHostname := if m.name ≠ "" then m.name else if m.isPrimary then fgHostname d else ""
  isPrimary := m.isPrimary
  peerSerial := truthy (((d.haMembers.filter (·.serial ≠ m.serial)).head?).map (·.serial))

def members : List Member :=
  if d.haMembers = [] then [⟨d.serial, fgHostname d, true, none⟩] else d.haMembers.map (haMember d)

def haRole (m : Member) : String := if m.isPrimary then "primary" else "secondary"

def memberTopology (m : Member) : Topology :=
  if d.haMembers = [] then { role := "fortigate" }
  else { role := "fortigate", haMode := some (clusterMode d), haRole := some (haRole m),
         haPeerSerial := m.peerSerial }

def memberName (m : Member) : String := if m.memberHostname = "" then fgHostname d else m.memberHostname

def memberIp (m : Member) : String := if m.isPrimary then d.mgmtIp else ""

/-- A member that does not hold the address of the cluster. -/
def standby (m : Member) : Bool := d.haMembers ≠ [] && !m.isPrimary

def buildFortigateFirewallObservedBlob (integrationType : String) (m : Member) : String → Option String
  | "kind" => some "fortigate-firewall"
  | "serial" => truthy (some m.serial)
  | "hostname" => (truthy (some (memberName d m))).or (truthy (some d.name))
  | "model" => truthy (some d.model)
  | "osVersion" => truthy (some d.osVersion)
  | "mgmtIp" => truthy (some (memberIp d m))
  | "managedBy" => some integrationType
  | "haMode" => if d.haMembers ≠ [] then m.peerSerial.map fun _ => (clusterMode d).text else none
  | "haRole" => if d.haMembers ≠ [] then m.peerSerial.map fun _ => haRole m else none
  | "haPeerSerial" => if d.haMembers ≠ [] then m.peerSerial else none
  | _ => none

end Member

section Sync

variable (C : Casing) (order : List Source → List Source) (i : Integration) (now : Nat)

def Db.updateAsset (db : Db) (id : Nat) (f : AssetRow → AssetRow) : Db :=
  { db with assets := db.assets.amendWhere (·.id = id) f }

def Db.upsertFortigateFirewallAssetSource (db : Db) (assetId : Nat) (serial : String)
    (observed : String → Option String) : Db :=
  let row : Source :=
    { assetId := assetId, sourceKind := .fortigateFirewall, externalId := serial,
      integrationId := some i.id, observed := observed }
  let isRow : Source → Bool := fun s => s.sourceKind = .fortigateFirewall && s.externalId = serial
  let sources := if db.sources.any isRow then db.sources.map fun s =>
    if isRow s then row else s else db.sources ++ [row]
  { db with sources :=
    sources.filter fun s =>
      !(s.assetId = assetId && s.sourceKind = .manual && s.externalId = toString assetId) }

def indexed (r : Row AssetRow) : AssetLookup.Asset :=
  { id := r.id, hostname := r.data.hostname, serialNumber := r.data.serialNumber,
    macAddress := r.data.macAddress
    ipAddress := r.data.ipAddress, learnedLocation := r.data.learnedLocation, assetType := r.data.assetType
    status := r.data.status, model := r.data.model, os := r.data.os, osVersion := r.data.osVersion,
      lastSeen := r.data.lastSeen }

def findExisting (idx : AssetIndex) (d : Device) (m : Member) : Option AssetLookup.Asset :=
  (if m.serial = "" then none else findBySerial idx m.serial).or
    (if m.isPrimary then findByEntry C idx none (some (fgHostname d)) (truthy (some d.mgmtIp)) true else none)

def updateMember (d : Device) (m : Member) (p : ProjectedAsset) (a : AssetRow) : AssetRow :=
  { a with
    learnedLocation := (truthy (some (memberName d m))).or a.learnedLocation
    lastSeen := some now
    fortinetTopology := some (memberTopology d m)
    discoveredByIntegrationId := some i.id
    status := if a.status = .decommissioned then .active else a.status
    hostname := p.hostname.or a.hostname
    model := p.model.or a.model
    osVersion := p.osVersion.or a.osVersion
    serialNumber := p.serialNumber.or a.serialNumber
    ipAddress := if standby d m then none else p.ipAddress.or a.ipAddress
    ipSource :=
      if standby d m then none
      else if p.ipAddress.isSome then (truthy (some (memberName d m))).or (some i.type)
      else a.ipSource }

/-- The asset object after the update. -/
def mirrored (d : Device) (m : Member) (a : AssetLookup.Asset) : AssetLookup.Asset :=
  { a with
    ipAddress := if m.isPrimary ∧ d.mgmtIp ≠ "" then some d.mgmtIp else if standby d m then none
      else a.ipAddress
    hostname := (truthy (some (memberName d m))).or a.hostname
    model := (truthy (some d.model)).or a.model
    learnedLocation := (truthy a.learnedLocation).or (some (memberName d m))
    status := if a.status = .decommissioned then .active else a.status }

def newMember (d : Device) (m : Member) (p : ProjectedAsset) : AssetRow where
  ipAddress := if standby d m then none else p.ipAddress
  ipSource := if standby d m then none else p.ipAddress.bind fun _ =>
    (truthy (some (memberName d m))).or (some i.type)
  hostname := p.hostname.or (some (memberName d m))
  serialNumber := p.serialNumber.or (truthy (some m.serial))
  model := p.model.or (some "FortiGate")
  osVersion := p.osVersion
  assetType := .firewall
  learnedLocation := some (memberName d m)
  lastSeen := some now
  discoveredByIntegrationId := some i.id
  fortinetTopology := some (memberTopology d m)

structure Phase where
  db : Db
  idx : AssetIndex

def syncExisting (d : Device) (m : Member) (a : AssetLookup.Asset) (s : Phase) : Phase :=
  let db :=
    if m.serial = "" then s.db
    else s.db.upsertFortigateFirewallAssetSource i a.id m.serial
      (buildFortigateFirewallObservedBlob d i.type m)
  let projected := projectedAsset (order (db.sources.filter (·.assetId = a.id)))
  { db := db.updateAsset a.id (updateMember i now d m projected), idx := add C s.idx (mirrored d m a) }

def syncNew (d : Device) (m : Member) (s : Phase) : Phase :=
  let observed := buildFortigateFirewallObservedBlob d i.type m
  let created := newMember i now d m
    (projectedAsset [{ assetId := s.db.assets.nextId, sourceKind := .fortigateFirewall,
                       externalId := m.serial, observed := observed }])
  let db := { s.db with assets := s.db.assets.append created }
  { db := if m.serial = "" then db
      else db.upsertFortigateFirewallAssetSource i s.db.assets.nextId m.serial observed
    idx := add C s.idx (indexed ⟨s.db.assets.nextId, created⟩) }

def syncMember (d : Device) (s : Phase) (m : Member) : Phase :=
  match findExisting C s.idx d m with
  | some a => syncExisting C order i now d m a s
  | none => syncNew C i now d m s

def syncDevice (d : Device) (db : Db) : Db :=
  ((members d).foldl (syncMember C order i now d) ⟨db, build C (db.assets.rows.map indexed)⟩).db

end Sync

section Finalize

variable (i : Integration) (now : Nat)

structure Discovery where
  devices : List Device
  knownDeviceNames : List String
  switchSerials : List String := []
  switchHostnames : List String := []
  apSerials : List String := []
  apHostnames : List String := []
  switchInventoriedDevices : List String := []
  apInventoriedDevices : List String := []

variable (r : Discovery)

def knownDeviceNames : List String :=
  r.knownDeviceNames ++ r.devices.flatMap fun d => (d.haMembers.map (·.name)).filter (· ≠ "")

def knownFirewallSerials : List String :=
  r.devices.flatMap fun d => (if d.serial = "" then [] else [d.serial]) ++
    (d.haMembers.map (·.serial)).filter (· ≠ "")

def decommission (a : AssetRow) : AssetRow := { a with status := .decommissioned }

def staleFirewall (a : AssetRow) : Bool :=
  a.discoveredByIntegrationId = some i.id && a.assetType = .firewall && a.status ≠ .decommissioned &&
    (truthy a.hostname).any (· ∉ knownDeviceNames r) && !(truthy a.serialNumber).any (· ∈
      knownFirewallSerials r)

def inventoried (a : AssetRow) : List String :=
  if a.assetType = .switch then r.switchInventoriedDevices else r.apInventoriedDevices

def seenOnController (a : AssetRow) : Bool :=
  (truthy a.serialNumber).any (· ∈ if a.assetType = .switch then r.switchSerials else r.apSerials) ||
    (truthy a.hostname).any (· ∈ if a.assetType = .switch then r.switchHostnames else r.apHostnames)

def staleInfra (a : AssetRow) : Bool :=
  a.discoveredByIntegrationId = some i.id && (a.assetType = .switch || a.assetType = .accessPoint) &&
    a.status ≠ .decommissioned &&
    (truthy (a.fortinetTopology.bind (·.controllerFortigate))).any (· ∈ inventoried r a) &&
      !seenOnController r a

/-- The firewalls of gates that are gone, then the switches and access points
that their controllers no longer report. -/
def finalize (db : Db) : Db :=
  let db :=
    if knownDeviceNames r ≠ [] ∧ (i.type = "fortimanager" ∨ i.type = "fortigate") then
      { db with assets := db.assets.amendWhere (staleFirewall i r ·.data) decommission }
    else db
  if r.switchInventoriedDevices ≠ [] ∨ r.apInventoriedDevices ≠ [] then
    { db with assets := db.assets.amendWhere (staleInfra i r ·.data) decommission }
  else db

end Finalize

end Polaris.ClusterSync
