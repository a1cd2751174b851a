import Polaris.DirectoryTables
import Polaris.Lib.Snapshots

namespace Polaris.DirectorySync

open Polaris.AssetLookup Polaris.DirectoryTables Polaris.Lib.Snapshots Polaris.Lib.Store
open Polaris.ClusterSync hiding Db AssetRow
open Polaris.ConflictResolution (AssetType AssetStatus MacEntry ProposedFields clampAcquiredToLastSeen)
open Polaris.DhcpAssociation (amendFirst)
open Polaris.Reservations (truthy)
open Polaris.GatewaySync (newestFirst shapeMacRows inferAssetTypeFromOs hasInfix)

section Macs

variable (C : Casing) (now : Nat)

def isHexDigit (ch : Char) : Bool := ('0' ≤ ch && ch ≤ '9') || ('A' ≤ ch && ch ≤ 'F')

def normalizeMacKey (mac : String) : String :=
  let hex := (C.toUpperCase mac).toList.filter isHexDigit
  if hex.length = 12 then String.ofList hex else ""

def sameMac (mac : String) (m : MacEntry) : Bool := normalizeMacKey C m.mac = normalizeMacKey C mac

def addIntuneMac (merged : List MacEntry) (e : String × String) : List MacEntry :=
  if merged.any (sameMac C e.1) then amendFirst (sameMac C e.1)
    (fun m => { m with lastSeen := now, source := e.2 }) merged
  else merged ++ [{ mac := e.1, lastSeen := now, source := e.2 }]

def mergeIntuneMacs (entries : List (String × String)) (existing : List MacEntry) : List MacEntry :=
  newestFirst (entries.foldl (addIntuneMac C now) existing)

def stampedMacs (entries : List (String × String)) (existing : List MacEntry) : List MacEntry :=
  (entries.foldl (addIntuneMac C now) existing).take existing.length

end Macs

section Entra

structure EntraDevice where
  deviceId : String
  displayName : String := ""
  fromEntra : Bool := true
  fromIntune : Bool := false
  entraDisplayName : Option String := none
  intuneDeviceName : Option String := none
  operatingSystem : String := ""
  operatingSystemVersion : String := ""
  trustType : String := ""
  accountEnabled : Bool := true
  onPremisesSecurityIdentifier : String := ""
  registrationDateTime : Option Nat := none
  approximateLastSignInDateTime : Option Nat := none
  isCompliant : Option Bool := none
  serialNumber : String := ""
  macAddress : String := ""
  wifiMacAddress : String := ""
  ethernetMacAddress : String := ""
  manufacturer : String := ""
  model : String := ""
  userPrincipalName : String := ""
  chassisType : String := ""
  complianceState : String := ""
  lastSyncDateTime : Option Nat := none

/-- What the sync goes on to use of an asset that it finds. -/
structure EntraSubject where
  status : AssetStatus
  assetType : AssetType
  lastSeen : Option Nat
  acquiredAt : Option Nat
  tags : List String
  macAddresses : List MacEntry
  deriving DecidableEq

structure EntraMemory where
  assets : List (Known EntraSubject)
  byDeviceId : Index String := []
  bySid : Index String := []
  deviceIdOf : List (Nat × String) := []
  untagged : Index (List Nat) := []
  tagged : Index (List Nat) := []
  byMac : Index String := []

variable (C : Casing) (c : Sync) (db : Db) (dev : EntraDevice)

def deviceIdKey : String := C.toLowerCase dev.deviceId

def entraStatus : AssetStatus := if dev.accountEnabled then .active else .disabled

def inferAssetTypeFromChassis : AssetType :=
  let chassis := C.toLowerCase dev.chassisType
  if chassis ∈ ["desktop", "laptop", "convertible", "detachable"] then .workstation
  else if chassis ∈ ["tablet", "phone"] then .other
  else if inferAssetTypeFromOs C dev.operatingSystem = .server then .server
  else .workstation

def intuneMacEntries : List (String × String) :=
  (if dev.ethernetMacAddress = "" then [] else [(dev.ethernetMacAddress, "intune-ethernet")]) ++
    if dev.wifiMacAddress = "" then [] else [(dev.wifiMacAddress, "intune-wifi")]

def entraTags : List String :=
  ["entraid", "auto-discovered"] ++ (if dev.accountEnabled then [] else ["entra-disabled"]) ++
    ((truthy (some dev.trustType)).map C.toLowerCase).toList ++
    match truthy (some dev.complianceState), dev.isCompliant with
    | some state, _ => ["intune-" ++ C.toLowerCase state]
    | none, some true => ["compliant"]
    | none, some false => ["noncompliant"]
    | none, none => []

def isEntraManagedTag (t : String) : Bool :=
  if startsWith "prev-entra:" t then false
  else startsWith "entra" t || startsWith "intune-" t ||
    decide (t ∈ ["auto-discovered", "compliant", "noncompliant", "azuread", "workplace", "serverad"])

/-- The tags that are kept, then the fresh ones that are not among them. -/
def retagged (managed : String → Bool) (existing fresh : List String) : List String :=
  let preserved := existing.filter (!managed ·)
  preserved ++ fresh.filter (· ∉ preserved)

def entraLastSeen : Option Nat := dev.lastSyncDateTime.or dev.approximateLastSignInDateTime

def buildEntraObservedBlob : String → Option String
  | "kind" => some "entra"
  | "deviceId" => some (C.toLowerCase dev.deviceId)
  | "displayName" => dev.entraDisplayName
  | "operatingSystem" => truthy (some dev.operatingSystem)
  | "operatingSystemVersion" => truthy (some dev.operatingSystemVersion)
  | "trustType" => truthy (some dev.trustType)
  | "accountEnabled" => some (toString dev.accountEnabled)
  | "isCompliant" => dev.isCompliant.map toString
  | "registrationDateTime" => dev.registrationDateTime.map toString
  | "approximateLastSignInDateTime" => dev.approximateLastSignInDateTime.map toString
  | "onPremisesSecurityIdentifier" => truthy (some dev.onPremisesSecurityIdentifier)
  | _ => none

def buildIntuneObservedBlob : String → Option String
  | "kind" => some "intune"
  | "azureADDeviceId" => some (C.toLowerCase dev.deviceId)
  | "deviceName" => dev.intuneDeviceName
  | "operatingSystem" => truthy (some dev.operatingSystem)
  | "osVersion" => truthy (some dev.operatingSystemVersion)
  | "serialNumber" => truthy (some dev.serialNumber)
  | "manufacturer" => truthy (some dev.manufacturer)
  | "model" => truthy (some dev.model)
  | "ethernetMacAddress" => truthy (some dev.ethernetMacAddress)
  | "wiFiMacAddress" => truthy (some dev.wifiMacAddress)
  | "userPrincipalName" => truthy (some dev.userPrincipalName)
  | "chassisType" => truthy (some dev.chassisType)
  | "complianceState" => truthy (some dev.complianceState)
  | "lastSyncDateTime" => dev.lastSyncDateTime.map toString
  | _ => none

def entraSource (id : Nat) : Source :=
  { assetId := id, sourceKind := .entra, externalId := deviceIdKey C dev, integrationId := some c.integrationId
    observed := buildEntraObservedBlob C dev }

def intuneSource (id : Nat) : Source :=
  { assetId := id, sourceKind := .intune, externalId := deviceIdKey C dev, integrationId := some c.integrationId
    observed := buildIntuneObservedBlob C dev }

def seededSources (id : Nat) : List Source :=
  (if dev.fromEntra then [entraSource C c dev id] else []) ++
    if dev.fromIntune then [intuneSource C c dev id] else []

/-- A row of the asset for another device, or one for this device that it does
not come from. -/
def isSwept (id : Nat) (s : Source) : Bool :=
  s.assetId = id &&
    (((s.sourceKind = .entra || s.sourceKind = .intune) && s.externalId ≠ deviceIdKey C dev) ||
      (!dev.fromEntra && s.sourceKind = .entra && s.externalId = deviceIdKey C dev) ||
      (!dev.fromIntune && s.sourceKind = .intune && s.externalId = deviceIdKey C dev))

def upsertEntraIntuneSources (id : Nat) : Db :=
  deleteSources ((seededSources C c dev id).foldl upsertSource db) (isSwept C dev id)

def entraUpdate (a : EntraSubject) (p : Projected) (row : AssetRow) : AssetRow :=
  let lastSeen := (entraLastSeen dev).or a.lastSeen
  let acquiredAt :=
    dev.registrationDateTime.filter fun acquired => a.acquiredAt.all fun known => acquired < known
  { applyProjected C c p row with
    lastSeen := lastSeen
    status := entraStatus dev
    statusChangedBy := if entraStatus dev = a.status then row.statusChangedBy else some c.integrationName
    macAddress :=
      if intuneMacEntries dev = [] then row.macAddress
      else (truthy ((mergeIntuneMacs C c.now (intuneMacEntries dev) a.macAddresses).head?.map (·.mac))).or
        row.macAddress
    assignedTo := (truthy (some dev.userPrincipalName)).or row.assignedTo
    acquiredAt := (clampAcquiredToLastSeen acquiredAt lastSeen a.acquiredAt none).or row.acquiredAt
    assetType := if a.assetType = .other then inferAssetTypeFromChassis C dev else row.assetType
    tags := retagged isEntraManagedTag a.tags (entraTags C dev) }

def writeEntra (id : Nat) (a : EntraSubject) : Db :=
  let db := upsertEntraIntuneSources C c db dev id
  let db := updateAsset C db id (entraUpdate C c dev a (project C c (sourcesOf c db id)))
  if intuneMacEntries dev = [] then db
  else reconcileMacAddresses db id (mergeIntuneMacs C c.now (intuneMacEntries dev) a.macAddresses)

def newEntra : AssetRow :=
  let seeded := mergeIntuneMacs C c.now (intuneMacEntries dev) []
  let p := project C c (seededSources C c dev 0)
  { hostname := p.hostname
    serialNumber := p.serialNumber
    macAddress := (truthy (seeded.head?.map (·.mac))).or (truthy (some dev.macAddress))
    manufacturer := p.manufacturer.bind (normalizeManufacturer C c)
    model := p.model
    assetType := inferAssetTypeFromChassis C dev
    status := entraStatus dev
    statusChangedBy := some c.integrationName
    os := p.os
    osVersion := p.osVersion
    learnedLocation := p.learnedLocation
    assignedTo := truthy (some dev.userPrincipalName)
    lastSeen := entraLastSeen dev
    acquiredAt := clampAcquiredToLastSeen dev.registrationDateTime (entraLastSeen dev) none none
    notes := some ("Auto-discovered from Entra ID integration \"" ++ c.integrationName ++ "\"" ++
      if dev.trustType = "" then "" else " (trust: " ++ dev.trustType ++ ")")
    tags := entraTags C dev }

def buildEntraProposed (via : Via) : ProposedFields where
  assetTagPrefix := some "entra:"
  hostname := some dev.displayName
  serialNumber := truthy (some dev.serialNumber)
  macAddress := truthy (some dev.macAddress)
  manufacturer := (truthy (some dev.manufacturer)).bind (normalizeManufacturer C c)
  model := truthy (some dev.model)
  os := truthy (some dev.operatingSystem)
  osVersion := truthy (some dev.operatingSystemVersion)
  assignedTo := truthy (some dev.userPrincipalName)
  complianceState := truthy (some dev.complianceState)
  trustType := truthy (some dev.trustType)
  onPremisesSecurityIdentifier := truthy (some dev.onPremisesSecurityIdentifier)
  assetType := some (inferAssetTypeFromChassis C dev)
  lastSeen := entraLastSeen dev
  registrationDateTime := dev.registrationDateTime
  matchedVia := some via.text

/-- What the match cascade comes to for one device. -/
inductive EntraFound
  | noId
  | existing (id : Nat) (a : EntraSubject) (untagged : Option (Nat × Via)) (sibling : Option (Nat × String))
  | untagged (id : Nat) (via : Via)
  | duplicate (id : Nat) (a : EntraSubject) (existingEntraId : String)
  | unknown
  deriving DecidableEq

variable (mem : EntraMemory)

def matchEntra : Option (Known EntraSubject) :=
  ((mem.byDeviceId.get (deviceIdKey C dev)).bind (findKnown mem.assets)).or
    ((if dev.onPremisesSecurityIdentifier = "" then none
      else (mem.bySid.get (C.toUpperCase dev.onPremisesSecurityIdentifier)).bind (findKnown mem.assets)).or
    (if normalizeMacKey C dev.ethernetMacAddress = "" then none
      else (mem.byMac.get (normalizeMacKey C dev.ethernetMacAddress)).bind (findKnown mem.assets)))

def entraIdOf (id : Nat) : String := ((mem.deviceIdOf.find? (·.1 = id)).map (·.2)).getD "<unknown>"

def namesake (m : Index (List Nat)) : Option (Nat × Via) :=
  if dev.displayName = "" then none else lookupHostname C mem.assets m dev.displayName

def lookEntra : EntraFound :=
  if deviceIdKey C dev = "" then .noId
  else
    match matchEntra C dev mem with
    | some a =>
      .existing a.id a.used ((namesake C dev mem mem.untagged).filter (·.1 ≠ a.id))
        (((namesake C dev mem mem.tagged).filter (·.1 ≠ a.id)).map fun dup => (dup.1, entraIdOf mem dup.1))
    | none =>
      match namesake C dev mem mem.untagged with
      | some (id, via) => .untagged id via
      | none =>
        match (namesake C dev mem mem.tagged).bind fun dup => findKnown mem.assets dup.1 with
        | some a => .duplicate a.id a.used (entraIdOf mem a.id)
        | none => .unknown

def queueEntra (id : Nat) (via : Via) (reason : String) : Db :=
  { db with
    conflicts := upsertAssetConflict c db.conflicts dev.deviceId id (buildEntraProposed C c dev via) reason }

def tombstone (deviceId : String) (id : Nat) : Db :=
  { db with conflicts := tombstoneConflict c db.conflicts deviceId id }

def incomingWins (a : EntraSubject) : Bool :=
  (entraLastSeen dev).any fun seen => a.lastSeen.all fun known => known < seen

def writeEntraFound : EntraFound → Db
  | .noId => db
  | .existing id a untagged sibling =>
    let db := writeEntra C c db dev id a
    let db :=
      match untagged with
      | none => db
      | some (other, via) => queueEntra C c db dev other via "untagged-collision"
    match sibling with
    | none => db
    | some (other, siblingId) => tombstone c (tombstone c db dev.deviceId other) siblingId id
  | .untagged id via => queueEntra C c db dev id via "untagged-collision"
  | .duplicate id a existingEntraId =>
    let db := if incomingWins dev a then writeEntra C c db dev id a else db
    tombstone c (tombstone c db dev.deviceId id) existingEntraId id
  | .unknown =>
    let id := db.assets.nextId
    upsertEntraIntuneSources C c (createAsset C db (newEntra C c dev)
      (mergeIntuneMacs C c.now (intuneMacEntries dev) [])) dev id

def stampEntra (id : Nat) : EntraMemory :=
  { mem with
    assets := mem.assets.map fun k =>
      if k.id = id then { k with used := { k.used with
        macAddresses := stampedMacs C c.now (intuneMacEntries dev) k.used.macAddresses } }
      else k }

/-- The object that a creation returns has no MACs on it. -/
def knownEntra (id : Nat) (row : AssetRow) (macs : List MacEntry) : Known EntraSubject :=
  ⟨id, row.hostname, ⟨row.status, row.assetType, row.lastSeen, row.acquiredAt, row.tags, macs⟩⟩

def patchEntra : EntraFound → EntraMemory
  | .noId | .untagged _ _ => mem
  | .existing id _ _ _ => stampEntra C c dev mem id
  | .duplicate id a existingEntraId =>
    if incomingWins dev a then
      let mem := stampEntra C c dev mem id
      { mem with
        byDeviceId := (mem.byDeviceId.delete (C.toLowerCase existingEntraId)).set (deviceIdKey C dev) id
        deviceIdOf := (id, deviceIdKey C dev) :: mem.deviceIdOf }
    else mem
  | .unknown =>
    let id := db.assets.nextId
    { mem with
      assets := mem.assets ++ [knownEntra id (newEntra C c dev) []]
      byDeviceId := mem.byDeviceId.set (deviceIdKey C dev) id
      bySid :=
        if dev.onPremisesSecurityIdentifier = "" then mem.bySid
        else mem.bySid.set (C.toUpperCase dev.onPremisesSecurityIdentifier) id
      byMac := (intuneMacEntries dev).foldl
        (fun m e => if normalizeMacKey C e.1 = "" then m else m.setNew (normalizeMacKey C e.1) id) mem.byMac }

/-- One source row, as the rows are read one after another. -/
def indexEntraSource (mem : EntraMemory) (s : Source) : EntraMemory :=
  let sid (key : String) : Index String :=
    match truthy (s.observed key) with
    | none => mem.bySid
    | some sid => mem.bySid.set (C.toUpperCase sid) s.assetId
  match s.sourceKind with
  | .entra | .intune =>
    { mem with
      byDeviceId :=
        if (findKnown mem.assets s.assetId).isSome then mem.byDeviceId.set (C.toLowerCase s.externalId)
          s.assetId else mem.byDeviceId
      deviceIdOf :=
        if mem.deviceIdOf.any (·.1 = s.assetId) then mem.deviceIdOf else mem.deviceIdOf ++
          [(s.assetId, C.toLowerCase s.externalId)]
      bySid := sid "onPremisesSecurityIdentifier" }
  | .ad => { mem with bySid := sid "objectSid" }
  | _ => mem

def hasSource (sources : List Source) (kinds : List SourceKind) (id : Nat) : Bool :=
  sources.any fun s => s.assetId = id && decide (s.sourceKind ∈ kinds)

def indexMac (id : Nat) (m : Index String) (mac : Option String) : Index String :=
  let key := normalizeMacKey C (mac.getD "")
  if key = "" then m else m.setNew key id

def indexEntraAsset (sources : List Source) (mem : EntraMemory) (r : Row AssetRow × List MacEntry) :
    EntraMemory :=
  let name := truthy r.1.data.hostname
  let tagged := hasSource sources [.entra, .intune] r.1.id
  { mem with
    tagged := if tagged then name.elim mem.tagged (indexHostname C mem.tagged · r.1.id) else mem.tagged
    untagged :=
      if tagged || hasSource sources [.ad] r.1.id then mem.untagged else name.elim mem.untagged
        (indexHostname C mem.untagged · r.1.id)
    byMac := (r.1.data.macAddress :: r.2.map (some ·.mac)).foldl (indexMac C r.1.id) mem.byMac }

def loadEntra : EntraMemory :=
  let rows := (c.listing db.assets.rows).map fun r => (r, shapeMacRows r.id db.macRows)
  let sources := c.order (db.sources.filter fun s => s.sourceKind ∈
    [AssetProjection.AssetSourceKind.entra, .intune, .ad])
  let mem : EntraMemory := { assets := rows.map fun r => knownEntra r.1.id r.1.data r.2 }
  rows.foldl (indexEntraAsset C sources) (sources.foldl (indexEntraSource C) mem)

def entra : Loop Db EntraMemory EntraDevice EntraFound where
  load db := loadEntra C c db
  look mem dev := lookEntra C dev mem
  write db dev found := writeEntraFound C c db dev found
  patch db mem dev found := patchEntra C c db dev mem found

def syncEntraDevices (devices : List EntraDevice) : Db := (entra C c).run db devices

/-- The asset that a device is written to. -/
def EntraFound.target : EntraFound → Option (Nat × EntraSubject)
  | .existing id a _ _ => some (id, a)
  | .duplicate id a _ => if incomingWins dev a then some (id, a) else none
  | _ => none

variable {C c db dev}

theorem upsertSources_assets (sources : List Source) :
    (sources.foldl upsertSource db).assets = db.assets := by
  induction sources generalizing db with
  | nil => rfl
  | cons s rest ih => exact ih

theorem upsertEntraIntuneSources_assets (id : Nat) :
    (upsertEntraIntuneSources C c db dev id).assets = db.assets :=
  upsertSources_assets _

theorem writeEntra_assets (id : Nat) (a : EntraSubject) :
    ∃ p, (writeEntra C c db dev id a).assets = db.assets.amendWhere (·.id = id)
      (entraUpdate C c dev a p) := by
  refine ⟨project C c (sourcesOf c (upsertEntraIntuneSources C c db dev id) id), ?_⟩
  rw [writeEntra]
  split
  · rw [updateAsset_assets, upsertEntraIntuneSources_assets]
  · rw [reconcileMacAddresses, updateAsset_assets, upsertEntraIntuneSources_assets]

theorem writeEntraFound_unknown : (writeEntraFound C c db dev .unknown).assets = db.assets.append
    (newEntra C c dev) := by
  rw [writeEntraFound, upsertEntraIntuneSources_assets, createAsset_assets]

theorem writeEntraFound_target {found : EntraFound} {id : Nat} {a : EntraSubject}
    (h : found.target dev = some (id, a)) :
    ∃ p, (writeEntraFound C c db dev found).assets = db.assets.amendWhere (·.id = id)
      (entraUpdate C c dev a p) := by
  obtain ⟨p, hp⟩ := @writeEntra_assets C c db dev id a
  refine ⟨p, hp ▸ ?_⟩
  cases found with
  | existing i b untagged sibling =>
    cases h
    cases untagged with
    | none => cases sibling with
      | none => rfl
      | some s => rfl
    | some u => cases sibling with
      | none => rfl
      | some s => rfl
  | duplicate i b existingEntraId =>
    rw [EntraFound.target] at h
    split at h
    · next hwins =>
      cases h
      rw [writeEntraFound, if_pos hwins]
      rfl
    · cases h
  | noId | untagged | unknown => cases h

theorem writeEntraFound_untouched {found : EntraFound} (hunknown : found ≠ .unknown)
    (h : found.target dev = none) :
    (writeEntraFound C c db dev found).assets = db.assets := by
  cases found with
  | unknown => exact absurd rfl hunknown
  | existing i b untagged sibling => cases h
  | duplicate i b existingEntraId =>
    rw [EntraFound.target] at h
    split at h
    · cases h
    · next hwins =>
      rw [writeEntraFound, if_neg hwins]
      rfl
  | noId | untagged => rfl

end Entra

section ActiveDirectory

structure AdDevice where
  objectGuid : String
  objectSid : String := ""
  cn : String := ""
  dnsHostName : String := ""
  distinguishedName : String := ""
  ouPath : String := ""
  operatingSystem : String := ""
  operatingSystemVersion : String := ""
  description : String := ""
  whenCreated : Option Nat := none
  lastLogonTimestamp : Option Nat := none
  disabled : Bool := false

structure AdSubject where
  status : AssetStatus
  assetType : AssetType
  lastSeen : Option Nat
  acquiredAt : Option Nat
  tags : List String
  notes : Option String
  discoveredByIntegrationId : Option String
  deriving DecidableEq

structure AdMemory where
  assets : List (Known AdSubject)
  byGuid : Index String := []
  bySid : Index String := []
  untagged : Index (List Nat) := []
  tagged : Index (List Nat) := []

variable (C : Casing) (c : Sync) (db : Db) (dev : AdDevice)

def guidKey : String := C.toLowerCase dev.objectGuid

def adDisplayName : String := if dev.dnsHostName = "" then dev.cn else dev.dnsHostName

def adStatus : AssetStatus := if dev.disabled then .disabled else .active

def adMonitorable : Bool :=
  let lower := (C.toLowerCase dev.operatingSystem).toList
  hasInfix lower "windows".toList || hasInfix lower "linux".toList

def adTags : List String := ["activedirectory", "auto-discovered"] ++
    if dev.disabled then ["ad-disabled"] else []

def isAdManagedTag (t : String) : Bool :=
  startsWith "activedirectory" t || startsWith "ad-guid:" t || decide (t ∈ ["auto-discovered", "ad-disabled"])

def buildAdObservedBlob : String → Option String
  | "kind" => some "ad"
  | "objectGuid" => some (C.toLowerCase dev.objectGuid)
  | "objectSid" => truthy (some dev.objectSid)
  | "cn" => truthy (some dev.cn)
  | "dnsHostName" => truthy (some dev.dnsHostName)
  | "distinguishedName" => truthy (some dev.distinguishedName)
  | "ouPath" => truthy (some dev.ouPath)
  | "operatingSystem" => truthy (some dev.operatingSystem)
  | "operatingSystemVersion" => truthy (some dev.operatingSystemVersion)
  | "description" => truthy (some dev.description)
  | "whenCreated" => dev.whenCreated.map toString
  | "lastLogonTimestamp" => dev.lastLogonTimestamp.map toString
  | "accountDisabled" => some (toString dev.disabled)
  | _ => none

def adSource (id : Nat) : Source :=
  { assetId := id, sourceKind := .ad, externalId := guidKey C dev, integrationId := some c.integrationId
    observed := buildAdObservedBlob C dev }

def adUpdate (a : AdSubject) (p : Projected) (row : AssetRow) : AssetRow :=
  let lastSeen := dev.lastLogonTimestamp.filter fun logon => a.lastSeen.all fun known => known < logon
  let acquiredAt := dev.whenCreated.filter fun created => a.acquiredAt.all fun known => created < known
  let osType := inferAssetTypeFromOs C dev.operatingSystem
  { applyProjected C c p row with
    status := adStatus dev
    statusChangedBy := if adStatus dev = a.status then row.statusChangedBy else some c.integrationName
    dnsName := (truthy (some dev.dnsHostName)).or row.dnsName
    lastSeen := lastSeen.or row.lastSeen
    acquiredAt := (clampAcquiredToLastSeen acquiredAt lastSeen a.acquiredAt a.lastSeen).or row.acquiredAt
    assetType := if a.assetType = .other ∧ osType ≠ .other then osType else row.assetType
    notes := if truthy a.notes = none ∧ dev.description ≠ "" then some dev.description else row.notes
    tags := retagged (fun t => isAdManagedTag t || startsWith "sid:" t) a.tags (adTags dev)
    discoveredByIntegrationId :=
      if adMonitorable C dev ∧ (truthy a.discoveredByIntegrationId).all (· = c.integrationId) then
        some c.integrationId
      else row.discoveredByIntegrationId }

def writeAd (id : Nat) (a : AdSubject) : Db :=
  let db := upsertSource db (adSource C c dev id)
  updateAsset C db id (adUpdate C c dev a (project C c (sourcesOf c db id)))

def newAd : AssetRow :=
  let p := project C c [adSource C c dev 0]
  { hostname := p.hostname
    dnsName := truthy (some dev.dnsHostName)
    assetType := inferAssetTypeFromOs C dev.operatingSystem
    status := adStatus dev
    statusChangedBy := some c.integrationName
    os := p.os
    osVersion := p.osVersion
    learnedLocation := p.learnedLocation
    notes := (truthy (some dev.description)).or
      (some ("Auto-discovered from Active Directory integration \"" ++ c.integrationName ++ "\""))
    lastSeen := dev.lastLogonTimestamp
    acquiredAt := clampAcquiredToLastSeen dev.whenCreated dev.lastLogonTimestamp none none
    tags := adTags dev
    discoveredByIntegrationId := if adMonitorable C dev then some c.integrationId else none }

def buildAdProposed (via : Via) : ProposedFields where
  assetTagPrefix := some "ad:"
  hostname := some (adDisplayName dev)
  dnsName := truthy (some dev.dnsHostName)
  os := truthy (some dev.operatingSystem)
  osVersion := truthy (some dev.operatingSystemVersion)
  notes := truthy (some dev.description)
  learnedLocation := truthy (some dev.ouPath)
  objectSid := truthy (some dev.objectSid)
  status := some (adStatus dev)
  assetType := some (inferAssetTypeFromOs C dev.operatingSystem)
  lastSeen := dev.lastLogonTimestamp
  registrationDateTime := dev.whenCreated
  disabled := dev.disabled
  matchedVia := some via.text

inductive AdFound
  | noId
  | existing (id : Nat) (a : AdSubject)
  | untagged (id : Nat) (via : Via)
  | duplicate (id : Nat) (via : Via)
  | unknown
  deriving DecidableEq

variable (mem : AdMemory)

def matchAd : Option (Known AdSubject) :=
  ((mem.byGuid.get (guidKey C dev)).bind (findKnown mem.assets)).or
    (if dev.objectSid = "" then none else (mem.bySid.get (C.toUpperCase dev.objectSid)).bind
      (findKnown mem.assets))

def lookAd : AdFound :=
  let namesake (m : Index (List Nat)) : Option (Nat × Via) :=
    if adDisplayName dev = "" then none else lookupHostname C mem.assets m (adDisplayName dev)
  if guidKey C dev = "" then .noId
  else
    match matchAd C dev mem with
    | some a => .existing a.id a.used
    | none =>
      match namesake mem.untagged, namesake mem.tagged with
      | some (id, via), _ => .untagged id via
      | none, some (id, via) => .duplicate id via
      | none, none => .unknown

def queueAd (id : Nat) (via : Via) (reason : String) : Db :=
  { db with
    conflicts := upsertAssetConflict c db.conflicts dev.objectGuid id (buildAdProposed C dev via) reason }

def writeAdFound : AdFound → Db
  | .noId => db
  | .existing id a => writeAd C c db dev id a
  | .untagged id via => queueAd C c db dev id via "untagged-collision"
  | .duplicate id via => queueAd C c db dev id via "duplicate-registration"
  | .unknown =>
    let id := db.assets.nextId
    upsertSource (createAsset C db (newAd C c dev) []) (adSource C c dev id)

def knownAd (id : Nat) (row : AssetRow) : Known AdSubject :=
  ⟨id, row.hostname, ⟨row.status, row.assetType, row.lastSeen, row.acquiredAt, row.tags, row.notes,
    row.discoveredByIntegrationId⟩⟩

def patchAd : AdFound → AdMemory
  | .unknown =>
    let id := db.assets.nextId
    { mem with
      assets := mem.assets ++ [knownAd id (newAd C c dev)]
      byGuid := mem.byGuid.set (guidKey C dev) id
      bySid := if dev.objectSid = "" then mem.bySid else mem.bySid.set (C.toUpperCase dev.objectSid) id }
  | _ => mem

def indexAdSource (mem : AdMemory) (s : Source) : AdMemory :=
  let sid (key : String) : Index String :=
    match truthy (s.observed key) with
    | none => mem.bySid
    | some sid => mem.bySid.set (C.toUpperCase sid) s.assetId
  match s.sourceKind with
  | .ad =>
    { mem with
      byGuid := if (findKnown mem.assets s.assetId).isSome then mem.byGuid.set
        (C.toLowerCase s.externalId) s.assetId else mem.byGuid
      bySid := sid "objectSid" }
  | .entra => { mem with bySid := sid "onPremisesSecurityIdentifier" }
  | _ => mem

def indexAdAsset (sources : List Source) (mem : AdMemory) (r : Row AssetRow) : AdMemory :=
  match truthy r.data.hostname with
  | none => mem
  | some name =>
    if hasSource sources [.ad] r.id then { mem with tagged := indexHostname C mem.tagged name r.id }
    else if hasSource sources [.entra] r.id then mem
    else { mem with untagged := indexHostname C mem.untagged name r.id }

def loadAd : AdMemory :=
  let rows := c.listing db.assets.rows
  let sources := c.order (db.sources.filter fun s => s.sourceKind ∈
    [AssetProjection.AssetSourceKind.ad, .entra])
  let mem : AdMemory := { assets := rows.map fun r => knownAd r.id r.data }
  rows.foldl (indexAdAsset C sources) (sources.foldl (indexAdSource C) mem)

def activeDirectory : Loop Db AdMemory AdDevice AdFound where
  load db := loadAd C c db
  look mem dev := lookAd C dev mem
  write db dev found := writeAdFound C c db dev found
  patch db mem dev found := patchAd C c db dev mem found

def syncActiveDirectoryDevices (devices : List AdDevice) : Db := (activeDirectory C c).run db devices

variable {C c db dev}

theorem writeAd_assets (id : Nat) (a : AdSubject) :
    ∃ p, (writeAd C c db dev id a).assets = db.assets.amendWhere (·.id = id) (adUpdate C c dev a p) :=
  ⟨_, updateAsset_assets C _ id _⟩

theorem writeAdFound_unknown : (writeAdFound C c db dev .unknown).assets = db.assets.append (newAd C c dev) :=
  createAsset_assets C db (newAd C c dev) []

theorem writeAdFound_untouched {found : AdFound} (hunknown : found ≠ .unknown)
    (h : ∀ id a, found ≠ .existing id a) :
    (writeAdFound C c db dev found).assets = db.assets := by
  cases found with
  | unknown => exact absurd rfl hunknown
  | existing id a => exact absurd rfl (h id a)
  | noId | untagged | duplicate => rfl

end ActiveDirectory

end Polaris.DirectorySync
