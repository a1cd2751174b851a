import Polaris.GatewaySync

namespace Polaris.DirectoryTables

open Polaris.AssetLookup Polaris.Lib.Store Polaris.Lib.Text Polaris.Reservations
open Polaris.ClusterSync hiding Db AssetRow
open Polaris.ConflictResolution (AssetType AssetStatus MacEntry ProposedFields ConflictStatus)
open Polaris.DhcpAssociation (amendFirst)
open Polaris.GatewaySync (MacRow isMac unlisted)

section Data

/-- The columns that the directories know of besides those of the gateways. -/
structure AssetRow extends ClusterSync.AssetRow where
  manufacturer : Option String := none
  assetTag : Option String := none
  dnsName : Option String := none
  assignedTo : Option String := none
  notes : Option String := none
  acquiredAt : Option Nat := none
  statusChangedBy : Option String := none
  createdBy : Option String := none
  tags : List String := []
  deriving DecidableEq

structure Conflict extends ConflictResolution.Conflict where
  collisionReason : Option String := none
  deriving DecidableEq

structure Db where
  assets : Table (Table.noKey (α := AssetRow))
  sources : List Source := []
  macRows : List MacRow := []
  conflicts : List Conflict := []

/-- What a run is given. The rows of a table come in the order that the
database returns them in. -/
structure Sync where
  integrationId : String
  integrationName : String
  now : Nat
  aliases : String → Option String := fun _ => none
  listing : List (Row AssetRow) → List (Row AssetRow) := id
  order : List Source → List Source := id

end Data

section Texts

def startsWith (head s : String) : Bool := head.toList.isPrefixOf s.toList

def slice (n : Nat) (s : String) : String := String.ofList (s.toList.drop n)

/-- What follows the marker, unless it is blank. -/
def marked (marker : String) (s : String) : Option String :=
  if startsWith marker s then truthy (some (trim (slice marker.length s))) else none

end Texts

section Derivation

variable (C : Casing) (id : Nat) (a : AssetRow)

def findSidTag (tags : List String) : Option String :=
  (tags.find? (startsWith "sid:")).bind fun t => truthy (some (trim (slice 4 t)))

def retired : Bool := a.status = .disabled || a.status = .decommissioned

def buildEntraObserved (deviceId : String) : String → Option String
  | "deviceId" => some (C.toLowerCase deviceId)
  | "displayName" => a.hostname
  | "operatingSystem" => a.os
  | "operatingSystemVersion" => a.osVersion
  | "accountEnabled" => some (toString !retired a)
  | "onPremisesSecurityIdentifier" => findSidTag a.tags
  | _ => none

def buildAdObserved (guid : String) : String → Option String
  | "objectGuid" => some (C.toLowerCase guid)
  | "cn" => a.hostname
  | "dnsHostName" => a.dnsName.or a.hostname
  | "ouPath" => a.learnedLocation
  | "operatingSystem" => a.os
  | "operatingSystemVersion" => a.osVersion
  | "accountDisabled" => some (toString (retired a))
  | "whenCreated" => a.acquiredAt.map toString
  | "lastLogonTimestamp" => a.lastSeen.map toString
  | "objectSid" => findSidTag a.tags
  | _ => none

def buildFortigateFirewallObserved (serial : String) : String → Option String
  | "serial" => some serial
  | "hostname" => a.hostname
  | "model" => a.model
  | "osVersion" => a.osVersion
  | "mgmtIp" => a.ipAddress
  | _ => none

def buildInfraObserved (nameKey serial key : String) : Option String :=
  if key = nameKey then a.hostname
  else
    match key with
    | "serial" => some serial
    | "model" => a.model
    | "osVersion" => a.osVersion
    | "mgmtIp" => a.ipAddress
    | "controllerFortigate" => a.learnedLocation
    | _ => none

def derived (kind : SourceKind) (externalId : String) (observed : String → Option String) : Source :=
  { assetId := id, sourceKind := kind, externalId := externalId,
    integrationId := a.discoveredByIntegrationId, observed := observed }

def taggedSource (tag : String) : List Source :=
  if startsWith "entra:" tag then
    ((marked "entra:" tag).map fun deviceId => derived id a .entra (C.toLowerCase deviceId)
      (buildEntraObserved C a deviceId)).toList
  else if startsWith "ad:" tag then
    ((marked "ad:" tag).map fun guid => derived id a .ad (C.toLowerCase guid)
      (buildAdObserved C a guid)).toList
  else if startsWith "fgt:" tag then
    ((truthy (some (trim ((truthy a.serialNumber).getD (trim (slice 4 tag)))))).map fun serial =>
      derived id a .fortigateFirewall serial (buildFortigateFirewallObserved a serial)).toList
  else []

def fortinetSource : List Source :=
  if C.toLowerCase (a.manufacturer.getD "") = "fortinet" then
    match truthy a.serialNumber, a.assetType with
    | some serial, .firewall =>
      [derived id a .fortigateFirewall serial (buildFortigateFirewallObserved a serial)]
    | some serial, .switch => [derived id a .fortiswitch serial (buildInfraObserved a "switchId" serial)]
    | some serial, .accessPoint => [derived id a .fortiap serial (buildInfraObserved a "name" serial)]
    | _, _ => []
  else []

def recoveredObserved (guid : String) : String → Option String
  | "objectGuid" => some guid
  | "recovered" => some "ad-guid-tag"
  | _ => none

/-- The AD identities that an Entra tag has taken over from. -/
def recoverAd (out : List Source) (t : String) : List Source :=
  match marked "ad-guid:" t with
  | none => out
  | some guid =>
    if out.any fun s => s.sourceKind = .ad && s.externalId = C.toLowerCase guid then out
    else
      out ++ [{ assetId := id, sourceKind := .ad, externalId := C.toLowerCase guid, inferred := true
                observed := recoveredObserved (C.toLowerCase guid) }]

def manualObserved : String → Option String
  | "createdBy" => truthy a.createdBy
  | _ => none

def deriveAssetSources : List Source :=
  let tag := truthy (a.assetTag.map trim)
  let primary := (tag.map (taggedSource C id a)).getD []
  let out := if primary = [] then fortinetSource C id a else primary
  let out := if tag.any (startsWith "entra:") then a.tags.foldl (recoverAd C id) out else out
  if out = [] then [{ assetId := id, sourceKind := .manual, externalId := toString id,
                      observed := manualObserved a }] else out

end Derivation

section Tables

variable (C : Casing) (c : Sync) (db : Db)

def sameSource (row s : Source) : Bool := s.sourceKind = row.sourceKind && s.externalId = row.externalId

def shadowUpsert (sources : List Source) (row : Source) : List Source :=
  if sources.any (sameSource row) then
    sources.map fun s =>
      if sameSource row s then
        { s with
          assetId := row.assetId
          inferred := if row.inferred then s.inferred else false
          integrationId := (truthy row.integrationId).or s.integrationId }
      else s
  else sources ++ [row]

def shadowWriteAssetSources (id : Nat) : Db :=
  match db.assets.find id with
  | none => db
  | some r => { db with sources := (deriveAssetSources C id r.data).foldl shadowUpsert db.sources }

def updateAsset (id : Nat) (f : AssetRow → AssetRow) : Db :=
  shadowWriteAssetSources C { db with assets := db.assets.amendWhere (·.id = id) f } id

def createAsset (row : AssetRow) (macs : List MacEntry) : Db :=
  let id := db.assets.nextId
  shadowWriteAssetSources C
    { db with
      assets := db.assets.append row
      macRows := db.macRows ++ (macs.filter (·.mac ≠ "")).map fun m => ⟨id, m, none⟩ } id

def upsertMac (id : Nat) (rows : List MacRow) (m : MacEntry) : List MacRow :=
  if rows.any (isMac id m.mac) then rows.map fun r => if isMac id m.mac r then { r with entry := m } else r
  else rows ++ [⟨id, m, none⟩]

def reconcileMacAddresses (id : Nat) (macs : List MacEntry) : Db :=
  let newMacs := macs.filter (·.mac ≠ "")
  { db with macRows := newMacs.foldl (upsertMac id) (db.macRows.filter (!unlisted id newMacs ·)) }

def upsertSource (row : Source) : Db := { db with sources := GatewaySync.upsertSource row true db.sources }

def deleteSources (drop : Source → Bool) : Db := { db with sources := db.sources.filter (!drop ·) }

def sourcesOf (id : Nat) : List Source := c.order (db.sources.filter (·.assetId = id))

theorem shadowWrite_assets (id : Nat) : (shadowWriteAssetSources C db id).assets = db.assets := by
  rw [shadowWriteAssetSources]
  split
  · rfl
  · rfl

theorem updateAsset_assets (id : Nat) (f : AssetRow → AssetRow) :
    (updateAsset C db id f).assets = db.assets.amendWhere (·.id = id) f :=
  shadowWrite_assets C _ id

theorem createAsset_assets (row : AssetRow) (macs : List MacEntry) :
    (createAsset C db row macs).assets = db.assets.append row :=
  shadowWrite_assets C _ _

end Tables

section Projection

variable (C : Casing) (c : Sync)

def normalizeManufacturer (manufacturer : String) : Option String :=
  ManufacturerNormalize.normalizeManufacturer C.toLowerCase (some c.aliases) (some manufacturer)

structure Projected extends ProjectedAsset where
  manufacturer : Option String

def project (sources : List Source) : Projected :=
  { projectedAsset sources with
    manufacturer := projectedText sources (AssetProjection.MANUFACTURER_RULES C.toLowerCase
      (some c.aliases)) }

def applyProjected (p : Projected) (a : AssetRow) : AssetRow :=
  { a with
    hostname := p.hostname.or a.hostname
    os := p.os.or a.os
    osVersion := p.osVersion.or a.osVersion
    serialNumber := p.serialNumber.or a.serialNumber
    manufacturer :=
      match p.manufacturer with
      | none => a.manufacturer
      | some manufacturer => normalizeManufacturer C c manufacturer
    model := p.model.or a.model
    learnedLocation := p.learnedLocation.or a.learnedLocation }

end Projection

section Conflicts

variable (c : Sync) (rows : List Conflict) (deviceId : String) (assetId : Nat)

def isPair (r : Conflict) : Bool := r.proposedDeviceId = some deviceId && r.assetId = some assetId

def tombstoneConflict : List Conflict :=
  match rows.find? (isPair deviceId assetId) with
  | some r =>
    if r.status = .pending then
      amendFirst (isPair deviceId assetId)
        (fun r => { r with status := .accepted, resolvedBy := some "system", resolvedAt := some c.now }) rows
    else rows
  | none =>
    rows ++ [{ entityType := .asset, assetId := some assetId, integrationId := some c.integrationId,
               proposedDeviceId := some deviceId
               conflictFields := ["hostname"], status := .accepted, resolvedBy := some "system",
                 resolvedAt := some c.now }]

def isQueued (r : Conflict) : Bool := r.status = .pending && r.proposedDeviceId = some deviceId

/-- A pair that was resolved is not raised again. -/
def upsertAssetConflict (proposed : ProposedFields) (collisionReason : String) : List Conflict :=
  if rows.any fun r => isPair deviceId assetId r && r.status ≠ .pending then rows
  else if rows.any (isQueued deviceId) then
    amendFirst (isQueued deviceId)
      (fun r => { r with
        proposedAssetFields := proposed, collisionReason := some collisionReason,
        assetId := some assetId }) rows
  else
    rows ++ [{ entityType := .asset, assetId := some assetId, integrationId := some c.integrationId,
               proposedDeviceId := some deviceId
               proposedAssetFields := proposed, collisionReason := some collisionReason, conflictFields :=
                 ["hostname"]
               status := .pending }]

end Conflicts

section Indexes

variable {κ α : Type} [DecidableEq κ]

/-- A map from keys to assets, the entry that counts first. -/
abbrev Index (κ : Type) := List (κ × Nat)

namespace Index

variable (m : Index κ) (key : κ) (id : Nat)

def get : Option Nat := (m.find? (·.1 = key)).map (·.2)

def set : Index κ := (key, id) :: m

def setNew : Index κ := if m.any (·.1 = key) then m else (key, id) :: m

def delete : Index κ := m.filter (·.1 ≠ key)

variable {m key id} {k : κ}

theorem get_cons : Index.get ((key, id) :: m) k = if key = k then some id else m.get k := by
  rw [get, List.find?_cons]
  by_cases h : key = k
  · simp [h]
  · simp [h, get]

theorem any_eq_isSome : (m.any (·.1 = key)) = (m.get key).isSome := by
  rw [get, Option.isSome_map, List.isSome_find?]

theorem get_setNew : (m.setNew key id).get k = (m.get k).or (if key = k then some id else none) := by
  rw [setNew, any_eq_isSome]
  by_cases h : key = k
  · subst h
    cases hget : m.get key with
    | none => simp [get_cons]
    | some i => simpa using hget
  · rw [if_neg h, Option.or_none]
    split
    · rfl
    · rw [get_cons, if_neg h]

theorem get_delete : (m.delete key).get k = if k = key then none else m.get k := by
  rw [get, delete, List.find?_filter]
  by_cases h : k = key
  · simp [h]
  · rw [if_neg h, get]
    congr 2
    funext p
    by_cases hp : p.1 = k
    · simp [hp, h]
    · simp [hp]

end Index

/-- An asset as a run remembers it: its name and what the run goes on to use. -/
structure Known (α : Type) where
  id : Nat
  hostname : Option String
  used : α

def findKnown (known : List (Known α)) (id : Nat) : Option (Known α) := known.find? (·.id = id)

inductive Via
  | exact | netbios
  deriving DecidableEq

def Via.text : Via → String
  | .exact => "exact"
  | .netbios => "netbios"

def codeUnits (s : String) : List Nat :=
  s.toList.flatMap fun ch =>
    if ch.toNat < 0x10000 then [ch.toNat] else [0xD800 + (ch.toNat - 0x10000) / 0x400,
      0xDC00 + (ch.toNat - 0x10000) % 0x400]

def NETBIOS_LIMIT : Nat := 15

variable (C : Casing)

/-- The name, and its first part where it is longer than a NetBIOS name. -/
def indexHostname (m : Index (List Nat)) (hostname : String) (id : Nat) : Index (List Nat) :=
  let lower := codeUnits (C.toLowerCase hostname)
  let m := m.setNew lower id
  if NETBIOS_LIMIT < lower.length then m.setNew (lower.take NETBIOS_LIMIT) id else m

def lookupHostname (known : List (Known α)) (m : Index (List Nat)) (hostname : String) : Option (Nat × Via) :=
  let lower := codeUnits (C.toLowerCase hostname)
  match m.get lower with
  | some id =>
    let stored := codeUnits (C.toLowerCase (((findKnown known id).bind (·.hostname)).getD ""))
    some (id, if stored = lower then .exact else .netbios)
  | none =>
    if NETBIOS_LIMIT ≤ lower.length then (m.get (lower.take NETBIOS_LIMIT)).map (·, .netbios) else none

end Indexes

end Polaris.DirectoryTables
