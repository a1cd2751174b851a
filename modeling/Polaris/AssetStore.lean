import Polaris.AssetQuarantine
import Polaris.DirectorySync
import Polaris.Lib.Views

namespace Polaris.AssetStore

open Polaris.AssetLookup (Casing macKey)
open Polaris.Cidr (Failure)
open Polaris.ConflictResolution (AssetType AssetStatus clampAcquiredToLastSeen)
open Polaris.ClusterSync (Source)
open Polaris.DirectoryTables (Conflict normalizeManufacturer shadowWriteAssetSources)
open Polaris.GatewaySync (MacRow)
open Polaris.Lib.Store Polaris.Lib.Text Polaris.Lib.Views
open Polaris.QuarantinePush (Gate Target QuarantineTargetRecord)
open Polaris.Reservations (truthy)
open Polaris.SubnetDiscovery (Subnet)
open Polaris.SubnetService (IpBlock)

section Data

/-- The columns for monitoring and quarantine besides those of the
directories. -/
structure Asset extends toDirectoryRow : DirectoryTables.AssetRow where
  monitored : Bool := false
  monitoredOperatorSet : Bool := false
  monitorCredentialId : Option String := none
  statusBeforeQuarantine : Option AssetStatus := none
  quarantineReason : Option String := none
  quarantinedAt : Option Int := none
  quarantinedBy : Option String := none
  quarantineTargets : List QuarantineTargetRecord := []
  deriving DecidableEq

/-- The tables that the syncs, the requests and the jobs share, and what the
gateways hold for each asset. -/
structure World where
  blocks : List IpBlock := []
  subnets : Table (Table.noKey (α := Subnet)) := Table.empty _
  assets : Table (Table.noKey (α := Asset)) := Table.empty _
  sources : List Source := []
  macRows : List MacRow := []
  lost : List MacRow := []
  conflicts : List Conflict := []
  gates : Nat → Gate → Target := fun _ _ => none

def directoryView : View Asset DirectoryTables.AssetRow where
  get a := a.toDirectoryRow
  set d a := { a with toDirectoryRow := d }
  get_set _ _ := rfl
  set_get _ := rfl

def gatewayView : View Asset ClusterSync.AssetRow where
  get a := a.toAssetRow
  set g a := { a with toAssetRow := g }
  get_set _ _ := rfl
  set_get _ := rfl

variable (w : World)

def World.directory : DirectoryTables.Db where
  assets := directoryView.table w.assets
  sources := w.sources
  macRows := w.macRows
  conflicts := w.conflicts

def World.withDirectory (db : DirectoryTables.Db) : World :=
  { w with
    assets := directoryView.restore {} w.assets db.assets, sources := db.sources,
    macRows := db.macRows, conflicts := db.conflicts }

def World.gateway : GatewaySync.Db where
  blocks := w.blocks
  subnets := w.subnets
  assets := gatewayView.table w.assets
  sources := w.sources
  macRows := w.macRows
  lost := w.lost

def World.withGateway (db : GatewaySync.Db) : World :=
  { w with
    blocks := db.blocks, subnets := db.subnets, assets := gatewayView.restore {} w.assets db.assets
    sources := db.sources, macRows := db.macRows, lost := db.lost }

def World.update (id : Nat) (f : Asset → Asset) : World :=
  { w with assets := w.assets.amendWhere (·.id = id) f }

def retired (status : AssetStatus) : Bool := status = .disabled || status = .decommissioned

/-- What the client makes of a write before it goes to the database: only the
status that the write itself sets is looked at. -/
def clampMonitoredForStatus (status : Option AssetStatus) (monitored : Bool) : Bool :=
  if status.any retired then false else monitored

end Data

section Requests

/-- What the requests find outside the tables. The rows of a table come in
the order that the database returns them in. -/
structure Env where
  casing : Casing
  aliases : String → Option String := fun _ => none
  integrationType : String → Option String := fun _ => none
  listing : List (Row Asset) → List (Row Asset) := id

variable (env : Env)

def Env.normalizeManufacturer (manufacturer : String) : Option String :=
  DirectoryTables.normalizeManufacturer env.casing
    { integrationId := "", integrationName := "", now := 0, aliases := env.aliases } manufacturer

def isHexDigit (ch : Char) : Bool := ch.isDigit || ('A' ≤ ch && ch ≤ 'F') || ('a' ≤ ch && ch ≤ 'f')

def macGroups : Nat → List Char → Bool
  | 0, [a, b] => isHexDigit a && isHexDigit b
  | n + 1, a :: b :: sep :: rest =>
    isHexDigit a && isHexDigit b && (sep = ':' || sep = '-') && macGroups n rest
  | _, _ => false

def macRegex (mac : String) : Bool := macGroups 5 mac.toList

/-- The fields of a request to create an asset. A date that is left empty is
one that is not given. -/
structure CreateAsset where
  ipAddress : Option String := none
  macAddress : Option String := none
  hostname : Option String := none
  dnsName : Option String := none
  assetTag : Option String := none
  serialNumber : Option String := none
  manufacturer : Option String := none
  model : Option String := none
  assetType : Option AssetType := none
  status : Option AssetStatus := none
  assignedTo : Option String := none
  os : Option String := none
  acquiredAt : Option Nat := none
  notes : Option String := none
  tags : Option (List String) := none

def CreateAsset.issues (input : CreateAsset) : List String :=
  (if input.ipAddress = some "" then ["ipAddress: String must contain at least 1 character(s)"] else []) ++
    if input.macAddress.all macRegex then []
    else ["macAddress: Invalid MAC address format (expected AA:BB:CC:DD:EE:FF)"]

def CreateAsset.parse (input : CreateAsset) : Except Failure Unit :=
  if input.issues = [] then .ok () else .error (.app 400 ("; ".intercalate input.issues))

def newAsset (username : Option String) (input : CreateAsset) : DirectoryTables.AssetRow where
  hostname := input.hostname
  serialNumber := input.serialNumber
  model := input.model
  os := input.os
  ipAddress := input.ipAddress
  ipSource := (truthy input.ipAddress).map fun _ => "manual"
  macAddress := input.macAddress.map (macKey env.casing)
  assetType := input.assetType.getD .other
  status := input.status.getD .storage
  manufacturer := input.manufacturer.bind env.normalizeManufacturer
  assetTag := input.assetTag
  dnsName := input.dnsName
  assignedTo := input.assignedTo
  notes := input.notes
  acquiredAt := clampAcquiredToLastSeen input.acquiredAt none none none
  statusChangedBy := some (username.getD "manual")
  createdBy := username
  tags := input.tags.getD []

/-- `POST /assets` -/
def createAsset (username : Option String) (input : CreateAsset) (w : World) : World × Except Failure Unit :=
  match input.parse with
  | .error e => (w, .error e)
  | .ok _ =>
    (w.withDirectory
      (DirectoryTables.createAsset env.casing w.directory (newAsset env username input) []), .ok ())

inductive PollingMethod
  | restApi | snmp | winrm | ssh | icmp | disabled | agent
  deriving DecidableEq

def pollingMethodLabel : PollingMethod → String
  | .restApi => "REST API"
  | .snmp => "SNMP"
  | .winrm => "WinRM"
  | .ssh => "SSH"
  | .icmp => "ICMP"
  | .disabled => "Disabled"
  | .agent => "Polaris Agent"

def assetSourceKindFromIntegrationType (integrationType : Option String) : String :=
  match integrationType with
  | some t =>
    if t ∈ ["fortimanager", "fortigate", "activedirectory", "entraid", "windowsserver"] then t else "manual"
  | none => "manual"

def isPollingMethodCompatible (source : String) (method : PollingMethod) : Bool :=
  if source ∈ ["fortimanager", "fortigate"] then
    method ∈ [PollingMethod.restApi, .snmp, .ssh, .icmp, .disabled]
  else if source ∈ ["activedirectory", "entraid", "windowsserver"] then method ∈
    [PollingMethod.icmp, .winrm, .ssh, .disabled, .agent]
  else true

/-- The fields of a request to change an asset. The polling fields are those
that are set, in the order of the schema. -/
structure UpdateAsset extends CreateAsset where
  monitored : Option Bool := none
  monitorCredentialId : Option (Option String) := none
  polling : List (String × PollingMethod) := []

def quarantineType : AssetType → QuarantinePush.AssetType
  | .server => .server
  | .switch => .switch
  | .router => .router
  | .firewall => .firewall
  | .workstation => .workstation
  | .printer => .printer
  | .accessPoint => .accessPoint
  | .other => .other

def checkPolling (source : String) (field : String × PollingMethod) : Except Failure Unit :=
  if isPollingMethodCompatible source field.2 then .ok ()
  else .error (.app 400 (pollingMethodLabel field.2 ++ " polling is not supported for " ++ source ++
    " assets (field: " ++ field.1 ++ ")"))

def guardQuarantine (status : Option AssetStatus) (existing : AssetStatus) : Except Failure Unit :=
  if status = some .quarantined ∧ existing ≠ .quarantined then
    .error (.app 400 "Use POST /assets/:id/quarantine to quarantine an asset")
  else if status ≠ none ∧ status ≠ some .quarantined ∧ existing = .quarantined then
    .error (.app 400 "Use DELETE /assets/:id/quarantine to release the quarantine before changing status")
  else .ok ()

def guardType (assetType : Option AssetType) (existing : Asset) : Except Failure Unit :=
  if assetType.any (· ≠ existing.assetType) ∧ truthy existing.discoveredByIntegrationId ≠ none ∧
      (existing.assetType = .firewall ∨ existing.assetType = .switch ∨ existing.assetType = .accessPoint) then
    .error (.app 400 ("Asset type is locked — discovered as " ++
      (quarantineType existing.assetType).text ++ " by an integration"))
  else .ok ()

def checkUpdate (input : UpdateAsset) (existing : Asset) : Except Failure Unit := do
  input.parse
  input.polling.forM
    (checkPolling (assetSourceKindFromIntegrationType
      (existing.discoveredByIntegrationId.bind env.integrationType)))
  guardType input.assetType existing
  guardQuarantine input.status existing.status

def updatedAsset (username : Option String) (input : UpdateAsset) (a : Asset) : Asset :=
  { a with
    hostname := input.hostname.or a.hostname
    serialNumber := input.serialNumber.or a.serialNumber
    model := input.model.or a.model
    os := input.os.or a.os
    ipAddress := input.ipAddress.or a.ipAddress
    ipSource := if truthy input.ipAddress = none then a.ipSource else some "manual"
    macAddress := (input.macAddress.map (macKey env.casing)).or a.macAddress
    assetType := input.assetType.getD a.assetType
    status := input.status.getD a.status
    manufacturer :=
      match input.manufacturer with
      | none => a.manufacturer
      | some manufacturer => env.normalizeManufacturer manufacturer
    assetTag := input.assetTag.or a.assetTag
    dnsName := input.dnsName.or a.dnsName
    assignedTo := input.assignedTo.or a.assignedTo
    notes := input.notes.or a.notes
    acquiredAt := (clampAcquiredToLastSeen input.acquiredAt none a.acquiredAt a.lastSeen).or a.acquiredAt
    statusChangedBy := if input.status.isSome then some (username.getD "manual") else a.statusChangedBy
    tags := input.tags.getD a.tags
    monitored := clampMonitoredForStatus input.status (input.monitored.getD a.monitored)
    monitoredOperatorSet := input.monitored.isSome || a.monitoredOperatorSet
    monitorCredentialId := input.monitorCredentialId.getD a.monitorCredentialId }

def World.shadowWrite (w : World) (id : Nat) : World :=
  { w with sources := (shadowWriteAssetSources env.casing w.directory id).sources }

/-- `PUT /assets/:id` -/
def updateAsset (username : Option String) (id : Nat) (input : UpdateAsset) (w : World) :
    World × Except Failure Unit :=
  match w.assets.find id with
  | none => (w, .error (.app 404 "Asset not found"))
  | some existing =>
    match checkUpdate env input existing.data with
    | .error e => (w, .error e)
    | .ok _ =>
      let written := w.update id (updatedAsset env username input)
      (if input.assetTag.isSome ∨ input.tags.isSome then written.shadowWrite env id else written, .ok ())

structure BulkMonitor where
  ids : List Nat
  monitored : Bool
  monitorCredentialId : Option (Option String) := none

def bulkMonitored (body : BulkMonitor) (a : Asset) : Asset :=
  { a with
    monitored := clampMonitoredForStatus none body.monitored
    monitoredOperatorSet := true
    monitorCredentialId := body.monitorCredentialId.getD a.monitorCredentialId }

/-- `POST /assets/bulk-monitor`, with the ids that were not found. -/
def bulkMonitor (body : BulkMonitor) (w : World) : World × Except Failure (List Nat) :=
  if body.ids = [] then (w, .error (.app 400 "ids: Array must contain at least 1 element(s)"))
  else
    ({ w with assets := w.assets.amendWhere (·.id ∈ body.ids) (bulkMonitored body) },
      .ok (body.ids.filter fun id => (w.assets.find id).isNone))

end Requests

section Import

variable (env : Env)

/-- A row of an extracted invoice, as texts. -/
structure ImportRow where
  hostname : Option String := none
  ipAddress : Option String := none
  macAddress : Option String := none
  assetType : Option String := none
  status : Option String := none
  manufacturer : Option String := none
  model : Option String := none
  serialNumber : Option String := none
  assignedTo : Option String := none
  os : Option String := none
  notes : Option String := none
  assetTag : Option String := none

def assetTypeOf : String → Option AssetType
  | "server" => some .server
  | "switch" => some .switch
  | "router" => some .router
  | "firewall" => some .firewall
  | "workstation" => some .workstation
  | "printer" => some .printer
  | "access_point" => some .accessPoint
  | "other" => some .other
  | _ => none

def statusOf : String → Option AssetStatus
  | "active" => some .active
  | "maintenance" => some .maintenance
  | "decommissioned" => some .decommissioned
  | "storage" => some .storage
  | "disabled" => some .disabled
  | "quarantined" => some .quarantined
  | _ => none

/-- An empty text is no text. -/
def allowed (field : Option String) : Option String := (truthy field).map trim

/-- The database knows no other names than those of the enumeration. -/
def parseEnum {α : Type} (field : String) (parse : String → Option α) (text : Option String) :
    Except Failure (Option α) :=
  match allowed text with
  | none => .ok none
  | some t =>
    match parse t with
    | none => .error (.thrown ("Invalid value for argument " ++ field))
    | some a => .ok (some a)

def ImportRow.serial (row : ImportRow) : Option String := truthy (allowed row.serialNumber)

def importedAsset (username : Option String) (row : ImportRow) (assetType : Option AssetType)
    (status : Option AssetStatus) (a : Asset) :
    Asset :=
  { a with
    hostname := (allowed row.hostname).or a.hostname
    ipAddress := (allowed row.ipAddress).or a.ipAddress
    macAddress := ((allowed row.macAddress).map (macKey env.casing)).or a.macAddress
    assetType := assetType.getD a.assetType
    status := status.getD a.status
    manufacturer :=
      match allowed row.manufacturer with
      | none => a.manufacturer
      | some manufacturer => env.normalizeManufacturer manufacturer
    model := (allowed row.model).or a.model
    serialNumber := (allowed row.serialNumber).or a.serialNumber
    assignedTo := (allowed row.assignedTo).or a.assignedTo
    os := (allowed row.os).or a.os
    notes := (allowed row.notes).or a.notes
    assetTag := (allowed row.assetTag).or a.assetTag
    statusChangedBy := if status.isSome then some (username.getD "manual") else a.statusChangedBy
    monitored := clampMonitoredForStatus status a.monitored }

def importDefault (username : Option String) : Asset :=
  { assetType := .other, status := .storage, statusChangedBy := some (username.getD "manual") }

def ImportRow.existing (row : ImportRow) (w : World) : Option (Row Asset) :=
  row.serial.bind fun serial => (env.listing w.assets.rows).find? fun r => r.data.serialNumber = some serial

def importRow (username : Option String) (row : ImportRow) (w : World) : Except Failure World := do
  let assetType ← parseEnum "assetType" assetTypeOf row.assetType
  let status ← parseEnum "status" statusOf row.status
  match row.existing env w with
  | some existing =>
    let written := w.update existing.id (importedAsset env username row assetType status)
    return if (allowed row.assetTag).isSome then written.shadowWrite env existing.id else written
  | none =>
    let created := importedAsset env username row assetType status (importDefault username)
    return { w with assets := w.assets.append created }.shadowWrite env w.assets.nextId

/-- The rows that were written before one fails stay written. -/
def importNext (username : Option String) (s : World × Except Failure Unit) (row : ImportRow) :
    World × Except Failure Unit :=
  match s.2 with
  | .error _ => s
  | .ok _ =>
    match importRow env username row s.1 with
    | .error e => (s.1, .error e)
    | .ok w => (w, .ok ())

/-- `POST /assets/import-pdf` -/
def importPdf (username : Option String) (rows : List ImportRow) (dryRun : Bool) (w : World) :
    World × Except Failure Unit :=
  if rows = [] then (w, .error (.app 400 "assets must be a non-empty array"))
  else if dryRun then (w, .ok ())
  else rows.foldl (importNext env username) (w, .ok ())

end Import

section Endpoints

structure DecommissionRun where
  inactivityMonths : Nat
  cutoff : Nat

def stale (run : DecommissionRun) (a : Asset) : Bool :=
  a.status ≠ .decommissioned && a.status ≠ .disabled && a.lastSeen.any (· < run.cutoff)

def decommissioned (changedBy : String) (a : Asset) : Asset :=
  { a with
    status := .decommissioned, statusChangedBy := some changedBy
    monitored := clampMonitoredForStatus (some .decommissioned) a.monitored }

def decommissionStaleAssets (run : DecommissionRun) (w : World) : World :=
  if run.inactivityMonths = 0 then w
  else { w with assets := w.assets.amendWhere (stale run ·.data) (decommissioned "system") }

def quarantineStatus : AssetStatus → QuarantinePush.AssetStatus
  | .active => .active
  | .maintenance => .maintenance
  | .decommissioned => .decommissioned
  | .storage => .storage
  | .disabled => .disabled
  | .quarantined => .quarantined

def statusFrom : QuarantinePush.AssetStatus → AssetStatus
  | .active => .active
  | .maintenance => .maintenance
  | .decommissioned => .decommissioned
  | .storage => .storage
  | .disabled => .disabled
  | .quarantined => .quarantined

def quarantineRow (macRows : List MacRow) (r : Row Asset) : QuarantinePush.Asset where
  id := toString r.id
  hostname := r.data.hostname
  assetType := quarantineType r.data.assetType
  status := quarantineStatus r.data.status
  macAddress := r.data.macAddress
  macAddressRows := (macRows.filter (·.assetId = r.id)).map (·.entry.mac)
  lastSeen := r.data.lastSeen.map Int.ofNat
  statusChangedBy := r.data.statusChangedBy
  statusBeforeQuarantine := r.data.statusBeforeQuarantine.map quarantineStatus
  quarantineReason := r.data.quarantineReason
  quarantinedAt := r.data.quarantinedAt
  quarantinedBy := r.data.quarantinedBy
  quarantineTargets := r.data.quarantineTargets

def quarantineWritten (q : QuarantinePush.Asset) (a : Asset) : Asset :=
  { a with
    status := statusFrom q.status
    statusChangedBy := q.statusChangedBy
    statusBeforeQuarantine := q.statusBeforeQuarantine.map statusFrom
    quarantineReason := q.quarantineReason
    quarantinedAt := q.quarantinedAt
    quarantinedBy := q.quarantinedBy
    quarantineTargets := q.quarantineTargets
    monitored := clampMonitoredForStatus (some (statusFrom q.status)) a.monitored }

def World.quarantine (w : World) (id : Nat) : AssetQuarantine.World where
  asset := (w.assets.find id).map (quarantineRow w.macRows)
  gates := w.gates id

/-- The gateways after a call to the service, and the asset if the call wrote
it. -/
def World.withQuarantine {α : Type} (w : World) (id : Nat)
    (r : AssetQuarantine.World × Except Failure α) : World × Except Failure α :=
  let reached := { w with gates := Function.update w.gates id r.1.gates }
  match r.2, r.1.asset with
  | .ok _, some q => (reached.update id (quarantineWritten q), r.2)
  | _, _ => (reached, r.2)

def quarantineAsset (id : Nat) (c : AssetQuarantine.QuarantineCall) (w : World) :
    World × Except Failure (List QuarantineTargetRecord) :=
  w.withQuarantine id (AssetQuarantine.quarantineAsset (w.quarantine id) c)

def releaseQuarantine (id : Nat) (c : AssetQuarantine.ReleaseCall) (w : World) :
    World × Except Failure AssetQuarantine.ReleaseResult :=
  w.withQuarantine id (AssetQuarantine.releaseQuarantine (w.quarantine id) c)

end Endpoints

end Polaris.AssetStore
