import Polaris.AssetStore

namespace Polaris.AssetSync

open Polaris.AssetLookup (Casing findById)
open Polaris.AssetStore Polaris.GatewaySync Polaris.Lib.Snapshots Polaris.Lib.Store Polaris.Netmask
open Polaris.ClusterSync (Discovery Device Member Source standby staleFirewall staleInfra)
open Polaris.ConflictResolution (AssetStatus clampAcquiredToLastSeen)
open Polaris.DhcpAssociation (DhcpEntry attributed)
open Polaris.DirectorySync hiding isHexDigit
open Polaris.QuarantinePush (QuarantineTargetRecord)
open Polaris.Reservations (truthy)
open Polaris.SubnetDiscovery (SyncMode)

section Calls

structure ClassBlock where
  enabled : Bool := false
  snmpCredentialId : Option String := none
  sshCredentialId : Option String := none
  addAsMonitored : Bool := false

structure MonitorConfig where
  responseTimePolling : Option String := none
  fortigateAddAsMonitored : Bool := false
  fortiswitchMonitor : ClassBlock := {}
  fortiapMonitor : ClassBlock := {}

/-- A call, with what it reads besides the tables: the config, what the
controllers answered, and what a push to the gateways comes to. -/
structure SyncCall extends GatewaySync.Sync where
  mode : SyncMode := .full
  config : MonitorConfig := {}
  knownDeviceNames : List String := []
  cmdbSwitchSerials : List String := []
  cmdbApSerials : List String := []
  switchInventoriedDevices : List String := []
  apInventoriedDevices : List String := []
  joinTime : FortiSwitch → Option Nat := fun _ => none
  quarantineCall : Nat → AssetQuarantine.QuarantineCall
  verified : Nat → Option (List QuarantineTargetRecord) := fun _ => none

variable (c : SyncCall)

def SyncCall.monitorConfig : MonitorConfig :=
  if c.integration.type = "fortimanager" ∨ c.integration.type = "fortigate" then c.config else {}

def named (names : List String) : List String := names.filter (· ≠ "")

def SyncCall.discovery : Discovery where
  devices := c.result.devices
  knownDeviceNames := c.knownDeviceNames
  switchSerials := named (c.result.fortiSwitches.map (·.serial)) ++ c.cmdbSwitchSerials
  switchHostnames := named (c.result.fortiSwitches.map (·.name))
  apSerials := named (c.result.fortiAps.map (·.serial)) ++ c.cmdbApSerials
  apHostnames := named (c.result.fortiAps.map (·.name))
  switchInventoriedDevices := c.switchInventoriedDevices
  apInventoriedDevices := c.apInventoriedDevices

def pickStamp (responseTimePolling : Option String) (block : ClassBlock) : Option String :=
  if responseTimePolling = some "ssh" then block.sshCredentialId.or block.snmpCredentialId
  else block.snmpCredentialId.or block.sshCredentialId

/-- What a call remembers of an asset besides its index. -/
structure Known where
  acquiredAt : Option Nat := none
  monitorCredentialId : Option String := none
  monitoredOperatorSet : Bool := false

def remembered (a : Asset) : Known := ⟨a.acquiredAt, a.monitorCredentialId, a.monitoredOperatorSet⟩

structure Stamp where
  discoveredByIntegrationId : Option String := none
  monitorCredentialId : Option String := none
  monitored : Bool := false

def buildClassMonitorStamp (block : ClassBlock) (existing : Known) : Stamp :=
  let flip : Bool := block.addAsMonitored && !existing.monitoredOperatorSet
  if block.enabled = false ∧ block.addAsMonitored = false then {}
  else
    match if block.enabled then truthy (pickStamp c.monitorConfig.responseTimePolling block) else none with
    | none => { discoveredByIntegrationId := some c.integration.id, monitored := flip }
    | some credential =>
      if existing.monitorCredentialId = none ∨ existing.monitorCredentialId = some credential then
        { discoveredByIntegrationId := some c.integration.id, monitorCredentialId := some credential,
          monitored := flip }
      else { discoveredByIntegrationId := some c.integration.id }

def swJoinDate (sw : FortiSwitch) : Option Nat := ((c.joinTime sw).filter (0 < ·)).map (· * 1000)

end Calls

section Columns

variable (c : SyncCall) (job : Option Job) (known : Known) (seen : Option Nat) (u : AssetUpdate)

/-- The columns that a write sets besides those of its statement. -/
structure Side where
  acquiredAt : Option Nat := none
  stamp : Stamp := {}

def stampOf : Option Job → Known → Stamp
  | some (.switch _), known => buildClassMonitorStamp c c.monitorConfig.fortiswitchMonitor known
  | some (.accessPoint _), known => buildClassMonitorStamp c c.monitorConfig.fortiapMonitor known
  | _, _ => {}

def acquiredAtUpdate : Option Job → Option Nat
  | some (.switch sw) => (swJoinDate c sw).filter fun joined =>
    known.acquiredAt.all fun acquired => joined < acquired
  | _ => none

/-- The leases and the ARP entries are written without the clamp. -/
def clamps : Option Job → Bool
  | some (.member _ _) | some (.switch _) | some (.accessPoint _) | some (.inventory _)
  | some .corrections => true
  | _ => false

def updateSide : Side where
  acquiredAt := if clamps job then clampAcquiredToLastSeen (acquiredAtUpdate c known job) u.lastSeen
    known.acquiredAt seen else none
  stamp := stampOf c job known

def createSide (row : ClusterSync.AssetRow) : Option Job → Side
  | some (.member d m) => { stamp := { monitored := c.monitorConfig.fortigateAddAsMonitored && !standby d m } }
  | some (.switch sw) =>
    { acquiredAt := clampAcquiredToLastSeen (swJoinDate c sw) row.lastSeen none none,
      stamp := stampOf c (some (.switch sw)) {} }
  | job => { stamp := stampOf c job {} }

def Side.apply (side : Side) (status : Option AssetStatus) (a : Asset) : Asset :=
  { a with
    acquiredAt := side.acquiredAt.or a.acquiredAt
    discoveredByIntegrationId := side.stamp.discoveredByIntegrationId.or a.discoveredByIntegrationId
    monitorCredentialId := side.stamp.monitorCredentialId.or a.monitorCredentialId
    monitored := clampMonitoredForStatus status (side.stamp.monitored || a.monitored) }

/-- Only two of the phases keep what they wrote. -/
def keeps : Option Job → Bool
  | some (.inventory _) | some .corrections => true
  | _ => false

def Known.patch (side : Side) : Known :=
  if keeps job then { known with acquiredAt := side.acquiredAt.or known.acquiredAt } else known

end Columns

section Gateway

variable (C : Casing) (N : Package) (order : List Source → List Source)

inductive Task
  | job (job : Job)
  | deprecateStale
  | autoQuarantine

def withAutoQuarantine : Job → List Task
  | .dhcp => [.job .dhcp, .autoQuarantine]
  | job => [.job job]

/-- The phases of a mode. The last two find nothing to do where no asset was
touched. -/
def tasks (c : SyncCall) : List Task :=
  let phase1 := c.result.subnets.length + 1
  let networks := ((jobs c.result).take phase1).map .job
  let devices := ((jobs c.result).drop phase1).flatMap withAutoQuarantine
  match c.mode with
  | .full => networks ++ .deprecateStale :: devices
  | .skipDeprecation => networks ++ devices
  | .deprecationOnly | .finalize => [.deprecateStale]

structure LifeCall where
  sync : SyncCall
  call : Call
  known : Nat → Known := fun _ => {}
  job : Option Job := none
  tasks : List Task := []
  sighted : List (Nat × String) := []

def LifeCall.start (c : SyncCall) : LifeCall := { sync := c, call := .start 0 c.toSync }

def remember (w : World) (id : Nat) : Known := ((w.assets.find id).map fun r => remembered r.data).getD {}

def sightings (c : GatewaySync.Sync) (mem : Memory) : List DhcpEntry → List (Nat × String)
  | [] => []
  | entry :: entries =>
    match attributed C mem.idx entry with
    | none => sightings c mem entries
    | some a =>
      (if entry.device = "" then [] else [(a.id, entry.device)]) ++
        sightings c (planLease C N c { memory := mem } entry).memory entries

inductive AssetWrite
  | update (id : Nat) (u : AssetUpdate)
  | create (row : ClusterSync.AssetRow)

def Write.asset : Write → Option AssetWrite
  | .updateAsset id _ u => some (.update id u)
  | _ => none

def due (j : Nat) (t : Call) : Option AssetWrite :=
  match t.seq with
  | .write w :: _ => Write.asset w
  | .createAsset _ row _ _ _ :: _ => some (.create row)
  | _ :: _ => none
  | [] => ((t.batch[j]?).bind (·.head?)).bind Write.asset

def lastSeenOf (mem : Memory) (id : Nat) : Option Nat := (findById mem.idx id).bind (·.lastSeen)

def statement (j : Nat) (mem : Memory) (w : World) (s : LifeCall) : World × LifeCall :=
  let r := act C N order j w.gateway s.call
  match due j s.call with
  | none => (w.withGateway r.1, { s with call := r.2 })
  | some (.update id u) =>
    let side := updateSide s.sync s.job (s.known id) (lastSeenOf mem id) u
    ((w.withGateway r.1).update id (side.apply u.status),
      { s with call := r.2, known := Function.update s.known id ((s.known id).patch s.job side) })
  | some (.create row) =>
    let id := w.assets.nextId
    let side := createSide s.sync row s.job
    let written := (w.withGateway r.1).update id (side.apply (some row.status))
    (written, { s with call := r.2, known := Function.update s.known id (remember written id) })

def integrationLabel (type : String) : String :=
  if type = "windowsserver" then "Windows Server" else if type = "fortigate" then "FortiGate"
    else "FortiManager"

def staleSubnetIds (c : SyncCall) (mem : Memory) : List Nat :=
  if ClusterSync.knownDeviceNames c.discovery = [] then []
  else (mem.allSubnets.filter fun r =>
    c.source.stale (ClusterSync.knownDeviceNames c.discovery) r.data).map Row.id

def deprecateFirewalls (c : SyncCall) (w : World) : World :=
  if ClusterSync.knownDeviceNames c.discovery ≠ [] ∧
    (c.integration.type = "fortimanager" ∨ c.integration.type = "fortigate") then
    { w with
      assets := w.assets.amendWhere (staleFirewall c.integration c.discovery ·.data.toAssetRow)
        (decommissioned (integrationLabel c.integration.type)) }
  else w

def deprecateInfra (c : SyncCall) (w : World) : World :=
  if c.switchInventoriedDevices ≠ [] ∨ c.apInventoriedDevices ≠ [] then
    { w with
      assets := w.assets.amendWhere (staleInfra c.integration c.discovery ·.data.toAssetRow)
        (decommissioned (integrationLabel c.integration.type)) }
  else w

/-- Phases 2, 2a and 2b. The memory keeps the assets as they were. -/
def deprecateStale (mem : Memory) (w : World) (s : LifeCall) : World × LifeCall :=
  let ids := staleSubnetIds s.sync mem
  let subnets := w.subnets.amendWhere (·.id ∈ ids) SubnetDiscovery.Subnet.deprecate
  let mem := { mem with allSubnets := mem.allSubnets.map (amend (·.id ∈ ids) SubnetDiscovery.Subnet.deprecate) }
  (deprecateInfra s.sync (deprecateFirewalls s.sync { w with subnets := subnets }),
    { s with call := { s.call with memory := some mem } })

/-- A sighted asset that is quarantined is quarantined on this gateway too,
or what the gateway holds of it is looked at. -/
def autoQuarantine (c : SyncCall) (pair : Nat × String) (w : World) : World :=
  match w.assets.find pair.1 with
  | none => w
  | some r =>
    if r.data.status ≠ .quarantined then w
    else if (r.data.quarantineTargets.find? (·.fortigateDevice = pair.2)).any (·.status = .synced) then
      match c.verified pair.1 with
      | none => w
      | some targets => w.update pair.1 fun a => { a with quarantineTargets := targets }
    else
      (quarantineAsset pair.1
        { c.quarantineCall pair.1 with
          assetId := toString pair.1, actor := "system:auto-quarantine", reason := none,
          tokenIntegrationIds := none } w).1

def next (s : World × LifeCall) (j : Nat) : World × LifeCall :=
  match s.2.call.memory with
  | none =>
    (s.1, { s.2 with
      call := { s.2.call with memory := some (preload C s.1.gateway) }, known := remember s.1,
        tasks := tasks s.2.sync })
  | some mem =>
    if s.2.call.done then
      match s.2.tasks with
      | [] => s
      | .job job :: tasks =>
        (s.1, { s.2 with
          call := { s.2.call with todo := [job] }, job := some job, tasks := tasks
          sighted :=
            match job with
            | .dhcp => (sightings C N s.2.sync.toSync mem s.2.sync.result.dhcpEntries).eraseDups
            | _ => s.2.sighted })
      | .deprecateStale :: tasks => deprecateStale mem s.1 { s.2 with tasks := tasks }
      | .autoQuarantine :: tasks =>
        match s.2.sighted with
        | [] => (s.1, { s.2 with tasks := tasks })
        | pair :: sighted => (autoQuarantine s.2.sync pair s.1, { s.2 with sighted := sighted })
    else statement C N order j mem s.1 s.2

/-- A sync as far as the schedule takes it. In a batch the schedule chooses
the next list. -/
def syncDhcpSubnets (c : SyncCall) (schedule : List Nat) (w : World) : World :=
  (schedule.foldl (next C N order) (w, .start c)).1

end Gateway

section Directories

variable (C : Casing) (c : DirectoryTables.Sync)

def statusWritten (status : AssetStatus) (a : Asset) : Asset :=
  { a with monitored := clampMonitoredForStatus (some status) a.monitored }

def entra : Loop World EntraMemory EntraDevice EntraFound where
  load w := loadEntra C c w.directory
  look mem dev := lookEntra C dev mem
  write w dev found :=
    let written := w.withDirectory (writeEntraFound C c w.directory dev found)
    match found.target dev with
    | none => written
    | some (id, _) => written.update id (statusWritten (entraStatus dev))
  patch w mem dev found := patchEntra C c w.directory dev mem found

def activeDirectory : Loop World AdMemory AdDevice AdFound where
  load w := loadAd C c w.directory
  look mem dev := lookAd C dev mem
  write w dev found :=
    let written := w.withDirectory (writeAdFound C c w.directory dev found)
    match found with
    | .existing id _ => written.update id (statusWritten (adStatus dev))
    | _ => written
  patch w mem dev found := patchAd C c w.directory dev mem found

def adTarget : AdFound → Option (Nat × AdSubject)
  | .existing id a => some (id, a)
  | _ => none

end Directories

section Runs

inductive Op
  | createAsset (username : Option String) (input : CreateAsset)
  | updateAsset (username : Option String) (id : Nat) (input : UpdateAsset)
  | bulkMonitor (body : BulkMonitor)
  | importPdf (username : Option String) (rows : List ImportRow) (dryRun : Bool)
  | decommissionStaleAssets (run : DecommissionRun)
  | quarantineAsset (id : Nat) (c : AssetQuarantine.QuarantineCall)
  | releaseQuarantine (id : Nat) (c : AssetQuarantine.ReleaseCall)
  | syncDhcpSubnets (c : SyncCall) (schedule : List Nat)
  | syncEntraDevices (c : DirectoryTables.Sync) (devices : List EntraDevice)
  | syncActiveDirectoryDevices (c : DirectoryTables.Sync) (devices : List AdDevice)

variable (env : Env) (N : Package) (order : List Source → List Source)

/-- The syncs, the requests and the jobs, one after another. -/
def step (w : World) : Op → World
  | .createAsset username input => (AssetStore.createAsset env username input w).1
  | .updateAsset username id input => (AssetStore.updateAsset env username id input w).1
  | .bulkMonitor body => (AssetStore.bulkMonitor body w).1
  | .importPdf username rows dryRun => (AssetStore.importPdf env username rows dryRun w).1
  | .decommissionStaleAssets run => AssetStore.decommissionStaleAssets run w
  | .quarantineAsset id c => (AssetStore.quarantineAsset id c w).1
  | .releaseQuarantine id c => (AssetStore.releaseQuarantine id c w).1
  | .syncDhcpSubnets c schedule => syncDhcpSubnets env.casing N order c schedule w
  | .syncEntraDevices c devices => (entra env.casing c).run w devices
  | .syncActiveDirectoryDevices c devices => (activeDirectory env.casing c).run w devices

end Runs

end Polaris.AssetSync
