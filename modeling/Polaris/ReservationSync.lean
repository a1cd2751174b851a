import Polaris.DhcpAssociation

namespace Polaris.ReservationSync

open Polaris.AssetLookup Polaris.DhcpAssociation Polaris.Lib.Store Polaris.Netmask
open Polaris.ConflictResolution hiding Asset Db
open Polaris.Reservations hiding Subnet Db

section Data

inductive VipRole
  | external | mapped
  deriving DecidableEq

def VipRole.text : VipRole → String
  | .external => "external"
  | .mapped => "mapped"

structure VipInfo where
  name : String
  device : String
  extip : String
  role : VipRole
  deriving DecidableEq

structure SyncReservation extends Reservation where
  vipInfo : Option VipInfo := none
  staleNotifiedAt : Option Nat := none
  staleSnoozedUntil : Option Nat := none
  deriving DecidableEq

def rowKey (r : SyncReservation) : Option (String × String × ReservationStatus) := uniqueKey r.toReservation

structure Db where
  reservations : Table rowKey
  conflicts : Table (Table.noKey (α := Conflict))

structure FortiSwitch where
  device : String
  name : String
  ipAddress : String
  fgtInterface : String

structure FortiAp where
  device : String
  name : String
  serial : String
  ipAddress : String

structure Vip where
  device : String
  name : String
  extip : String
  mappedips : List String

structure InterfaceIp where
  device : String
  interfaceName : String
  ipAddress : String
  role : String

structure DiscoveryResult where
  fortiSwitches : List FortiSwitch := []
  fortiAps : List FortiAp := []
  vips : List Vip := []
  vipInventoriedDevices : List String := []
  interfaceIps : List InterfaceIp := []
  dhcpEntries : List DhcpEntry := []
  dhcpReservationsInventoriedDevices : List String := []

inductive IntegrationType
  | windowsserver | fortigate | fortimanager
  deriving DecidableEq

def IntegrationType.label : IntegrationType → String
  | .windowsserver => "Windows Server"
  | .fortigate => "FortiGate"
  | .fortimanager => "FortiManager"

inductive SyncMode
  | full | skipDeprecation | deprecationOnly | finalize
  deriving DecidableEq

/-- One run: what it was given, the subnets it knows after its first phase
and the assets as the infrastructure phases left them. -/
structure Call where
  integrationId : String
  integrationType : IntegrationType
  mode : SyncMode
  result : DiscoveryResult
  subnets : List Subnet
  assets : AssetIndex
  now : Nat

def Call.projectRefLabel (c : Call) : String := c.integrationType.label ++ " Integration"

abbrev MapKey := String × Option String

structure Run where
  db : Db
  active : List (MapKey × Row SyncReservation)

end Data

section Map

variable {κ ν : Type} [DecidableEq κ]

def mapGet (key : κ) (m : List (κ × ν)) : Option ν := (m.find? (·.1 = key)).map Prod.snd

def mapSet (key : κ) (v : ν) (m : List (κ × ν)) : List (κ × ν) :=
  if m.any (·.1 = key) then m.map fun p => if p.1 = key then (key, v) else p else m ++ [(key, v)]

end Map

section Statements

def preload (db : Db) : List (MapKey × Row SyncReservation) :=
  (db.reservations.rows.filter (·.data.status = .active)).foldl
    (fun m r => if r.data.sourceType = .dnsResolved then m else mapSet (r.data.subnetId,
      truthy r.data.ipAddress) r m) []

def Db.updateReservation (db : Db) (id : Nat) (f : SyncReservation → SyncReservation) : Db :=
  { db with reservations := (db.reservations.updateWhere (·.id = id) f).getD db.reservations }

def markReleased (r : SyncReservation) : SyncReservation := { r with status := .released }

def dnsResolvedAt (subnetId ip : String) (r : Row SyncReservation) : Bool :=
  r.data.subnetId = subnetId && r.data.ipAddress = some ip && r.data.status = .active &&
    r.data.sourceType = .dnsResolved

def Db.releaseDnsResolvedAt (db : Db) (subnetId ip : String) : Db :=
  { db with
    reservations := (db.reservations.updateWhere (dnsResolvedAt subnetId ip) markReleased).getD db.reservations }

def Run.inMemory (run : Run) (key : MapKey) (f : SyncReservation → SyncReservation) : Run :=
  { run with active := run.active.map fun p => if p.1 = key then (p.1, { p.2 with data := f p.2.data }) else p }

/-- A row that the unique key rejects is not created. -/
def Run.create (run : Run) (subnetId ip : String) (data : SyncReservation) : Run :=
  let db := run.db.releaseDnsResolvedAt subnetId ip
  match db.reservations.insert data with
  | none => { run with db := db }
  | some reservations =>
    { db := { db with reservations := reservations }
      active := mapSet (subnetId, some ip) ⟨db.reservations.nextId, data⟩ run.active }

end Statements

section Conflicts

structure Proposed where
  hostname : Option String
  owner : Option String
  projectRef : Option String
  notes : Option String
  sourceType : SourceType

def conflictFields (p : Proposed) (existing : Reservation) : List String :=
  (if p.hostname ≠ existing.hostname then ["hostname"] else []) ++
    (if p.owner ≠ existing.owner then ["owner"] else []) ++
    (if p.projectRef ≠ existing.projectRef then ["projectRef"] else [])

def MERGE_TYPES : List SourceType := [.vip, .dhcpReservation, .dhcpLease]

def pendingFor (reservationId : Nat) (r : Row Conflict) : Bool :=
  r.data.reservationId = some reservationId && r.data.status = .pending

def autoRejected (now : Nat) (c : Conflict) : Conflict :=
  { c with status := .rejected, resolvedBy := some "auto", resolvedAt := some now }

def Db.rejectPending (db : Db) (now reservationId : Nat) : Db :=
  { db with conflicts := db.conflicts.amendWhere (pendingFor reservationId) (autoRejected now) }

def THIRTY_DAYS : Nat := 30 * 24 * 60 * 60 * 1000

def recentlyResolved (now reservationId : Nat) (r : Row Conflict) : Bool :=
  r.data.reservationId = some reservationId && r.data.status ≠ .pending &&
    r.data.proposedSourceType.any (· ∈ MERGE_TYPES) && r.data.resolvedAt.any (now ≤ · + THIRTY_DAYS)

def conflictData (integrationId : String) (p : Proposed) (fields : List String) (c : Conflict) : Conflict :=
  { c with
    integrationId := some integrationId, proposedHostname := p.hostname, proposedOwner := p.owner
    proposedProjectRef := p.projectRef, proposedNotes := p.notes, proposedSourceType := some p.sourceType
    conflictFields := fields }

/-- One pending conflict a reservation, closed when the values agree again. A
merge that was decided lately is not raised anew. -/
def Db.upsertConflict (db : Db) (integrationId : String) (now reservationId : Nat) (p : Proposed)
    (existing : Reservation) : Db :=
  if conflictFields p existing = [] then db.rejectPending now reservationId
  else
    match db.conflicts.rows.find? (pendingFor reservationId) with
    | some row =>
      { db with conflicts :=
        db.conflicts.amendWhere (·.id = row.id) (conflictData integrationId p (conflictFields p existing)) }
    | none =>
      if p.sourceType ∈ MERGE_TYPES ∧ db.conflicts.rows.any (recentlyResolved now reservationId) then db
      else
        let raised := conflictData integrationId p (conflictFields p existing)
          { reservationId := some reservationId }
        { db with conflicts := db.conflicts.append raised }

def Run.upsertConflict (run : Run) (c : Call) (row : Row SyncReservation) (p : Proposed) : Run :=
  { run with db := run.db.upsertConflict c.integrationId c.now row.id p row.data.toReservation }

def Run.rejectPending (run : Run) (c : Call) (row : Row SyncReservation) : Run :=
  { run with db := run.db.rejectPending c.now row.id }

end Conflicts

section Infrastructure

variable (N : Package) (C : Casing) (c : Call)

def discovered (subnetId ip : String) (p : Proposed) : SyncReservation :=
  { subnetId := subnetId, ipAddress := some ip, hostname := p.hostname, owner := p.owner,
    projectRef := p.projectRef
    notes := p.notes, sourceType := p.sourceType }

/-- What a device says about its own address: a conflict for a manual row, a
row of its own where there is none. -/
def offer (ip : String) (p : Proposed) (run : Run) : Run :=
  match findSubnetForIp N c.subnets ip with
  | none => run
  | some subnet =>
    match mapGet (subnet.id, some ip) run.active with
    | some row => if row.data.sourceType = .manual then run.upsertConflict c row p else run
    | none => run.create subnet.id ip (discovered subnet.id ip p)

def switchNotes (sw : FortiSwitch) : String :=
  "Auto-discovered from FortiGate " ++ sw.device ++
    (if sw.fgtInterface = "" then "" else " via " ++ sw.fgtInterface) ++
    " via " ++ c.integrationType.label

def syncSwitch (run : Run) (sw : FortiSwitch) : Run :=
  if sw.ipAddress = "" then run
  else
    offer N c sw.ipAddress
      { hostname := truthy (some sw.name), owner := some "network-team", projectRef := some c.projectRefLabel
        notes := some (switchNotes c sw), sourceType := .fortiswitch } run

def dhcpByHostname (key : String) : Option DhcpEntry :=
  c.result.dhcpEntries.find? fun e => e.hostname ≠ "" && e.ipAddress ≠ "" && C.toLowerCase e.hostname = key

def resolvedIp (ap : FortiAp) : Option String :=
  (truthy (some ap.ipAddress)).or
    (((dhcpByHostname C c (C.toLowerCase ap.name)).or (dhcpByHostname C c (C.toLowerCase ap.serial))).map
      (·.ipAddress))

def syncAp (run : Run) (ap : FortiAp) : Run :=
  match resolvedIp C c ap with
  | none => run
  | some ip =>
    offer N c ip
      { hostname := truthy (some ap.name), owner := some "network-team", projectRef := some c.projectRefLabel
        notes := some ("FortiAP managed by FortiGate " ++ ap.device), sourceType := .fortinap } run

def interfaceRoleLabel (role : String) : String :=
  if role = "management" then "Management interface"
  else if role = "secondary" then "Secondary IP"
  else "Interface"

def syncInterface (run : Run) (i : InterfaceIp) : Run :=
  if i.ipAddress = "" then run
  else
    offer N c i.ipAddress
      { hostname := some i.device, owner := some "network-team", projectRef := some c.projectRefLabel
        notes := some (interfaceRoleLabel i.role ++ " (" ++ i.interfaceName ++ ") on " ++ i.device)
        sourceType := .interfaceIp } run

end Infrastructure

section Vips

variable (N : Package) (c : Call)

def vipAddresses (vip : Vip) : List (String × VipRole) :=
  (vip.extip, .external) :: vip.mappedips.map fun ip => (ip, .mapped)

def currentVipKeys : List MapKey :=
  c.result.vips.flatMap fun vip =>
    (vipAddresses vip).filterMap fun a => (findSubnetForIp N c.subnets a.1).map fun s => (s.id, some a.1)

def vipProposed (vip : Vip) (role : VipRole) : Proposed where
  hostname := some vip.name
  owner := some "fortimanager-vip"
  projectRef := some ("VIP: " ++ vip.device)
  notes := some ("Firewall VIP \"" ++ vip.name ++ "\" (" ++ role.text ++ ") on " ++ vip.device ++
    " — ext: " ++ vip.extip)
  sourceType := .vip

def setVipInfo (info : Option VipInfo) (r : SyncReservation) : SyncReservation := { r with vipInfo := info }

def refreshVipInfo (key : MapKey) (row : Row SyncReservation) (info : VipInfo) (run : Run) : Run :=
  if row.data.vipInfo.any fun cur =>
    cur.name = info.name && cur.device = info.device && cur.role = info.role then run
  else { run with db := run.db.updateReservation row.id (setVipInfo (some info)) }.inMemory key
    (setVipInfo (some info))

def syncVipAddress (vip : Vip) (run : Run) (a : String × VipRole) : Run :=
  match findSubnetForIp N c.subnets a.1 with
  | none => run
  | some subnet =>
    match mapGet (subnet.id, some a.1) run.active with
    | some row =>
      match row.data.sourceType with
      | .manual => run.upsertConflict c row (vipProposed vip a.2)
      | .vip => refreshVipInfo (subnet.id, some a.1) row ⟨vip.name, vip.device, vip.extip, a.2⟩ run
      | .dhcpReservation | .dhcpLease =>
        (refreshVipInfo (subnet.id, some a.1) row ⟨vip.name, vip.device, vip.extip,
          a.2⟩ run).upsertConflict c row
          (vipProposed vip a.2)
      | _ => run
    | none => run.create subnet.id a.1 (discovered subnet.id a.1 (vipProposed vip a.2))

def syncVip (run : Run) (vip : Vip) : Run := (vipAddresses vip).foldl (syncVipAddress N c vip) run

end Vips

section Leases

variable (N : Package) (C : Casing) (c : Call)

def EntryType.owner : EntryType → String
  | .dhcpReservation => "dhcp-reservation"
  | .dhcpLease => "dhcp-lease"

def entryNotes (entry : DhcpEntry) : String :=
  let kind := if entry.type = .dhcpReservation then "DHCP reservation" else "DHCP lease"
  String.intercalate " — " ([kind ++ " on " ++ entry.device ++ " (" ++ entry.interfaceName ++ ")"] ++
    (if entry.macAddress = "" then [] else ["MAC: " ++ entry.macAddress]) ++
    (if entry.vci = "" then [] else ["Model: " ++ entry.vci]) ++
    (if entry.ssid = "" then [] else ["SSID: " ++ entry.ssid]) ++
    (if entry.accessPoint = "" then [] else ["AP: " ++ entry.accessPoint]))

def entrySource (entry : DhcpEntry) : SourceType :=
  if "fortiswitch-".isPrefixOf (C.toLowerCase entry.vci) then .fortiswitch
  else if "fortiap-".isPrefixOf (C.toLowerCase entry.vci) then .fortinap
  else if entry.type = .dhcpReservation then .dhcpReservation
  else .dhcpLease

def leaseProposed (entry : DhcpEntry) : Proposed :=
  let matchedAsset := if entry.macAddress = "" then none else findByMac C c.assets (macKey C entry.macAddress)
  { hostname := (matchedAsset.bind fun a => truthy a.hostname).or (truthy (some entry.hostname))
    owner := (matchedAsset.bind fun a => truthy a.assignedTo).or (some (EntryType.owner entry.type))
    projectRef := some c.projectRefLabel
    notes := some (entryNotes entry)
    sourceType := entrySource C entry }

def freshMac (entry : DhcpEntry) : Option String :=
  if entry.macAddress = "" then none else some (macKey C entry.macAddress)

/-- The entry a queued row asks for is on the device already. -/
def adoptable (entry : DhcpEntry) (r : Reservation) : Bool :=
  entry.type = .dhcpReservation && (truthy r.macAddress).isSome && (freshMac C entry).isSome &&
    (truthy r.macAddress).map (macKey C) = freshMac C entry && entry.scopeId.isSome && entry.entryId.isSome

def seenOnline (now : Nat) (r : SyncReservation) : SyncReservation :=
  { r with lastSeenLeased := some now, staleNotifiedAt := none, staleSnoozedUntil := none }

def adopt (entry : DhcpEntry) (r : SyncReservation) : SyncReservation :=
  let r := { r with
    sourceType := .dhcpReservation, pushedToId := some c.integrationId, pushedScopeId := entry.scopeId
    pushedEntryId := entry.entryId, pushStatus := some .synced, pushedAt := some c.now, pushError := none
    pushQueuedAt := none, pushAttempts := 0, pushLastAttemptAt := none }
  if entry.seenLeased then seenOnline c.now r else r

def adopted (r : SyncReservation) : SyncReservation :=
  { r with sourceType := .dhcpReservation, pushStatus := some .synced }

def collide (entry : DhcpEntry) (r : SyncReservation) : SyncReservation :=
  { r with
    pushStatus := some .failedPermanent
    pushError := some ("IP collided during queue — discovered " ++ (entrySource C entry).text ++
      ((freshMac C entry).map (" by " ++ ·)).getD "")
    pushLastAttemptAt := some c.now }

def collided (r : SyncReservation) : SyncReservation := { r with pushStatus := some .failedPermanent }

def online (entry : DhcpEntry) (r : SyncReservation) : SyncReservation :=
  if entry.seenLeased ∧ entry.type = .dhcpReservation then seenOnline c.now r else r

def echo (entry : DhcpEntry) (r : SyncReservation) : SyncReservation :=
  online c entry { r with sourceType := .dhcpReservation }

/-- A row that waits in the push queue. -/
def queuedLease (key : MapKey) (row : Row SyncReservation) (entry : DhcpEntry) (run : Run) : Run :=
  if adoptable C entry row.data.toReservation then
    ({ run with db := run.db.updateReservation row.id (adopt c entry) }.rejectPending c row).inMemory key
      adopted
  else { run with db := run.db.updateReservation row.id (collide C c entry) }.inMemory key collided

def manualLease (row : Row SyncReservation) (entry : DhcpEntry) (run : Run) : Run :=
  if (truthy row.data.pushedToId).isSome then
    { run with db := run.db.updateReservation row.id (echo c entry) }.rejectPending c row
  else run.upsertConflict c row (leaseProposed C c entry)

def succeed (entry : DhcpEntry) (row r : SyncReservation) : SyncReservation :=
  let p := leaseProposed C c entry
  let placeholderNotes := (truthy row.notes).all ("Firewall VIP ".isPrefixOf ·)
  { r with
    sourceType := p.sourceType
    vipInfo := none
    owner := if row.owner = some "fortimanager-vip" then p.owner else r.owner
    notes := if placeholderNotes then p.notes else r.notes
    macAddress := if (truthy row.macAddress).isNone then (freshMac C entry).or r.macAddress
      else r.macAddress }

def fillMac (entry : DhcpEntry) (r : SyncReservation) : SyncReservation :=
  { r with macAddress := freshMac C entry }

def vipLease (key : MapKey) (row : Row SyncReservation) (entry : DhcpEntry) (run : Run) : Run :=
  if key ∉ currentVipKeys N c ∧ (row.data.vipInfo.map (·.device)).getD "" ∈
    c.result.vipInventoriedDevices then
    ({ run with
        db := run.db.updateReservation row.id (online c entry ∘ succeed C c entry row.data) }.rejectPending
      c row).inMemory key (succeed C c entry row.data)
  else if (freshMac C entry).isSome ∧ (truthy row.data.macAddress).isNone then
    ({ run with db := run.db.updateReservation row.id (fillMac C entry) }.inMemory key
      (fillMac C entry)).upsertConflict c
      { row with data := fillMac C entry row.data } (leaseProposed C c entry)
  else run.upsertConflict c row (leaseProposed C c entry)

/-- The source follows the device, and a placeholder for the owner follows
the source. -/
def shift (entry : DhcpEntry) (row r : SyncReservation) : SyncReservation :=
  if row.sourceType ≠ entrySource C entry then
    { r with
      sourceType := entrySource C entry
      owner :=
        if row.owner = some "dhcp-lease" ∨ row.owner = some "dhcp-reservation" then
          some (if entrySource C entry = .dhcpReservation then "dhcp-reservation" else "dhcp-lease")
        else r.owner }
  else r

def syncLease (run : Run) (entry : DhcpEntry) : Run :=
  if entry.ipAddress = "" then run
  else
    match findSubnetForIp N c.subnets entry.ipAddress with
    | none => run
    | some subnet =>
      let key := (subnet.id, some entry.ipAddress)
      match mapGet key run.active with
      | some row =>
        match row.data.sourceType with
        | .manual =>
          if row.data.pushStatus = some .pending then queuedLease C c key row entry run
          else manualLease C c row entry run
        | .vip => vipLease N C c key row entry run
        | .dhcpLease | .dhcpReservation =>
          { run with db := run.db.updateReservation row.id (online c entry ∘ shift C entry row.data) }
        | _ => run
      | none =>
        let p := leaseProposed C c entry
        let expiresAt :=
          if entry.type = .dhcpLease then (entry.expireTime.filter (0 < ·)).map (· * 1000) else none
        run.create subnet.id entry.ipAddress
          { discovered subnet.id entry.ipAddress p with
            macAddress := freshMac C entry
            expiresAt := expiresAt
            lastSeenLeased := if entry.seenLeased ∧ entry.type = .dhcpReservation then some c.now else none }

end Leases

section Sweep

variable (N : Package) (c : Call)

def stillOnGateKeys : List MapKey :=
  c.result.dhcpEntries.filterMap fun e =>
    if e.ipAddress ≠ "" ∧ e.device ∈ c.result.dhcpReservationsInventoriedDevices then
      (findSubnetForIp N c.subnets e.ipAddress).map fun s => (s.id, some e.ipAddress)
    else none

def releaseVip (r : SyncReservation) : SyncReservation := { r with status := .released, vipInfo := none }

def releaseDhcp (r : SyncReservation) : SyncReservation :=
  { r with
    status := .released, pushedToId := none, pushedScopeId := none, pushedEntryId := none,
    pushStatus := none }

def sweepable (subnetId : String) : Bool :=
  (c.subnets.reverse.find? (·.id = subnetId)).any fun s =>
    s.discoveredBy = some c.integrationId &&
      (truthy s.fortigateDevice).any (· ∈ c.result.dhcpReservationsInventoriedDevices)

def stale (key : MapKey) (row : SyncReservation) : Option (SyncReservation → SyncReservation) :=
  match row.sourceType with
  | .vip =>
    if (row.vipInfo.map (·.device)).getD "" ∈ c.result.vipInventoriedDevices ∧
      key ∉ currentVipKeys N c then some releaseVip
    else none
  | .dhcpReservation =>
    if sweepable c row.subnetId ∧ key ∉ stillOnGateKeys N c then some releaseDhcp else none
  | _ => none

def sweepRow (run : Run) (p : MapKey × Row SyncReservation) : Run :=
  match stale N c p.1 p.2.data with
  | none => run
  | some release =>
    match run.db.reservations.updateWhere (·.id = p.2.id) release with
    | none => run
    | some reservations =>
      { db := { run.db with reservations := reservations }.rejectPending c.now p.2.id
        active := run.active.filter (·.1 ≠ p.1) }

def sweepStale (run : Run) : Run := run.active.foldl (sweepRow N c) run

end Sweep

section CrossUpdate

variable (N : Package) (C : Casing) (c : Call)

/-- The last phase in memory: the index, the rows and the writes to come. -/
structure Cross where
  idx : AssetIndex
  active : List (MapKey × Row SyncReservation)
  resUpdates : List (Nat × ResUpdate) := []

def applyUpdate (u : ResUpdate) (r : SyncReservation) : SyncReservation :=
  { r with toReservation := u.apply r.toReservation }

def crossEntry (s : Cross) (entry : DhcpEntry) : Cross :=
  match attributed C s.idx entry with
  | none => s
  | some asset =>
    let s := { s with idx := associate C N c.subnets c.now s.idx entry }
    match findSubnetForIp N c.subnets entry.ipAddress with
    | none => s
    | some subnet =>
      let key := (subnet.id, some entry.ipAddress)
      match mapGet key s.active with
      | none => s
      | some row =>
        let u := crossUpdate C asset (macKey C entry.macAddress) row.data.toReservation
        if u.isEmpty then s
        else
          { s with
            resUpdates := s.resUpdates ++ [(row.id, u)]
            active := s.active.map fun p =>
              if p.1 = key then (p.1, { p.2 with data := applyUpdate u p.2.data }) else p }

def crossUpdates (active : List (MapKey × Row SyncReservation)) : List (Nat × ResUpdate) :=
  (c.result.dhcpEntries.foldl (crossEntry N C c) { idx := c.assets, active := active }).resUpdates

def Db.applyUpdates (db : Db) (updates : List (Nat × ResUpdate)) : Db :=
  updates.foldl (fun db u => db.updateReservation u.1 (applyUpdate u.2)) db

end CrossUpdate

section Sync

variable (N : Package) (C : Casing) (c : Call)

def discover (run : Run) : Run :=
  let run := c.result.fortiSwitches.foldl (syncSwitch N c) run
  let run := c.result.fortiAps.foldl (syncAp N C c) run
  let run := c.result.vips.foldl (syncVip N c) run
  let run := c.result.interfaceIps.foldl (syncInterface N c) run
  c.result.dhcpEntries.foldl (syncLease N C c) run

/-- What `syncDhcpSubnets` does to reservations and their conflicts. -/
def sync (db : Db) : Db :=
  if c.mode = .full ∨ c.mode = .skipDeprecation then
    let run := sweepStale N c (discover N C c ⟨db, preload db⟩)
    run.db.applyUpdates (crossUpdates N C c run.active)
  else db

end Sync

section Decisions

def resolved (status : ConflictStatus) (actor : Option String) (now : Nat) (c : Conflict) : Conflict :=
  { c with status := status, resolvedBy := actor, resolvedAt := some now }

def Db.resolve (db : Db) (conflictId : Nat) (status : ConflictStatus) (actor : Option String)
    (now : Nat) : Db :=
  { db with conflicts := db.conflicts.amendWhere (·.id = conflictId) (resolved status actor now) }

/-- The handlers of the conflict routes, past their checks. -/
def accept (conflictId : Nat) (actor : Option String) (now : Nat) (db : Db) : Db :=
  match db.conflicts.rows.find? fun r => r.id = conflictId && r.data.status = .pending with
  | none => db
  | some conflict =>
    match conflict.data.reservationId.bind db.reservations.find with
    | none => db
    | some row =>
      let u := acceptReservationUpdate conflict.data row.data.toReservation
      let db := db.updateReservation row.id fun r =>
        { r with toReservation := applyReservationUpdate u r.toReservation }
      db.resolve conflictId .accepted actor now

def reject (conflictId : Nat) (actor : Option String) (now : Nat) (db : Db) : Db :=
  match db.conflicts.rows.find? fun r => r.id = conflictId && r.data.status = .pending with
  | none => db
  | some _ => db.resolve conflictId .rejected actor now

end Decisions

end Polaris.ReservationSync
