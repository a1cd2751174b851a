import Polaris.DnsResolved
import Polaris.Lib.Checks
import Polaris.Lib.Rollup

namespace Polaris.SubnetRefresh

open Polaris.Lib.Text Polaris.Lib.Store Polaris.Lib.Rollup Polaris.Lib.Faults Polaris.Netmask Polaris.Cidr
  Polaris.Mac
  Polaris.Transport Polaris.ReservationPush Polaris.Reservations Polaris.DnsResolved

section Leases

structure DhcpLease where
  ip : String
  mac : Option String := none
  hostname : Option String := none
  serverInterface : Option String := none
  reserved : Bool := false
  deriving DecidableEq

inductive MonitorEntry
  | group (serverInterface ifc : Option String) (leases : List DhcpLease)
  | lease (l : DhcpLease)

def MonitorEntry.flatten : MonitorEntry → List DhcpLease
  | .group serverInterface ifc leases =>
    leases.map fun l =>
      { l with serverInterface := (truthy (serverInterface.or ifc)).or (truthy l.serverInterface) }
  | .lease l => if l.ip = "" then [] else [l]

variable (N : Package)

/-- The leases of the scope. Whether or not a lease names another interface
than the server's, it is kept when its address lies in the subnet. -/
def fetchLiveLeasesForScope (entries : List MonitorEntry) (subnetCidr : String) :
    Except Failure (List DhcpLease) :=
  (entries.flatMap MonitorEntry.flatten).filterM fun l =>
    if l.ip = "" ∨ l.ip = "0.0.0.0" then .ok false
    else
      match N.parse subnetCidr with
      | none => .ok true
      | some block =>
        match contains N block l.ip with
        | some inside => .ok inside
        | none => .error (.thrown "Invalid ip address")

end Leases

section Description

def lineTerminator (c : Char) : Bool :=
  c = '\n' || c = '\r' || c = Char.ofNat 0x2028 || c = Char.ofNat 0x2029

/-- What follows the colon of a description Polaris wrote. -/
def polarisBody (desc : List Char) : Option (List Char) :=
  match "Polaris".toList.isPrefixOf? desc with
  | some (':' :: rest) => some rest
  | some ('/' :: rest) =>
    match rest.span (· ≠ ':') with
    | (_ :: _, ':' :: body) => some body
    | _ => none
  | _ => none

/-- The text in the last pair of brackets that is not empty and ends the
description. -/
def bracketed (body : List Char) : Option (List Char) :=
  if body.getLast? = some ']' then
    (body.dropLast.tails.filterMap fun
      | '[' :: c :: cs => some (c :: cs)
      | _ => none).getLast?
  else none

def extractHostnameFromDescription (desc : String) : Option String :=
  match polarisBody (trim desc).toList with
  | none => none
  | some rest =>
    let body := rest.dropWhile isSpace
    if body = [] ∨ body.any lineTerminator then none
    else some (trim (String.ofList ((bracketed body).getD body)))

end Description

section Fresh

/-- What the device shows at an address. -/
structure Fresh where
  ip : String
  mac : Option String
  hostname : Option String
  sourceType : SourceType
  entryId : Option Nat := none
  deriving DecidableEq

def ofEntry (r : ReservedAddress) : Option Fresh :=
  (truthy r.ip).map fun ip =>
    { ip := ip, mac := (truthy r.mac).map normalizeMac,
      hostname := if r.description = "" then none else extractHostnameFromDescription r.description,
      sourceType := .dhcpReservation, entryId := some r.id }

def ofLease (l : DhcpLease) : Fresh :=
  { ip := l.ip, mac := (truthy l.mac).map normalizeMac, hostname := truthy l.hostname,
    sourceType := if l.reserved then .dhcpReservation else .dhcpLease }

def addLease (fresh : List Fresh) (l : DhcpLease) : List Fresh :=
  if fresh.any (·.ip = l.ip) then fresh else fresh ++ [ofLease l]

def freshView (cmdb : List ReservedAddress) (leases : List DhcpLease) : List Fresh :=
  leases.foldl addLease ((cmdb.filterMap ofEntry).foldl (fun fresh f => upsert Fresh.ip f fresh) [])

end Fresh

section Rows

def liveAt (r : Row Reservation) : Bool := r.data.status = .active && (truthy r.data.ipAddress).isSome

def isDhcp (r : Row Reservation) : Bool :=
  r.data.sourceType = .dhcpReservation || r.data.sourceType = .dhcpLease

def isPending (r : Row Reservation) : Bool := r.data.pushStatus = some .pending

def existingRows (rows : List (Row Reservation)) : List (Row Reservation) :=
  rows.filter fun r => liveAt r && isDhcp r

def pendingByIp (rows : List (Row Reservation)) (ip : String) : Option (Row Reservation) :=
  (rows.filter fun r => liveAt r && isPending r && r.data.ipAddress = some ip).getLast?

def manualByIp (rows : List (Row Reservation)) (ip : String) : Bool :=
  rows.any fun r => liveAt r && ! isDhcp r && ! isPending r && r.data.ipAddress = some ip

theorem find_pending {rows : List (Row Reservation)} {ip : String} {p : Row Reservation}
    (h : pendingByIp rows ip = some p) : p ∈ rows ∧ p.data.ipAddress = some ip := by
  obtain ⟨hmem, hp⟩ := List.mem_filter.mp (List.mem_of_getLast? h)
  simp only [Bool.and_eq_true, decide_eq_true_eq] at hp
  exact ⟨hmem, hp.2⟩

theorem find_existing {rows : List (Row Reservation)} {ip : String} {m : Row Reservation}
    (h : (existingRows rows).find? (·.data.ipAddress = some ip) = some m) :
    m ∈ rows ∧ m.data.ipAddress = some ip :=
  ⟨(List.mem_filter.mp (List.mem_of_find?_eq_some h)).1, by simpa using List.find?_some h⟩

/-- The columns a device entry changes in the row that stands for it. -/
structure Diff where
  sourceType : Option SourceType := none
  owner : Option String := none
  macAddress : Option String := none
  hostname : Option String := none
  lastSeenLeased : Option Nat := none
  deriving DecidableEq

def ownerPlaceholder : SourceType → String
  | .dhcpReservation => "dhcp-reservation"
  | _ => "dhcp-lease"

def diffOf (f : Fresh) (r : Reservation) (now : Nat) : Diff :=
  { sourceType := if r.sourceType ≠ f.sourceType then some f.sourceType else none
    owner :=
      if r.sourceType ≠ f.sourceType ∧
          (r.owner = some "dhcp-lease" ∨ r.owner = some "dhcp-reservation") then
        some (ownerPlaceholder f.sourceType)
      else none
    macAddress := (truthy f.mac).filter fun m => r.macAddress ≠ some m
    hostname := (truthy f.hostname).filter fun h => r.hostname ≠ some h
    lastSeenLeased :=
      if f.sourceType = .dhcpReservation ∨ r.sourceType = .dhcpLease then some now else none }

def applyDiff (d : Diff) (r : Reservation) : Reservation :=
  { r with
    sourceType := d.sourceType.getD r.sourceType
    owner := d.owner.or r.owner
    macAddress := d.macAddress.or r.macAddress
    hostname := d.hostname.or r.hostname
    lastSeenLeased := d.lastSeenLeased.or r.lastSeenLeased }

def adopt (f : Fresh) (discoveredBy : Option String) (scopeId entryId now : Nat) (r : Reservation) :
    Reservation :=
  { r with
    sourceType := .dhcpReservation, pushedToId := discoveredBy, pushedScopeId := some scopeId,
    pushedEntryId := some entryId, pushStatus := some .synced, pushedAt := some now,
    pushError := none, pushQueuedAt := none, pushAttempts := 0, pushLastAttemptAt := none,
    lastSeenLeased := some now, hostname := (truthy f.hostname).or r.hostname }

def collisionText (sourceType : SourceType) (mac : Option String) : String :=
  "IP collided during queue — discovered " ++ sourceType.text ++
    (match truthy mac with
    | some m => " by " ++ m
    | none => "")

def collide (error : String) (now : Nat) (r : Reservation) : Reservation :=
  { r with
    pushStatus := some .failedPermanent, pushError := some error, pushLastAttemptAt := some now }

end Rows

section Refresh

/-- One run, with the rows as they were read at its start. -/
structure Scope where
  subnet : Subnet
  scopeId : Nat
  rows : List (Row Reservation)
  actor : Option String
  now : Nat

structure Counts where
  created : Nat := 0
  updated : Nat := 0
  released : Nat := 0
  skipped : Nat := 0
  deriving DecidableEq

def macsMatch (pending : Reservation) (f : Fresh) : Bool :=
  match truthy pending.macAddress, truthy f.mac with
  | some m, some n => normalizeMac m = n
  | _, _ => false

def reconcilePending (c : Scope) (db : Db) (pending : Row Reservation) (f : Fresh) (n : Counts) :
    Db × Except Failure Counts :=
  match f.entryId with
  | some entryId =>
    if f.sourceType = .dhcpReservation ∧ macsMatch pending.data f then
      let (db, row) := db.updateRow .refreshUpsert pending.id
        (adopt f c.subnet.discoveredBy c.scopeId entryId c.now)
      (db, row.map fun _ => { n with updated := n.updated + 1 })
    else collided
  | none => collided
where
  collided :=
    let (db, row) := db.updateRow .refreshUpsert pending.id
      (collide (collisionText f.sourceType f.mac) c.now)
    (db, row.map fun _ => { n with skipped := n.skipped + 1 })

def freshReservation (c : Scope) (f : Fresh) : Reservation :=
  { subnetId := c.subnet.id, ipAddress := some f.ip, hostname := f.hostname, macAddress := f.mac,
    sourceType := f.sourceType, lastSeenLeased := some c.now,
    createdBy := some ((truthy c.actor).getD "refresh") }

def upsertFresh (c : Scope) (db : Db) (n : Counts) (f : Fresh) : Db × Except Failure Counts :=
  match pendingByIp c.rows f.ip with
  | some pending => reconcilePending c db pending f n
  | none =>
    if manualByIp c.rows f.ip then (db, .ok { n with skipped := n.skipped + 1 })
    else
      match (existingRows c.rows).find? (·.data.ipAddress = some f.ip) with
      | some matched =>
        let diff := diffOf f matched.data c.now
        if diff = {} then (db, .ok n)
        else
          let (db, row) := db.updateRow .refreshUpsert matched.id (applyDiff diff)
          (db, row.map fun _ => { n with updated := n.updated + 1 })
      | none =>
        let (db, row) := db.createRow .refreshUpsert (freshReservation c f)
        (db, row.map fun _ => { n with created := n.created + 1 })

theorem upsertFresh_other {c : Scope} {db : Db} {n : Counts} {f : Fresh} {id : Nat} {r : Row Reservation}
    (hne : ∀ x ∈ c.rows, x.data.ipAddress = some f.ip → x.id ≠ id) (hr : db.reservations.find id = some r) :
    (upsertFresh c db n f).1.reservations.find id = some r := by
  rw [upsertFresh]
  split
  · next p hp =>
    have hid := hne p (find_pending hp).1 (find_pending hp).2
    rw [reconcilePending]
    split
    · split
      · exact Db.find_updateRow_ne hid hr
      · exact Db.find_updateRow_ne hid hr
    · exact Db.find_updateRow_ne hid hr
  · split
    · exact hr
    · split
      · next m hm =>
        have hid := hne m (find_existing hm).1 (find_existing hm).2
        dsimp only
        split
        · exact hr
        · exact Db.find_updateRow_ne hid hr
      · exact Db.find_createRow hr

/-- A loop of statements that stops at the first one that throws. -/
def loop {β : Type} (body : Db → Counts → β → Db × Except Failure Counts) :
    Db → Counts → List β → Db × Except Failure Counts
  | db, n, [] => (db, .ok n)
  | db, n, b :: bs =>
    match body db n b with
    | (db, .ok n) => loop body db n bs
    | (db, .error e) => (db, .error e)

theorem loop_invariant {β : Type} {body : Db → Counts → β → Db × Except Failure Counts} {I : Db → Prop}
    {db : Db} {n : Counts} {bs : List β} (hbody : ∀ db n, ∀ b ∈ bs, I db → I (body db n b).1) (h : I db) :
    I (loop body db n bs).1 := by
  induction bs generalizing db n with
  | nil => exact h
  | cons b bs ih =>
    have hb := hbody db n b List.mem_cons_self h
    have hrest : ∀ db n, ∀ b' ∈ bs, I db → I (body db n b').1 := fun db n b' hb' =>
      hbody db n b' (List.mem_cons_of_mem b hb')
    unfold loop
    split
    · next heq =>
      rw [heq] at hb
      exact ih hrest hb
    · next heq =>
      rw [heq] at hb
      exact hb

def releaseGone (db : Db) (n : Counts) (r : Row Reservation) : Db × Except Failure Counts :=
  let (db, row) := db.updateRow .refreshRelease r.id markReleased
  (db, row.map fun _ => { n with released := n.released + 1 })

/-- The rows the release loop writes. -/
def gone (rows : List (Row Reservation)) (fresh : List Fresh) : List (Row Reservation) :=
  (existingRows rows).filter fun r => ! fresh.any fun f => r.data.ipAddress = some f.ip

def reconcileScope (c : Scope) (db : Db) (fresh : List Fresh) : Db × Except Failure Counts :=
  match loop (upsertFresh c) db {} fresh with
  | (db, .error e) => (db, .error e)
  | (db, .ok n) => loop releaseGone db n (gone c.rows fresh)

structure RefreshFaults where
  mgmtIp : MgmtIp := .ok (some "192.0.2.1")
  servers : Outcome Failure := .answered
  list : Outcome Failure := .answered
  leases : Outcome Failure := .answered

variable (N : Package)

def refreshable (db : Db) (subnetId : String) : Except Failure (Subnet × Integration × String) :=
  match db.findSubnet subnetId with
  | none => .error (.app 404 "Subnet not found")
  | some subnet =>
    match db.integrationOf subnet with
    | none => .error (.app 400 "Refresh is only supported for subnets discovered by an integration")
    | some integration =>
      match integration.type with
      | .other name =>
        .error (.app 400 ("Refresh is not supported for integration type \"" ++ name ++ "\""))
      | .fortimanager | .fortigate =>
        match truthy subnet.fortigateDevice with
        | none => .error (.app 400 "Subnet has no associated FortiGate device — cannot refresh")
        | some deviceName => .ok (subnet, integration, deviceName)

theorem refreshable_ok {db : Db} {subnetId : String} {subnet : Subnet} {integration : Integration}
    {deviceName : String}
    (h : refreshable db subnetId = .ok (subnet, integration, deviceName)) :
    db.findSubnet subnetId = some subnet ∧ truthy subnet.fortigateDevice = some deviceName := by
  unfold refreshable at h
  split at h
  · cases h
  · rename_i s hs
    split at h
    · cases h
    · split at h
      · cases h
      all_goals
        split at h
        · cases h
        · next hdev =>
          cases h
          exact ⟨hs, hdev⟩

def readDevice (w : World) (subnetId : String) (leases : List MonitorEntry) (faults : RefreshFaults) :
    Except Failure (Subnet × Nat × List Fresh) := do
  let (subnet, integration, deviceName) ← refreshable w.db subnetId
  buildTransportForIntegration integration deviceName faults.mgmtIp
  let g := w.gateways deviceName
  let (scopeId, _) ← findScopeIdForCidr N (← fetch faults.servers g.servers) subnet.cidr
  let cmdb ← fetch faults.list (g.reserved scopeId)
  let live ← fetchLiveLeasesForScope N (← fetch faults.leases leases) subnet.cidr
  return (subnet, scopeId, freshView cmdb live)

def subnetRows (db : Db) (subnetId : String) : List (Row Reservation) :=
  db.rows.filter (·.data.subnetId = subnetId)

def touchSubnet (db : Db) (subnetId : String) (now : Nat) : Db :=
  { db with
    subnets := db.subnets.map fun s =>
      if s.id = subnetId then { s with lastDiscoveredAt := some now } else s }

def refreshSubnet (w : World) (subnetId : String) (actor : Option String) (now : Nat)
    (leases : List MonitorEntry) (faults : RefreshFaults) : World × Except Failure Counts :=
  match readDevice N w subnetId leases faults with
  | .error e => (w, .error e)
  | .ok (subnet, scopeId, fresh) =>
    match reconcileScope ⟨subnet, scopeId, subnetRows w.db subnetId, actor, now⟩ w.db fresh with
    | (db, .error e) => ({ w with db := db }, .error e)
    | (db, .ok n) => ({ w with db := touchSubnet db subnetId now }, .ok n)

end Refresh

end Polaris.SubnetRefresh
