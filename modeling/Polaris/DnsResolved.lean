import Polaris.Reservations

namespace Polaris.DnsResolved

open Polaris.Lib.Text Polaris.Lib.Store Polaris.Cidr Polaris.Reservations

def systemActor : String := "system:dns-resolved"

inductive AssetStatus
  | active | maintenance | decommissioned | storage | disabled | quarantined
  deriving DecidableEq

def eligibleStatuses : List AssetStatus := [.active, .maintenance, .storage, .quarantined]

structure AssetIdentity where
  ipAddress : Option String
  hostname : Option String := none
  dnsName : Option String := none
  macAddress : Option String := none
  status : AssetStatus := .active
  deriving DecidableEq

def assetEligible (a : AssetIdentity) : Bool :=
  match truthy a.ipAddress with
  | none => false
  | some ip => isValidIpAddress ip && detectIpVersion ip = .v4 && a.status ∈ eligibleStatuses

def resolvedHostname (a : AssetIdentity) : Option String :=
  (truthy (a.hostname.map trim)).or (truthy (a.dnsName.map trim))

/-- The operators of PostgreSQL on network addresses. A text that is not an
address makes the query fail. -/
structure Inet where
  contains : (cidr ip : String) → Except Unit Bool
  masklen : String → Nat

section Queries

def findContainingSubnet (inet : Inet) (db : Db) (ip : String) : Except Unit (Option Subnet) := do
  let covering ← (db.subnets.filter (·.status ≠ .deprecated)).filterM fun s => inet.contains s.cidr ip
  return covering.foldl (fun best s =>
    match best with
    | none => some s
    | some b => if inet.masklen b.cidr < inet.masklen s.cidr then some s else some b) none

def ownedBy (a : AssetIdentity) (r : Row Reservation) : Bool :=
  r.data.createdBy = some systemActor && r.data.sourceType = .dnsResolved &&
    r.data.status = .active &&
    ((truthy a.macAddress).any (r.data.macAddress = some ·) ||
      (resolvedHostname a).any (r.data.hostname = some ·))

def findOwnedSystemRows (db : Db) (a : AssetIdentity) : List (Row Reservation) :=
  db.rows.filter (ownedBy a)

def activeAt (subnetId ip : String) (r : Row Reservation) : Bool :=
  r.data.subnetId = subnetId && r.data.ipAddress = some ip && r.data.status = .active

def findActiveAuthoritativeAt (db : Db) (subnetId ip : String) : Option (Row Reservation) :=
  db.rows.find? fun r => activeAt subnetId ip r && r.data.sourceType ≠ .dnsResolved

def findSystemRowAt (db : Db) (subnetId ip : String) : Option (Row Reservation) :=
  db.rows.find? fun r =>
    activeAt subnetId ip r && r.data.sourceType = .dnsResolved && r.data.createdBy = some systemActor

end Queries

def markReleased (r : Reservation) : Reservation := { r with status := .released }

def releaseRows (db : Db) (ids : List Nat) : Db × Except Failure Nat :=
  if ids = [] then (db, .ok 0)
  else db.updateRows .dnsReleaseRows (fun r => r.id ∈ ids && r.data.status = .active) markReleased

structure ReconcileResult where
  created : Nat := 0
  updated : Nat := 0
  released : Nat := 0
  skipped : Bool := false
  deriving DecidableEq

def releaseOwned (db : Db) (ids : List Nat) : Db × Nat :=
  match releaseRows db ids with
  | (db, .ok n) => (db, n)
  | (db, .error _) => (db, 0)

def systemRow (a : AssetIdentity) (subnetId ip : String) : Reservation :=
  { subnetId := subnetId, ipAddress := some ip, hostname := resolvedHostname a,
    macAddress := a.macAddress, sourceType := .dnsResolved, createdBy := some systemActor,
    notes := some "Auto-discovered from asset inventory; no DHCP record exists yet." }

/-- The system row at the target is brought up to date or created; a failed
write is only logged. -/
def upsertSystemRow (db : Db) (a : AssetIdentity) (subnetId ip : String) : Db × Nat × Nat :=
  match findSystemRowAt db subnetId ip with
  | some r =>
    if r.data.hostname ≠ resolvedHostname a ∨ r.data.macAddress ≠ a.macAddress then
      match db.updateRow .dnsUpsert r.id fun d =>
          { d with hostname := resolvedHostname a, macAddress := a.macAddress } with
      | (db, .ok _) => (db, 0, 1)
      | (db, .error _) => (db, 0, 0)
    else (db, 0, 0)
  | none =>
    match db.createRow .dnsUpsert (systemRow a subnetId ip) with
    | (db, .ok _) => (db, 1, 0)
    | (db, .error _) => (db, 0, 0)

def reconcileDnsResolvedForAsset (inet : Inet) (db : Db) (asset : Option AssetIdentity) :
    Db × ReconcileResult :=
  match asset with
  | none => (db, { skipped := true })
  | some a =>
    let owned := findOwnedSystemRows db a
    let releaseAll :=
      let (db, n) := releaseOwned db (owned.map (·.id))
      (db, { released := n, skipped := true })
    if ! assetEligible a then releaseAll
    else
      let ip := a.ipAddress.getD ""
      match findContainingSubnet inet db ip with
      | .error _ | .ok none => releaseAll
      | .ok (some subnet) =>
        if (findActiveAuthoritativeAt db subnet.id ip).isSome then releaseAll
        else
          let (db, created, updated) := upsertSystemRow db a subnet.id ip
          let stale := owned.filter fun r => ! (r.data.subnetId = subnet.id && r.data.ipAddress = some ip)
          let (db, released) := releaseOwned db (stale.map (·.id))
          (db, { created := created, updated := updated, released := released })

def dnsResolvedAt (subnetId ip : String) (r : Row Reservation) : Bool :=
  activeAt subnetId ip r && r.data.sourceType = .dnsResolved

/-- A rejected release is logged as a warning and nothing is thrown. -/
def releaseDnsResolvedAt (db : Db) (subnetId ip : String) : Db :=
  (db.updateRows .dnsReleaseAt (dnsResolvedAt subnetId ip) markReleased).1

end Polaris.DnsResolved
