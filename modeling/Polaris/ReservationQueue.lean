import Polaris.ReservationService
import Polaris.SubnetRefresh
import Mathlib.Data.List.Sort

namespace Polaris.ReservationQueue

open Polaris.Lib.Store Polaris.Lib.Faults Polaris.Netmask Polaris.Cidr Polaris.Transport
  Polaris.ReservationPush Polaris.Reservations Polaris.ReservationService

def backoffBaseSeconds : Nat := 60

def backoffCapSeconds : Nat := 1800

def backoffSecondsFor (attempts : Nat) : Nat :=
  if attempts = 0 then backoffBaseSeconds / 2
  else min (backoffBaseSeconds * 2 ^ (attempts - 1)) backoffCapSeconds

inductive RetryOutcome
  | synced | transient | permanent | cancelled | superseded | skippedMonitoredDown | skippedBackoff
  deriving DecidableEq

structure QueuedReservationRow where
  row : Row Reservation
  subnet : Subnet
  integration : Option Integration

section Stamps

def stampCancelled (r : Reservation) : Reservation :=
  { r with
    pushStatus := none, pushQueuedAt := none, pushAttempts := 0, pushLastAttemptAt := none,
    pushError := none, pushedToId := none }

def stampAttempt (now : Nat) (r : Reservation) : Reservation :=
  { r with pushAttempts := r.pushAttempts + 1, pushLastAttemptAt := some now }

def stampRetryFailed (error : String) (r : Reservation) : Reservation :=
  { r with pushError := some error }

def stampFailedPermanent (error : String) (r : Reservation) : Reservation :=
  { r with pushStatus := some .failedPermanent, pushError := some error }

def stampRequeued (snapshot : Reservation) (now : Nat) (r : Reservation) : Reservation :=
  { r with
    pushStatus := some .pending, pushQueuedAt := some (snapshot.pushQueuedAt.getD now),
    pushError := snapshot.pushError }

end Stamps

def resolveQueued (q : QueuedReservationRow) : Except String (PushTarget × String × String) :=
  if q.subnet.status = .deprecated then .error "subnet_deprecated"
  else
    match truthy q.subnet.fortigateDevice, truthy q.row.data.ipAddress, truthy q.row.data.macAddress,
      q.integration with
    | none, _, _, _ => .error "subnet_no_fortigateDevice"
    | _, none, _, _ => .error "reservation_no_ip"
    | _, _, none, _ => .error "reservation_no_mac"
    | _, _, _, none => .error "integration_deleted"
    | some deviceName, some ip, some mac, some integration =>
      if ! integration.enabled then .error "integration_disabled"
      else
        match integration.type with
        | .other name => .error ("integration_type_" ++ name ++ "_not_pushable")
        | .fortimanager | .fortigate =>
          if integration.pushReservations then .ok (⟨integration, deviceName⟩, ip, mac)
          else .error "pushReservations_disabled"

theorem resolveQueued_ok {q : QueuedReservationRow} {target : PushTarget} {ip mac : String}
    (h : resolveQueued q = .ok (target, ip, mac)) :
    truthy q.subnet.fortigateDevice = some target.deviceName ∧ truthy q.row.data.ipAddress = some ip ∧
      truthy q.row.data.macAddress = some mac ∧ q.integration = some target.integration ∧
      (∀ name, target.integration.type ≠ .other name) ∧ target.integration.pushReservations = true := by
  unfold resolveQueued at h
  split_ifs at h
  split at h <;> try cases h
  rename_i deviceName ip' mac' integration hdev hip hmac hint
  split at h
  · cases h
  split at h
  · cases h
  all_goals
    rename_i ht
    split_ifs at h with hpush
    cases h
    exact ⟨hdev, hip, hmac, hint, fun _ => ht ▸ nofun, hpush⟩

def findCollider (db : Db) (row : Row Reservation) : Option (Row Reservation) :=
  db.rows.find? fun r =>
    r.id ≠ row.id && r.data.subnetId = row.data.subnetId && r.data.ipAddress = row.data.ipAddress &&
      r.data.status = .active

def readinessGate (db : Db) (row : Reservation) (target : PushTarget) (now : Nat) :
    Option RetryOutcome :=
  match (db.findFirewall target.deviceName target.integration.id).filter (·.monitored) with
  | some firewall => if firewall.monitorStatus ≠ some .up then some .skippedMonitoredDown else none
  | none =>
    match row.pushLastAttemptAt with
    | some last =>
      if now - last < backoffSecondsFor row.pushAttempts * 1000 then some .skippedBackoff else none
    | none => none

def queuedPushParams (q : QueuedReservationRow) (target : PushTarget) (ip mac : String) : PushParams :=
  { reservationId := q.row.id, subnetCidr := q.subnet.cidr, ip := ip, mac := mac,
    hostname := q.row.data.hostname, notes := q.row.data.notes, createdBy := q.row.data.createdBy,
    integration := target.integration, deviceName := target.deviceName }

/-- What the answer of the device makes of the queued row. -/
def settleQueued (target : PushTarget) (now : Nat) :
    Except Failure PushReservationResult → RetryOutcome × (Reservation → Reservation)
  | .ok entry => (.synced, stampPushed entry (some target.integration.id) now)
  | .error e =>
    match classifyPushError e with
    | .transient => (.transient, stampRetryFailed e.message)
    | .permanent => (.permanent, stampFailedPermanent e.message)

variable (N : Package)

def pushQueued (w : World) (q : QueuedReservationRow) (target : PushTarget) (ip mac : String)
    (now : Nat) (faults : PushFaults) : World × Except Failure RetryOutcome :=
  match w.db.updateRow .push q.row.id (stampAttempt now) with
  | (db, .error e) => ({ w with db := db }, .error e)
  | (db, .ok _) =>
    let (g, pushed) := pushReservation N (w.gateways target.deviceName)
      (queuedPushParams q target ip mac) faults
    let (outcome, stamp) := settleQueued target now pushed
    let (db, row) := db.updateRow .push q.row.id stamp
    (setGateway { w with db := db } target.deviceName g, row.map fun _ => outcome)

def attemptQueuedPush (w : World) (q : QueuedReservationRow) (bypassReadinessGates : Bool) (now : Nat)
    (faults : PushFaults) : World × Except Failure RetryOutcome :=
  match resolveQueued q with
  | .error _ => ({ w with db := (w.db.updateRow .push q.row.id stampCancelled).1 }, .ok .cancelled)
  | .ok (target, ip, mac) =>
    match findCollider w.db q.row with
    | some collider =>
      let error := SubnetRefresh.collisionText collider.data.sourceType collider.data.macAddress
      let (db, row) := w.db.updateRow .push q.row.id (SubnetRefresh.collide error now)
      ({ w with db := db }, row.map fun _ => .superseded)
    | none =>
      match if bypassReadinessGates then none else readinessGate w.db q.row.data target now with
      | some skipped => (w, .ok skipped)
      | none => pushQueued N w q target ip mac now faults

section Retry

def queuedRow (db : Db) (row : Row Reservation) : Option QueuedReservationRow :=
  (db.findSubnet row.data.subnetId).map fun subnet => ⟨row, subnet, db.integrationOf subnet⟩

/-- Oldest first; rows without a time come last. -/
def queuedBefore (a b : QueuedReservationRow) : Bool :=
  match a.row.data.pushQueuedAt, b.row.data.pushQueuedAt with
  | some s, some t => s ≤ t
  | some _, none | none, none => true
  | none, some _ => false

def pendingRows (db : Db) : List QueuedReservationRow :=
  ((db.rows.filter fun r => r.data.pushStatus = some .pending && r.data.status = .active).filterMap
    (queuedRow db)).insertionSort fun a b => queuedBefore a b = true

structure RetryCounts where
  attempted : Nat := 0
  succeeded : Nat := 0
  transient : Nat := 0
  permanent : Nat := 0
  cancelled : Nat := 0
  superseded : Nat := 0
  skippedMonitoredDown : Nat := 0
  skippedBackoff : Nat := 0
  deriving DecidableEq

def RetryCounts.add (n : RetryCounts) (outcome : RetryOutcome) : RetryCounts :=
  let n := { n with attempted := n.attempted + 1 }
  match outcome with
  | .synced => { n with succeeded := n.succeeded + 1 }
  | .transient => { n with transient := n.transient + 1 }
  | .permanent => { n with permanent := n.permanent + 1 }
  | .cancelled => { n with cancelled := n.cancelled + 1 }
  | .superseded => { n with superseded := n.superseded + 1 }
  | .skippedMonitoredDown => { n with skippedMonitoredDown := n.skippedMonitoredDown + 1 }
  | .skippedBackoff => { n with skippedBackoff := n.skippedBackoff + 1 }

/-- One row after the other, each as it was read before the first. -/
def retryRows (w : World) (now : Nat) (faults : Nat → PushFaults) :
    RetryCounts → List QueuedReservationRow → World × Except Failure RetryCounts
  | n, [] => (w, .ok n)
  | n, q :: qs =>
    match attemptQueuedPush N w q false now (faults q.row.id) with
    | (w, .ok outcome) => retryRows w now faults (n.add outcome) qs
    | (w, .error e) => (w, .error e)

def retryPendingReservations (w : World) (now : Nat) (faults : Nat → PushFaults) :
    World × Except Failure RetryCounts :=
  retryRows N w now faults {} (pendingRows w.db)

def retryable (id : Nat) (r : Reservation) : Except Failure Unit :=
  if r.status ≠ .active then .error (.app 409 ("Cannot retry a " ++ r.status.text ++ " reservation"))
  else
    match r.pushStatus with
    | some .pending | some .failedPermanent => .ok ()
    | other => .error (.app 409 ("Reservation " ++ toString id ++ " is not queued (pushStatus=" ++
        (other.map PushStatus.text).getD "null" ++ ")"))

def requeue (db : Db) (row : Row Reservation) (now : Nat) : Db × Except Failure Unit :=
  if row.data.pushStatus = some .failedPermanent then
    let (db, updated) := db.updateRow .push row.id (stampRequeued row.data now)
    (db, updated.map fun _ => ())
  else (db, .ok ())

def retryReservationNow (w : World) (id : Nat) (now : Nat) (faults : PushFaults) :
    World × Except Failure (RetryOutcome × Row Reservation) :=
  match w.db.findReservation id with
  | .error e => (w, .error e)
  | .ok (row, subnet) =>
    match retryable id row.data with
    | .error e => (w, .error e)
    | .ok _ =>
      match requeue w.db row now with
      | (db, .error e) => ({ w with db := db }, .error e)
      | (db, .ok _) =>
        match attemptQueuedPush N { w with db := db } ⟨row, subnet, w.db.integrationOf subnet⟩ true now
          faults with
        | (w, .error e) => (w, .error e)
        | (w, .ok outcome) => (w, (w.db.findReservation id).map fun found => (outcome, found.1))

end Retry

end Polaris.ReservationQueue
