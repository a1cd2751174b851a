import Polaris.ReservationQueue
import Polaris.Lib.Runs

namespace Polaris.ReservationRaces

open Polaris.Lib.Store Polaris.Lib.Faults Polaris.Netmask Polaris.Cidr Polaris.Mac Polaris.Transport
  Polaris.ReservationPush Polaris.Reservations Polaris.ReservationService Polaris.ReservationQueue

/-- The id and the subnet of the row, and the tables that no operation on the
row changes. -/
structure Site where
  id : Nat
  subnet : Subnet
  tables : Db

/-- The row and the FortiGate. The version counts the writes that decide the
status, the MAC or the push state of the row. -/
structure Shared where
  row : Reservation
  gateway : Gateway
  version : Nat := 0

structure Job where
  row : Reservation
  version : Nat
  deriving DecidableEq

structure Edit where
  input : UpdateReservationInput
  actor : Option String
  p : UpdateParams

/-- The last statement of an operation on its row. -/
inductive RowWrite
  | cancelled
  | superseded (error : String)
  | settled (p : PushParams) (pushed : Except Failure PushReservationResult)
  | edited (input : UpdateReservationInput) (actor : Option String) (changedMac : Option (Option String))
  | updated (e : Edit) (entry : PushReservationResult)
  | released

/-- Where an operation stands between two of its accesses to the row, to the
other tables or to the device. A push keeps the id its entry was given. -/
inductive Stage
  | triggerRetryAfterStatusChange (hostname integrationId : String)
  | retryPendingReservations
  | retryReservationNow
  | updateReservation (input : UpdateReservationInput) (actor : Option String)
  | releaseReservation
  | requeue (job : Job)
  | collider (job : Job) (p : PushParams) (bypassReadinessGates : Bool)
  | gate (job : Job) (p : PushParams)
  | attempt (job : Job) (p : PushParams)
  | list (job : Job) (p : PushParams)
  | post (job : Job) (p : PushParams) (scope : Nat × Option String)
  | readBack (job : Job) (p : PushParams) (scope : Nat × Option String) (own : Nat) (res : WriteResponse)
  | listUpdate (job : Job) (e : Edit)
  | put (job : Job) (e : Edit) (scope : Nat × Option String) (entryId : Nat)
  | readBackUpdate (job : Job) (e : Edit) (scope : Nat × Option String) (entryId : Nat)
  | listRelease (job : Job) (scopeId entryId : Nat)
  | delete (job : Job) (scopeId entryId : Nat)
  | write (job : Job) (w : RowWrite)
  | done

/-- What a step finds outside the row and the device: the time, the monitored
firewalls, another active row at the address, and other rows in the queue. -/
structure Turn where
  now : Nat := 0
  firewalls : List FirewallAsset := []
  collider : Option (Row Reservation) := none
  othersPending : Bool := false

namespace RowWrite

def stamp (now : Nat) : RowWrite → Reservation → Reservation
  | .cancelled => stampCancelled
  | .superseded error => SubnetRefresh.collide error now
  | .settled p pushed => (settleQueued ⟨p.integration, p.deviceName⟩ now pushed).2
  | .edited input actor changedMac => applyInput input actor changedMac
  | .updated e entry =>
    stampUpdated entry e.p.integration.id now ∘ applyInput e.input e.actor (some (some e.p.newMac))
  | .released => stampReleased

def decides : RowWrite → Bool
  | .edited _ _ none => false
  | _ => true

end RowWrite

section Steps

variable (N : Package) (site : Site) (k : Turn) (s : Shared)

def snapshot : Job := ⟨s.row, s.version⟩

def rewriteRow (f : Reservation → Reservation) (decides : Bool) : Shared :=
  { s with row := f s.row, version := if decides then s.version + 1 else s.version }

def queued (r : Reservation) : QueuedReservationRow :=
  ⟨⟨site.id, r⟩, site.subnet, site.tables.integrationOf site.subnet⟩

def isPending (r : Reservation) : Bool := r.pushStatus = some .pending && r.status = .active

/-- The eligibility check of attemptQueuedPush. -/
def enqueue (job : Job) (bypassReadinessGates : Bool) : Stage :=
  match resolveQueued (queued site job.row) with
  | .error _ => .write job .cancelled
  | .ok (target, ip, mac) =>
    .collider job (queuedPushParams (queued site job.row) target ip mac) bypassReadinessGates

def beginUpdate (input : UpdateReservationInput) (actor : Option String) (job : Job) : Stage :=
  if job.row.status ≠ .active then .done
  else
    match parseNewMac input with
    | .error _ => .done
    | .ok newMac =>
      match updatePushTarget site.tables site.subnet job.row.ipAddress, macChange job.row newMac with
      | some (target, ip), some changedMac =>
        match changedMac with
        | none => .done
        | some mac =>
          if job.row.pushStatus = some .pending then .write job (.edited input actor (some (some mac)))
          else
            .listUpdate job
              ⟨input, actor, updateParams input ⟨site.id, job.row⟩ site.subnet target ip mac⟩
      | _, changedMac => .write job (.edited input actor changedMac)

def beginRelease (job : Job) : Stage :=
  if job.row.status ≠ .active then .done
  else
    match site.tables.findIntegration job.row.pushedToId, job.row.pushedScopeId,
      job.row.pushedEntryId, truthy site.subnet.fortigateDevice with
    | some integration, some scopeId, some entryId, some deviceName =>
      if job.row.pushStatus = some .pending then .write job .released
      else
        match buildTransportForIntegration integration deviceName ({} : UnpushFaults).mgmtIp with
        | .error _ => .write job .released
        | .ok _ => .listRelease job scopeId entryId
    | _, _, _, _ => .write job .released

/-- One access of an operation, with the computation that follows it. Every
call to the device succeeds. -/
def act : Stage → Shared × Stage
  | .triggerRetryAfterStatusChange hostname integrationId =>
    let counted := isPending s.row && site.subnet.fortigateDevice = some hostname &&
      site.subnet.discoveredBy = some integrationId
    (s, if counted || k.othersPending then .retryPendingReservations else .done)
  | .retryPendingReservations => (s, if isPending s.row then enqueue site (snapshot s) false else .done)
  | .retryReservationNow =>
    (s, match retryable site.id s.row with
      | .error _ => .done
      | .ok _ =>
        if s.row.pushStatus = some .failedPermanent then .requeue (snapshot s)
        else enqueue site (snapshot s) true)
  | .requeue job =>
    (rewriteRow s (stampRequeued job.row k.now) true,
      enqueue site ⟨stampRequeued job.row k.now job.row, job.version + 1⟩ true)
  | .collider job p bypassReadinessGates =>
    (s, match k.collider with
      | some c => .write job (.superseded (SubnetRefresh.collisionText c.data.sourceType c.data.macAddress))
      | none => if bypassReadinessGates then .attempt job p else .gate job p)
  | .gate job p =>
    (s, match readinessGate { site.tables with firewalls := k.firewalls } job.row
        ⟨p.integration, p.deviceName⟩ k.now with
      | some _ => .done
      | none => .attempt job p)
  | .attempt job p => (rewriteRow s (stampAttempt k.now) false, .list job p)
  | .list job p =>
    (s, match preparePush N s.gateway p {} with
      | .error e => .write job (.settled p (.error e))
      | .ok scope => .post job p scope)
  | .post job p scope =>
    let (g, res) := s.gateway.create scope.1 (newEntry p)
    ({ s with gateway := g }, .readBack job p scope s.gateway.nextEntryId res)
  | .readBack job p scope _ res =>
    (s, .write job (.settled p
      ((verifyWrite res (s.gateway.reserved scope.1) p.ip (normalizeMac p.mac)).map fun entryId =>
        ⟨scope.1, entryId, scope.2, pushDescription p⟩)))
  | .updateReservation input actor => (s, beginUpdate site input actor (snapshot s))
  | .listUpdate job e =>
    (s, match prepareUpdate N s.gateway e.p {} with
      | .error _ => .done
      | .ok (scope, entryId) => .put job e scope entryId)
  | .put job e scope entryId =>
    ({ s with gateway := s.gateway.modify scope.1 entryId (updateEntry e.p) },
      .readBackUpdate job e scope entryId)
  | .readBackUpdate job e scope entryId =>
    (s, match verifyUpdate (s.gateway.reserved scope.1) entryId (normalizeMac e.p.newMac) with
      | .error _ => .done
      | .ok _ => .write job (.updated e ⟨scope.1, entryId, scope.2, updateDescription e.p⟩))
  | .releaseReservation => (s, beginRelease site (snapshot s))
  | .listRelease job scopeId entryId =>
    (s, if (s.gateway.reserved scopeId).any (·.id = entryId) then .delete job scopeId entryId
      else .write job .released)
  | .delete job scopeId entryId =>
    ({ s with gateway := s.gateway.delete scopeId entryId }, .write job .released)
  | .write _ w => (rewriteRow s (w.stamp k.now) w.decides, .done)
  | .done => (s, .done)

end Steps

def Starts : Stage → Prop
  | .triggerRetryAfterStatusChange _ _ | .retryPendingReservations | .retryReservationNow
  | .updateReservation _ _ | .releaseReservation => True
  | _ => False

/-- A write that decides the state of the row finds it as the operation has
read it. -/
def Fresh (_ : Turn) (s : Shared) : Stage → Prop
  | .requeue job => job.version = s.version
  | .write job w => w.decides = true → job.version = s.version
  | _ => True

instance : DecidablePred Starts
  | .triggerRetryAfterStatusChange _ _ | .retryPendingReservations | .retryReservationNow
  | .updateReservation _ _ | .releaseReservation => isTrue trivial
  | .requeue _ | .collider _ _ _ | .gate _ _ | .attempt _ _ | .list _ _ | .post _ _ _
  | .readBack _ _ _ _ _ | .listUpdate _ _ | .put _ _ _ _ | .readBackUpdate _ _ _ _
  | .listRelease _ _ _ | .delete _ _ _ | .write _ _ | .done => isFalse id

instance (k : Turn) (s : Shared) : ∀ t, Decidable (Fresh k s t)
  | .requeue job => inferInstanceAs (Decidable (job.version = s.version))
  | .write job w => inferInstanceAs (Decidable (w.decides = true → job.version = s.version))
  | .triggerRetryAfterStatusChange _ _ | .retryPendingReservations | .retryReservationNow
  | .updateReservation _ _ | .releaseReservation | .collider _ _ _ | .gate _ _ | .attempt _ _
  | .list _ _ | .post _ _ _ | .readBack _ _ _ _ _ | .listUpdate _ _ | .put _ _ _ _
  | .readBackUpdate _ _ _ _ | .listRelease _ _ _ | .delete _ _ _ | .done => isTrue trivial

def inFlight : Stage → Bool
  | .done => false
  | _ => true

section Lone

variable (N : Package) (site : Site) (k : Turn) (s : Shared) (job : Job)

def advance (x : Shared × Stage) : Shared × Stage := act N site k x.1 x.2

/-- An operation that is left alone between its accesses to the device does
what the service does in one go. -/
theorem advance_pushReservation (p : PushParams) :
    ∃ n, (advance N site k)^[n] (s, .list job p) =
      ({ s with gateway := (pushReservation N s.gateway p {}).1 },
        .write job (.settled p (pushReservation N s.gateway p {}).2)) := by
  cases hp : preparePush N s.gateway p {} with
  | error e => exact ⟨1, by simp [advance, act, pushReservation, hp]⟩
  | ok scope =>
    refine ⟨3, ?_⟩
    simp only [Function.iterate_succ, Function.iterate_zero, Function.comp, id, advance, act, hp,
      pushReservation, call, fetch, bind, Except.bind]
    cases verifyWrite (s.gateway.create scope.1 (newEntry p)).2
      ((s.gateway.create scope.1 (newEntry p)).1.reserved scope.1) p.ip (normalizeMac p.mac) <;> rfl

theorem advance_updatePushedReservation (e : Edit) :
    ∃ n, (advance N site k)^[n] (s, .listUpdate job e) =
      ({ s with gateway := (updatePushedReservation N s.gateway e.p {}).1 },
        match (updatePushedReservation N s.gateway e.p {}).2 with
        | .ok entry => .write job (.updated e entry)
        | .error _ => .done) := by
  cases hp : prepareUpdate N s.gateway e.p {} with
  | error e' => exact ⟨1, by simp [advance, act, updatePushedReservation, hp]⟩
  | ok found =>
    refine ⟨3, ?_⟩
    simp only [Function.iterate_succ, Function.iterate_zero, Function.comp, id, advance, act, hp,
      updatePushedReservation, call, fetch, bind, Except.bind]
    cases verifyUpdate ((s.gateway.modify found.1.1 found.2 (updateEntry e.p)).reserved found.1.1)
      found.2 (normalizeMac e.p.newMac) <;> rfl

theorem advance_unpushReservation {integration : Integration} {deviceName : String}
    (scopeId entryId : Nat)
    (ht : buildTransportForIntegration integration deviceName ({} : UnpushFaults).mgmtIp = .ok ()) :
    ∃ n, (advance N site k)^[n] (s, .listRelease job scopeId entryId) =
      ({ s with gateway :=
          (unpushReservation s.gateway scopeId entryId integration deviceName {}).1 },
        .write job .released) := by
  cases hs : (s.gateway.reserved scopeId).any (·.id = entryId) with
  | false => exact ⟨1, by simp [advance, act, unpushReservation, ht, fetch, hs]⟩
  | true => exact ⟨2, by simp [advance, act, unpushReservation, ht, fetch, hs, call]⟩

end Lone

end Polaris.ReservationRaces
