import Polaris.ReservationRaces
import Polaris.Lib.Commits

namespace Polaris.ReservationTracking

open Polaris.Lib.Store Polaris.Lib.Runs Polaris.Lib.Commits Polaris.Netmask Polaris.Cidr Polaris.Mac
  Polaris.Transport Polaris.ReservationPush Polaris.Reservations Polaris.ReservationService
  Polaris.ReservationQueue Polaris.ReservationRaces

/-- The columns of the row that tell what is on the device. -/
structure PushState where
  status : ReservationStatus
  ipAddress : Option String
  macAddress : Option String
  pushStatus : Option PushStatus
  pushedToId : Option String
  pushedScopeId : Option Nat
  pushedEntryId : Option Nat
  deriving DecidableEq

def pushState (r : Reservation) : PushState :=
  ⟨r.status, r.ipAddress, r.macAddress, r.pushStatus, r.pushedToId, r.pushedScopeId, r.pushedEntryId⟩

section Tickets

def snapshotOf : Stage → Option Job
  | .requeue job | .collider job _ _ | .gate job _ | .attempt job _ | .list job _ | .post job _ _
  | .readBack job _ _ _ _ | .listUpdate job _ | .put job _ _ _ | .readBackUpdate job _ _ _
  | .listRelease job _ _ | .delete job _ _ | .write job _ => some job
  | _ => none

def ticket (t : Stage) : Option Nat := (snapshotOf t).map (·.version)

/-- The operation will write the row, whatever it finds on its way. -/
def due : Stage → Bool
  | .requeue _ | .collider _ _ true | .attempt _ _ | .list _ _ | .post _ _ _ | .readBack _ _ _ _ _
  | .listRelease _ _ _ | .delete _ _ _ => true
  | .write _ w => w.decides
  | _ => false

variable {N : Package} {site : Site} {k : Turn} {s : Shared}

theorem optimistic :
    Optimistic (act N site) Starts Fresh Shared.version ticket due where
  idle t ht := by cases t <;> first | rfl | cases ht
  step k s t hc := by
    cases t with
    | requeue job =>
      refine .inr ⟨rfl, ?_⟩
      exact congrArg some hc
    | collider job p bypass =>
      refine .inl ⟨rfl, fun hd => ?_⟩
      cases bypass with
      | false => cases hd
      | true => cases h : k.collider <;> simp [act, h, due, ticket, snapshotOf, RowWrite.decides]
    | list job p =>
      refine .inl ⟨rfl, fun _ => ?_⟩
      cases h : preparePush N s.gateway p {} <;>
        simp [act, h, due, ticket, snapshotOf, RowWrite.decides]
    | listRelease job scopeId entryId =>
      refine .inl ⟨rfl, fun _ => ?_⟩
      simp only [act]
      split_ifs <;> simp [due, ticket, snapshotOf, RowWrite.decides]
    | write job w =>
      cases hd : w.decides with
      | true => exact .inr ⟨by simp [act, rewriteRow, hd], congrArg some (hc hd)⟩
      | false => exact .inl ⟨by simp [act, rewriteRow, hd], fun h => by simp [due, hd] at h⟩
    | attempt job p => exact .inl ⟨rfl, fun _ => ⟨rfl, rfl⟩⟩
    | post job p scope => exact .inl ⟨rfl, fun _ => ⟨rfl, rfl⟩⟩
    | readBack job p scope own res => exact .inl ⟨rfl, fun _ => ⟨rfl, rfl⟩⟩
    | delete job scopeId entryId => exact .inl ⟨rfl, fun _ => ⟨rfl, rfl⟩⟩
    | _ => exact .inl ⟨rfl, fun h => by cases h⟩

end Tickets

section Formed

variable {N : Package} {site : Site}

/-- The transport of the integration can be built. -/
def Reachable (integration : Integration) (deviceName : String) : Prop :=
  buildTransportForIntegration integration deviceName ({} : UnpushFaults).mgmtIp = .ok ()

structure PushFor (site : Site) (job : Job) (p : PushParams) : Prop where
  pending : isPending job.row = true
  id : p.reservationId = site.id
  target : updatePushTarget site.tables site.subnet job.row.ipAddress =
    some (⟨p.integration, p.deviceName⟩, p.ip)
  mac : truthy job.row.macAddress = some p.mac

structure EditFor (site : Site) (job : Job) (e : Edit) : Prop where
  active : job.row.status = .active
  id : e.p.reservationId = site.id
  target : updatePushTarget site.tables site.subnet job.row.ipAddress =
    some (⟨e.p.integration, e.p.deviceName⟩, e.p.ip)
  scopeId : e.p.scopeId = job.row.pushedScopeId
  entryId : e.p.entryId = job.row.pushedEntryId

def Verified (integration : Integration) (deviceName mac : String) : Prop :=
  isMac (normalizeMac mac) = true ∧ Reachable integration deviceName

def FormedWrite (site : Site) (job : Job) : RowWrite → Prop
  | .cancelled | .superseded _ | .settled _ (.error _) => isPending job.row = true
  | .settled p (.ok _) => PushFor site job p ∧ Verified p.integration p.deviceName p.mac
  | .edited _ _ (some _) => isPending job.row = true ∨
    updatePushTarget site.tables site.subnet job.row.ipAddress = none
  | .updated e _ => EditFor site job e ∧ Verified e.p.integration e.p.deviceName e.p.newMac
  | _ => True

/-- What an operation carries agrees with the row it has read. -/
def Formed (site : Site) : Stage → Prop
  | .requeue job => job.row.status = .active ∧ job.row.pushStatus = some .failedPermanent
  | .collider job p _ | .gate job p | .attempt job p | .list job p => PushFor site job p
  | .post job p _ => PushFor site job p ∧ Verified p.integration p.deviceName p.mac
  | .readBack job p _ own res => PushFor site job p ∧ Verified p.integration p.deviceName p.mac ∧
    ∀ n ∈ echoedId res, n = own
  | .listUpdate job e => EditFor site job e
  | .put job e _ _ | .readBackUpdate job e _ _ =>
    EditFor site job e ∧ Verified e.p.integration e.p.deviceName e.p.newMac
  | .listRelease job scopeId entryId | .delete job scopeId entryId =>
    job.row.pushedScopeId = some scopeId ∧ job.row.pushedEntryId = some entryId
  | .write job w => FormedWrite site job w
  | _ => True

theorem resolveQueued_target (db : Db) {q : QueuedReservationRow} {target : PushTarget}
    {ip mac : String} (hq : q.integration = db.integrationOf q.subnet)
    (h : resolveQueued q = .ok (target, ip, mac)) :
    updatePushTarget db q.subnet q.row.data.ipAddress = some (target, ip) ∧
      truthy q.row.data.macAddress = some mac := by
  obtain ⟨hdev, hip, hmac, hint, htype, hpush⟩ := resolveQueued_ok h
  refine ⟨?_, hmac⟩
  rw [updatePushTarget, ← hq, hint, hdev, hip]
  dsimp only
  split
  next name ht => exact absurd ht (htype name)
  all_goals rw [if_pos hpush]

variable (site) in
theorem enqueue_formed (bypass : Bool) (job : Job) (h : isPending job.row = true) :
    Formed site (enqueue site job bypass) ∧ snapshotOf (enqueue site job bypass) = some job := by
  unfold enqueue
  split
  · exact ⟨h, rfl⟩
  · rename_i target ip mac hq
    obtain ⟨htarget, hmac⟩ := resolveQueued_target site.tables rfl hq
    exact ⟨⟨h, rfl, htarget, hmac⟩, rfl⟩

theorem beginUpdate_formed {input : UpdateReservationInput} {actor : Option String} {job : Job} :
    Formed site (beginUpdate site input actor job) ∧
      ∀ j ∈ snapshotOf (beginUpdate site input actor job), j = job := by
  unfold beginUpdate
  by_cases hactive : job.row.status = .active
  · rw [if_neg (not_not.mpr hactive)]
    cases parseNewMac input with
    | error e => exact ⟨trivial, by simp [snapshotOf]⟩
    | ok newMac =>
      dsimp only
      cases htarget : updatePushTarget site.tables site.subnet job.row.ipAddress with
      | none =>
        refine ⟨?_, by simp [snapshotOf, eq_comm]⟩
        cases macChange job.row newMac with
        | none => trivial
        | some changedMac => exact .inr htarget
      | some found =>
        cases macChange job.row newMac with
        | none => exact ⟨trivial, by simp [snapshotOf, eq_comm]⟩
        | some changedMac =>
          cases changedMac with
          | none => exact ⟨trivial, by simp [snapshotOf]⟩
          | some mac =>
            by_cases hq : job.row.pushStatus = some .pending
            · refine ⟨?_, by simp [hq, snapshotOf, eq_comm]⟩
              simp [hq, Formed, FormedWrite, isPending, hactive]
            · refine ⟨?_, by simp [hq, snapshotOf, eq_comm]⟩
              simp only [hq, if_false]
              exact ⟨hactive, rfl, htarget, rfl, rfl⟩
  · rw [if_pos hactive]
    exact ⟨trivial, by simp [snapshotOf]⟩

theorem beginRelease_formed {job : Job} :
    Formed site (beginRelease site job) ∧ ∀ j ∈ snapshotOf (beginRelease site job), j = job := by
  unfold beginRelease
  split
  · exact ⟨trivial, by simp [snapshotOf]⟩
  · split
    · rename_i scopeId entryId deviceName _ hs he _
      split
      · exact ⟨trivial, by simp [snapshotOf, eq_comm]⟩
      · split
        · exact ⟨trivial, by simp [snapshotOf, eq_comm]⟩
        · exact ⟨⟨hs, he⟩, by simp [snapshotOf, eq_comm]⟩
    · exact ⟨trivial, by simp [snapshotOf, eq_comm]⟩

/-- The row an operation has read is not from the future, and it is the
current one while the version is. -/
def Tracked (site : Site) (s : Shared) (t : Stage) : Prop :=
  Formed site t ∧ ∀ j ∈ snapshotOf t, j.version ≤ s.version ∧
    (j.version = s.version → pushState j.row = pushState s.row)

variable {k : Turn} {s : Shared} {t u : Stage}

variable (N site k s) in
theorem act_quiet_or_decides (t : Stage) :
    ((act N site k s t).1.version = s.version ∧
      pushState (act N site k s t).1.row = pushState s.row) ∨
    (act N site k s t).1.version = s.version + 1 := by
  cases t with
  | requeue job => exact .inr rfl
  | write job w =>
    cases w with
    | edited input actor changedMac =>
      cases changedMac with
      | none => exact .inl ⟨rfl, rfl⟩
      | some newMac => exact .inr rfl
    | _ => exact .inr rfl
  | _ => exact .inl ⟨rfl, rfl⟩

theorem tracked_other (h : Tracked site s u) : Tracked site (act N site k s t).1 u := by
  refine ⟨h.1, fun j hj => ?_⟩
  obtain ⟨hle, hsame⟩ := h.2 j hj
  obtain ⟨hv, hrow⟩ | hv := act_quiet_or_decides N site k s t
  · rw [hv, hrow]
    exact ⟨hle, hsame⟩
  · exact ⟨by omega, fun he => by omega⟩

theorem retryable_ok {id : Nat} {r : Reservation} (h : retryable id r = .ok ()) :
    r.status = .active ∧ (r.pushStatus = some .pending ∨ r.pushStatus = some .failedPermanent) := by
  unfold retryable at h
  split_ifs at h with hs
  refine ⟨not_not.mp hs, ?_⟩
  split at h
  · exact .inl ‹_›
  · exact .inr ‹_›
  · cases h

theorem tracked_begin (h : Formed site t) (hj : ∀ j ∈ snapshotOf t, j = snapshot s) :
    Tracked site s t := by
  refine ⟨h, fun j hmem => ?_⟩
  rw [hj j hmem]
  exact ⟨Nat.le_refl _, fun _ => rfl⟩

theorem tracked_enqueue (bypass : Bool) (h : isPending s.row = true) :
    Tracked site s (enqueue site (snapshot s) bypass) := by
  obtain ⟨hnext, hjob⟩ := enqueue_formed site bypass (snapshot s) h
  exact tracked_begin hnext (fun j hj => Option.some.inj (hj.symm.trans hjob))

theorem tracked_done : Tracked site s .done := ⟨trivial, by simp [snapshotOf]⟩

theorem tracked_requeue {job : Job} (hf : Fresh k s (.requeue job))
    (h : Tracked site s (.requeue job)) :
    Tracked site (act N site k s (.requeue job)).1 (act N site k s (.requeue job)).2 := by
  obtain ⟨⟨hactive, -⟩, htrack⟩ := h
  have hv : job.version = s.version := hf
  have hsame := (htrack job rfl).2 hv
  obtain ⟨hnext, hjob⟩ := enqueue_formed site true
    ⟨stampRequeued job.row k.now job.row, job.version + 1⟩
    (by simp [isPending, stampRequeued, hactive])
  refine ⟨hnext, fun j hj => ?_⟩
  cases hj.symm.trans hjob
  refine ⟨by simp [act, rewriteRow, hv], fun _ => ?_⟩
  exact congrArg (fun v : PushState => { v with pushStatus := some .pending }) hsame

theorem tracked_self (hf : Fresh k s t) (h : Tracked site s t) :
    Tracked site (act N site k s t).1 (act N site k s t).2 := by
  obtain ⟨hformed, htrack⟩ := id h
  cases t with
  | triggerRetryAfterStatusChange hostname integrationId =>
    dsimp only [act]
    split_ifs
    · exact ⟨trivial, by simp [snapshotOf]⟩
    · exact tracked_done
  | retryPendingReservations =>
    dsimp only [act]
    split_ifs with hp
    · exact tracked_enqueue false hp
    · exact tracked_done
  | retryReservationNow =>
    dsimp only [act]
    split
    · exact tracked_done
    · rename_i hr
      obtain ⟨hactive, hstatus⟩ := retryable_ok hr
      split_ifs with hfailed
      · exact tracked_begin ⟨hactive, hfailed⟩ (by simp [snapshotOf, eq_comm])
      · refine tracked_enqueue true ?_
        simpa [isPending, hactive] using hstatus.resolve_right hfailed
  | updateReservation input actor =>
    exact tracked_begin beginUpdate_formed.1 beginUpdate_formed.2
  | releaseReservation => exact tracked_begin beginRelease_formed.1 beginRelease_formed.2
  | requeue job => exact tracked_requeue hf h
  | collider job p bypass =>
    dsimp only [act]
    split
    · exact ⟨hformed.pending, htrack⟩
    · split_ifs
      · exact ⟨hformed, htrack⟩
      · exact ⟨hformed, htrack⟩
  | gate job p =>
    dsimp only [act]
    split
    · exact tracked_done
    · exact ⟨hformed, htrack⟩
  | attempt job p => exact ⟨hformed, htrack⟩
  | list job p =>
    dsimp only [act]
    split
    · exact ⟨hformed.pending, htrack⟩
    · rename_i scope hp
      obtain ⟨hmac, ht, -⟩ := preparePush_ok hp
      exact ⟨⟨hformed, hmac, ht⟩, htrack⟩
  | post job p scope => exact ⟨⟨hformed.1, hformed.2, echoedId_create scope.1 (newEntry p)⟩, htrack⟩
  | readBack job p scope own res =>
    refine ⟨?_, htrack⟩
    dsimp only [act]
    cases verifyWrite res (s.gateway.reserved scope.1) p.ip (normalizeMac p.mac) with
    | error e => exact hformed.1.pending
    | ok entryId => exact ⟨hformed.1, hformed.2.1⟩
  | listUpdate job e =>
    dsimp only [act]
    split
    · exact tracked_done
    · rename_i scope entryId hp
      obtain ⟨hmac, ht, -⟩ := prepareUpdate_ok hp
      exact ⟨⟨hformed, hmac, ht⟩, htrack⟩
  | put job e scope entryId => exact ⟨hformed, htrack⟩
  | readBackUpdate job e scope entryId =>
    dsimp only [act]
    split
    · exact tracked_done
    · exact ⟨hformed, htrack⟩
  | listRelease job scopeId entryId =>
    dsimp only [act]
    split_ifs
    · exact ⟨hformed, htrack⟩
    · exact ⟨trivial, htrack⟩
  | delete job scopeId entryId => exact ⟨trivial, htrack⟩
  | write job w => exact tracked_done
  | done => exact tracked_done

/-- Every call of the pool is tracked. -/
def TrackedPool (site : Site) (p : Pool Shared Stage) : Prop :=
  p.Holds (fun _ => True) (Tracked site)

theorem tracked_step (p : Pool Shared Stage) (m : Move Stage Turn) (hp : TrackedPool site p)
    (hm : p.Guarded Starts Fresh m) : TrackedPool site (p.step (act N site) m) := by
  refine holds_step (act N site) Starts Fresh ?_ ?_ ?_ p m hp hm
  · intro s t ht _
    cases t <;> first | exact ⟨trivial, by simp [snapshotOf]⟩ | cases ht
  · intro k s t hf _ h
    exact ⟨trivial, tracked_self hf h⟩
  · intro k s t u _ _ _ h
    exact tracked_other h

theorem tracked_noneAhead (p : Pool Shared Stage) (hp : TrackedPool site p) :
    NoneAhead Shared.version ticket p := by
  intro t ht v hv
  obtain ⟨j, hj, rfl⟩ := Option.map_eq_some_iff.mp hv
  exact ((hp.2 t ht).2 j hj).1

end Formed

end Polaris.ReservationTracking
