import Polaris.ConflictResolution
import Polaris.Lib.Runs

namespace Polaris.ConflictRaces

open Polaris.Lib.Runs Polaris.Cidr Polaris.RoleFreshness Polaris.ConflictResolution
open Polaris.Reservations (truthy)

section Requests

inductive Kind
  | accept
  | merge (fieldWinners : FieldWinners)
  | reject

structure Request where
  kind : Kind
  session : Session
  username : Option String

def Request.verdict (req : Request) : ConflictStatus :=
  match req.kind with
  | .accept | .merge _ => .accepted
  | .reject => .rejected

/-- The statement a request is about to issue, with what it has read so far,
or its result. -/
inductive Stage
  | read
  | findSource (c : Conflict) (id : Nat) (existing : Asset) (update : AssetUpdate)
  | deleteGhost (c : Conflict) (id : Nat) (existing : Asset) (update : AssetUpdate) (ghost : Nat)
    (macs : Option (List MacEntry))
  | updateAsset (c : Conflict) (id : Nat) (update : AssetUpdate) (macs : Option (List MacEntry))
  | pruneMacs (c : Conflict) (id : Nat) (macs : List MacEntry)
  | insertMacs (c : Conflict) (id : Nat) (macs : List MacEntry)
  | createAsset (c : Conflict) (data : Asset)
  | upsertSource (c : Conflict) (id : Nat)
  | updateReservation (id : Nat) (update : ReservationUpdate)
  | resolve
  | done (result : Except Failure Unit)

/-- A request under way, with a note of whether it has written an asset, a
source or a reservation. -/
structure Task where
  req : Request
  wrote : Bool := false
  stage : Stage := .read

def Task.unread (t : Task) : Bool :=
  match t.stage with
  | .read => true
  | _ => false

/-- A request is in flight from the moment it has passed its checks. -/
def Task.inFlight (t : Task) : Bool :=
  match t.stage with
  | .read | .done _ => false
  | _ => true

def Task.after (t : Task) (result : Except Failure Unit) (stage : Stage) : Task :=
  match result with
  | .ok () => { t with wrote := true, stage := stage }
  | .error e => { t with stage := .done (.error e) }

end Requests

section Handlers

variable (N : Naming) (db : Db)

def acceptAssetConflict (c : Conflict) (fieldWinners : FieldWinners) (actor : Option String) (now : Nat) :
    Except Failure Stage :=
  match c.assetId.bind fun id => (db.assets id).map (Prod.mk id) with
  | none => .error (.app 500 "Asset conflict is missing its asset link")
  | some (id, existing) =>
    if truthy c.proposedDeviceId = none then
      .error (.app 500 "Asset conflict is missing proposedDeviceId")
    else
      .ok (.findSource c id existing
        (acceptUpdate N existing c.proposedAssetFields fieldWinners actor now))

def rejectAssetConflict (c : Conflict) (actor : Option String) (now : Nat) : Except Failure Stage :=
  match truthy c.proposedDeviceId with
  | none => .error (.app 500 "Asset conflict is missing proposedDeviceId")
  | some deviceId => .ok (.createAsset c (rejectedAsset N c deviceId actor now))

def acceptReservationConflict (c : Conflict) : Except Failure Stage :=
  match c.reservationId.bind fun id => (db.reservations id).map (Prod.mk id) with
  | none => .error (.app 500 "Reservation conflict is missing its reservation link")
  | some (id, existing) =>
    let updateData := acceptReservationUpdate c existing
    .ok (if updateData = {} then .resolve else .updateReservation id updateData)

def effect (c : Conflict) (req : Request) (now : Nat) : Except Failure Stage :=
  match c.entityType, req.kind with
  | .asset, .accept => acceptAssetConflict N db c (fun _ => none) req.username now
  | .asset, .merge fieldWinners => acceptAssetConflict N db c fieldWinners req.username now
  | .asset, .reject => rejectAssetConflict N c req.username now
  | .reservation, .reject => .ok .resolve
  | .reservation, _ => acceptReservationConflict db c

def Request.isMerge (req : Request) : Bool :=
  match req.kind with
  | .merge _ => true
  | _ => false

/-- The read of the conflict and the checks that follow it, up to the first
statement of the effect. -/
def begin (req : Request) (now : Nat) : Except Failure Stage :=
  match db.conflict with
  | none => .error (.app 404 "Conflict not found")
  | some c =>
    if c.status ≠ .pending then .error (.app 409 "Conflict is already resolved")
    else if req.isMerge ∧ c.entityType ≠ .asset then
      .error (.app 400 "Merge with per-field selection is only supported for asset conflicts")
    else if ! canResolve req.session c.entityType then
      .error (.app 403 "You do not have permission to resolve this conflict")
    else effect N db c req now

/-- The asset that has the source row of the proposed device, if it is
another one. -/
def findGhost (c : Conflict) (id : Nat) : Option (Nat × Asset) :=
  (db.sources (sourceKindOf c.proposedAssetFields) (N.toLowerCase (c.proposedDeviceId.getD ""))).bind fun s =>
    if s.assetId ≠ id then (db.assets s.assetId).map (Prod.mk s.assetId) else none

def afterFind (c : Conflict) (id : Nat) (existing : Asset) (update : AssetUpdate) : Stage :=
  match findGhost N db c id with
  | none => .updateAsset c id (clampUpdate update existing) none
  | some (ghostId, ghost) =>
    .deleteGhost c id existing (absorbGhost update existing ghost) ghostId (mergedMacs existing ghost)

def afterUpdate (c : Conflict) (id : Nat) : Option (List MacEntry) → Stage
  | none => .upsertSource c id
  | some macs => .pruneMacs c id macs

def afterPrune (c : Conflict) (id : Nat) (macs : List MacEntry) : Stage :=
  if reconciled macs = [] then .upsertSource c id else .insertMacs c id macs

/-- One statement of a request, with the code up to the next one. -/
def act (now : Nat) (t : Task) : Db × Task :=
  match t.stage with
  | .read =>
    match begin N db t.req now with
    | .error e => (db, { t with stage := .done (.error e) })
    | .ok stage => (db, { t with stage := stage })
  | .findSource c id existing update => (db, { t with stage := afterFind N db c id existing update })
  | .deleteGhost c id existing update ghost macs =>
    ((db.deleteAsset ghost).1,
      t.after (db.deleteAsset ghost).2 (.updateAsset c id (clampUpdate update existing) macs))
  | .updateAsset c id update macs =>
    ((db.updateAsset id (applyUpdate N update)).1,
      t.after (db.updateAsset id (applyUpdate N update)).2 (afterUpdate c id macs))
  | .pruneMacs c id macs => ((db.updateAsset id (pruneMacs macs)).1, t.after (.ok ()) (afterPrune c id macs))
  | .insertMacs c id macs =>
    ((db.updateAsset id (insertMacs macs)).1,
      t.after ((db.updateAsset id (insertMacs macs)).2.mapError fun _ => Db.foreignKey) (.upsertSource c id))
  | .createAsset c data =>
    ((db.createAsset data).1, t.after (.ok ()) (.upsertSource c (db.createAsset data).2))
  | .upsertSource c id =>
    ((upsertConflictAssetSource N db c id now).1,
      t.after (upsertConflictAssetSource N db c id now).2 .resolve)
  | .updateReservation id update =>
    ((db.updateReservation id (applyReservationUpdate update)).1,
      t.after (db.updateReservation id (applyReservationUpdate update)).2 .resolve)
  | .resolve =>
    ((db.resolveConflict t.req.verdict t.req.username now).1,
      { t with stage := .done (db.resolveConflict t.req.verdict t.req.username now).2 })
  | .done _ => (db, t)

end Handlers

section Runs

inductive Event
  | request (req : Request)
  | advance (i : Nat) (now : Nat)

def Event.move : Event → Move Task Nat
  | .request req => .spawn { req := req }
  | .advance i now => .advance i now

variable (N : Naming)

def step (p : Pool Db Task) (e : Event) : Pool Db Task :=
  p.step (fun now db t => act N db now t) e.move

/-- A pending conflict that no request has been made about. -/
structure Start (p : Pool Db Task) : Prop where
  pending : ∃ c, p.shared.conflict = some c ∧ c.status = .pending
  unmarked : p.shared.created = [] ∧ p.shared.stamped = [] ∧ p.shared.deleted = []
  calls : p.calls = []

/-- A request whose effects are applied, in part or as a whole, or that has
resolved the conflict. -/
def Task.Effective (t : Task) : Prop := t.wrote ∨ t.stage = .done (.ok ())

/-- At most one request has an effect. One that has ended has failed without
an effect, or the conflict has the status of its verdict. -/
structure ResolvedOnce (p : Pool Db Task) : Prop where
  one : ∀ (i j : Nat) (t u : Task), p.calls[i]? = some t → p.calls[j]? = some u → t.Effective →
    u.Effective → i = j
  ended : ∀ t ∈ p.calls, ∀ result, t.stage = .done result →
    (∃ e, result = .error e ∧ t.wrote = false) ∨
      (result = .ok () ∧ p.shared.conflict.map (·.status) = some t.req.verdict)
  status : ∀ c, p.shared.conflict = some c → c.status ≠ .pending →
    ∃ t ∈ p.calls, t.stage = .done (.ok ()) ∧ c.status = t.req.verdict
  created : p.shared.created.length ≤ 1
  stamped : ∀ id ∈ p.shared.stamped, id ∉ p.shared.deleted

/-- No request passes its checks while another is in flight. -/
def Clear (p : Pool Db Task) : Event → Prop
  | .request _ => True
  | .advance i now => ∀ t ∈ p.calls[i]?, t.unread →
      (begin N p.shared t.req now).isOk → ∀ u ∈ p.calls, u.inFlight = false

instance (p : Pool Db Task) : ∀ e, Decidable (Clear N p e)
  | .request _ => isTrue trivial
  | .advance i now => inferInstanceAs (Decidable (∀ t ∈ p.calls[i]?, t.unread →
      (begin N p.shared t.req now).isOk → ∀ u ∈ p.calls, u.inFlight = false))

end Runs

section Holders

variable {db : Db} {t : Task} {id : Nat}

def Unmarked (db : Db) : Prop := db.created = [] ∧ db.stamped = [] ∧ db.deleted = []

/-- The conflict is pending and, where a request has one, linked to its row. -/
def PendingWith (db : Db) (P : Conflict → Prop) : Prop := ∃ c, db.conflict = some c ∧
    c.status = .pending ∧ P c

/-- What the one request relies on that has passed its checks. -/
def Holder (db : Db) (t : Task) : Prop :=
  match t.stage with
  | .read | .done (.error _) => False
  | .findSource _ id _ _ => PendingWith db (·.assetId = some id) ∧ Unmarked db
  | .deleteGhost _ id _ _ ghost _ =>
    PendingWith db (·.assetId = some id) ∧ Unmarked db ∧ ghost ≠ id ∧ (db.assets ghost).isSome
  | .updateAsset _ id _ _ | .pruneMacs _ id _ | .insertMacs _ id _ =>
    PendingWith db (·.assetId = some id) ∧ db.created = [] ∧ db.stamped = [] ∧ id ∉ db.deleted
  | .createAsset _ _ => PendingWith db (fun _ => True) ∧ Unmarked db
  | .upsertSource _ id =>
    PendingWith db (fun _ => True) ∧ (db.assets id).isSome ∧ db.created.length ≤ 1 ∧ db.stamped = [] ∧
      id ∉ db.deleted
  | .updateReservation id _ => PendingWith db (·.reservationId = some id) ∧ Unmarked db
  | .resolve =>
    PendingWith db (fun _ => True) ∧ db.created.length ≤ 1 ∧ ∀ id ∈ db.stamped, id ∉ db.deleted
  | .done (.ok _) =>
    db.conflict.map (·.status) = some t.req.verdict ∧ db.created.length ≤ 1 ∧
      ∀ id ∈ db.stamped, id ∉ db.deleted

theorem PendingWith.of_conflict {db' : Db} {P : Conflict → Prop} (h : PendingWith db P)
    (heq : db'.conflict = db.conflict) : PendingWith db' P := by
  unfold PendingWith
  rwa [heq]

theorem PendingWith.weaken {P : Conflict → Prop} (h : PendingWith db P) : PendingWith db fun _ => True := by
  obtain ⟨c, hc, hp, -⟩ := h
  exact ⟨c, hc, hp, trivial⟩

theorem PendingWith.asset (h : PendingWith db (·.assetId = some id)) : (db.assets id).isSome := by
  obtain ⟨c, hc, -, hid⟩ := h
  exact db.conflict_asset c hc id hid

theorem PendingWith.reservation (h : PendingWith db (·.reservationId = some id)) :
    (db.reservations id).isSome := by
  obtain ⟨c, hc, -, hid⟩ := h
  exact db.conflict_reservation c hc id hid

theorem after_ok {result : Except Failure Unit} {stage : Stage} (h : result = .ok ()) :
    t.after result stage = { t with wrote := true, stage := stage } := by
  subst h
  rfl

end Holders

section Begin

variable {N : Naming} {db : Db} {t : Task} {c : Conflict} {req : Request} {now : Nat}
  {stage : Stage}

theorem link_some {α : Type} {link : Option Nat} {rows : Nat → Option α} {id : Nat} {a : α}
    (h : (link.bind fun id => (rows id).map (Prod.mk id)) = some (id, a)) :
    link = some id ∧ rows id = some a := by
  obtain ⟨id', hlink, hmap⟩ := Option.bind_eq_some_iff.mp h
  obtain ⟨a', ha, heq⟩ := Option.map_eq_some_iff.mp hmap
  cases heq
  exact ⟨hlink, ha⟩

theorem acceptAssetConflict_holder {fieldWinners : FieldWinners} {actor : Option String}
    (hc : db.conflict = some c) (hp : c.status = .pending) (hu : Unmarked db)
    (h : acceptAssetConflict N db c fieldWinners actor now = .ok stage) :
    Holder db { t with stage := stage } := by
  unfold acceptAssetConflict at h
  split at h
  next => cases h
  next id existing hid =>
    split at h
    next => cases h
    next =>
      cases h
      exact ⟨⟨c, hc, hp, (link_some hid).1⟩, hu⟩

theorem rejectAssetConflict_holder {actor : Option String} (hc : db.conflict = some c)
    (hp : c.status = .pending) (hu : Unmarked db)
    (h : rejectAssetConflict N c actor now = .ok stage) : Holder db { t with stage := stage } := by
  unfold rejectAssetConflict at h
  split at h
  next => cases h
  next =>
    cases h
    exact ⟨⟨c, hc, hp, trivial⟩, hu⟩

theorem Unmarked.notes (hu : Unmarked db) : db.created.length ≤ 1 ∧ ∀ id ∈ db.stamped, id ∉ db.deleted := by
  obtain ⟨hcreated, hstamped, -⟩ := hu
  rw [hcreated, hstamped]
  exact ⟨Nat.zero_le _, nofun⟩

theorem resolve_holder (hc : db.conflict = some c) (hp : c.status = .pending) (hu : Unmarked db) :
    Holder db { t with stage := .resolve } :=
  ⟨⟨c, hc, hp, trivial⟩, hu.notes⟩

theorem acceptReservationConflict_holder (hc : db.conflict = some c) (hp : c.status = .pending)
    (hu : Unmarked db) (h : acceptReservationConflict db c = .ok stage) :
    Holder db { t with stage := stage } := by
  unfold acceptReservationConflict at h
  split at h
  next => cases h
  next id existing hid =>
    cases h
    split
    next => exact resolve_holder hc hp hu
    next => exact ⟨⟨c, hc, hp, (link_some hid).1⟩, hu⟩

theorem effect_holder (hc : db.conflict = some c) (hp : c.status = .pending) (hu : Unmarked db)
    (h : effect N db c req now = .ok stage) : Holder db { t with stage := stage } := by
  unfold effect at h
  split at h
  next => exact acceptAssetConflict_holder hc hp hu h
  next => exact acceptAssetConflict_holder hc hp hu h
  next => exact rejectAssetConflict_holder hc hp hu h
  next =>
    cases h
    exact resolve_holder hc hp hu
  next => exact acceptReservationConflict_holder hc hp hu h

theorem begin_ok (h : begin N db req now = .ok stage) :
    ∃ c, db.conflict = some c ∧ c.status = .pending ∧ effect N db c req now = .ok stage := by
  unfold begin at h
  split at h
  next => cases h
  next c hc =>
    split at h
    next => cases h
    next hp =>
      split at h
      next => cases h
      next =>
        split at h
        next => cases h
        next => exact ⟨c, hc, not_ne_iff.mp hp, h⟩

theorem begin_holder (hu : Unmarked db) (h : begin N db req now = .ok stage) :
    Holder db { t with stage := stage } := by
  obtain ⟨c, hc, hp, he⟩ := begin_ok h
  exact effect_holder hc hp hu he

end Begin

section Steps

variable {N : Naming} {db : Db} {req : Request} {wrote : Bool} {now id : Nat} {c : Conflict}

theorem findGhost_some {ghostId : Nat} {ghost : Asset}
    (h : findGhost N db c id = some (ghostId, ghost)) :
    ghostId ≠ id ∧ (db.assets ghostId).isSome := by
  obtain ⟨s, -, hs⟩ := Option.bind_eq_some_iff.mp h
  split at hs
  next hne =>
    obtain ⟨a, ha, heq⟩ := Option.map_eq_some_iff.mp hs
    cases heq
    exact ⟨hne, Option.isSome_of_mem ha⟩
  next => cases hs

theorem holder_findSource {existing : Asset} {update : AssetUpdate}
    (h : Holder db ⟨req, wrote, .findSource c id existing update⟩) :
    Holder db ⟨req, wrote, afterFind N db c id existing update⟩ := by
  obtain ⟨hp, hu⟩ := h
  unfold afterFind
  split
  next =>
    refine ⟨hp, hu.1, hu.2.1, ?_⟩
    rw [hu.2.2]
    exact List.not_mem_nil
  next hghost => exact ⟨hp, hu, findGhost_some hghost⟩

theorem holder_deleteGhost {existing : Asset} {update update' : AssetUpdate} {ghost : Nat}
    {macs : Option (List MacEntry)}
    (h : Holder db ⟨req, wrote, .deleteGhost c id existing update ghost macs⟩) :
    Holder (db.deleteAsset ghost).1 ⟨req, true, .updateAsset c id update' macs⟩ := by
  obtain ⟨⟨c', hc, hp, hid⟩, ⟨hcreated, hstamped, hdeleted⟩, hne, hsome⟩ := h
  obtain ⟨-, hconflict, hcreated', hstamped', hdeleted'⟩ := Db.deleteAsset_ok hsome
  have hkeep : c'.assetId ≠ some ghost := by
    rw [hid]
    exact fun heq => hne (Option.some.inj heq).symm
  refine ⟨⟨c', ?_, hp, hid⟩, hcreated'.trans hcreated, hstamped'.trans hstamped, ?_⟩
  · rw [hconflict, hc, Option.filter_some, if_pos (by simpa using hkeep)]
  · rw [hdeleted', hdeleted, List.nil_append, List.mem_singleton]
    exact hne.symm

theorem upsert_holder {id : Nat} (hp : PendingWith db (·.assetId = some id))
    (hnotes : db.created = [] ∧ db.stamped = [] ∧ id ∉ db.deleted) :
    Holder db ⟨req, wrote, .upsertSource c id⟩ := by
  refine ⟨hp.weaken, hp.asset, ?_, hnotes.2⟩
  rw [hnotes.1]
  exact Nat.zero_le _

theorem updateAsset_keeps {f : Asset → Asset} (hp : PendingWith db (·.assetId = some id))
    (hnotes : db.created = [] ∧ db.stamped = [] ∧ id ∉ db.deleted) :
    PendingWith (db.updateAsset id f).1 (·.assetId = some id) ∧ (db.updateAsset id f).1.created = [] ∧
      (db.updateAsset id f).1.stamped = [] ∧ id ∉ (db.updateAsset id f).1.deleted := by
  have hs := Db.updateAsset_sameNotes db id f
  refine ⟨hp.of_conflict hs.conflict, hs.created.trans hnotes.1, hs.stamped.trans hnotes.2.1, ?_⟩
  rw [hs.deleted]
  exact hnotes.2.2

theorem holder_updateAsset {update : AssetUpdate} {macs : Option (List MacEntry)} {f : Asset → Asset}
    (h : Holder db ⟨req, wrote, .updateAsset c id update macs⟩) :
    Holder (db.updateAsset id f).1 ⟨req, true, afterUpdate c id macs⟩ := by
  obtain ⟨hp, hnotes⟩ := updateAsset_keeps (f := f) h.1 h.2
  cases macs with
  | none => exact upsert_holder hp hnotes
  | some macs => exact ⟨hp, hnotes⟩

theorem holder_pruneMacs {macs : List MacEntry} {f : Asset → Asset}
    (h : Holder db ⟨req, wrote, .pruneMacs c id macs⟩) :
    Holder (db.updateAsset id f).1 ⟨req, true, afterPrune c id macs⟩ := by
  obtain ⟨hp, hnotes⟩ := updateAsset_keeps (f := f) h.1 h.2
  unfold afterPrune
  split
  next => exact upsert_holder hp hnotes
  next => exact ⟨hp, hnotes⟩

theorem holder_insertMacs {macs : List MacEntry} {f : Asset → Asset}
    (h : Holder db ⟨req, wrote, .insertMacs c id macs⟩) :
    Holder (db.updateAsset id f).1 ⟨req, true, .upsertSource c id⟩ := by
  obtain ⟨hp, hnotes⟩ := updateAsset_keeps (f := f) h.1 h.2
  exact upsert_holder hp hnotes

theorem holder_createAsset {data : Asset} (h : Holder db ⟨req, wrote, .createAsset c data⟩) :
    Holder (db.createAsset data).1 ⟨req, true, .upsertSource c (db.createAsset data).2⟩ := by
  obtain ⟨hp, hcreated, hstamped, hdeleted⟩ := h
  refine ⟨hp.of_conflict rfl, ?_, ?_, hstamped, ?_⟩
  · change (Function.update db.assets db.nextAsset (some data) db.nextAsset).isSome
    rw [Function.update_self]
    rfl
  · change (db.created ++ [db.nextAsset]).length ≤ 1
    rw [hcreated]
    exact Nat.le_refl 1
  · change db.nextAsset ∉ db.deleted
    rw [hdeleted]
    exact List.not_mem_nil

theorem holder_upsertSource (h : Holder db ⟨req, wrote, .upsertSource c id⟩) :
    Holder (upsertConflictAssetSource N db c id now).1 ⟨req, true, .resolve⟩ := by
  obtain ⟨hp, hsome, hcreated, hstamped, hdeleted⟩ := h
  obtain ⟨-, hconflict, hcreated', hstamped', hdeleted'⟩ :=
    upsertConflictAssetSource_ok N c now hsome
  refine ⟨hp.of_conflict hconflict, ?_, fun a ha => ?_⟩
  · rw [hcreated']
    exact hcreated
  · rw [hstamped', hstamped, List.nil_append, List.mem_singleton] at ha
    rw [hdeleted', ha]
    exact hdeleted

theorem holder_updateReservation {update : ReservationUpdate}
    {f : Reservations.Reservation → Reservations.Reservation}
    (h : Holder db ⟨req, wrote, .updateReservation id update⟩) :
    Holder (db.updateReservation id f).1 ⟨req, true, .resolve⟩ := by
  obtain ⟨hp, hu⟩ := h
  obtain ⟨-, hs⟩ := Db.updateReservation_ok (f := f) hp.reservation
  refine ⟨hp.weaken.of_conflict hs.conflict, ?_⟩
  rw [hs.created, hs.stamped, hs.deleted]
  exact hu.notes

theorem holder_resolve {resolvedBy : Option String} (h : Holder db ⟨req, wrote, .resolve⟩) :
    Holder (db.resolveConflict req.verdict resolvedBy now).1 ⟨req, wrote, .done (.ok ())⟩ := by
  obtain ⟨⟨c, hc, -, -⟩, hnotes⟩ := h
  obtain ⟨-, hconflict, hcreated, hstamped, hdeleted⟩ :=
    Db.resolveConflict_ok req.verdict resolvedBy now hc
  refine ⟨?_, ?_⟩
  · rw [hconflict]
    rfl
  · rw [hcreated, hstamped, hdeleted]
    exact hnotes

/-- The request that has passed its checks goes on without an error. -/
theorem holder_act {t : Task} (h : Holder db t) :
    Holder (act N db now t).1 (act N db now t).2 := by
  obtain ⟨req, wrote, stage⟩ := t
  cases stage with
  | read => exact h.elim
  | findSource c id existing update => exact holder_findSource h
  | deleteGhost c id existing update ghost macs =>
    simp only [act]
    rw [after_ok (Db.deleteAsset_ok h.2.2.2).1]
    exact holder_deleteGhost h
  | updateAsset c id update macs =>
    simp only [act]
    rw [after_ok (Db.updateAsset_ok _ h.1.asset)]
    exact holder_updateAsset h
  | pruneMacs c id macs => exact holder_pruneMacs h
  | insertMacs c id macs =>
    simp only [act]
    rw [Db.updateAsset_ok _ h.1.asset]
    exact holder_insertMacs h
  | createAsset c data => exact holder_createAsset h
  | upsertSource c id =>
    simp only [act]
    rw [after_ok (upsertConflictAssetSource_ok N c now h.2.1).1]
    exact holder_upsertSource h
  | updateReservation id update =>
    simp only [act]
    rw [after_ok (Db.updateReservation_ok h.1.reservation).1]
    exact holder_updateReservation h
  | resolve =>
    obtain ⟨c, hc, -, -⟩ := h.1
    simp only [act]
    rw [(Db.resolveConflict_ok req.verdict req.username now hc).1]
    exact holder_resolve h
  | done result => exact h

end Steps

section Safety

variable {N : Naming} {p : Pool Db Task} {t : Task}

/-- A request that has not passed its checks. -/
def Task.Idle (t : Task) : Prop := t.wrote = false ∧ (t.stage = .read ∨ ∃ e, t.stage = .done (.error e))

/-- Either nothing has happened to the conflict, or one request alone has
passed its checks. -/
def Kept (p : Pool Db Task) : Prop :=
  (PendingWith p.shared (fun _ => True) ∧ Unmarked p.shared ∧ ∀ t ∈ p.calls, t.Idle) ∨
    ∃ (i : Nat) (t : Task), p.calls[i]? = some t ∧ Holder p.shared t ∧ ∀ j ≠ i, ∀ u ∈ p.calls[j]?, Task.Idle u

theorem Task.Idle.not_effective (h : t.Idle) : ¬ t.Effective := by
  obtain ⟨hwrote, hstage⟩ := h
  rintro (hw | hd)
  · rw [hwrote] at hw
    cases hw
  · obtain hs | ⟨e, hs⟩ := hstage
    · rw [hs] at hd
      cases hd
    · rw [hs] at hd
      cases hd

theorem holder_status {db : Db} (h : Holder db t) :
    (t.inFlight = true ∧ PendingWith db fun _ => True) ∨
      (t.stage = .done (.ok ()) ∧ db.conflict.map (·.status) = some t.req.verdict) := by
  obtain ⟨req, wrote, stage⟩ := t
  cases stage with
  | read => exact h.elim
  | findSource | deleteGhost | updateAsset | pruneMacs | insertMacs | updateReservation =>
    exact .inl ⟨rfl, h.1.weaken⟩
  | createAsset | upsertSource | resolve => exact .inl ⟨rfl, h.1⟩
  | done result =>
    cases result with
    | error e => exact h.elim
    | ok => exact .inr ⟨rfl, h.1⟩

theorem Task.Idle.not_holder {db : Db} (h : t.Idle) : ¬ Holder db t := by
  intro hold
  obtain ⟨hflight, -⟩ | ⟨hdone, -⟩ := holder_status hold
  · obtain ⟨-, hs | ⟨e, hs⟩⟩ := h
    · rw [Task.inFlight, hs] at hflight
      cases hflight
    · rw [Task.inFlight, hs] at hflight
      cases hflight
  · exact h.not_effective (.inr hdone)

theorem holder_notes {db : Db} (h : Holder db t) :
    db.created.length ≤ 1 ∧ ∀ id ∈ db.stamped, id ∉ db.deleted := by
  obtain ⟨req, wrote, stage⟩ := t
  have hnone {db : Db} (hs : db.stamped = []) : ∀ id ∈ db.stamped, id ∉ db.deleted := by
    rw [hs]
    exact nofun
  cases stage with
  | read => exact h.elim
  | findSource | createAsset | updateReservation => exact Unmarked.notes h.2
  | deleteGhost => exact Unmarked.notes h.2.1
  | updateAsset | pruneMacs | insertMacs => exact ⟨by rw [h.2.1]; exact Nat.zero_le _, hnone h.2.2.1⟩
  | upsertSource => exact ⟨h.2.2.1, hnone h.2.2.2.1⟩
  | resolve => exact h.2
  | done result =>
    cases result with
    | error e => exact h.elim
    | ok => exact h.2

theorem verdict_ne_pending (req : Request) : req.verdict ≠ .pending := by
  unfold Request.verdict
  split
  · nofun
  · nofun
  · nofun

/-- A request that does not hold the conflict stays idle unless it passes
its checks. -/
theorem idle_act (N : Naming) (db : Db) (now : Nat) (h : t.Idle) :
    (act N db now t).1 = db ∧ ((act N db now t).2.Idle ∨
      t.unread = true ∧ ∃ stage, begin N db t.req now = .ok stage ∧
        (act N db now t).2 = { t with stage := stage }) := by
  obtain ⟨req, wrote, stage⟩ := t
  obtain ⟨hwrote, hs | ⟨e, hs⟩⟩ := h
  · cases hs
    simp only [act]
    cases hb : begin N db req now with
    | error e => exact ⟨rfl, .inl ⟨hwrote, .inr ⟨e, rfl⟩⟩⟩
    | ok stage => exact ⟨rfl, .inr ⟨rfl, stage, rfl, rfl⟩⟩
  · cases hs
    exact ⟨rfl, .inl ⟨hwrote, .inr ⟨e, rfl⟩⟩⟩

theorem Task.Idle.ended {result : Except Failure Unit} (h : t.Idle) (hd : t.stage = .done result) :
    ∃ e, result = .error e ∧ t.wrote = false := by
  obtain ⟨hwrote, hs | ⟨e, hs⟩⟩ := h
  · rw [hs] at hd
    cases hd
  · rw [hs] at hd
    cases hd
    exact ⟨e, rfl, hwrote⟩

theorem quiet_resolvedOnce (hp : PendingWith p.shared fun _ => True) (hu : Unmarked p.shared)
    (hidle : ∀ t ∈ p.calls, t.Idle) : ResolvedOnce p := by
  obtain ⟨hcreated, hstamped⟩ := hu.notes
  refine ⟨fun i j t u hi _ ht _ => ?_, fun t ht result hd => .inl ((hidle t ht).ended hd), fun c hc hne => ?_,
    hcreated, hstamped⟩
  · exact absurd ht (hidle t (List.mem_of_getElem? hi)).not_effective
  · obtain ⟨c', hc', hpending, -⟩ := hp
    cases hc.symm.trans hc'
    exact absurd hpending hne

theorem held_resolvedOnce {i : Nat} (hi : p.calls[i]? = some t) (ht : Holder p.shared t)
    (hidle : ∀ j ≠ i, ∀ u ∈ p.calls[j]?, Task.Idle u) : ResolvedOnce p := by
  obtain ⟨hcreated, hstamped⟩ := holder_notes ht
  have hat : ∀ (j : Nat) (u : Task), p.calls[j]? = some u → u.Effective → j = i := by
    intro j u hj hu
    by_contra hne
    exact (hidle j hne u hj).not_effective hu
  refine ⟨fun j k u v hj hk hu hv => (hat j u hj hu).trans (hat k v hk hv).symm, fun u hu result hd => ?_,
    fun c hc hne => ?_, hcreated, hstamped⟩
  · obtain ⟨j, hj⟩ := List.mem_iff_getElem?.mp hu
    by_cases hji : j = i
    · subst hji
      cases hi.symm.trans hj
      obtain ⟨hflight, -⟩ | ⟨hdone, hstatus⟩ := holder_status ht
      · rw [Task.inFlight, hd] at hflight
        cases hflight
      · cases hd.symm.trans hdone
        exact .inr ⟨rfl, hstatus⟩
    · exact .inl ((hidle j hji u hj).ended hd)
  · obtain ⟨-, c', hc', hpending, -⟩ | ⟨hdone, hstatus⟩ := holder_status ht
    · cases hc.symm.trans hc'
      exact absurd hpending hne
    · rw [hc] at hstatus
      exact ⟨t, List.mem_of_getElem? hi, hdone, Option.some.inj hstatus⟩

theorem Kept.resolvedOnce (h : Kept p) : ResolvedOnce p := by
  obtain ⟨hp, hu, hidle⟩ | ⟨i, t, hi, ht, hidle⟩ := h
  · exact quiet_resolvedOnce hp hu hidle
  · exact held_resolvedOnce hi ht hidle

theorem kept_request (req : Request) (h : Kept p) : Kept (step N p (.request req)) := by
  have hnew : Task.Idle { req := req } := ⟨rfl, .inl rfl⟩
  obtain ⟨hp, hu, hidle⟩ | ⟨i, t, hi, ht, hidle⟩ := h
  · refine .inl ⟨hp, hu, fun t ht => ?_⟩
    obtain ht | ht := List.mem_append.mp ht
    · exact hidle t ht
    · exact List.mem_singleton.mp ht ▸ hnew
  · have hlt := (List.getElem?_eq_some_iff.mp hi).1
    refine .inr ⟨i, t, (List.getElem?_append_left hlt).trans hi, ht, fun j hj u hu => ?_⟩
    by_cases hjlt : j < p.calls.length
    · exact hidle j hj u ((List.getElem?_append_left hjlt).symm.trans hu)
    · have hmem := (List.getElem?_append_right (Nat.le_of_not_lt hjlt)).symm.trans hu
      exact List.mem_singleton.mp (List.mem_of_getElem? hmem) ▸ hnew

theorem kept_set_holder {db : Db} {i : Nat} {t' : Task} (hi : p.calls[i]? = some t) (ht' : Holder db t')
    (hidle : ∀ j ≠ i, ∀ u ∈ p.calls[j]?, Task.Idle u) : Kept ⟨db, p.calls.set i t'⟩ := by
  refine .inr ⟨i, t', List.getElem?_set_self (List.getElem?_eq_some_iff.mp hi).1, ht', fun j hj u hu => ?_⟩
  exact hidle j hj u ((List.getElem?_set_ne hj.symm).symm.trans hu)

theorem kept_set_idle {i : Nat} {t' : Task} (hi : p.calls[i]? = some t) (ht : t.Idle) (ht' : t'.Idle)
    (h : Kept p) : Kept ⟨p.shared, p.calls.set i t'⟩ := by
  obtain ⟨hp, hu, hidle⟩ | ⟨j, u, hj, hu, hidle⟩ := h
  · refine .inl ⟨hp, hu, fun v hv => ?_⟩
    obtain hv | hv := List.mem_or_eq_of_mem_set hv
    · exact hidle v hv
    · exact hv ▸ ht'
  · have hne : i ≠ j := by
      rintro rfl
      cases hi.symm.trans hj
      exact ht.not_holder hu
    refine .inr ⟨j, u, (List.getElem?_set_ne hne).trans hj, hu, fun k hk v hv => ?_⟩
    by_cases hki : k = i
    · subst hki
      rw [List.getElem?_set_self (List.getElem?_eq_some_iff.mp hi).1] at hv
      cases hv
      exact ht'
    · exact hidle k hk v ((List.getElem?_set_ne (Ne.symm hki)).symm.trans hv)

/-- A request passes its checks only where nothing has happened to the
conflict. -/
theorem begin_unheld {i now : Nat} {stage : Stage} (h : Kept p) (hc : Clear N p (.advance i now))
    (hi : p.calls[i]? = some t) (hunread : t.unread = true)
    (hb : begin N p.shared t.req now = .ok stage) :
    Unmarked p.shared ∧ ∀ t ∈ p.calls, t.Idle := by
  obtain ⟨-, hu, hidle⟩ | ⟨j, u, hj, hu, -⟩ := h
  · exact ⟨hu, hidle⟩
  · exfalso
    obtain ⟨hflight, -⟩ | ⟨-, hstatus⟩ := holder_status hu
    · have hnot := hc t hi hunread (by rw [hb]; rfl) u (List.mem_of_getElem? hj)
      rw [hflight] at hnot
      cases hnot
    · obtain ⟨c, hconflict, hpending, -⟩ := begin_ok hb
      rw [hconflict] at hstatus
      exact verdict_ne_pending u.req ((Option.some.inj hstatus).symm.trans hpending)

theorem kept_advance {i now : Nat} (h : Kept p) (hc : Clear N p (.advance i now)) :
    Kept (step N p (.advance i now)) := by
  cases hi : p.calls[i]? with
  | none => simpa only [step, Event.move, Pool.step, hi] using h
  | some t =>
    simp only [step, Event.move, Pool.step, hi]
    by_cases ht : t.Idle
    · obtain ⟨hdb, hidle | ⟨hunread, stage, hb, heq⟩⟩ := idle_act N p.shared now ht
      · rw [hdb]
        exact kept_set_idle hi ht hidle h
      · obtain ⟨hu, hall⟩ := begin_unheld h hc hi hunread hb
        rw [hdb, heq]
        exact kept_set_holder hi (begin_holder hu hb) fun j _ u hu => hall u (List.mem_of_getElem? hu)
    · obtain ⟨-, -, hidle⟩ | ⟨j, u, hj, hu, hidle⟩ := h
      · exact absurd (hidle t (List.mem_of_getElem? hi)) ht
      · have hij : i = j := by
          by_contra hne
          exact ht (hidle i hne t hi)
        subst hij
        cases hi.symm.trans hj
        exact kept_set_holder hi (holder_act hu) hidle

theorem kept_step (N : Naming) (p : Pool Db Task) (e : Event) (h : Kept p)
    (hc : Clear N p e) : Kept (step N p e) := by
  cases e with
  | request req => exact kept_request req h
  | advance i now => exact kept_advance h hc

theorem Start.kept (h : Start p) : Kept p := by
  obtain ⟨c, hc, hp⟩ := h.pending
  refine .inl ⟨⟨c, hc, hp, trivial⟩, h.unmarked, fun t ht => ?_⟩
  rw [h.calls] at ht
  exact absurd ht List.not_mem_nil

/-- Where no request passes its checks while another is in flight, the
conflict is resolved at most once. -/
theorem resolved_once (N : Naming) {events : List Event} (hs : Start p)
    (hc : Along (step N) (Clear N) p events) :
    ResolvedOnce (events.foldl (step N) p) :=
  (foldl_invariant (kept_step N) hs.kept hc).resolvedOnce

end Safety

section Samples

/-- ASCII letters are folded, and there is no alias. -/
def asciiNaming : Naming := { toLowerCase := fun s => String.ofList (s.toList.map Char.toLower) }

def laptop : Asset := { hostname := some "LAPTOP-7", assetType := .workstation }

def sampleConflict : Conflict :=
  { entityType := .asset, assetId := some 0, proposedDeviceId := some "5f0c"
    proposedAssetFields := { hostname := some "LAPTOP-7", assetTagPrefix := some "entra:" } }

def sampleDb : Db :=
  { conflict := some sampleConflict
    assets := fun id => if id = 0 then some laptop else none
    nextAsset := 1, sources := fun _ _ => none, reservations := fun _ => none
    created := [], stamped := [], deleted := []
    unused := fun id h => if_neg (by omega)
    source_asset := fun _ _ s h => nomatch h
    conflict_asset := by
      rintro c ⟨⟩ id ⟨⟩
      rfl
    conflict_reservation := by
      rintro c ⟨⟩ id ⟨⟩ }

def operator : Session :=
  { userId := "1", role := "operator"
    roleSnapshot := some { id := "r", name := "operator", isProtected := false
                           permissions := fun _ => .fullwrite, updatedAt := 0 } }

def acceptRequest : Request := { kind := .accept, session := operator, username := some "kim" }

def rejectRequest : Request := { kind := .reject, session := operator, username := some "lee" }

def sampleStart : Pool Db Task := ⟨sampleDb, []⟩

theorem sampleStart_start : Start sampleStart := ⟨⟨sampleConflict, rfl, rfl⟩, ⟨rfl, rfl, rfl⟩, rfl⟩

def orderly : List Event :=
  [.request acceptRequest, .advance 0 1, .request rejectRequest, .advance 0 2, .advance 0 3, .advance 0 4,
    .advance 0 5, .advance 1 6]

theorem resolved_once_orderly :
    Along (step asciiNaming) (Clear asciiNaming) sampleStart orderly ∧
      ((orderly.foldl (step asciiNaming) sampleStart).shared.conflict.map (·.status)) = some .accepted ∧
      ResolvedOnce (orderly.foldl (step asciiNaming) sampleStart) := by
  have hc : Along (step asciiNaming) (Clear asciiNaming) sampleStart orderly := by decide +kernel
  exact ⟨hc, by decide +kernel, resolved_once asciiNaming sampleStart_start hc⟩

/-- Both find the conflict pending, and the accept takes the new asset of the
reject for a ghost. -/
def overlapping : List Event :=
  [.request acceptRequest, .request rejectRequest, .advance 0 1, .advance 1 2, .advance 1 3, .advance 1 4,
    .advance 0 5, .advance 0 6, .advance 0 7, .advance 0 8, .advance 0 9, .advance 1 10]

theorem accept_deletes_created_asset :
    Start sampleStart ∧ (overlapping.foldl (step asciiNaming) sampleStart).shared.stamped = [1, 0] ∧
      (overlapping.foldl (step asciiNaming) sampleStart).shared.deleted = [1] ∧
      (overlapping.foldl (step asciiNaming) sampleStart).shared.conflict.map (·.status) = some .rejected ∧
      ¬ ResolvedOnce (overlapping.foldl (step asciiNaming) sampleStart) := by
  have hstamped : (overlapping.foldl (step asciiNaming) sampleStart).shared.stamped =
    [1, 0] := by decide +kernel
  have hdeleted : (overlapping.foldl (step asciiNaming) sampleStart).shared.deleted = [1] := by decide +kernel
  refine ⟨sampleStart_start, hstamped, hdeleted, by decide +kernel, fun h => ?_⟩
  refine h.stamped 1 ?_ ?_
  · rw [hstamped]
    decide
  · rw [hdeleted]
    decide

end Samples

end Polaris.ConflictRaces
