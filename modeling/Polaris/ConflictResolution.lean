import Polaris.ManufacturerNormalize
import Polaris.Reservations
import Polaris.RoleFreshness

namespace Polaris.ConflictResolution

open Polaris.Cidr Polaris.ManufacturerNormalize Polaris.ReservationPush Polaris.Reservations
  Polaris.RoleFreshness

section Data

inductive AssetType
  | server | switch | router | firewall | workstation | printer | accessPoint | other
  deriving DecidableEq

inductive AssetStatus
  | active | maintenance | decommissioned | storage | disabled | quarantined
  deriving DecidableEq

/-- A MAC of an asset. Times are in milliseconds. -/
structure MacEntry where
  mac : String
  lastSeen : Nat
  source : String := "unknown"
  device : Option String := none
  subnetCidr : Option String := none
  subnetName : Option String := none
  deriving DecidableEq

structure Asset where
  hostname : Option String := none
  dnsName : Option String := none
  serialNumber : Option String := none
  macAddress : Option String := none
  manufacturer : Option String := none
  model : Option String := none
  assignedTo : Option String := none
  os : Option String := none
  osVersion : Option String := none
  location : Option String := none
  learnedLocation : Option String := none
  notes : Option String := none
  lastSeen : Option Nat := none
  acquiredAt : Option Nat := none
  assetType : AssetType := .other
  status : AssetStatus := .active
  statusChangedAt : Option Nat := none
  statusChangedBy : Option String := none
  tags : List String := []
  macAddressRows : List MacEntry := []
  deriving DecidableEq

/-- The snapshot of the device that discovery proposed. -/
structure ProposedFields where
  hostname : Option String := none
  dnsName : Option String := none
  serialNumber : Option String := none
  macAddress : Option String := none
  manufacturer : Option String := none
  model : Option String := none
  assignedTo : Option String := none
  os : Option String := none
  osVersion : Option String := none
  learnedLocation : Option String := none
  notes : Option String := none
  lastSeen : Option Nat := none
  registrationDateTime : Option Nat := none
  assetType : Option AssetType := none
  status : Option AssetStatus := none
  disabled : Bool := false
  trustType : Option String := none
  complianceState : Option String := none
  matchedVia : Option String := none
  assetTagPrefix : Option String := none
  dnsHostName : Option String := none
  objectSid : Option String := none
  onPremisesSecurityIdentifier : Option String := none
  deriving DecidableEq

inductive ConflictStatus
  | pending | accepted | rejected
  deriving DecidableEq

structure Conflict where
  entityType : EntityType := .reservation
  reservationId : Option Nat := none
  assetId : Option Nat := none
  integrationId : Option String := none
  proposedHostname : Option String := none
  proposedOwner : Option String := none
  proposedProjectRef : Option String := none
  proposedNotes : Option String := none
  proposedSourceType : Option SourceType := none
  proposedDeviceId : Option String := none
  proposedAssetFields : ProposedFields := {}
  conflictFields : List String := []
  status : ConflictStatus := .pending
  resolvedBy : Option String := none
  resolvedAt : Option Nat := none
  deriving DecidableEq

inductive SourceKind
  | entra | ad
  deriving DecidableEq

inductive Observed
  | ad (objectGuid : String) (cn dnsHostName operatingSystem operatingSystemVersion objectSid : Option String)
    (accountDisabled : Bool)
  | entra (deviceId : String) (displayName operatingSystem operatingSystemVersion : Option String)
    (accountEnabled : Bool) (trustType onPremisesSecurityIdentifier : Option String)
  deriving DecidableEq

structure AssetSource where
  assetId : Nat
  integrationId : Option String
  observed : Observed
  inferred : Bool
  syncedAt : Option Nat
  firstSeen : Nat
  lastSeen : Nat
  deriving DecidableEq

end Data

section Tables

/-- The conflict with the tables it touches, and a note of the assets that
were created, that received a source row and that were deleted. -/
structure Db where
  conflict : Option Conflict
  assets : Nat → Option Asset
  nextAsset : Nat
  sources : SourceKind → String → Option AssetSource
  reservations : Nat → Option Reservation
  created : List Nat
  stamped : List Nat
  deleted : List Nat
  unused : ∀ id, nextAsset ≤ id → assets id = none
  source_asset : ∀ kind externalId, ∀ s ∈ sources kind externalId, (assets s.assetId).isSome
  conflict_asset : ∀ c ∈ conflict, ∀ id ∈ c.assetId, (assets id).isSome
  conflict_reservation : ∀ c ∈ conflict, ∀ id ∈ c.reservationId, (reservations id).isSome

namespace Db

variable (db : Db)

def notFound : Failure := .thrown
    "An operation failed because it depends on one or more records that were required but not found."

def foreignKey : Failure := .thrown "Foreign key constraint violated"

def deleteAsset (id : Nat) : Db × Except Failure Unit :=
  if (db.assets id).isNone then (db, .error notFound)
  else
    ({ db with
      conflict := db.conflict.filter (·.assetId ≠ some id)
      assets := Function.update db.assets id none
      sources := fun kind externalId => (db.sources kind externalId).filter (·.assetId ≠ id)
      deleted := db.deleted ++ [id]
      unused := by
        intro a ha
        by_cases h : a = id
        · rw [h, Function.update_self]
        · rw [Function.update_of_ne h]
          exact db.unused a ha
      source_asset := by
        intro kind externalId s hs
        obtain ⟨hs, hne⟩ := Option.mem_filter_iff.mp hs
        rw [Function.update_of_ne (by simpa using hne)]
        exact db.source_asset kind externalId s hs
      conflict_asset := by
        intro c hc a ha
        obtain ⟨hc, hne⟩ := Option.mem_filter_iff.mp hc
        have hne : a ≠ id := fun h => by
          rw [decide_eq_true_eq] at hne
          exact hne (h ▸ ha)
        rw [Function.update_of_ne hne]
        exact db.conflict_asset c hc a ha
      conflict_reservation := fun c hc => db.conflict_reservation c (Option.mem_filter_iff.mp hc).1 },
      .ok ())

theorem isSome_update {β : Type} {f : Nat → Option β} {id a : Nat} {b : β} (h : (f a).isSome) :
    (Function.update f id (some b) a).isSome := by
  by_cases ha : a = id
  · rw [ha, Function.update_self]
    rfl
  · rwa [Function.update_of_ne ha]

def updateAsset (id : Nat) (f : Asset → Asset) : Db × Except Failure Unit :=
  match hid : db.assets id with
  | none => (db, .error notFound)
  | some a =>
    ({ db with
      assets := Function.update db.assets id (some (f a))
      unused := by
        intro x hx
        have hne : x ≠ id := by
          rintro rfl
          rw [db.unused x hx] at hid
          cases hid
        rw [Function.update_of_ne hne]
        exact db.unused x hx
      source_asset := fun kind externalId s hs => isSome_update (db.source_asset kind externalId s hs)
      conflict_asset := fun c hc x hx => isSome_update (db.conflict_asset c hc x hx) },
      .ok ())

def createAsset (data : Asset) : Db × Nat :=
  ({ db with
    assets := Function.update db.assets db.nextAsset (some data)
    nextAsset := db.nextAsset + 1
    created := db.created ++ [db.nextAsset]
    unused := by
      intro x hx
      rw [Function.update_of_ne (by omega)]
      exact db.unused x (by omega)
    source_asset := fun kind externalId s hs => isSome_update (db.source_asset kind externalId s hs)
    conflict_asset := fun c hc x hx => isSome_update (db.conflict_asset c hc x hx) },
    db.nextAsset)

def takeOver (row : AssetSource) : Option AssetSource → AssetSource
  | none => row
  | some s =>
    { s with
      assetId := row.assetId, integrationId := row.integrationId, syncedAt := row.syncedAt
      lastSeen := row.lastSeen }

theorem takeOver_assetId (row : AssetSource) (old : Option AssetSource) :
    (takeOver row old).assetId = row.assetId := by
  cases old <;> rfl

def upsertSource (kind : SourceKind) (externalId : String) (row : AssetSource) : Db × Except Failure Unit :=
  if h : (db.assets row.assetId).isSome then
    ({ db with
      sources := Function.update db.sources kind
        (Function.update (db.sources kind) externalId (some (takeOver row (db.sources kind externalId))))
      stamped := db.stamped ++ [row.assetId]
      source_asset := by
        intro k x s hs
        by_cases hk : k = kind
        · subst hk
          rw [Function.update_self] at hs
          by_cases hx : x = externalId
          · subst hx
            rw [Function.update_self] at hs
            cases hs
            rw [takeOver_assetId]
            exact h
          · rw [Function.update_of_ne hx] at hs
            exact db.source_asset k x s hs
        · rw [Function.update_of_ne hk] at hs
          exact db.source_asset k x s hs },
      .ok ())
  else (db, .error foreignKey)

def updateReservation (id : Nat) (f : Reservation → Reservation) : Db × Except Failure Unit :=
  match db.reservations id with
  | none => (db, .error notFound)
  | some r =>
    ({ db with
      reservations := Function.update db.reservations id (some (f r))
      conflict_reservation := fun c hc x hx => isSome_update (db.conflict_reservation c hc x hx) },
      .ok ())

def resolveConflict (status : ConflictStatus) (resolvedBy : Option String) (now : Nat) :
    Db × Except Failure Unit :=
  match hc : db.conflict with
  | none => (db, .error notFound)
  | some c =>
    ({ db with
      conflict := some { c with status := status, resolvedBy := resolvedBy, resolvedAt := some now }
      conflict_asset := by
        intro c' hc' id hid
        cases hc'
        exact db.conflict_asset c hc id hid
      conflict_reservation := by
        intro c' hc' id hid
        cases hc'
        exact db.conflict_reservation c hc id hid },
      .ok ())

/-- The conflict and the notes are the same. -/
structure SameNotes (db db' : Db) : Prop where
  conflict : db'.conflict = db.conflict
  created : db'.created = db.created
  stamped : db'.stamped = db.stamped
  deleted : db'.deleted = db.deleted

variable {db} {id : Nat}

theorem deleteAsset_ok (h : (db.assets id).isSome) :
    (db.deleteAsset id).2 = .ok () ∧
      (db.deleteAsset id).1.conflict = db.conflict.filter (·.assetId ≠ some id) ∧
      (db.deleteAsset id).1.created = db.created ∧ (db.deleteAsset id).1.stamped = db.stamped ∧
      (db.deleteAsset id).1.deleted = db.deleted ++ [id] := by
  have hnone : ¬ (db.assets id).isNone := by simpa using Option.isSome_iff_ne_none.mp h
  rw [deleteAsset, if_neg hnone]
  exact ⟨rfl, rfl, rfl, rfl, rfl⟩

theorem updateAsset_sameNotes (db : Db) (id : Nat) (f : Asset → Asset) :
    SameNotes db (db.updateAsset id f).1 := by
  unfold updateAsset
  split
  · exact ⟨rfl, rfl, rfl, rfl⟩
  · exact ⟨rfl, rfl, rfl, rfl⟩

theorem updateAsset_ok (f : Asset → Asset) (h : (db.assets id).isSome) :
    (db.updateAsset id f).2 = .ok () := by
  unfold updateAsset
  split
  next hid => rw [hid] at h; cases h
  next => rfl

theorem upsertSource_ok {kind : SourceKind} {externalId : String} {row : AssetSource}
    (h : (db.assets row.assetId).isSome) :
    (db.upsertSource kind externalId row).2 = .ok () ∧
      (db.upsertSource kind externalId row).1.conflict = db.conflict ∧
      (db.upsertSource kind externalId row).1.created = db.created ∧
      (db.upsertSource kind externalId row).1.stamped = db.stamped ++ [row.assetId] ∧
      (db.upsertSource kind externalId row).1.deleted = db.deleted := by
  rw [upsertSource, dif_pos h]
  exact ⟨rfl, rfl, rfl, rfl, rfl⟩

theorem updateReservation_ok {f : Reservation → Reservation} (h : (db.reservations id).isSome) :
    (db.updateReservation id f).2 = .ok () ∧ SameNotes db (db.updateReservation id f).1 := by
  unfold updateReservation
  split
  next hid => rw [hid] at h; cases h
  next => exact ⟨rfl, rfl, rfl, rfl, rfl⟩

theorem resolveConflict_ok {c : Conflict} (status : ConflictStatus) (resolvedBy : Option String) (now : Nat)
    (h : db.conflict = some c) :
    (db.resolveConflict status resolvedBy now).2 = .ok () ∧
      (db.resolveConflict status resolvedBy now).1.conflict =
        some { c with status := status, resolvedBy := resolvedBy, resolvedAt := some now } ∧
      (db.resolveConflict status resolvedBy now).1.created = db.created ∧
      (db.resolveConflict status resolvedBy now).1.stamped = db.stamped ∧
      (db.resolveConflict status resolvedBy now).1.deleted = db.deleted := by
  unfold resolveConflict
  split
  next hc => rw [hc] at h; cases h
  next c' hc =>
    cases hc.symm.trans h
    exact ⟨rfl, rfl, rfl, rfl, rfl⟩

end Db

end Tables

section Identity

/-- How texts are folded, and the aliases by which the client stores a
manufacturer. -/
structure Naming where
  toLowerCase : String → String
  aliasMap : Option AliasMap := none

/-- What the hook of the client makes of a manufacturer that is written. -/
def Naming.stored (N : Naming) (manufacturer : Option String) : Option String :=
  normalizeManufacturer N.toLowerCase N.aliasMap manufacturer

variable (N : Naming)

def assetTagPrefixFor (proposed : ProposedFields) : String :=
  match proposed.assetTagPrefix with
  | some "ad:" => "ad:"
  | _ => "entra:"

def isAd (proposed : ProposedFields) : Bool := assetTagPrefixFor proposed = "ad:"

def sourceKindOf (proposed : ProposedFields) : SourceKind := if isAd proposed then .ad else .entra

def sourceTags (proposed : ProposedFields) : List String :=
  if isAd proposed then ["activedirectory", "auto-discovered"] ++
    if proposed.disabled then ["ad-disabled"] else []
  else
    ["entraid", "auto-discovered"] ++ ((truthy proposed.trustType).map N.toLowerCase).toList ++
      ((truthy proposed.complianceState).map fun state => "intune-" ++ N.toLowerCase state).toList

def observedOf (proposed : ProposedFields) (externalId : String) : Observed :=
  if isAd proposed then
    .ad externalId proposed.hostname proposed.dnsHostName proposed.os proposed.osVersion proposed.objectSid
      proposed.disabled
  else
    .entra externalId proposed.hostname proposed.os proposed.osVersion
      (proposed.status ≠ some .disabled && proposed.status ≠ some .decommissioned) proposed.trustType
      proposed.onPremisesSecurityIdentifier

def conflictAssetSource (c : Conflict) (externalId : String) (assetId now : Nat) : AssetSource :=
  { assetId := assetId, integrationId := c.integrationId
    observed := observedOf c.proposedAssetFields externalId, inferred := false, syncedAt := some now
    firstSeen := c.proposedAssetFields.lastSeen.getD now, lastSeen :=
      c.proposedAssetFields.lastSeen.getD now }

def upsertConflictAssetSource (db : Db) (c : Conflict) (assetId now : Nat) : Db × Except Failure Unit :=
  let externalId := N.toLowerCase (c.proposedDeviceId.getD "")
  db.upsertSource (sourceKindOf c.proposedAssetFields) externalId
    (conflictAssetSource c externalId assetId now)

variable {db : Db} {assetId : Nat}

theorem upsertConflictAssetSource_ok (c : Conflict) (now : Nat) (h : (db.assets assetId).isSome) :
    (upsertConflictAssetSource N db c assetId now).2 = .ok () ∧
      (upsertConflictAssetSource N db c assetId now).1.conflict = db.conflict ∧
      (upsertConflictAssetSource N db c assetId now).1.created = db.created ∧
      (upsertConflictAssetSource N db c assetId now).1.stamped = db.stamped ++ [assetId] ∧
      (upsertConflictAssetSource N db c assetId now).1.deleted = db.deleted :=
  Db.upsertSource_ok h

end Identity

section Macs

/-- The rows as entries, the latest first. -/
def shapeMacRows (rows : List MacEntry) : List MacEntry :=
  (rows.mergeSort fun a b => b.lastSeen ≤ a.lastSeen).map fun r =>
    { r with device := truthy r.device, subnetCidr := truthy r.subnetCidr, subnetName := truthy r.subnetName }

def macKey (mac : String) : List Char := (mac.toList.filter RoleService.isHex).map Char.toUpper

def addMac (merged : List MacEntry) (m : MacEntry) : List MacEntry :=
  if macKey m.mac ≠ [] ∧ ¬ merged.any (macKey ·.mac = macKey m.mac) then merged ++ [m] else merged

def mergedMacs (existing ghost : Asset) : Option (List MacEntry) :=
  let existingMacs := shapeMacRows existing.macAddressRows
  let merged := (shapeMacRows ghost.macAddressRows).foldl addMac existingMacs
  if merged.length > existingMacs.length then some merged else none

/-- The entries that are kept, in the order of their text. -/
def reconciled (macs : List MacEntry) : List MacEntry :=
  (macs.filter (·.mac ≠ "")).mergeSort fun a b => a.mac ≤ b.mac

def pruneMacs (macs : List MacEntry) (a : Asset) : Asset :=
  { a with macAddressRows := a.macAddressRows.filter fun r => (reconciled macs).any (·.mac = r.mac) }

def insertMacs (macs : List MacEntry) (a : Asset) : Asset :=
  { a with
    macAddressRows := (reconciled macs).foldl (fun rows m =>
      rows.filter (·.mac ≠ m.mac) ++ [{ m with source := if m.source = "" then "unknown" else m.source }])
      a.macAddressRows }

end Macs

section Accept

variable (N : Naming)

/-- The columns of an update; nothing stands for one that is not written. -/
structure AssetUpdate where
  hostname : Option String := none
  serialNumber : Option String := none
  macAddress : Option String := none
  manufacturer : Option String := none
  model : Option String := none
  assignedTo : Option String := none
  os : Option String := none
  osVersion : Option String := none
  dnsName : Option String := none
  learnedLocation : Option String := none
  notes : Option String := none
  lastSeen : Option Nat := none
  acquiredAt : Option Nat := none
  assetType : Option AssetType := none
  status : Option AssetStatus := none
  statusChangedAt : Option Nat := none
  statusChangedBy : Option String := none
  tags : List String := []
  deriving DecidableEq

inductive Winner
  | existing | proposed
  deriving DecidableEq

/-- The choices of a merge, by field. An accept makes none. -/
abbrev FieldWinners := String → Option Winner

def falsy (s : Option String) : Bool := truthy s = none

def jsLength (s : String) : Nat := (s.toList.map utf16Length).sum

def isNetbiosUpgrade (existing : Asset) (proposed : ProposedFields) : Bool :=
  let existingHost := N.toLowerCase (existing.hostname.getD "")
  let proposedHost := N.toLowerCase (proposed.hostname.getD "")
  proposed.matchedVia = some "netbios" && jsLength existingHost < jsLength proposedHost &&
    0 < jsLength existingHost && existingHost.toList.isPrefixOf proposedHost.toList

def chosen (winner : Winner) (proposed : Option String) : Option String :=
  if winner = .proposed then truthy proposed else none

def blankFill (fieldWinners : FieldWinners) (field : String) (existing proposed : Option String) :
    Option String :=
  chosen ((fieldWinners field).getD (if falsy existing && ! falsy proposed then .proposed else .existing))
    proposed

def mergeTags (existing added : List String) : List String :=
  added.foldl (fun merged t => if t ∈ merged then merged else merged ++ [t]) existing

/-- The update that an accept makes of the existing asset. -/
def acceptUpdate (existing : Asset) (proposed : ProposedFields) (fieldWinners : FieldWinners)
    (actor : Option String) (now : Nat) : AssetUpdate :=
  let retired := isAd proposed && proposed.disabled
  { hostname := chosen ((fieldWinners "hostname").getD
      (if (falsy existing.hostname && ! falsy proposed.hostname) || isNetbiosUpgrade N existing proposed
        then .proposed else .existing)) proposed.hostname
    serialNumber := blankFill fieldWinners "serialNumber" existing.serialNumber proposed.serialNumber
    macAddress := blankFill fieldWinners "macAddress" existing.macAddress proposed.macAddress
    manufacturer := blankFill fieldWinners "manufacturer" existing.manufacturer proposed.manufacturer
    model := blankFill fieldWinners "model" existing.model proposed.model
    assignedTo := blankFill fieldWinners "assignedTo" existing.assignedTo proposed.assignedTo
    os := chosen ((fieldWinners "os").getD .proposed) proposed.os
    osVersion := chosen ((fieldWinners "osVersion").getD .proposed) proposed.osVersion
    dnsName := if falsy existing.dnsName then truthy proposed.dnsName else none
    learnedLocation :=
      if falsy existing.location && falsy existing.learnedLocation then truthy proposed.learnedLocation
        else none
    notes := if falsy existing.notes then truthy proposed.notes else none
    lastSeen := proposed.lastSeen
    acquiredAt := if existing.acquiredAt = none then proposed.registrationDateTime else none
    assetType := if existing.assetType = .other then proposed.assetType else none
    status := if retired then some .decommissioned else none
    statusChangedAt := if retired then some now else none
    statusChangedBy := if retired then some (actor.getD "system") else none
    tags := mergeTags existing.tags (sourceTags N proposed) }

def absorbed (update existing ghost : Option String) : Option String :=
  if falsy update && falsy existing then (truthy ghost).or update else update

def absorbGhost (update : AssetUpdate) (existing ghost : Asset) : AssetUpdate :=
  { update with
    serialNumber := absorbed update.serialNumber existing.serialNumber ghost.serialNumber
    macAddress := absorbed update.macAddress existing.macAddress ghost.macAddress
    manufacturer := absorbed update.manufacturer existing.manufacturer ghost.manufacturer
    model := absorbed update.model existing.model ghost.model
    os := absorbed update.os none ghost.os
    osVersion := absorbed update.osVersion none ghost.osVersion
    assignedTo := absorbed update.assignedTo existing.assignedTo ghost.assignedTo
    notes := absorbed update.notes existing.notes ghost.notes
    lastSeen := if update.lastSeen = none ∧
      existing.lastSeen = none then ghost.lastSeen else update.lastSeen }

def clampAcquiredToLastSeen (acquiredAt lastSeen existingAcquired existingSeen : Option Nat) : Option Nat :=
  match acquiredAt.or existingAcquired, lastSeen.or existingSeen with
  | some acquired, some seen => if seen < acquired then some seen else acquiredAt
  | _, _ => acquiredAt

def clampUpdate (update : AssetUpdate) (existing : Asset) : AssetUpdate :=
  { update with
    acquiredAt := clampAcquiredToLastSeen update.acquiredAt update.lastSeen existing.acquiredAt
      existing.lastSeen }

/-- The write of an update. A manufacturer that is not written is left alone by
the hook too. -/
def applyUpdate (update : AssetUpdate) (a : Asset) : Asset :=
  { a with
    hostname := update.hostname.or a.hostname, dnsName := update.dnsName.or a.dnsName
    serialNumber := update.serialNumber.or a.serialNumber, macAddress := update.macAddress.or a.macAddress
    manufacturer := update.manufacturer.elim a.manufacturer fun v => N.stored (some v)
    model := update.model.or a.model
    assignedTo := update.assignedTo.or a.assignedTo, os := update.os.or a.os
    osVersion := update.osVersion.or a.osVersion
    learnedLocation := update.learnedLocation.or a.learnedLocation, notes := update.notes.or a.notes
    lastSeen := update.lastSeen.or a.lastSeen, acquiredAt := update.acquiredAt.or a.acquiredAt
    assetType := update.assetType.getD a.assetType, status := update.status.getD a.status
    statusChangedAt := update.statusChangedAt.or a.statusChangedAt
    statusChangedBy := update.statusChangedBy.or a.statusChangedBy, tags := update.tags }

end Accept

section Reject

variable (N : Naming)

def rejectedAsset (c : Conflict) (deviceId : String) (actor : Option String) (now : Nat) : Asset :=
  let proposed := c.proposedAssetFields
  let sourceLabel := if isAd proposed then "AD computer" else "Entra device"
  { hostname := truthy proposed.hostname, dnsName := truthy proposed.dnsName
    serialNumber := truthy proposed.serialNumber, macAddress := truthy proposed.macAddress
    manufacturer := N.stored (truthy proposed.manufacturer), model := truthy proposed.model
    assetType := proposed.assetType.getD (if isAd proposed then .other else .workstation)
    status := proposed.status.getD (if isAd proposed && proposed.disabled then .decommissioned else .active)
    statusChangedAt := some now, statusChangedBy := some (actor.getD "system")
    os := truthy proposed.os, osVersion := truthy proposed.osVersion
    assignedTo := truthy proposed.assignedTo, learnedLocation := truthy proposed.learnedLocation
    lastSeen := proposed.lastSeen
    acquiredAt := clampAcquiredToLastSeen proposed.registrationDateTime proposed.lastSeen none none
    notes := some ((truthy proposed.notes).getD
      ("Auto-created after hostname collision was rejected — " ++ sourceLabel ++ " " ++ deviceId))
    tags := sourceTags N proposed }

end Reject

section Reservations

structure ReservationUpdate where
  hostname : Option (Option String) := none
  owner : Option (Option String) := none
  projectRef : Option (Option String) := none
  notes : Option (Option String) := none
  sourceType : Option SourceType := none
  deriving DecidableEq

def fillBlank (existing proposed : Option String) : Option (Option String) :=
  if falsy existing then (truthy proposed).map some else none

/-- A manual reservation takes the fields in conflict; the other kinds are
merged into a VIP. -/
def acceptReservationUpdate (c : Conflict) (existing : Reservation) : ReservationUpdate :=
  if existing.sourceType ≠ .manual then
    { hostname := fillBlank existing.hostname c.proposedHostname
      owner := fillBlank existing.owner c.proposedOwner
      projectRef := fillBlank existing.projectRef c.proposedProjectRef
      notes := fillBlank existing.notes c.proposedNotes
      sourceType := if existing.sourceType ≠ .vip then some .vip else none }
  else
    { hostname := if "hostname" ∈ c.conflictFields then some c.proposedHostname else none
      owner := if "owner" ∈ c.conflictFields then some c.proposedOwner else none
      projectRef := if "projectRef" ∈ c.conflictFields then some c.proposedProjectRef else none
      notes := if "notes" ∈ c.conflictFields then some c.proposedNotes else none
      sourceType := c.proposedSourceType }

def applyReservationUpdate (u : ReservationUpdate) (r : Reservation) : Reservation :=
  { r with
    hostname := u.hostname.getD r.hostname, owner := u.owner.getD r.owner
    projectRef := u.projectRef.getD r.projectRef, notes := u.notes.getD r.notes
    sourceType := u.sourceType.getD r.sourceType }

end Reservations

end Polaris.ConflictResolution
