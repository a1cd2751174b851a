import Polaris.QuarantinePush

namespace Polaris.AssetQuarantine

open Polaris.Lib.Faults Polaris.Cidr Polaris.Mac Polaris.Transport Polaris.QuarantinePush

structure World where
  asset : Option Asset
  gates : Gate → Target

def macsForAsset (asset : Asset) : List String :=
  let own := (asset.macAddress.filter (· ≠ "")).toList.map normalizeMac
  let rows := (asset.macAddressRows.filter (· ≠ "")).map normalizeMac
  ((own ++ rows.filter (· ≠ "")).eraseDups).filter isMac

section Quarantine

structure QuarantineCall where
  assetId : String
  actor : String
  reason : Option String := none
  tokenIntegrationIds : Option (List String) := none
  now : Int := 0
  sightings : List AssetSighting
  sightingMaxAgeDays : Int := 180
  integrations : List Integration
  faults : Gate → PushFaults := fun _ => {}

def getQuarantineCandidates (c : QuarantineCall) : List AssetSighting :=
  if c.sightingMaxAgeDays ≤ 0 then c.sightings
  else c.sightings.filter (c.now - c.sightingMaxAgeDays * 86400000 ≤ ·.lastSeen)

def inScope (scope : Option (List String)) (sighting : AssetSighting) : Bool :=
  match scope with
  | none => true
  | some ids => sighting.integrationId.any fun i => i ≠ "" && ids.contains i

/-- The integration a sighting is pushed through: it has one, the integration
is enabled and quarantine push is switched on there. -/
def pushIntegration (c : QuarantineCall) (sighting : AssetSighting) : Option Integration := do
  let id ← sighting.integrationId
  if id = "" then none
  else
    let integration ← c.integrations.find? fun i => i.id = id ∧ i.enabled
    if integration.pushQuarantine then some integration else none

def failedRecord (gate : Gate) (now : Int) (error fallback : String) : QuarantineTargetRecord :=
  ⟨gate.1, gate.2, [], now, .failed, some (if error = "" then fallback else error)⟩

def pushTo (c : QuarantineCall) (asset : Asset) (gates : Gate → Target)
    (goal : AssetSighting × Integration) : (Gate → Target) × QuarantineTargetRecord :=
  let gate := (goal.1.fortigateDevice, goal.2.id)
  let faults := c.faults gate
  match buildTransportForIntegration goal.2 gate.1 faults.mgmtIp with
  | .error e => (gates, failedRecord gate c.now e.message "Transport setup failed")
  | .ok _ =>
    match pushQuarantineToFortigate asset.id gate.1 (macsForAsset asset) faults (gates gate) with
    | (target, .ok pushedMacs) =>
      (Function.update gates gate target, ⟨gate.1, gate.2, pushedMacs, c.now, .synced, none⟩)
    | (target, .error e) =>
      (Function.update gates gate target, failedRecord gate c.now e.message "Quarantine push failed")

def pushAll (c : QuarantineCall) (asset : Asset) (gates : Gate → Target) :
    List (AssetSighting × Integration) → (Gate → Target) × List QuarantineTargetRecord
  | [] => (gates, [])
  | goal :: goals =>
    let (gates, record) := pushTo c asset gates goal
    let (gates, records) := pushAll c asset gates goals
    (gates, record :: records)

def scopedCandidates (c : QuarantineCall) : List AssetSighting :=
  (getQuarantineCandidates c).filter (inScope c.tokenIntegrationIds)

def goals (c : QuarantineCall) : List (AssetSighting × Integration) :=
  (scopedCandidates c).filterMap fun sighting => (pushIntegration c sighting).map (sighting, ·)

def checkAsset (c : QuarantineCall) (asset : Asset) : Except Failure Unit :=
  if asset.assetType = .firewall ∨ asset.assetType = .switch ∨ asset.assetType = .accessPoint then
    .error (.app 400 ("Asset " ++ asset.label ++ " is a " ++ asset.assetType.text ++
      " and cannot be quarantined"))
  else if macsForAsset asset = [] then
    .error (.app 400 ("Asset " ++ asset.label ++ " has no MAC addresses — cannot quarantine"))
  else if getQuarantineCandidates c = [] then
    .error (.app 409 ("Asset " ++ asset.label ++
      " has no recent FortiGate sightings — nothing to push to"))
  else if c.tokenIntegrationIds.isSome ∧ scopedCandidates c = [] then
    .error (.app 403 ("Asset " ++ asset.label ++
      " has no recent sightings on the integrations this token is allowed to push to"))
  else .ok ()

def synced (records : List QuarantineTargetRecord) : List QuarantineTargetRecord :=
  records.filter (·.status = .synced)

def stampQuarantine (c : QuarantineCall) (asset : Asset) (records : List QuarantineTargetRecord) :
    Asset :=
  { asset with
    status := .quarantined
    statusChangedAt := some c.now
    statusChangedBy := some c.actor
    statusBeforeQuarantine :=
      if asset.status = .quarantined then asset.statusBeforeQuarantine else some asset.status
    quarantineReason := (c.reason.filter (· ≠ "")).or (asset.quarantineReason.filter (· ≠ ""))
    quarantinedAt := some (asset.quarantinedAt.getD c.now)
    quarantinedBy := some c.actor
    quarantineTargets := records }

/-- The devices keep what the pushes did to them also when none of them
succeeds and the asset is left as it was. -/
def quarantineAsset (w : World) (c : QuarantineCall) :
    World × Except Failure (List QuarantineTargetRecord) :=
  match w.asset with
  | none => (w, .error (.app 404 ("Asset " ++ c.assetId ++ " not found")))
  | some asset =>
    match checkAsset c asset with
    | .error e => (w, .error e)
    | .ok _ =>
      let (gates, records) := pushAll c asset w.gates (goals c)
      if synced records = [] then
        let firstError := (records.head?.bind (·.error)).getD "No FortiGates could be reached"
        (⟨w.asset, gates⟩, .error (.app 502 (s!"Quarantine failed: 0/{records.length} FortiGate(s) " ++
          "accepted the push. First error: " ++ firstError)))
      else (⟨some (stampQuarantine c asset records), gates⟩, .ok records)

end Quarantine

section Release

structure ReleaseCall where
  assetId : String
  actor : String
  tokenIntegrationIds : Option (List String) := none
  now : Int := 0
  integrations : List Integration
  mgmtIp : Gate → MgmtIp := fun _ => .ok (some "192.0.2.1")
  deletes : Gate → Outcome Failure := fun _ => .answered

structure ReleaseResult where
  newStatus : AssetStatus
  unpushedFrom : List String
  failedToUnpush : List (String × String)
  deriving DecidableEq

def outsideScope (scope : Option (List String)) (records : List QuarantineTargetRecord) :
    List QuarantineTargetRecord :=
  match scope with
  | none => []
  | some allowed => records.filter (! allowed.contains ·.integrationId)

def unpushFrom (c : ReleaseCall) (gates : Gate → Target) (record : QuarantineTargetRecord) :
    (Gate → Target) × Except Failure Unit :=
  match c.integrations.find? (·.id = record.integrationId) with
  | none =>
    (gates, .error (.thrown "Integration no longer exists — possible orphan quarantine entry on device"))
  | some integration =>
    match buildTransportForIntegration integration record.fortigateDevice (c.mgmtIp record.gate) with
    | .error e => (gates, .error e)
    | .ok _ =>
      let (target, result) := deleteTarget (c.deletes record.gate) (gates record.gate)
      (Function.update gates record.gate target, result)

def unpushAll (c : ReleaseCall) (gates : Gate → Target) :
    List QuarantineTargetRecord → (Gate → Target) × List String × List (String × String)
  | [] => (gates, [], [])
  | record :: records =>
    let (gates, result) := unpushFrom c gates record
    let (gates, unpushed, failed) := unpushAll c gates records
    match result with
    | .ok _ => (gates, record.fortigateDevice :: unpushed, failed)
    | .error e =>
      (gates, unpushed, (record.fortigateDevice, if e.message = "" then "Unpush failed" else e.message) ::
        failed)

def stampRelease (c : ReleaseCall) (asset : Asset) : Asset :=
  { asset with
    status := asset.statusBeforeQuarantine.getD .active
    statusChangedAt := some c.now
    statusChangedBy := some c.actor
    statusBeforeQuarantine := none
    quarantineReason := none
    quarantinedAt := none
    quarantinedBy := none
    quarantineTargets := [] }

def releaseQuarantine (w : World) (c : ReleaseCall) : World × Except Failure ReleaseResult :=
  match w.asset with
  | none => (w, .error (.app 404 ("Asset " ++ c.assetId ++ " not found")))
  | some asset =>
    if asset.status ≠ .quarantined then
      (w, .error (.app 409 ("Asset " ++ asset.label ++ " is not currently quarantined")))
    else
      let outside := outsideScope c.tokenIntegrationIds asset.quarantineTargets
      if outside ≠ [] then
        let names := ", ".intercalate (outside.map (·.fortigateDevice)).eraseDups
        (w, .error (.app 403 ("Quarantine for " ++ asset.label ++ " touches FortiGate(s) " ++ names ++
          " on integrations this token is not allowed to operate against — release must be " ++
          "performed by an admin or a token covering all targets")))
      else
        let (gates, unpushedFrom, failedToUnpush) := unpushAll c w.gates asset.quarantineTargets
        (⟨some (stampRelease c asset), gates⟩,
          .ok ⟨asset.statusBeforeQuarantine.getD .active, unpushedFrom, failedToUnpush⟩)

end Release

section Decommission

structure DecommissionRun where
  inactivityMonths : Int
  cutoff : Int
  now : Int

def isStale (c : DecommissionRun) (asset : Asset) : Bool :=
  0 < c.inactivityMonths && asset.status ≠ .decommissioned && asset.status ≠ .disabled &&
    asset.lastSeen.any (· < c.cutoff)

def decommissionStaleAssets (w : World) (c : DecommissionRun) : World :=
  { w with
    asset := w.asset.map fun asset =>
      if isStale c asset then
        { asset with
          status := .decommissioned, statusChangedAt := some c.now, statusChangedBy := some "system" }
      else asset }

end Decommission

end Polaris.AssetQuarantine
