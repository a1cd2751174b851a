import Polaris.Transport
import Polaris.Mac
import Polaris.Lib.Faults

namespace Polaris.QuarantinePush

open Polaris.Lib.Text Polaris.Lib.Faults Polaris.Cidr Polaris.Mac Polaris.Transport

inductive AssetStatus
  | active | maintenance | decommissioned | storage | disabled | quarantined
  deriving DecidableEq

inductive AssetType
  | server | switch | router | firewall | workstation | printer | accessPoint | other
  deriving DecidableEq

def AssetType.text : AssetType → String
  | .server => "server"
  | .switch => "switch"
  | .router => "router"
  | .firewall => "firewall"
  | .workstation => "workstation"
  | .printer => "printer"
  | .accessPoint => "access_point"
  | .other => "other"

inductive RecordStatus
  | synced | failed | drift
  deriving DecidableEq

structure QuarantineTargetRecord where
  fortigateDevice : String
  integrationId : String
  pushedMacs : List String
  pushedAt : Int
  status : RecordStatus
  error : Option String := none
  deriving DecidableEq

structure Asset where
  id : String
  hostname : Option String := none
  assetType : AssetType := .other
  status : AssetStatus := .active
  macAddress : Option String := none
  macAddressRows : List String := []
  lastSeen : Option Int := none
  statusChangedAt : Option Int := none
  statusChangedBy : Option String := none
  statusBeforeQuarantine : Option AssetStatus := none
  quarantineReason : Option String := none
  quarantinedAt : Option Int := none
  quarantinedBy : Option String := none
  quarantineTargets : List QuarantineTargetRecord := []
  deriving DecidableEq

/-- The name an asset is called by in messages. -/
def Asset.label (a : Asset) : String :=
  match a.hostname with
  | some h => if h = "" then a.id else h
  | none => a.id

structure AssetSighting where
  fortigateDevice : String
  integrationId : Option String
  lastSeen : Int
  deriving DecidableEq

/-- A FortiGate, by its device name and the integration it is reached
through. -/
abbrev Gate := String × String

def QuarantineTargetRecord.gate (r : QuarantineTargetRecord) : Gate :=
  (r.fortigateDevice, r.integrationId)

/-- The quarantine target of the asset on a FortiGate: the MAC addresses it
holds, when it is there. -/
abbrev Target := Option (List String)

section Device

/-- Error texts read as "the target is not there". -/
def isNotFound (message : String) : Bool :=
  let text := lowerCase message
  ["not found", "does not exist", "404"].any fun needle =>
    text.tails.any fun rest => needle.toList.isPrefixOf rest

def getTarget (o : Outcome Failure) (target : Target) : Except Failure Target :=
  match fetch o target with
  | .ok target => .ok target
  | .error e => if isNotFound e.message then .ok none else .error e

/-- Whether the target is gone, either way, from what the code can tell. -/
def deleteTarget (o : Outcome Failure) (target : Target) : Target × Except Failure Unit :=
  match call o (fun _ => ((none : Target), Except.ok ())) target with
  | (target, .ok _) => (target, .ok ())
  | (target, .error e) => (target, if isNotFound e.message then .ok () else .error e)

/-- How the calls of one push to one FortiGate go. -/
structure PushFaults where
  mgmtIp : MgmtIp := .ok (some "192.0.2.1")
  get : Outcome Failure := .answered
  post : Outcome Failure := .answered
  adds : List (Outcome Failure) := []
  removes : List (Outcome Failure) := []
  readBack : Outcome Failure := .answered
  rollback : Outcome Failure := .answered

def quarantineTargetName (assetId : String) : String :=
  "polaris-q-" ++ String.ofList ((assetId.toList.filter (· ≠ '-')).take 12)

def readMacs (target : List String) : List String :=
  ((target.map normalizeMac).filter (· ≠ "")).eraseDups

/-- Make the target hold the desired addresses: created in one call, or
brought in line entry by entry. -/
def writeTarget (faults : PushFaults) (desired : List String) (existing target : Target) :
    Target × Except Failure Unit :=
  match existing with
  | none => call faults.post (fun _ => (some desired, Except.ok ())) target
  | some macs =>
    let existingMacs := readMacs macs
    let toAdd := desired.filter (· ∉ existingMacs)
    let toRemove := existingMacs.filter (· ∉ desired)
    match sequence (fun mac t => t.map (· ++ [mac])) toAdd faults.adds target with
    | (target, .error e) => (target, .error e)
    | (target, .ok _) =>
      sequence (fun mac (t : Target) => t.map (·.filter (normalizeMac · ≠ mac))) toRemove faults.removes
        target

def verifyTarget (faults : PushFaults) (name : String) (desired : List String) (target : Target) :
    Except Failure Unit := do
  match ← getTarget faults.readBack target with
  | none =>
    throw (.app 502 ("FortiGate accepted the write but the quarantine target " ++ name ++
      " was not visible on read-back"))
  | some macs =>
    let missing := desired.filter (· ∉ readMacs macs)
    if missing = [] then return ()
    else throw (.app 502 ("FortiGate verify mismatch — target " ++ name ++ " is missing MACs: " ++
      ", ".intercalate missing))

/-- Write and verify; only a target that was not there before is rolled
back when that fails. -/
def pushDesired (faults : PushFaults) (name : String) (desired : List String) (target : Target) :
    Target × Except Failure (List String) :=
  match getTarget faults.get target with
  | .error e => (target, .error e)
  | .ok existing =>
    let (written, result) := writeTarget faults desired existing target
    match result.bind fun _ => verifyTarget faults name desired written with
    | .ok _ => (written, .ok desired)
    | .error e =>
      (if existing.isNone then (deleteTarget faults.rollback written).1 else written, .error e)

def pushQuarantineToFortigate (assetId deviceName : String) (macs : List String)
    (faults : PushFaults) (target : Target) : Target × Except Failure (List String) :=
  let desired := (macs.map normalizeMac).eraseDups.filter isMac
  if deviceName = "" then (target, .error (.app 400 "Push requires a FortiGate device name"))
  else if macs = [] then (target, .error (.app 400 "Push requires at least one MAC"))
  else if desired = [] then (target, .error (.app 400 "Push requires at least one valid MAC"))
  else pushDesired faults (quarantineTargetName assetId) desired target

end Device

section Transport

def buildTransportForIntegration (integration : Integration) (deviceName : String) (mgmtIp : MgmtIp) :
    Except Failure Unit :=
  buildTransportFor "Quarantine push" integration deviceName mgmtIp

end Transport

end Polaris.QuarantinePush
