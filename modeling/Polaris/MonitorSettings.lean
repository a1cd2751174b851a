import Polaris.AgentEtags
import Polaris.Reservations
import Polaris.SettingsMigration

namespace Polaris.MonitorSettings

open Polaris.AgentEtags (AssetSourceKind PollingMethod Stream adopt assetSourceKindFromIntegrationType
  defaultPollingForSource isPollingMethod isPollingMethodCompatible resolveStream)
open Polaris.Lib.Text
open Polaris.Reservations (truthy truthy_some)
open Polaris.SettingsMigration (Fields Json toInt)

section Data

inductive Setting
  | intervalSeconds | failureThreshold | probeTimeoutMs | cpuMemoryTimeoutMs | temperatureTimeoutMs
    | systemInfoTimeoutMs
  | cpuMemoryIntervalSeconds | temperatureIntervalSeconds | systemInfoIntervalSeconds
  | sampleRetentionDays | telemetryRetentionDays | systemInfoRetentionDays
  deriving DecidableEq

def Setting.all : List Setting :=
  [.intervalSeconds, .failureThreshold, .probeTimeoutMs, .cpuMemoryTimeoutMs, .temperatureTimeoutMs,
    .systemInfoTimeoutMs,
    .cpuMemoryIntervalSeconds, .temperatureIntervalSeconds, .systemInfoIntervalSeconds,
    .sampleRetentionDays, .telemetryRetentionDays, .systemInfoRetentionDays]

def Setting.key : Setting → String
  | .intervalSeconds => "intervalSeconds"
  | .failureThreshold => "failureThreshold"
  | .probeTimeoutMs => "probeTimeoutMs"
  | .cpuMemoryTimeoutMs => "cpuMemoryTimeoutMs"
  | .temperatureTimeoutMs => "temperatureTimeoutMs"
  | .systemInfoTimeoutMs => "systemInfoTimeoutMs"
  | .cpuMemoryIntervalSeconds => "cpuMemoryIntervalSeconds"
  | .temperatureIntervalSeconds => "temperatureIntervalSeconds"
  | .systemInfoIntervalSeconds => "systemInfoIntervalSeconds"
  | .sampleRetentionDays => "sampleRetentionDays"
  | .telemetryRetentionDays => "telemetryRetentionDays"
  | .systemInfoRetentionDays => "systemInfoRetentionDays"

def Setting.onAsset : Setting → Bool
  | .failureThreshold | .sampleRetentionDays | .telemetryRetentionDays | .systemInfoRetentionDays => false
  | _ => true

def HARDCODED_FLOOR : Setting → Nat
  | .intervalSeconds => 60
  | .failureThreshold => 3
  | .probeTimeoutMs => 5000
  | .cpuMemoryTimeoutMs | .temperatureTimeoutMs | .systemInfoTimeoutMs => 10000
  | .cpuMemoryIntervalSeconds | .temperatureIntervalSeconds => 60
  | .systemInfoIntervalSeconds => 600
  | .sampleRetentionDays | .telemetryRetentionDays | .systemInfoRetentionDays => 30

def streams : List Stream := [.responseTime, .cpuMemory, .temperature, .interfaces, .lldp, .storage]

def streamKey : Stream → String
  | .responseTime => "responseTime"
  | .cpuMemory => "cpuMemory"
  | .temperature => "temperature"
  | .interfaces => "interfaces"
  | .lldp => "lldp"
  | .storage => "storage"

def pollingKey (stream : Stream) : String := streamKey stream ++ "Polling"

inductive MibStream
  | responseTime | cpuMemory | temperature | interfaces | lldp
  deriving DecidableEq

def mibStreams : List MibStream := [.responseTime, .cpuMemory, .temperature, .interfaces, .lldp]

def MibStream.mibIdKey : MibStream → String
  | .responseTime => "responseTimeMibId"
  | .cpuMemory => "cpuMemoryMibId"
  | .temperature => "temperatureMibId"
  | .interfaces => "interfacesMibId"
  | .lldp => "lldpMibId"

@[ext]
structure MonitorTierSettings where
  num : Setting → Nat
  polling : Stream → Option PollingMethod
  mibId : MibStream → Option String
  credentialId : MibStream → Option String

structure MonitorOverrideSettings where
  num : Setting → Option Nat
  polling : Stream → Option PollingMethod
  mibId : MibStream → Option String
  credentialId : MibStream → Option String

structure AssetMonitorContext where
  assetType : String
  discoveredByIntegrationId : Option String
  discoveredByIntegrationType : Option String := none
  num : Setting → Option Nat := fun _ => none
  polling : Stream → Option String := fun _ => none
  mibId : MibStream → Option String := fun _ => none

structure Integration where
  id : String
  type : String
  config : Json

structure ClassOverride where
  id : String
  integrationId : Option String
  assetType : String
  num : Setting → Option Nat := fun _ => none
  polling : Stream → Option String := fun _ => none
  mibId : MibStream → Option String := fun _ => none
  credentialId : MibStream → Option String := fun _ => none

structure Db where
  integrations : List Integration := []
  monitorSettings : Option Json := none
  manualMonitorSettings : Option Json := none
  monitorClassOverrides : List ClassOverride := []

end Data

section Tiers

variable (Number : Json → Option Rat)

def toPositiveInt (v : Option Json) (fallback : Nat) : Nat := toInt Number v fallback

/-- `toPositiveIntOr` with nothing to fall back on. -/
def toPositiveIntOr (v : Option Json) : Option Nat :=
  match v with
  | some (.num q) => if 0 < q then some ⌊q⌋.toNat else none
  | _ => none

def readPollingFromJson (v : Option Json) (key : String) : Option PollingMethod :=
  match v.bind (·.get key) with
  | some (.str s) => isPollingMethod s
  | _ => none

def readMibIdFromJson (v : Option Json) : Option String :=
  match v with
  | some (.str s) => if trim s = "" then none else some (trim s)
  | _ => none

/-- A blob of settings. Those written before the streams were split carry one
telemetry value for CPU and temperature. -/
def tierFromJson (v : Option Json) : MonitorTierSettings :=
  let o := v.getD (.obj [])
  let pollingBlock := o.get "polling"
  let legacyInterval := toPositiveIntOr (o.get "telemetryIntervalSeconds")
  let legacyTimeout := toPositiveIntOr (o.get "telemetryTimeoutMs")
  { num := fun s =>
      toPositiveInt Number (o.get s.key)
        (match s with
          | .cpuMemoryTimeoutMs | .temperatureTimeoutMs => legacyTimeout.getD (HARDCODED_FLOOR s)
          | .cpuMemoryIntervalSeconds | .temperatureIntervalSeconds => legacyInterval.getD (HARDCODED_FLOOR s)
          | s => HARDCODED_FLOOR s)
    polling := fun stream =>
      let own := (readPollingFromJson pollingBlock (streamKey stream)).or
        (readPollingFromJson o (pollingKey stream))
      match stream with
      | .cpuMemory | .temperature =>
        own.or ((readPollingFromJson pollingBlock "telemetry").or (readPollingFromJson o "telemetryPolling"))
      | _ => own
    mibId := fun stream =>
      let own := readMibIdFromJson (o.get stream.mibIdKey)
      match stream with
      | .cpuMemory | .temperature => own.or (readMibIdFromJson (o.get "telemetryMibId"))
      | _ => own
    credentialId := fun _ => none }

def floorTier : MonitorTierSettings := ⟨HARDCODED_FLOOR, fun _ => none, fun _ => none, fun _ => none⟩

def loadLegacyGlobalAsTier (db : Db) : Option MonitorTierSettings :=
  (db.monitorSettings.filter (·.truthy)).map fun v => tierFromJson Number v

def loadIntegrationTierSettings (db : Db) (integrationId : String) : MonitorTierSettings :=
  match ((db.integrations.find? (·.id = integrationId)).bind (·.config.get "monitorSettings")).filter
    (·.truthy) with
  | some ms => tierFromJson Number ms
  | none => (loadLegacyGlobalAsTier Number db).getD floorTier

def loadManualTierSettings (db : Db) : MonitorTierSettings :=
  match db.manualMonitorSettings.filter (·.truthy) with
  | some v => tierFromJson Number v
  | none => (loadLegacyGlobalAsTier Number db).getD floorTier

def classOverrideOf (row : ClassOverride) : MonitorOverrideSettings where
  num := row.num
  polling stream := (row.polling stream).bind isPollingMethod
  mibId stream := truthy (row.mibId stream)
  credentialId stream := truthy (row.credentialId stream)

def loadClassOverride (db : Db) (integrationId : Option String) (assetType : String) :
    Option MonitorOverrideSettings :=
  (db.monitorClassOverrides.find? fun row => row.integrationId = integrationId ∧
    row.assetType = assetType).map classOverrideOf

def tier3 (db : Db) (asset : AssetMonitorContext) : MonitorTierSettings :=
  match truthy asset.discoveredByIntegrationId with
  | some id => loadIntegrationTierSettings Number db id
  | none => loadManualTierSettings Number db

def classTier (db : Db) (asset : AssetMonitorContext) : Option MonitorOverrideSettings :=
  loadClassOverride db asset.discoveredByIntegrationId asset.assetType

end Tiers

section Resolver

variable (Number : Json → Option Rat) (db : Db) (asset : AssetMonitorContext)

def resolveMibId (tier3Val classVal assetVal : Option String) : Option String :=
  (truthy assetVal).or ((truthy classVal).or tier3Val)

def AssetMonitorContext.override (s : Setting) : Option Nat := if s.onAsset then asset.num s else none

def resolveMonitorSettings : MonitorTierSettings :=
  let tier3 := tier3 Number db asset
  let classOverride := classTier db asset
  let sourceKind := assetSourceKindFromIntegrationType asset.discoveredByIntegrationType
  { num := fun s => ((asset.override s).or (classOverride.bind (·.num s))).getD (tier3.num s)
    polling := fun stream =>
      resolveStream sourceKind stream (tier3.polling stream) (classOverride.bind (·.polling stream))
        (asset.polling stream)
    mibId := fun stream =>
      resolveMibId (tier3.mibId stream) (classOverride.bind (·.mibId stream)) (asset.mibId stream)
    credentialId := fun stream => classOverride.bind (·.credentialId stream) }

inductive ProvenanceTier
  | asset | «class» | integration | manual
  deriving DecidableEq

structure Provenance where
  num : Setting → ProvenanceTier
  polling : Stream → ProvenanceTier
  mibId : MibStream → ProvenanceTier
  credentialId : MibStream → ProvenanceTier

structure ResolvedSettingsWithProvenance where
  resolved : MonitorTierSettings
  provenance : Provenance
  tier3Source : ProvenanceTier
  classOverrideId : Option String

def tier3Source : ProvenanceTier :=
  if (truthy asset.discoveredByIntegrationId).isSome then .integration else .manual

def layered {α : Type} (assetVal classVal : Option α) (source : ProvenanceTier) (tier3Val : α) :
    α × ProvenanceTier :=
  match assetVal, classVal with
  | some v, _ => (v, .asset)
  | none, some v => (v, .class)
  | none, none => (tier3Val, source)

def assetPolling (sourceKind : AssetSourceKind) (raw : Option String) : Option PollingMethod :=
  (raw.bind isPollingMethod).filter (isPollingMethodCompatible sourceKind)

def assetMibId (raw : Option String) : Option String := raw.filter fun v => trim v ≠ ""

def resolveMonitorSettingsWithProvenance : ResolvedSettingsWithProvenance :=
  let tier3 := tier3 Number db asset
  let classOverride := classTier db asset
  let source := tier3Source asset
  let sourceKind := assetSourceKindFromIntegrationType asset.discoveredByIntegrationType
  let num := fun s => layered (asset.override s) (classOverride.bind (·.num s)) source (tier3.num s)
  let polling := fun stream => layered ((assetPolling sourceKind (asset.polling stream)).map some)
    ((classOverride.bind (·.polling stream)).map some) source (tier3.polling stream)
  let mibId := fun stream => layered ((assetMibId (asset.mibId stream)).map some)
    ((classOverride.bind fun o => truthy (o.mibId stream)).map some) source (tier3.mibId stream)
  let credentialId := fun stream => layered none
    ((classOverride.bind fun o => truthy (o.credentialId stream)).map some) source (tier3.credentialId stream)
  { resolved := ⟨fun s => (num s).1, fun st => (polling st).1, fun st => (mibId st).1,
      fun st => (credentialId st).1⟩
    provenance := ⟨fun s => (num s).2, fun st => (polling st).2, fun st => (mibId st).2,
      fun st => (credentialId st).2⟩
    tier3Source := source
    classOverrideId := (db.monitorClassOverrides.find? fun row =>
      row.integrationId = asset.discoveredByIntegrationId ∧ row.assetType = asset.assetType).map (·.id) }

end Resolver

section Shown

variable {Number : Json → Option Rat} {db : Db} {asset : AssetMonitorContext}

def inherited (Number : Json → Option Rat) (db : Db) (asset : AssetMonitorContext) (stream : Stream) :
    Option PollingMethod :=
  ((classTier db asset).bind (·.polling stream)).or
    ((tier3 Number db asset).polling stream)

def inheritedMibId (Number : Json → Option Rat) (db : Db) (asset : AssetMonitorContext)
    (stream : MibStream) : Option String :=
  (truthy ((classTier db asset).bind (·.mibId stream))).or
    ((tier3 Number db asset).mibId stream)

/-- The method that is shown for the stream is the one in use: the asset has
its own, or what it inherits is admitted, or there is nothing to inherit and
nothing to fall back on. -/
def MethodShown (Number : Json → Option Rat) (db : Db) (asset : AssetMonitorContext) (stream : Stream) :
    Prop :=
  let sourceKind := assetSourceKindFromIntegrationType asset.discoveredByIntegrationType
  assetPolling sourceKind (asset.polling stream) = none →
    (∀ method ∈ inherited Number db asset stream, isPollingMethodCompatible sourceKind method = true) ∧
      (inherited Number db asset stream = none → defaultPollingForSource sourceKind stream = none)

/-- A MIB that the asset names by blanks alone is the one that it inherits as
well. -/
def MibShown (Number : Json → Option Rat) (db : Db) (asset : AssetMonitorContext) (stream : MibStream) :
    Prop :=
  ∀ v ∈ truthy (asset.mibId stream), trim v = "" → inheritedMibId Number db asset stream = some v

theorem layered_fst {α : Type} (assetVal classVal : Option α) (source : ProvenanceTier) (tier3Val : α) :
    (layered assetVal classVal source tier3Val).1 = (assetVal.or classVal).getD tier3Val := by
  cases assetVal with
  | some v => rfl
  | none => cases classVal <;> rfl

theorem default_compatible {sourceKind : AssetSourceKind} {stream : Stream} {method : PollingMethod}
    (h : defaultPollingForSource sourceKind stream = some method) :
    isPollingMethodCompatible sourceKind method = true := by
  cases sourceKind <;> cases stream <;> cases h <;> rfl

theorem resolveStream_eq (sourceKind : AssetSourceKind) (stream : Stream)
    (tierVal classVal : Option PollingMethod)
    (assetVal : Option String) : resolveStream sourceKind stream tierVal classVal assetVal =
      (assetPolling sourceKind assetVal).or ((classVal.filter (isPollingMethodCompatible sourceKind)).or
        ((tierVal.filter (isPollingMethodCompatible sourceKind)).or
          (defaultPollingForSource sourceKind stream))) := by
  have hadopt : ∀ v resolved, adopt sourceKind v resolved =
    (v.filter (isPollingMethodCompatible sourceKind)).or
    resolved := by
    intro v resolved
    cases v with
    | none => rfl
    | some method =>
      rw [adopt, Option.filter_some]
      split <;> rfl
  rw [resolveStream, hadopt, hadopt, hadopt, assetPolling]

theorem getD_or_map_some {α : Type} (a c t : Option α) :
    ((a.map some).or (c.map some)).getD t = a.or (c.or t) := by
  cases a <;> cases c <;> rfl

theorem or_eq_filter_or_iff {α : Type} {p : α → Bool} {c t d : Option α} (hd : ∀ m ∈ d, p m = true) :
    c.or t = (c.filter p).or ((t.filter p).or d) ↔ (∀ m ∈ c.or t, p m = true) ∧
      (c.or t = none → d = none) := by
  constructor
  · intro heq
    refine ⟨fun m hm => ?_, fun hnone => ?_⟩
    · rw [heq] at hm
      obtain hm | ⟨-, hm⟩ := Option.or_eq_some_iff.mp hm
      · exact (Option.filter_eq_some_iff.mp hm).2
      · obtain hm | ⟨-, hm⟩ := Option.or_eq_some_iff.mp hm
        · exact (Option.filter_eq_some_iff.mp hm).2
        · exact hd m hm
    · obtain ⟨rfl, rfl⟩ := Option.or_eq_none_iff.mp hnone
      exact heq.symm
  · rintro ⟨hp, hnone⟩
    cases c with
    | some m => rw [Option.filter_some, if_pos (hp m rfl), Option.some_or, Option.some_or]
    | none =>
      cases t with
      | some u => rw [Option.filter_some, if_pos (hp u rfl)]; rfl
      | none => exact (hnone rfl).symm

theorem or_eq_or_iff {α : Type} {a x y : Option α} : a.or x = a.or y ↔ (a = none → x = y) := by
  cases a <;> simp

theorem tier3_credentialId {stream : MibStream} : (tier3 Number db asset).credentialId stream = none := by
  have hlegacy : ((loadLegacyGlobalAsTier Number db).getD floorTier).credentialId stream = none := by
    rw [loadLegacyGlobalAsTier]
    cases db.monitorSettings.filter (·.truthy) <;> rfl
  rw [tier3]
  split
  · rw [loadIntegrationTierSettings]
    split
    · rfl
    · exact hlegacy
  · rw [loadManualTierSettings]
    split
    · rfl
    · exact hlegacy

theorem truthy_truthy (s : Option String) : truthy (truthy s) = truthy s := by
  rw [truthy, truthy, Option.filter_filter]
  simp only [Bool.and_self]

theorem classTier_credentialId {stream : MibStream} :
    ((classTier db asset).bind fun o => truthy (o.credentialId stream)) =
    (classTier db asset).bind (·.credentialId stream) := by
  rw [classTier, loadClassOverride, Option.bind_map, Option.bind_map]
  exact congrArg _ (funext fun row => truthy_truthy _)

theorem shown_polling_iff {stream : Stream} :
    (resolveMonitorSettingsWithProvenance Number db asset).resolved.polling stream =
      (resolveMonitorSettings Number db asset).polling stream ↔ MethodShown Number db asset stream := by
  rw [resolveMonitorSettingsWithProvenance, resolveMonitorSettings, MethodShown, inherited]
  dsimp only
  rw [layered_fst, getD_or_map_some, resolveStream_eq, or_eq_or_iff,
    or_eq_filter_or_iff fun method hm => default_compatible hm]

theorem shown_mibId_iff {stream : MibStream} :
    (resolveMonitorSettingsWithProvenance Number db asset).resolved.mibId stream =
      (resolveMonitorSettings Number db asset).mibId stream ↔ MibShown Number db asset stream := by
  have hbind : (classTier db asset).bind
    (fun o => truthy (o.mibId stream)) =
      truthy ((classTier db asset).bind (·.mibId stream)) := by
    cases classTier db asset <;> rfl
  rw [resolveMonitorSettingsWithProvenance, resolveMonitorSettings, MibShown]
  dsimp only
  rw [layered_fst, getD_or_map_some, hbind, resolveMibId, ← inheritedMibId]
  cases hv : asset.mibId stream with
  | none => exact iff_of_true rfl fun v hm => absurd hm (Option.not_mem_none v)
  | some v =>
    by_cases hblank : trim v = ""
    · rw [assetMibId, Option.filter_some, if_neg (by simp [hblank]), Option.none_or, truthy,
        Option.filter_some]
      by_cases hempty : v = ""
      · rw [if_neg (by simp [hempty])]
        exact iff_of_true rfl fun u hu => absurd hu (Option.not_mem_none u)
      · rw [if_pos (decide_eq_true hempty)]
        constructor
        · rintro heq u hu -
          exact heq.trans hu
        · exact fun hx => hx v rfl hblank
    · have hne : v ≠ "" := by
        rintro rfl
        exact hblank rfl
      rw [assetMibId, Option.filter_some, if_pos (decide_eq_true hblank), truthy, Option.filter_some,
        if_pos (decide_eq_true hne)]
      refine iff_of_true rfl fun u hu hu' => ?_
      cases hu
      exact absurd hu' hblank

theorem shown_iff : (resolveMonitorSettingsWithProvenance Number db asset).resolved = resolveMonitorSettings
    Number db asset ↔
    (∀ stream, MethodShown Number db asset stream) ∧ ∀ stream, MibShown Number db asset stream := by
  have hnum : (resolveMonitorSettingsWithProvenance Number db asset).resolved.num =
    (resolveMonitorSettings Number
    db asset).num :=
    funext fun s => layered_fst _ _ _ _
  have hcredential : (resolveMonitorSettingsWithProvenance Number db asset).resolved.credentialId =
      (resolveMonitorSettings Number db asset).credentialId := by
    funext stream
    rw [resolveMonitorSettingsWithProvenance, resolveMonitorSettings]
    dsimp only
    rw [layered_fst, Option.none_or, tier3_credentialId, classTier_credentialId]
    cases (classTier db asset).bind (·.credentialId stream) <;> rfl
  rw [MonitorTierSettings.ext_iff, and_iff_right hnum, and_iff_left hcredential]
  exact and_congr (funext_iff.trans (forall_congr' fun _ => shown_polling_iff))
    (funext_iff.trans (forall_congr' fun _ => shown_mibId_iff))

end Shown

end Polaris.MonitorSettings
