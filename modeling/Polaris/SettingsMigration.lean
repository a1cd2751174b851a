import Mathlib.Algebra.Order.Floor.Defs
import Mathlib.Data.Rat.Floor
import Polaris.Lib.Jobs
import Polaris.Lib.Store

namespace Polaris.SettingsMigration

open Polaris.Lib.Jobs Polaris.Lib.Store

section Json

inductive Json
  | null
  | bool (b : Bool)
  | num (q : Rat)
  | str (s : String)
  | arr (items : List Json)
  | obj (fields : List (String × Json))

abbrev Fields := List (String × Json)

def Fields.get (o : Fields) (k : String) : Option Json := (o.find? (·.1 = k)).map Prod.snd

def Fields.set (o : Fields) (k : String) (v : Json) : Fields :=
  if o.any (·.1 = k) then o.map fun p => if p.1 = k then (k, v) else p else o ++ [(k, v)]

def indexed (items : List Json) : Fields := items.zipIdx.map fun p => (toString p.2, p.1)

def Json.spread : Json → Fields
  | .obj fields => fields
  | .arr items => indexed items
  | .str s => indexed (s.toList.map fun c => .str (String.singleton c))
  | .null | .bool _ | .num _ => []

def Json.get (v : Json) (k : String) : Option Json := v.spread.get k

def Json.truthy : Json → Bool
  | .null => false
  | .bool b => b
  | .num q => q ≠ 0
  | .str s => s ≠ ""
  | .arr _ | .obj _ => true

/-- `typeof v === "object"` of a value that is not null. -/
def Json.isObject : Json → Bool
  | .arr _ | .obj _ => true
  | _ => false

end Json

section Data

inductive Field
  | intervalSeconds | failureThreshold | probeTimeoutMs | telemetryIntervalSeconds | systemInfoIntervalSeconds
  | sampleRetentionDays | telemetryRetentionDays | systemInfoRetentionDays
  deriving DecidableEq

def Field.all : List Field :=
  [.intervalSeconds, .failureThreshold, .probeTimeoutMs, .telemetryIntervalSeconds,
    .systemInfoIntervalSeconds,
    .sampleRetentionDays, .telemetryRetentionDays, .systemInfoRetentionDays]

def Field.key : Field → String
  | .intervalSeconds => "intervalSeconds"
  | .failureThreshold => "failureThreshold"
  | .probeTimeoutMs => "probeTimeoutMs"
  | .telemetryIntervalSeconds => "telemetryIntervalSeconds"
  | .systemInfoIntervalSeconds => "systemInfoIntervalSeconds"
  | .sampleRetentionDays => "sampleRetentionDays"
  | .telemetryRetentionDays => "telemetryRetentionDays"
  | .systemInfoRetentionDays => "systemInfoRetentionDays"

inductive Stream
  | sample | telemetry | systemInfo
  deriving DecidableEq

def STREAMS : List Stream := [.sample, .telemetry, .systemInfo]

def Stream.legacy : Stream → Field
  | .sample => .sampleRetentionDays
  | .telemetry => .telemetryRetentionDays
  | .systemInfo => .systemInfoRetentionDays

def Stream.detail : Stream → String
  | .sample => "sampleDetailRetentionDays"
  | .telemetry => "telemetryDetailRetentionDays"
  | .systemInfo => "systemInfoDetailRetentionDays"

def Stream.hourly : Stream → String
  | .sample => "sampleHourlyRetentionDays"
  | .telemetry => "telemetryHourlyRetentionDays"
  | .systemInfo => "systemInfoHourlyRetentionDays"

def Stream.daily : Stream → String
  | .sample => "sampleDailyRetentionDays"
  | .telemetry => "telemetryDailyRetentionDays"
  | .systemInfo => "systemInfoDailyRetentionDays"

inductive AssetClass
  | switch | accessPoint
  deriving DecidableEq

def AssetClass.legacyKey : AssetClass → String
  | .switch => "fortiswitch"
  | .accessPoint => "fortiap"

structure Integration where
  id : String
  type : String
  config : Json

structure ClassOverride where
  integrationId : String
  assetType : AssetClass
  tier : Field → Option Nat
  detail : Stream → Option Nat := fun _ => none

inductive HierarchyMarker
  | nothingToMigrate
  | migrated (manualSeeded : Bool) (integrationsSeeded switchOverridesCreated apOverridesCreated : Nat)

structure RetentionMarker where
  manualUpdated : Bool
  integrationsUpdated : Nat
  overridesUpdated : Nat

structure Db where
  monitorSettings : Option Json := none
  manualMonitorSettings : Option Json := none
  hierarchyMigratedAt : Option HierarchyMarker := none
  retentionMigratedAt : Option RetentionMarker := none
  integrations : List Integration
  overrides : Table (Table.noKey (α := ClassOverride)) := Table.empty _

end Data

section Hierarchy

abbrev TierShape := Field → Nat

def HARDCODED_FLOOR : TierShape
  | .intervalSeconds => 60
  | .failureThreshold => 3
  | .probeTimeoutMs => 5000
  | .telemetryIntervalSeconds => 60
  | .systemInfoIntervalSeconds => 600
  | .sampleRetentionDays => 30
  | .telemetryRetentionDays => 30
  | .systemInfoRetentionDays => 30

variable (Number : Json → Option Rat)

/-- `Number` is the language's conversion, nothing where that is not finite. -/
def toInt (raw : Option Json) (fallback : Nat) : Nat :=
  match raw.bind Number with
  | none => fallback
  | some n => if 0 ≤ n then ⌊n⌋.toNat else fallback

def readTier (v : Option Json) : TierShape := fun f => toInt Number (v.bind (·.get f.key)) (HARDCODED_FLOOR f)

def tierToOverride (tier base : TierShape) : Field → Option Nat :=
  fun f => if tier f ≠ base f then some (tier f) else none

def tierJson (tier : TierShape) : Json := .obj (Field.all.map fun f => (f.key, .num (tier f)))

def topLevel (legacy : Json) : TierShape := readTier Number (some legacy)

def classTier (legacy : Json) (kind : AssetClass) : TierShape := readTier Number (legacy.get kind.legacyKey)

def classOverride (legacy : Json) (kind : AssetClass) : Field → Option Nat :=
  tierToOverride (classTier Number legacy kind) (topLevel Number legacy)

def configFields (config : Json) : Fields := if config.isObject then config.spread else []

def ownSettings (config : Json) : Bool :=
  (((configFields config).get "monitorSettings").map Json.truthy).getD false

def seedConfig (top : TierShape) (i : Integration) : Option Json :=
  if ownSettings i.config then none
  else some (.obj ((configFields i.config).set "monitorSettings" (tierJson top)))

def setConfig (config : Json) (i : Integration) : Integration := { i with config := config }

def putConfig (i : Integration) (config : Json) (db : Db) : Option Db :=
  some { db with integrations := replace Integration.id setConfig i config db.integrations }

def stampHierarchy (marker : HierarchyMarker) : Job Db :=
  .act (fun db => if db.hierarchyMigratedAt.isSome then none
      else some { db with hierarchyMigratedAt := some marker })
    fun _ => .done

def deleteLegacy (marker : HierarchyMarker) : Job Db :=
  .act (fun db => db.monitorSettings.map fun _ => { db with monitorSettings := none }) fun _ =>
    stampHierarchy marker

def isFortinet (i : Integration) : Bool := i.type = "fortimanager" || i.type = "fortigate"

def hasOverride (db : Db) (integrationId : String) (kind : AssetClass) : Bool :=
  db.overrides.rows.any fun r => r.data.integrationId = integrationId && r.data.assetType = kind

def createOverride (integrationId : String) (kind : AssetClass) (tier : Field → Option Nat) (db : Db) :
    Option Db :=
  if ∀ f ∈ Field.all, ∀ n ∈ tier f, n < 2 ^ 31 then
    some { db with
      overrides := db.overrides.append { integrationId := integrationId, assetType := kind, tier := tier } }
  else none

def createOverrides (kind : AssetClass) (tier : Field → Option Nat) (next : Nat → Job Db) :
    List Integration → Nat → Job Db
  | [], n => next n
  | i :: rest, n =>
    .read fun db =>
      if hasOverride db i.id kind then createOverrides kind tier next rest n
      else .act (createOverride i.id kind tier) fun _ => createOverrides kind tier next rest (n + 1)

/-- Only where the block of a class differs from the top level. -/
def classOverrides (legacy : Json) (kind : AssetClass) (integrations : List Integration)
    (next : Nat → Job Db) :
    Job Db :=
  if ∃ f ∈ Field.all, (classOverride Number legacy kind f).isSome then
    createOverrides kind (classOverride Number legacy kind) next (integrations.filter isFortinet) 0
  else next 0

def seedIntegrations (legacy : Json) (manualSeeded : Bool) : Job Db :=
  .read fun db =>
    sweep (seedConfig (topLevel Number legacy)) putConfig
      (fun integrationsSeeded =>
        classOverrides Number legacy .switch db.integrations fun switches =>
          classOverrides Number legacy .accessPoint db.integrations fun aps =>
            deleteLegacy (.migrated manualSeeded integrationsSeeded switches aps))
      db.integrations 0

def createManual (value : Json) (db : Db) : Option Db :=
  if db.manualMonitorSettings.isSome then none else some { db with manualMonitorSettings := some value }

def seedManual (legacy : Json) : Job Db :=
  .read fun db =>
    if db.manualMonitorSettings.isSome then seedIntegrations Number legacy false
    else .act (createManual (tierJson (topLevel Number legacy))) fun _ => seedIntegrations Number legacy true

def migrateMonitorSettingsHierarchy : Job Db :=
  .read fun db =>
    if db.hierarchyMigratedAt.isSome then .done
    else .read fun db =>
      match db.monitorSettings with
      | none => stampHierarchy .nothingToMigrate
      | some legacy => seedManual Number legacy

end Hierarchy

section Retention

def DEFAULT_HOURLY_DAYS : Nat := 30

def DEFAULT_DAILY_DAYS : Nat := 365

def setDefault (k : String) (v : Nat) (s : Fields × Bool) : Fields × Bool :=
  if (s.1.get k).isNone then (s.1 ++ [(k, .num v)], true) else s

def legacyDays : Option Json → Option Nat
  | some (.num q) => if 0 ≤ q then some ⌊q⌋.toNat else none
  | _ => none

def expandStream (s : Fields × Bool) (stream : Stream) : Fields × Bool :=
  let legacyN := legacyDays (s.1.get stream.legacy.key)
  setDefault stream.daily DEFAULT_DAILY_DAYS
    (setDefault stream.hourly DEFAULT_HOURLY_DAYS
      (setDefault stream.detail (legacyN.getD DEFAULT_HOURLY_DAYS) s))

/-- The expanded value, and whether anything changed. -/
def expandTierRetention (raw : Json) : Fields × Bool := STREAMS.foldl expandStream (raw.spread, false)

def expandConfig (i : Integration) : Option Json :=
  if i.config.isObject then
    match (configFields i.config).get "monitorSettings" with
    | none => none
    | some ms =>
      if ms.isObject ∧ (expandTierRetention ms).2 then
        some (.obj ((configFields i.config).set "monitorSettings" (.obj (expandTierRetention ms).1)))
      else none
  else none

def detailData (r : Row ClassOverride) : Option (Stream → Option Nat) :=
  let data : Stream → Option Nat := fun s => if (r.data.detail s).isNone then r.data.tier s.legacy else none
  if ∃ s ∈ STREAMS, (data s).isSome then some data else none

def setDetail (data : Stream → Option Nat) (o : ClassOverride) : ClassOverride :=
  { o with detail := fun s => (data s).or (o.detail s) }

def putDetail (r : Row ClassOverride) (data : Stream → Option Nat) (db : Db) : Option Db :=
  some { db with overrides := db.overrides.amendWhere (·.id = r.id) (setDetail data) }

def stampRetention (marker : RetentionMarker) : Job Db :=
  .act (fun db => if db.retentionMigratedAt.isSome then none
      else some { db with retentionMigratedAt := some marker })
    fun _ => .done

def expandOverrides (manualUpdated : Bool) (integrationsUpdated : Nat) : Job Db :=
  .read fun db =>
    sweep detailData putDetail (fun overridesUpdated => stampRetention ⟨manualUpdated,
      integrationsUpdated, overridesUpdated⟩)
      db.overrides.rows 0

def expandIntegrations (manualUpdated : Bool) : Job Db :=
  .read fun db => sweep expandConfig putConfig (expandOverrides manualUpdated) db.integrations 0

def updateManual (value : Json) (db : Db) : Option Db :=
  db.manualMonitorSettings.map fun _ => { db with manualMonitorSettings := some value }

def expandManual : Job Db :=
  .read fun db =>
    match db.manualMonitorSettings with
    | some manual =>
      if (expandTierRetention manual).2 then
        .act (updateManual (.obj (expandTierRetention manual).1)) fun _ => expandIntegrations true
      else expandIntegrations false
    | none => .act (createManual (.obj (expandTierRetention (.obj [])).1)) fun _ => expandIntegrations true

def waitForHierarchyMigration (next : Job Db) : Job Db :=
  .poll 50 (fun db => db.hierarchyMigratedAt.isSome) next

def migrateRetentionTiers : Job Db :=
  .read fun db => if db.retentionMigratedAt.isSome then .done else waitForHierarchyMigration expandManual

end Retention

end Polaris.SettingsMigration
