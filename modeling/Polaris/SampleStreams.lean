import Polaris.SampleRollup
import Polaris.Lib.Aggregates

namespace Polaris.SampleStreams

open Polaris.Lib.Rollup Polaris.Lib.Aggregates Polaris.SampleRollup

def dayMs : Int := 24 * 3600 * 1000

abbrev NamedKey := (String × String) × Int

def asRat (x : Option Int) : Option ℚ := x.map Int.cast

section Generic

variable {α ρ ε : Type} [DecidableEq ε]

/-- The two rollup statements of a stream: how a row is keyed, and the
aggregates that the hourly and the daily `SELECT` compute for a key. -/
structure Stream (α ρ ε : Type) where
  entity : α → ε
  timestamp : α → Int
  key : ρ → ε × Int
  aggregateHourly : ε × Int → List α → ρ
  aggregateDaily : ε × Int → List ρ → ρ
  key_hourly : ∀ k rows, key (aggregateHourly k rows) = k
  key_daily : ∀ k rows, key (aggregateDaily k rows) = k

namespace Stream

variable (s : Stream α ρ ε)

def bucket (unit : Int) (r : α) : ε × Int := (s.entity r, dateTrunc unit (s.timestamp r))

def bucketDay (b : ρ) : ε × Int := ((s.key b).1, dateTrunc dayMs (s.key b).2)

/-- The hourly statement of a stream, over the detail rows since a time. -/
def sqlHourly (since : Int) (samples : List α) (hourly : List ρ) : List ρ :=
  insertSelect (s.bucket hourMs) s.key s.aggregateHourly
    (samples.filter fun r => since ≤ s.timestamp r) hourly

def sqlDaily (since : Int) (hourly daily : List ρ) : List ρ :=
  insertSelect s.bucketDay s.key s.aggregateDaily (hourly.filter fun b => since ≤ (s.key b).2) daily

end Stream

end Generic

section Monitor

def aggregateMonitorDaily (k : BucketKey) (rows : List MonitorBucket) : MonitorBucket where
  assetId := k.1
  bucketStart := k.2
  sampleCount := (rows.map (·.sampleCount)).sum
  successCount := (rows.map (·.successCount)).sum
  failureCount := (rows.map (·.failureCount)).sum
  avgResponseTimeMs := weightedMean (rows.map fun b => (b.avgResponseTimeMs, b.successCount))
  minResponseTimeMs := (rows.filterMap (·.minResponseTimeMs)).min?
  maxResponseTimeMs := (rows.filterMap (·.maxResponseTimeMs)).max?

def monitor : Stream MonitorSample MonitorBucket String where
  entity := (·.assetId)
  timestamp := (·.timestamp)
  key := MonitorBucket.key
  aggregateHourly := aggregateMonitor
  aggregateDaily := aggregateMonitorDaily
  key_hourly := fun _ _ => rfl
  key_daily := fun _ _ => rfl

def sqlMonitorDaily : Int → List MonitorBucket → List MonitorBucket → List MonitorBucket :=
  monitor.sqlDaily

end Monitor

section Telemetry

structure TelemetrySample where
  assetId : String
  timestamp : Int
  cpuPct : Option ℚ
  memPct : Option ℚ
  memUsedBytes : Option Int
  memTotalBytes : Option Int
  deriving DecidableEq

structure TelemetryBucket where
  assetId : String
  bucketStart : Int
  sampleCount : Nat
  avgCpuPct : Option ℚ
  minCpuPct : Option ℚ
  maxCpuPct : Option ℚ
  avgMemPct : Option ℚ
  minMemPct : Option ℚ
  maxMemPct : Option ℚ
  avgMemUsedBytes : Option ℚ
  maxMemUsedBytes : Option Int
  lastMemTotalBytes : Option Int
  deriving DecidableEq

def TelemetryBucket.key (b : TelemetryBucket) : BucketKey := (b.assetId, b.bucketStart)

def aggregateTelemetry (k : BucketKey) (rows : List TelemetrySample) : TelemetryBucket where
  assetId := k.1
  bucketStart := k.2
  sampleCount := rows.length
  avgCpuPct := mean (rows.filterMap (·.cpuPct))
  minCpuPct := (rows.filterMap (·.cpuPct)).min?
  maxCpuPct := (rows.filterMap (·.cpuPct)).max?
  avgMemPct := mean (rows.filterMap (·.memPct))
  minMemPct := (rows.filterMap (·.memPct)).min?
  maxMemPct := (rows.filterMap (·.memPct)).max?
  avgMemUsedBytes := mean (rows.filterMap fun r => asRat r.memUsedBytes)
  maxMemUsedBytes := (rows.filterMap (·.memUsedBytes)).max?
  lastMemTotalBytes := first (fun r => -r.timestamp) (·.memTotalBytes) rows

def aggregateTelemetryDaily (k : BucketKey) (rows : List TelemetryBucket) : TelemetryBucket where
  assetId := k.1
  bucketStart := k.2
  sampleCount := (rows.map (·.sampleCount)).sum
  avgCpuPct := weightedMean (rows.map fun b => (b.avgCpuPct, b.sampleCount))
  minCpuPct := (rows.filterMap (·.minCpuPct)).min?
  maxCpuPct := (rows.filterMap (·.maxCpuPct)).max?
  avgMemPct := weightedMean (rows.map fun b => (b.avgMemPct, b.sampleCount))
  minMemPct := (rows.filterMap (·.minMemPct)).min?
  maxMemPct := (rows.filterMap (·.maxMemPct)).max?
  avgMemUsedBytes := weightedMean (rows.map fun b => (b.avgMemUsedBytes, b.sampleCount))
  maxMemUsedBytes := (rows.filterMap (·.maxMemUsedBytes)).max?
  lastMemTotalBytes := first (fun b => -b.bucketStart) (·.lastMemTotalBytes) rows

def telemetry : Stream TelemetrySample TelemetryBucket String where
  entity := (·.assetId)
  timestamp := (·.timestamp)
  key := TelemetryBucket.key
  aggregateHourly := aggregateTelemetry
  aggregateDaily := aggregateTelemetryDaily
  key_hourly := fun _ _ => rfl
  key_daily := fun _ _ => rfl

def sqlTelemetryHourly : Int → List TelemetrySample → List TelemetryBucket → List TelemetryBucket :=
  telemetry.sqlHourly

def sqlTelemetryDaily : Int → List TelemetryBucket → List TelemetryBucket → List TelemetryBucket :=
  telemetry.sqlDaily

end Telemetry

section Temperature

structure TemperatureSample where
  assetId : String
  timestamp : Int
  sensorName : String
  celsius : Option ℚ
  deriving DecidableEq

structure TemperatureBucket where
  assetId : String
  bucketStart : Int
  sensorName : String
  sampleCount : Nat
  avgCelsius : Option ℚ
  minCelsius : Option ℚ
  maxCelsius : Option ℚ
  deriving DecidableEq

def TemperatureBucket.key (b : TemperatureBucket) : NamedKey := ((b.assetId, b.sensorName), b.bucketStart)

def aggregateTemperature (k : NamedKey) (rows : List TemperatureSample) : TemperatureBucket where
  assetId := k.1.1
  bucketStart := k.2
  sensorName := k.1.2
  sampleCount := rows.length
  avgCelsius := mean (rows.filterMap (·.celsius))
  minCelsius := (rows.filterMap (·.celsius)).min?
  maxCelsius := (rows.filterMap (·.celsius)).max?

def aggregateTemperatureDaily (k : NamedKey) (rows : List TemperatureBucket) : TemperatureBucket where
  assetId := k.1.1
  bucketStart := k.2
  sensorName := k.1.2
  sampleCount := (rows.map (·.sampleCount)).sum
  avgCelsius := weightedMean (rows.map fun b => (b.avgCelsius, b.sampleCount))
  minCelsius := (rows.filterMap (·.minCelsius)).min?
  maxCelsius := (rows.filterMap (·.maxCelsius)).max?

def temperature : Stream TemperatureSample TemperatureBucket (String × String) where
  entity := fun r => (r.assetId, r.sensorName)
  timestamp := (·.timestamp)
  key := TemperatureBucket.key
  aggregateHourly := aggregateTemperature
  aggregateDaily := aggregateTemperatureDaily
  key_hourly := fun _ _ => rfl
  key_daily := fun _ _ => rfl

def sqlTemperatureHourly : Int → List TemperatureSample → List TemperatureBucket →
    List TemperatureBucket := temperature.sqlHourly

def sqlTemperatureDaily : Int → List TemperatureBucket → List TemperatureBucket →
    List TemperatureBucket := temperature.sqlDaily

end Temperature

section Storage

structure StorageSample where
  assetId : String
  timestamp : Int
  mountPath : String
  totalBytes : Option Int
  usedBytes : Option Int
  deriving DecidableEq

structure StorageBucket where
  assetId : String
  bucketStart : Int
  mountPath : String
  sampleCount : Nat
  avgUsedBytes : Option ℚ
  minUsedBytes : Option Int
  maxUsedBytes : Option Int
  lastTotalBytes : Option Int
  deriving DecidableEq

def StorageBucket.key (b : StorageBucket) : NamedKey := ((b.assetId, b.mountPath), b.bucketStart)

def aggregateStorage (k : NamedKey) (rows : List StorageSample) : StorageBucket where
  assetId := k.1.1
  bucketStart := k.2
  mountPath := k.1.2
  sampleCount := rows.length
  avgUsedBytes := mean (rows.filterMap fun r => asRat r.usedBytes)
  minUsedBytes := (rows.filterMap (·.usedBytes)).min?
  maxUsedBytes := (rows.filterMap (·.usedBytes)).max?
  lastTotalBytes := first (fun r => -r.timestamp) (·.totalBytes) rows

def aggregateStorageDaily (k : NamedKey) (rows : List StorageBucket) : StorageBucket where
  assetId := k.1.1
  bucketStart := k.2
  mountPath := k.1.2
  sampleCount := (rows.map (·.sampleCount)).sum
  avgUsedBytes := weightedMean (rows.map fun b => (b.avgUsedBytes, b.sampleCount))
  minUsedBytes := (rows.filterMap (·.minUsedBytes)).min?
  maxUsedBytes := (rows.filterMap (·.maxUsedBytes)).max?
  lastTotalBytes := first (fun b => -b.bucketStart) (·.lastTotalBytes) rows

def storage : Stream StorageSample StorageBucket (String × String) where
  entity := fun r => (r.assetId, r.mountPath)
  timestamp := (·.timestamp)
  key := StorageBucket.key
  aggregateHourly := aggregateStorage
  aggregateDaily := aggregateStorageDaily
  key_hourly := fun _ _ => rfl
  key_daily := fun _ _ => rfl

def sqlStorageHourly : Int → List StorageSample → List StorageBucket → List StorageBucket := storage.sqlHourly

def sqlStorageDaily : Int → List StorageBucket → List StorageBucket → List StorageBucket := storage.sqlDaily

end Storage

section Interface

structure InterfaceSample where
  assetId : String
  timestamp : Int
  ifName : String
  adminStatus : Option String := none
  operStatus : Option String := none
  speedBps : Option Int := none
  ipAddress : Option String := none
  macAddress : Option String := none
  inOctets : Option Int := none
  outOctets : Option Int := none
  inErrors : Option Int := none
  outErrors : Option Int := none
  ifType : Option String := none
  ifParent : Option String := none
  vlanId : Option Int := none
  «alias» : Option String := none
  description : Option String := none
  deriving DecidableEq

structure InterfaceBucket where
  assetId : String
  bucketStart : Int
  ifName : String
  sampleCount : Nat
  firstInOctets : Option Int
  lastInOctets : Option Int
  firstOutOctets : Option Int
  lastOutOctets : Option Int
  firstInErrors : Option Int
  lastInErrors : Option Int
  firstOutErrors : Option Int
  lastOutErrors : Option Int
  maxSpeedBps : Option Int
  lastAdminStatus : Option String
  lastOperStatus : Option String
  lastIpAddress : Option String
  lastMacAddress : Option String
  lastAlias : Option String
  lastDescription : Option String
  lastIfType : Option String
  lastIfParent : Option String
  lastVlanId : Option Int
  lastBucketSampleAt : Option Int
  deriving DecidableEq

def InterfaceBucket.key (b : InterfaceBucket) : NamedKey := ((b.assetId, b.ifName), b.bucketStart)

def aggregateInterface (k : NamedKey) (rows : List InterfaceSample) : InterfaceBucket where
  assetId := k.1.1
  bucketStart := k.2
  ifName := k.1.2
  sampleCount := rows.length
  firstInOctets := first (·.timestamp) (·.inOctets) rows
  lastInOctets := first (fun r => -r.timestamp) (·.inOctets) rows
  firstOutOctets := first (·.timestamp) (·.outOctets) rows
  lastOutOctets := first (fun r => -r.timestamp) (·.outOctets) rows
  firstInErrors := first (·.timestamp) (·.inErrors) rows
  lastInErrors := first (fun r => -r.timestamp) (·.inErrors) rows
  firstOutErrors := first (·.timestamp) (·.outErrors) rows
  lastOutErrors := first (fun r => -r.timestamp) (·.outErrors) rows
  maxSpeedBps := (rows.filterMap (·.speedBps)).max?
  lastAdminStatus := first (fun r => -r.timestamp) (·.adminStatus) rows
  lastOperStatus := first (fun r => -r.timestamp) (·.operStatus) rows
  lastIpAddress := first (fun r => -r.timestamp) (·.ipAddress) rows
  lastMacAddress := first (fun r => -r.timestamp) (·.macAddress) rows
  lastAlias := first (fun r => -r.timestamp) (·.«alias») rows
  lastDescription := first (fun r => -r.timestamp) (·.description) rows
  lastIfType := first (fun r => -r.timestamp) (·.ifType) rows
  lastIfParent := first (fun r => -r.timestamp) (·.ifParent) rows
  lastVlanId := first (fun r => -r.timestamp) (·.vlanId) rows
  lastBucketSampleAt := (rows.filterMap fun r => some r.timestamp).max?

def aggregateInterfaceDaily (k : NamedKey) (rows : List InterfaceBucket) : InterfaceBucket where
  assetId := k.1.1
  bucketStart := k.2
  ifName := k.1.2
  sampleCount := (rows.map (·.sampleCount)).sum
  firstInOctets := first (·.bucketStart) (·.firstInOctets) rows
  lastInOctets := first (fun b => -b.bucketStart) (·.lastInOctets) rows
  firstOutOctets := first (·.bucketStart) (·.firstOutOctets) rows
  lastOutOctets := first (fun b => -b.bucketStart) (·.lastOutOctets) rows
  firstInErrors := first (·.bucketStart) (·.firstInErrors) rows
  lastInErrors := first (fun b => -b.bucketStart) (·.lastInErrors) rows
  firstOutErrors := first (·.bucketStart) (·.firstOutErrors) rows
  lastOutErrors := first (fun b => -b.bucketStart) (·.lastOutErrors) rows
  maxSpeedBps := (rows.filterMap (·.maxSpeedBps)).max?
  lastAdminStatus := first (fun b => -b.bucketStart) (·.lastAdminStatus) rows
  lastOperStatus := first (fun b => -b.bucketStart) (·.lastOperStatus) rows
  lastIpAddress := first (fun b => -b.bucketStart) (·.lastIpAddress) rows
  lastMacAddress := first (fun b => -b.bucketStart) (·.lastMacAddress) rows
  lastAlias := first (fun b => -b.bucketStart) (·.lastAlias) rows
  lastDescription := first (fun b => -b.bucketStart) (·.lastDescription) rows
  lastIfType := first (fun b => -b.bucketStart) (·.lastIfType) rows
  lastIfParent := first (fun b => -b.bucketStart) (·.lastIfParent) rows
  lastVlanId := first (fun b => -b.bucketStart) (·.lastVlanId) rows
  lastBucketSampleAt := (rows.filterMap (·.lastBucketSampleAt)).max?

def interface : Stream InterfaceSample InterfaceBucket (String × String) where
  entity := fun r => (r.assetId, r.ifName)
  timestamp := (·.timestamp)
  key := InterfaceBucket.key
  aggregateHourly := aggregateInterface
  aggregateDaily := aggregateInterfaceDaily
  key_hourly := fun _ _ => rfl
  key_daily := fun _ _ => rfl

def sqlInterfaceHourly : Int → List InterfaceSample → List InterfaceBucket → List InterfaceBucket :=
  interface.sqlHourly

def sqlInterfaceDaily : Int → List InterfaceBucket → List InterfaceBucket → List InterfaceBucket :=
  interface.sqlDaily

end Interface

end Polaris.SampleStreams
