import Polaris.SampleQueryRouter
import Polaris.SampleRollupDays

namespace Polaris.SampleHistory

open Polaris.Lib.Rollup Polaris.Lib.Aggregates Polaris.SampleRollup Polaris.SampleStreams
  Polaris.SampleRollupDays
  Polaris.SampleQueryRouter

section Queries

structure Tables where
  detail : Detail
  hourly : Rollups
  daily : Rollups

def Tables.rollups (t : Tables) (tier : SampleTier) : Rollups := if tier = .hourly then t.hourly else t.daily

def selectRange {α : Type} (p : α → Bool) (time : α → Int) (since untilAt : Int) (rows : List α) : List α :=
  (rows.filter fun r => p r && decide (since ≤ time r) && decide (time r ≤ untilAt)).insertionSort
    fun a b => time a ≤ time b

def ratio (n total : Nat) : Option ℚ := if total = 0 then none else some (n / total)

structure Weighted where
  sum : ℚ := 0
  count : Nat := 0

def Weighted.add (w : Weighted) (avg : Option ℚ) (weight : Nat) : Weighted :=
  match avg with
  | some avg => ⟨w.sum + avg * weight, w.count + weight⟩
  | none => w

def Weighted.mean (w : Weighted) : Option ℚ := if w.count = 0 then none else some (w.sum / w.count)

end Queries

section Monitor

structure MonitorHistoryRow where
  timestamp : Int
  success : Option Bool := none
  responseTimeMs : Option ℚ
  sampleCount : Option Nat := none
  successCount : Option Nat := none
  failureCount : Option Nat := none
  minResponseTimeMs : Option Int := none
  maxResponseTimeMs : Option Int := none

/-- The statistics of a chart, with its average before it is rounded. -/
structure MonitorStats where
  total : Nat
  failed : Nat
  successRate : Option ℚ
  packetLossRate : Option ℚ
  avg : Option ℚ
  minMs : Option Int
  maxMs : Option Int
  deriving DecidableEq

structure MonitorTotals where
  total : Nat := 0
  failed : Nat := 0
  weighted : Weighted := {}
  minMs : Option Int := none
  maxMs : Option Int := none

def MonitorTotals.add (t : MonitorTotals) (r : MonitorBucket) : MonitorTotals where
  total := t.total + r.sampleCount
  failed := t.failed + r.failureCount
  weighted := t.weighted.add (r.avgResponseTimeMs.filter fun _ => 0 < r.successCount) r.successCount
  minMs := Option.merge min t.minMs r.minResponseTimeMs
  maxMs := Option.merge max t.maxMs r.maxResponseTimeMs

def monitorDetailStats (rows : List MonitorSample) : MonitorStats :=
  let total := rows.length
  let failed := (rows.filter (! ·.success)).length
  let ok := responseTimes rows
  ⟨total, failed, ratio (total - failed) total, ratio failed total, avg ok, ok.min?, ok.max?⟩

def monitorRollupStats (rows : List MonitorBucket) : MonitorStats :=
  let t := rows.foldl MonitorTotals.add {}
  ⟨t.total, t.failed, ratio (t.total - t.failed) t.total, ratio t.failed t.total, t.weighted.mean,
    t.minMs, t.maxMs⟩

def monitorDetailRow (s : MonitorSample) : MonitorHistoryRow where
  timestamp := s.timestamp
  success := some s.success
  responseTimeMs := asRat s.responseTimeMs

def monitorRollupRow (r : MonitorBucket) : MonitorHistoryRow where
  timestamp := r.bucketStart
  responseTimeMs := r.avgResponseTimeMs
  sampleCount := some r.sampleCount
  successCount := some r.successCount
  failureCount := some r.failureCount
  minResponseTimeMs := r.minResponseTimeMs
  maxResponseTimeMs := r.maxResponseTimeMs

def readMonitorHistory (t : Tables) (assetId : String) (since untilAt : Int) (tier : SampleTier) :
    List MonitorHistoryRow × MonitorStats :=
  if tier = .detail then
    let rows := selectRange (·.assetId = assetId) (·.timestamp) since untilAt t.detail.monitor
    (rows.map monitorDetailRow, monitorDetailStats rows)
  else
    let rows := selectRange (·.assetId = assetId) (·.bucketStart) since untilAt (t.rollups tier).monitor
    (rows.map monitorRollupRow, monitorRollupStats rows)

end Monitor

section Telemetry

structure TelemetryHistoryRow where
  timestamp : Int
  cpuPct : Option ℚ
  memPct : Option ℚ
  memUsedBytes : Option ℚ
  memTotalBytes : Option Int
  sampleCount : Option Nat := none
  minCpuPct : Option ℚ := none
  maxCpuPct : Option ℚ := none
  minMemPct : Option ℚ := none
  maxMemPct : Option ℚ := none

structure TelemetryStats where
  total : Nat
  avgCpuPct : Option ℚ
  maxCpuPct : Option ℚ
  avgMemPct : Option ℚ
  maxMemPct : Option ℚ
  deriving DecidableEq

/-- The percentage of a sample, from its bytes where it has no other. Zero
bytes count as none. -/
def memPercent (r : TelemetrySample) : Option ℚ :=
  match r.memPct, r.memTotalBytes, r.memUsedBytes with
  | some pct, _, _ => some pct
  | none, some total, some used => if total = 0 ∨ used = 0 then none else some (used / total * 100)
  | none, _, _ => none

structure TelemetryTotals where
  total : Nat := 0
  cpu : Weighted := {}
  cpuMax : Option ℚ := none
  mem : Weighted := {}
  memMax : Option ℚ := none

def TelemetryTotals.add (t : TelemetryTotals) (r : TelemetryBucket) : TelemetryTotals where
  total := t.total + r.sampleCount
  cpu := t.cpu.add r.avgCpuPct r.sampleCount
  cpuMax := Option.merge max t.cpuMax r.maxCpuPct
  mem := t.mem.add r.avgMemPct r.sampleCount
  memMax := Option.merge max t.memMax r.maxMemPct

def telemetryDetailStats (rows : List TelemetrySample) : TelemetryStats :=
  let cpus := rows.filterMap (·.cpuPct)
  let mems := rows.filterMap memPercent
  ⟨rows.length, mean cpus, cpus.max?, mean mems, mems.max?⟩

def telemetryRollupStats (rows : List TelemetryBucket) : TelemetryStats :=
  let t := rows.foldl TelemetryTotals.add {}
  ⟨t.total, t.cpu.mean, t.cpuMax, t.mem.mean, t.memMax⟩

def telemetryDetailRow (s : TelemetrySample) : TelemetryHistoryRow where
  timestamp := s.timestamp
  cpuPct := s.cpuPct
  memPct := s.memPct
  memUsedBytes := asRat s.memUsedBytes
  memTotalBytes := s.memTotalBytes

def telemetryRollupRow (r : TelemetryBucket) : TelemetryHistoryRow where
  timestamp := r.bucketStart
  cpuPct := r.avgCpuPct
  memPct := r.avgMemPct
  memUsedBytes := r.avgMemUsedBytes
  memTotalBytes := r.lastMemTotalBytes
  sampleCount := some r.sampleCount
  minCpuPct := r.minCpuPct
  maxCpuPct := r.maxCpuPct
  minMemPct := r.minMemPct
  maxMemPct := r.maxMemPct

def readTelemetryHistory (t : Tables) (assetId : String) (since untilAt : Int) (tier : SampleTier) :
    List TelemetryHistoryRow × TelemetryStats :=
  if tier = .detail then
    let rows := selectRange (·.assetId = assetId) (·.timestamp) since untilAt t.detail.telemetry
    (rows.map telemetryDetailRow, telemetryDetailStats rows)
  else
    let rows := selectRange (·.assetId = assetId) (·.bucketStart) since untilAt (t.rollups tier).telemetry
    (rows.map telemetryRollupRow, telemetryRollupStats rows)

end Telemetry

section Interface

inductive Counter
  | inOctets | outOctets | inErrors | outErrors
  deriving DecidableEq

def Counter.sample (r : InterfaceSample) : Counter → Option Int
  | .inOctets => r.inOctets
  | .outOctets => r.outOctets
  | .inErrors => r.inErrors
  | .outErrors => r.outErrors

def Counter.first (r : InterfaceBucket) : Counter → Option Int
  | .inOctets => r.firstInOctets
  | .outOctets => r.firstOutOctets
  | .inErrors => r.firstInErrors
  | .outErrors => r.firstOutErrors

def Counter.last (r : InterfaceBucket) : Counter → Option Int
  | .inOctets => r.lastInOctets
  | .outOctets => r.lastOutOctets
  | .inErrors => r.lastInErrors
  | .outErrors => r.lastOutErrors

/-- Cumulative counters of the detail tier, or the rates of a rollup. -/
structure InterfaceHistoryRow where
  timestamp : Int
  adminStatus : Option String
  operStatus : Option String
  speedBps : Option Int
  ipAddress : Option String
  macAddress : Option String
  counters : Counter → Option Int := fun _ => none
  perSec : Counter → Option ℚ := fun _ => none
  sampleCount : Option Nat := none

structure InterfaceHistoryMeta where
  «alias» : Option String
  discoveredDescription : Option String

def rate (first last : Option Int) (bucketStartMs lastSampleAtMs : Int) : Option ℚ :=
  match first, last with
  | some first, some last =>
    let delta := last - first
    if delta < 0 then none
    else
      let seconds : ℚ := (lastSampleAtMs - bucketStartMs : Int) / 1000
      if seconds ≤ 0 then some 0 else some (delta / seconds)
  | _, _ => none

def interfaceDetailRow (s : InterfaceSample) : InterfaceHistoryRow where
  timestamp := s.timestamp
  adminStatus := s.adminStatus
  operStatus := s.operStatus
  speedBps := s.speedBps
  ipAddress := s.ipAddress
  macAddress := s.macAddress
  counters := Counter.sample s

def interfaceRollupRow (r : InterfaceBucket) : InterfaceHistoryRow where
  timestamp := r.bucketStart
  adminStatus := r.lastAdminStatus
  operStatus := r.lastOperStatus
  speedBps := r.maxSpeedBps
  ipAddress := r.lastIpAddress
  macAddress := r.lastMacAddress
  perSec := fun c => rate (c.first r) (c.last r) r.bucketStart (r.lastBucketSampleAt.getD 0)
  sampleCount := some r.sampleCount

def readInterfaceHistory (t : Tables) (assetId : String) (since untilAt : Int) (tier : SampleTier)
    (ifName : String) :
    List InterfaceHistoryRow × InterfaceHistoryMeta :=
  if tier = .detail then
    let samples := selectRange (fun s => s.assetId = assetId ∧ s.ifName = ifName) (·.timestamp) since untilAt
      t.detail.interface
    let latest := samples.getLast?
    (samples.map interfaceDetailRow, ⟨latest.bind (·.«alias»), latest.bind (·.description)⟩)
  else
    let rows := selectRange (fun r => r.assetId = assetId ∧ r.ifName = ifName) (·.bucketStart) since untilAt
      (t.rollups tier).interface
    (rows.map interfaceRollupRow,
      ⟨(rows.filterMap (·.lastAlias)).getLast?, (rows.filterMap (·.lastDescription)).getLast?⟩)

/-- How the chart differences consecutive samples of the detail tier. -/
def delta (a b : Option Int) : Option Int :=
  match a, b with
  | some a, some b => if b - a < 0 then none else some (b - a)
  | _, _ => none

def derivePerIntervalSeries (c : Counter) (samples : List InterfaceHistoryRow) : List (Option ℚ) :=
  (samples.zip samples.tail).filterMap fun (prev, cur) =>
    let dtMs := cur.timestamp - prev.timestamp
    if dtMs ≤ 0 then none
    else some ((delta (prev.counters c) (cur.counters c)).map fun d => d / ((dtMs : ℚ) / 1000))

end Interface

section Reads

variable {α κ : Type} {p : α → Bool} {time : α → Int} {since untilAt : Int} {rows : List α} {r : α}

theorem selectRange_perm : (selectRange p time since untilAt rows).Perm
    (rows.filter fun r => p r && decide (since ≤ time r) && decide (time r ≤ untilAt)) :=
  List.perm_insertionSort _ _

theorem mem_selectRange : r ∈ selectRange p time since untilAt rows ↔
    r ∈ rows ∧ p r = true ∧ since ≤ time r ∧ time r ≤ untilAt := by
  rw [selectRange_perm.mem_iff]
  simp [and_assoc]

theorem find_of_unique {q : α → Bool} (h : ∀ a ∈ rows, ∀ b ∈ rows, q a = true → q b = true → a = b) :
    rows.find? q = some r ↔ r ∈ rows ∧ q r = true := by
  constructor
  · exact fun hf => ⟨List.mem_of_find?_eq_some hf, List.find?_some hf⟩
  · rintro ⟨hr, hq⟩
    obtain ⟨a, ha⟩ := Option.isSome_iff_exists.mp (List.find?_isSome.mpr ⟨r, hr, hq⟩)
    rw [ha, h a (List.mem_of_find?_eq_some ha) r hr (List.find?_some ha) hq]

theorem find_selectRange [DecidableEq κ] {key : α → κ} {k : κ} {b : Int} (hn : (rows.map key).Nodup)
    (hkey : ∀ r, key r = k ↔ p r = true ∧ time r = b) (hs : since ≤ b) (hu : b ≤ untilAt) :
    (selectRange p time since untilAt rows).find? (fun r => time r = b) = lookup key k rows := by
  have hone : ∀ a ∈ rows, ∀ c ∈ rows, key a = k → key c = k → a = c :=
    fun a ha c hc hka hkc => List.inj_on_of_nodup_map hn ha hc (hka.trans hkc.symm)
  refine Option.ext fun r => ?_
  unfold lookup
  rw [find_of_unique, find_of_unique]
  · simp only [mem_selectRange, decide_eq_true_eq, hkey]
    constructor
    · rintro ⟨⟨hr, hp, -, -⟩, ht⟩
      exact ⟨hr, hp, ht⟩
    · rintro ⟨hr, hp, ht⟩
      exact ⟨⟨hr, hp, ht ▸ hs, ht ▸ hu⟩, ht⟩
  · intro a ha c hc hka hkc
    exact hone a ha c hc (of_decide_eq_true hka) (of_decide_eq_true hkc)
  · intro a ha c hc hta htc
    obtain ⟨ha, hpa, -, -⟩ := mem_selectRange.mp ha
    obtain ⟨hc, hpc, -, -⟩ := mem_selectRange.mp hc
    exact hone a ha c hc ((hkey a).mpr ⟨hpa, of_decide_eq_true hta⟩)
      ((hkey c).mpr ⟨hpc, of_decide_eq_true htc⟩)

end Reads

end Polaris.SampleHistory
