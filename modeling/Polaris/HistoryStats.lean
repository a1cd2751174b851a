import Polaris.Lib.Summaries
import Polaris.SampleHistory

namespace Polaris.HistoryStats

open Polaris.Lib.Rollup Polaris.Lib.Aggregates Polaris.Lib.Summaries Polaris.SampleRollup
  Polaris.SampleStreams
  Polaris.SampleRollupDays Polaris.SampleHistory

section Spec

variable {α ρ : Type} (s : Stream α ρ String)

/-- The table has the aggregate of every hour that has samples. -/
def Complete (samples : List α) (table : List ρ) : Prop :=
  table.Perm ((keys (s.bucket hourMs) samples).map fun k => s.aggregateHourly k
    (group (s.bucket hourMs) k samples))

def rangeRows (assetId : String) (since untilAt : Int) (samples : List α) : List α :=
  samples.filter fun r => decide (s.entity r = assetId) && decide (since ≤ s.timestamp r) &&
    decide (s.timestamp r ≤ untilAt)

/-- The response times: successful probes without one weigh in their hour as
much as those that have one. -/
def MonitorMatched (rows : List MonitorSample) : Prop :=
  Matched (monitor.bucket hourMs) (·.success) responseTime responseTime rows

/-- The processor: samples without a value weigh in their hour. The memory: so
do those, and only the detail tier takes its percentage from the bytes. -/
def TelemetryMatched (rows : List TelemetrySample) : Prop :=
  Matched (telemetry.bucket hourMs) everyRow (·.cpuPct) (·.cpuPct) rows ∧
    Matched (telemetry.bucket hourMs) everyRow (·.memPct) memPercent rows ∧
    Topped (·.memPct) memPercent rows

end Spec

section Hours

variable {α ρ : Type} {s : Stream α ρ String} {samples : List α} {table : List ρ} {assetId : String}
  {since untilAt : Int}

theorem hours_read (hc : Complete s samples table) (hs : dateTrunc hourMs since = since)
    (hu : dateTrunc hourMs (untilAt + 1) = untilAt + 1) :
    ∃ ks : List (String × Int), ks.Nodup ∧
      (∀ r ∈ rangeRows s assetId since untilAt samples, s.bucket hourMs r ∈ ks) ∧
      (selectRange (fun b => (s.key b).1 = assetId) (fun b => (s.key b).2) since untilAt table).Perm
        (ks.map fun k =>
          s.aggregateHourly k (group (s.bucket hourMs) k (rangeRows s assetId since untilAt samples))) := by
  refine ⟨(keys (s.bucket hourMs) samples).filter fun k => decide (k.1 = assetId) && decide (since ≤ k.2) &&
    decide (k.2 ≤ untilAt), (List.nodup_dedup _).filter _, fun r hr => ?_, ?_⟩
  · obtain ⟨hr, hrange⟩ := List.mem_filter.mp hr
    simp only [Bool.and_eq_true, decide_eq_true_eq] at hrange
    obtain ⟨⟨hasset, hlow⟩, hhigh⟩ := hrange
    have hstart : since ≤ dateTrunc hourMs (s.timestamp r) := hs ▸ dateTrunc_mono (by decide) hlow
    have hend : dateTrunc hourMs (s.timestamp r) ≤ untilAt := (dateTrunc_le (by decide)).trans hhigh
    refine List.mem_filter.mpr ⟨?_, by simp [Stream.bucket, hasset, hstart, hend]⟩
    exact List.mem_dedup.mpr (List.mem_map_of_mem hr)
  · refine selectRange_perm.trans ((hc.filter _).trans (List.Perm.of_eq ?_))
    rw [List.filter_map]
    have hfilter : ((fun r => decide ((s.key r).1 = assetId) && decide (since ≤ (s.key r).2) &&
        decide ((s.key r).2 ≤ untilAt)) ∘ fun k => s.aggregateHourly k (group (s.bucket hourMs) k samples)) =
        fun k : String × Int => decide (k.1 = assetId) && decide (since ≤ k.2) && decide (k.2 ≤ untilAt) := by
      funext k
      simp only [Function.comp_apply, s.key_hourly]
    rw [hfilter]
    refine List.map_congr_left fun k hk => ?_
    obtain ⟨-, hk⟩ := List.mem_filter.mp hk
    simp only [Bool.and_eq_true, decide_eq_true_eq] at hk
    obtain ⟨⟨hasset, hlow⟩, hhigh⟩ := hk
    congr 1
    unfold rangeRows group
    rw [List.filter_filter]
    refine List.filter_congr fun r _ => ?_
    by_cases hr : s.bucket hourMs r = k
    · subst hr
      have hentity : s.entity r = assetId := hasset
      have hstart : since ≤ s.timestamp r := hlow.trans (dateTrunc_le (by decide))
      have hend : s.timestamp r ≤ untilAt := by
        simp only [Stream.bucket, dateTrunc, hourMs] at hu hhigh
        omega
      simp [hentity, hstart, hend]
    · simp [hr]

end Hours

section Folds

variable {α : Type}

theorem add_filter (w : Weighted) (avg : Option ℚ) (n : Nat) :
    w.add (avg.filter fun _ => 0 < n) n = w.add avg n := by
  cases avg with
  | none => rfl
  | some x =>
    by_cases hn : 0 < n
    · simp [hn, Option.filter]
    · obtain rfl : n = 0 := by omega
      simp [Weighted.add]

theorem foldl_weighted (avg : α → Option ℚ) (n : α → Nat) (rows : List α) (w : Weighted) :
    rows.foldl (fun w r => w.add (avg r) (n r)) w =
      ⟨w.sum + ((rows.map fun r => (avg r, n r)).filterMap fun p => p.1.map (· * (p.2 : ℚ))).sum,
        w.count + ((rows.map fun r => (avg r, n r)).map fun p => if p.1.isSome then p.2 else 0).sum⟩ := by
  induction rows generalizing w with
  | nil => simp
  | cons r rows ih =>
    rw [List.foldl_cons, ih]
    cases hr : avg r with
    | none => simp [Weighted.add, hr]
    | some x =>
      simp [Weighted.add, hr, add_assoc]

theorem mean_weighted (avg : α → Option ℚ) (n : α → Nat) (rows : List α) :
    (rows.foldl (fun (w : Weighted) r => w.add (avg r) (n r)) {}).mean = valuedMean (rows.map fun r => (avg r,
      n r)) := by
  rw [foldl_weighted, Weighted.mean, valuedMean]
  simp only [zero_add]

end Folds

section Monitor

variable {rows other : List MonitorSample} {ks : List BucketKey}

theorem monitorDetailStats_perm (h : rows.Perm other) :
    monitorDetailStats rows = monitorDetailStats other := by
  have htimes : (responseTimes rows).Perm (responseTimes other) := (h.filter _).filterMap _
  have havg : avg (responseTimes rows) = avg (responseTimes other) := by
    rw [avg_responseTimes, avg_responseTimes]
    exact mean_perm (h.filterMap _)
  simp only [monitorDetailStats, h.length_eq, (h.filter _).length_eq, min?_perm htimes, max?_perm htimes,
    havg]

theorem monitorRollupStats_eq (rows : List MonitorBucket) :
    monitorRollupStats rows =
      let total := (rows.map (·.sampleCount)).sum
      let failed := (rows.map (·.failureCount)).sum
      ⟨total, failed, ratio (total - failed) total, ratio failed total,
        valuedMean (rows.map fun r => (r.avgResponseTimeMs, r.successCount)),
        (rows.filterMap (·.minResponseTimeMs)).min?, (rows.filterMap (·.maxResponseTimeMs)).max?⟩ := by
  have htotal : (rows.foldl MonitorTotals.add {}).total = rows.foldl (fun n r => n + r.sampleCount) 0 :=
    (List.foldl_hom MonitorTotals.total fun _ _ => rfl).symm
  have hfailed : (rows.foldl MonitorTotals.add {}).failed = rows.foldl (fun n r => n + r.failureCount) 0 :=
    (List.foldl_hom MonitorTotals.failed fun _ _ => rfl).symm
  have hweighted : (rows.foldl MonitorTotals.add {}).weighted =
      rows.foldl (fun (w : Weighted) r => w.add r.avgResponseTimeMs r.successCount) {} :=
    (List.foldl_hom MonitorTotals.weighted fun t _ => (add_filter t.weighted _ _).symm).symm
  have hmin : (rows.foldl MonitorTotals.add {}).minMs =
      rows.foldl (fun m r => Option.merge min m r.minResponseTimeMs) none :=
    (List.foldl_hom MonitorTotals.minMs fun _ _ => rfl).symm
  have hmax : (rows.foldl MonitorTotals.add {}).maxMs =
      rows.foldl (fun m r => Option.merge max m r.maxResponseTimeMs) none :=
    (List.foldl_hom MonitorTotals.maxMs fun _ _ => rfl).symm
  rw [foldl_sum, Nat.zero_add] at htotal hfailed
  rw [foldl_min, Option.merge_none_left] at hmin
  rw [foldl_max, Option.merge_none_left] at hmax
  simp only [monitorRollupStats, htotal, hfailed, hweighted, mean_weighted, hmin, hmax]

theorem monitorRollupStats_perm {rows other : List MonitorBucket} (h : rows.Perm other) :
    monitorRollupStats rows = monitorRollupStats other := by
  rw [monitorRollupStats_eq, monitorRollupStats_eq]
  simp only [(h.map _).sum_eq, valuedMean_perm (h.map _), min?_perm (h.filterMap _),
    max?_perm (h.filterMap _)]

theorem monitorStats_iff (hn : ks.Nodup) (hmem : ∀ r ∈ rows, monitor.bucket hourMs r ∈ ks) :
    monitorRollupStats (ks.map fun k => aggregateMonitor k (group (monitor.bucket hourMs) k rows)) =
      monitorDetailStats rows ↔ MonitorMatched rows := by
  have hc : ∀ r ∈ rows, responseTime r ≠ none → r.success = true := by
    intro r _ hr
    by_contra hs
    exact hr (if_neg hs)
  have hiff := valuedMean_parts_iff hn hmem hc fun _ _ h => h
  have htotal := length_parts hn hmem fun _ => true
  have hfailed := length_parts hn hmem fun r : MonitorSample => !r.success
  simp only [List.filter_true] at htotal
  unfold MonitorMatched
  rw [← hiff, monitorRollupStats_eq]
  simp only [monitorDetailStats, aggregateMonitor, MonitorStats.mk.injEq, List.map_map, List.filterMap_map,
    Function.comp_def, avg_responseTimes, htotal, hfailed, true_and]
  simp only [responseTimes_eq, min_parts hmem, max_parts hmem, and_true]

end Monitor

section Telemetry

variable {rows other : List TelemetrySample} {ks : List BucketKey}

theorem telemetryDetailStats_perm (h : rows.Perm other) :
    telemetryDetailStats rows = telemetryDetailStats other := by
  simp only [telemetryDetailStats, h.length_eq, mean_perm (h.filterMap _), max?_perm (h.filterMap _)]

theorem telemetryRollupStats_eq (rows : List TelemetryBucket) :
    telemetryRollupStats rows =
      ⟨(rows.map (·.sampleCount)).sum, valuedMean (rows.map fun r => (r.avgCpuPct, r.sampleCount)),
        (rows.filterMap (·.maxCpuPct)).max?, valuedMean (rows.map fun r => (r.avgMemPct, r.sampleCount)),
        (rows.filterMap (·.maxMemPct)).max?⟩ := by
  have htotal : (rows.foldl TelemetryTotals.add {}).total = rows.foldl (fun n r => n + r.sampleCount) 0 :=
    (List.foldl_hom TelemetryTotals.total fun _ _ => rfl).symm
  have hcpu : (rows.foldl TelemetryTotals.add {}).cpu =
      rows.foldl (fun (w : Weighted) r => w.add r.avgCpuPct r.sampleCount) {} :=
    (List.foldl_hom TelemetryTotals.cpu fun _ _ => rfl).symm
  have hcpuMax : (rows.foldl TelemetryTotals.add {}).cpuMax =
      rows.foldl (fun m r => Option.merge max m r.maxCpuPct) none :=
    (List.foldl_hom TelemetryTotals.cpuMax fun _ _ => rfl).symm
  have hmem : (rows.foldl TelemetryTotals.add {}).mem =
      rows.foldl (fun (w : Weighted) r => w.add r.avgMemPct r.sampleCount) {} :=
    (List.foldl_hom TelemetryTotals.mem fun _ _ => rfl).symm
  have hmemMax : (rows.foldl TelemetryTotals.add {}).memMax =
      rows.foldl (fun m r => Option.merge max m r.maxMemPct) none :=
    (List.foldl_hom TelemetryTotals.memMax fun _ _ => rfl).symm
  rw [foldl_sum, Nat.zero_add] at htotal
  rw [foldl_max, Option.merge_none_left] at hcpuMax hmemMax
  simp only [telemetryRollupStats, htotal, hcpu, hmem, mean_weighted, hcpuMax, hmemMax]

theorem telemetryRollupStats_perm {rows other : List TelemetryBucket} (h : rows.Perm other) :
    telemetryRollupStats rows = telemetryRollupStats other := by
  rw [telemetryRollupStats_eq, telemetryRollupStats_eq]
  simp only [(h.map _).sum_eq, valuedMean_perm (h.map _), max?_perm (h.filterMap _)]

theorem memPercent_of_memPct (r : TelemetrySample) : ∀ x ∈ r.memPct, memPercent r = some x := by
  intro x hx
  unfold memPercent
  rw [hx]

theorem telemetryStats_iff (hn : ks.Nodup) (hmem : ∀ r ∈ rows, telemetry.bucket hourMs r ∈ ks) :
    telemetryRollupStats (ks.map fun k => aggregateTelemetry k (group (telemetry.bucket hourMs) k rows)) =
      telemetryDetailStats rows ↔ TelemetryMatched rows := by
  have hcpu := valuedMean_parts_iff hn hmem (fun _ _ _ => rfl : ∀ r ∈ rows, r.cpuPct ≠ none →
    everyRow r = true)
    fun _ _ h => h
  have hmemory :=
    valuedMean_parts_iff hn hmem (fun _ _ _ => rfl : ∀ r ∈ rows, r.memPct ≠ none → everyRow r = true)
    memPercent_of_memPct
  have htop : (rows.filterMap (·.memPct)).max? = (rows.filterMap memPercent).max? ↔ _ :=
    max_full_iff memPercent_of_memPct
  have htotal := length_parts hn hmem fun _ => true
  simp only [List.filter_true] at htotal
  simp only [filter_everyRow] at hcpu hmemory
  unfold TelemetryMatched
  rw [← hcpu, ← hmemory, ← htop, telemetryRollupStats_eq]
  simp only [telemetryDetailStats, aggregateTelemetry, TelemetryStats.mk.injEq, List.map_map,
    List.filterMap_map,
    Function.comp_def, htotal, max_parts hmem, true_and]

end Telemetry

section History

def twoHours (probes : List MonitorSample) (metrics : List TelemetrySample) : Tables :=
  let detail : Detail := ⟨probes, metrics, [], [], []⟩
  ⟨detail, runAllHourly 0 detail .empty, .empty⟩

def fullProbes : List MonitorSample :=
  [⟨"a1", 0, true, some 10⟩, ⟨"a1", 60000, false, none⟩, ⟨"a1", 3600000, true, some 20⟩]

def fullMetrics : List TelemetrySample :=
  [⟨"a1", 0, some 10, some 40, none, none⟩, ⟨"a1", 60000, some 20, some 60, none, none⟩,
    ⟨"a1", 3600000, some 60, some 50, none, none⟩]

/-- A sample without a processor value, and one with its memory in bytes
only. -/
def gappyMetrics : List TelemetrySample :=
  [⟨"a1", 0, some 10, some 40, none, none⟩, ⟨"a1", 60000, none, none, some 90, some 100⟩,
    ⟨"a1", 3600000, some 20, some 50, none, none⟩]

end History

end Polaris.HistoryStats
