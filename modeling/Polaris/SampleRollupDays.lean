import Polaris.SampleStreams

namespace Polaris.SampleRollupDays

open Polaris.Lib.Rollup Polaris.Lib.Aggregates Polaris.SampleRollup Polaris.SampleStreams

section Truncation

theorem dateTrunc_le {unit t : Int} (h : 0 < unit) : dateTrunc unit t ≤ t := Int.ediv_mul_le _ h.ne'

theorem dateTrunc_day_hour (t : Int) : dateTrunc dayMs (dateTrunc hourMs t) = dateTrunc dayMs t := by
  unfold dateTrunc dayMs hourMs
  omega

theorem dateTrunc_mono {unit s t : Int} (h : 0 < unit) (hst : s ≤ t) :
    dateTrunc unit s ≤ dateTrunc unit t :=
  Int.mul_le_mul_of_nonneg_right (Int.ediv_le_ediv h hst) h.le

end Truncation

section Buckets

variable {α ρ ε : Type} [DecidableEq ε] {s : Stream α ρ ε} {sinceHourly sinceDaily : Int}
  {samples : List α} {k h : ε × Int}

variable (s) in
def dayRows (k : ε × Int) (samples : List α) : List α := group (s.bucket dayMs) k samples

variable (s) in
/-- The daily row that aggregates the detail rows of its day at once, with the
expressions of the hourly statement. -/
def directRow (k : ε × Int) (samples : List α) : Option ρ :=
  if dayRows s k samples = [] then none else some (s.aggregateHourly k (dayRows s k samples))

variable (s) in
def DistinctTimes (k : ε × Int) (samples : List α) : Prop :=
  ((dayRows s k samples).map s.timestamp).Nodup

theorem mem_dayRows {r : α} :
    r ∈ dayRows s k samples ↔
      r ∈ samples ∧ s.entity r = k.1 ∧ dateTrunc dayMs (s.timestamp r) = k.2 := by
  simp [dayRows, group, Stream.bucket, Prod.ext_iff]

theorem group_hour (hsince : sinceHourly ≤ k.2) (hk : (h.1, dateTrunc dayMs h.2) = k) :
    group (s.bucket hourMs) h (samples.filter fun r => sinceHourly ≤ s.timestamp r) =
      group (s.bucket hourMs) h (dayRows s k samples) := by
  unfold dayRows group
  rw [List.filter_filter, List.filter_filter]
  refine List.filter_congr fun r _ => ?_
  by_cases hr : s.bucket hourMs r = h
  · have hday : s.bucket dayMs r = k := by
      rw [← hk, ← hr]
      simp [Stream.bucket, dateTrunc_day_hour]
    have hle : k.2 ≤ s.timestamp r := hday ▸ dateTrunc_le (by decide)
    simp [hr, hday, hsince.trans hle]
  · simp [hr]

variable (s sinceHourly sinceDaily samples k) in
def hoursRead : List (ε × Int) :=
  (keys (s.bucket hourMs) (samples.filter fun r => sinceHourly ≤ s.timestamp r)).filter
    fun h => (sinceDaily ≤ h.2) && decide ((h.1, dateTrunc dayMs h.2) = k)

theorem mem_hoursRead (hsh : sinceHourly ≤ k.2) (hsd : sinceDaily ≤ k.2) :
    h ∈ hoursRead s sinceHourly sinceDaily samples k ↔
      ∃ r ∈ dayRows s k samples, s.bucket hourMs r = h := by
  unfold hoursRead
  rw [List.mem_filter, mem_keys, Bool.and_eq_true, decide_eq_true_iff, decide_eq_true_iff]
  constructor
  · rintro ⟨hne, -, hk⟩
    rw [group_hour hsh hk] at hne
    obtain ⟨r, hr⟩ := List.exists_mem_of_ne_nil _ hne
    obtain ⟨hr, hk⟩ := List.mem_filter.mp hr
    exact ⟨r, hr, of_decide_eq_true hk⟩
  · rintro ⟨r, hr, rfl⟩
    obtain ⟨-, hentity, hday⟩ := mem_dayRows.mp hr
    have hk : ((s.bucket hourMs r).1, dateTrunc dayMs (s.bucket hourMs r).2) = k := by
      simp only [Stream.bucket]
      rw [dateTrunc_day_hour, hentity, hday]
    refine ⟨?_, ?_, hk⟩
    · rw [group_hour hsh hk]
      exact List.ne_nil_of_mem (List.mem_filter.mpr ⟨hr, by simp⟩)
    · refine hsd.trans ?_
      rw [← hk]
      exact dateTrunc_le (by decide)

theorem group_hourly (hsh : sinceHourly ≤ k.2) :
    group s.bucketDay k ((s.sqlHourly sinceHourly samples []).filter
        fun b => sinceDaily ≤ (s.key b).2) =
      (hoursRead s sinceHourly sinceDaily samples k).map fun h =>
        s.aggregateHourly h (group (s.bucket hourMs) h (dayRows s k samples)) := by
  unfold Stream.sqlHourly group hoursRead
  rw [insertSelect_nil _ s.key_hourly, List.filter_map, List.filter_map, List.filter_filter]
  have hfilter : ∀ h ∈ keys (s.bucket hourMs) (samples.filter fun r => sinceHourly ≤ s.timestamp r),
      (((fun b => decide (s.bucketDay b = k)) ∘ fun h => s.aggregateHourly h
          (group (s.bucket hourMs) h (samples.filter fun r => sinceHourly ≤ s.timestamp r))) h &&
        ((fun b => decide (sinceDaily ≤ (s.key b).2)) ∘ fun h => s.aggregateHourly h
          (group (s.bucket hourMs) h (samples.filter fun r => sinceHourly ≤ s.timestamp r))) h) =
        (decide (sinceDaily ≤ h.2) && decide ((h.1, dateTrunc dayMs h.2) = k)) := by
    intro h _
    simp only [Function.comp_apply, Stream.bucketDay, s.key_hourly]
    rw [Bool.and_comm]
  rw [List.filter_congr hfilter]
  refine List.map_congr_left fun h hh => ?_
  obtain ⟨-, hh⟩ := List.mem_filter.mp hh
  rw [Bool.and_eq_true, decide_eq_true_iff, decide_eq_true_iff] at hh
  rw [group_hour hsh hh.2]
  rfl

end Buckets

section Columns

variable {α ρ ε : Type} [DecidableEq ε] {s : Stream α ρ ε} {sinceHourly sinceDaily : Int}
  {samples : List α} {k : ε × Int} {ks : List (ε × Int)}

variable (s samples k) in
/-- The hours of a day, in any order. -/
structure HoursOf (ks : List (ε × Int)) : Prop where
  nodup : ks.Nodup
  mem_iff : ∀ h, h ∈ ks ↔ ∃ r ∈ dayRows s k samples, s.bucket hourMs r = h

theorem hoursOf_hoursRead (hsh : sinceHourly ≤ k.2) (hsd : sinceDaily ≤ k.2) :
    HoursOf s samples k (hoursRead s sinceHourly sinceDaily samples k) :=
  ⟨(List.nodup_dedup _).filter _, fun _ => mem_hoursRead hsh hsd⟩

/-- The daily row of a key aggregates the hourly aggregates of its day. -/
theorem lookup_daily (hsh : sinceHourly ≤ k.2) (hsd : sinceDaily ≤ k.2) :
    lookup s.key k (s.sqlDaily sinceDaily (s.sqlHourly sinceHourly samples []) []) =
      if dayRows s k samples = [] then none
      else some (s.aggregateDaily k ((hoursRead s sinceHourly sinceDaily samples k).map fun h =>
          s.aggregateHourly h (group (s.bucket hourMs) h (dayRows s k samples)))) := by
  have hnil : (hoursRead s sinceHourly sinceDaily samples k = []) ↔ dayRows s k samples = [] := by
    rw [List.eq_nil_iff_forall_not_mem, List.eq_nil_iff_forall_not_mem]
    simp only [mem_hoursRead hsh hsd]
    exact ⟨fun hnone r hr => hnone _ ⟨r, hr, rfl⟩, fun hnone h ⟨r, hr, _⟩ => hnone r hr⟩
  unfold Stream.sqlDaily
  rw [lookup_insertSelect _ s.key_daily, group_hourly hsh]
  simp only [List.map_eq_nil_iff, hnil]
  rfl

variable (s samples k) in
theorem lookup_daily_iff (hsh : sinceHourly ≤ k.2) (hsd : sinceDaily ≤ k.2) {P : Prop}
    (hempty : dayRows s k samples = [] → P)
    (hP : ∀ ks, HoursOf s samples k ks →
      (s.aggregateDaily k (ks.map fun h =>
          s.aggregateHourly h (group (s.bucket hourMs) h (dayRows s k samples))) =
        s.aggregateHourly k (dayRows s k samples) ↔ P)) :
    lookup s.key k (s.sqlDaily sinceDaily (s.sqlHourly sinceHourly samples []) []) =
      directRow s k samples ↔ P := by
  rw [lookup_daily hsh hsd, directRow]
  by_cases hrows : dayRows s k samples = []
  · simp [hrows, hempty hrows]
  · rw [if_neg hrows, if_neg hrows, Option.some.injEq]
    exact hP _ (hoursOf_hoursRead hsh hsd)

namespace HoursOf

variable (hks : HoursOf s samples k ks) (hd : DistinctTimes s k samples)

include hks

theorem hour_mem : ∀ r ∈ dayRows s k samples, s.bucket hourMs r ∈ ks :=
  fun r hr => (hks.mem_iff _).mpr ⟨r, hr, rfl⟩

theorem eq_of_start : ∀ i ∈ ks, ∀ j ∈ ks, i.2 = j.2 → i = j := by
  intro i hi j hj hij
  obtain ⟨a, ha, rfl⟩ := (hks.mem_iff i).mp hi
  obtain ⟨b, hb, rfl⟩ := (hks.mem_iff j).mp hj
  exact Prod.ext ((mem_dayRows.mp ha).2.1.trans (mem_dayRows.mp hb).2.1.symm) hij

theorem count (p : α → Bool) :
    (ks.map fun h => ((group (s.bucket hourMs) h (dayRows s k samples)).filter p).length).sum =
      ((dayRows s k samples).filter p).length :=
  length_parts hks.nodup hks.hour_mem p

theorem count_all :
    (ks.map fun h => (group (s.bucket hourMs) h (dayRows s k samples)).length).sum =
      (dayRows s k samples).length := by
  simpa using hks.count fun _ => true

theorem weightedMean_iff (counts : α → Bool) (val : α → Option ℚ)
    (hc : ∀ r, val r ≠ none → counts r = true) :
    weightedMean (ks.map fun h =>
        (mean ((group (s.bucket hourMs) h (dayRows s k samples)).filterMap val),
          ((group (s.bucket hourMs) h (dayRows s k samples)).filter counts).length)) =
        mean ((dayRows s k samples).filterMap val) ↔
      Balanced (s.bucket hourMs) counts val (dayRows s k samples) :=
  weightedMean_parts_iff hks.nodup hks.hour_mem fun r _ => hc r

include hd

/-- First values of the hours give those of the day, and with the order of
time turned round so do last values. -/
theorem first_values {β : Type} {order : Int → Int} (hinj : Function.Injective order)
    (hmono : Monotone order ∨ Antitone order) (col : α → Option β) :
    first (fun h : ε × Int => order h.2) (fun h => first (fun r => order (s.timestamp r)) col
        (group (s.bucket hourMs) h (dayRows s k samples))) ks =
      first (fun r => order (s.timestamp r)) col (dayRows s k samples) := by
  have htimes := List.inj_on_of_nodup_map hd
  refine first_parts hks.mem_iff ?_ ?_ fun i hi j hj h => hks.eq_of_start i hi j hj (hinj h)
  · exact fun a ha b hb h => htimes ha hb (hinj h)
  · intro a _ b _ hab
    obtain hmono | hanti := hmono
    · have hle := (hmono.strictMono_of_injective hinj).le_iff_le.mp hab
      exact hmono (dateTrunc_mono (by decide) hle)
    · have hle := (hanti.strictAnti_of_injective hinj).le_iff_ge.mp hab
      exact hanti (dateTrunc_mono (by decide) hle)

theorem earliest {β : Type} (col : α → Option β) :
    first (fun h : ε × Int => h.2) (fun h => first s.timestamp col
        (group (s.bucket hourMs) h (dayRows s k samples))) ks =
      first s.timestamp col (dayRows s k samples) :=
  hks.first_values hd Function.injective_id (.inl monotone_id) col

theorem latest {β : Type} (col : α → Option β) :
    first (fun h : ε × Int => -h.2) (fun h => first (fun r => -s.timestamp r) col
        (group (s.bucket hourMs) h (dayRows s k samples))) ks =
      first (fun r => -s.timestamp r) col (dayRows s k samples) :=
  hks.first_values hd neg_injective (.inr fun _ _ h => neg_le_neg h) col

end HoursOf

end Columns

section Averages

variable {α ρ ε : Type} [DecidableEq ε] (s : Stream α ρ ε)

/-- Every row counts towards the weight of its hour. -/
def everyRow {α : Type} (_ : α) : Bool := true

theorem filter_everyRow {α : Type} (rows : List α) : rows.filter everyRow = rows :=
  List.filter_true rows

/-- The day of an entity is balanced for a column: the rows that count without
a value do not move the average. -/
def BalancedDay (k : ε × Int) (samples : List α) (counts : α → Bool) (val : α → Option ℚ) : Prop :=
  Balanced (s.bucket hourMs) counts val (dayRows s k samples)

variable {s} in
theorem balancedDay_of_empty {k : ε × Int} {samples : List α} {counts : α → Bool} {val : α → Option ℚ}
    (h : dayRows s k samples = []) : BalancedDay s k samples counts val := by
  unfold BalancedDay
  rw [h]
  exact balanced_of_no_blanks rfl

def responseTime (r : MonitorSample) : Option ℚ := if r.success then asRat r.responseTimeMs else none

theorem map_responseTimes (rows : List MonitorSample) :
    (responseTimes rows).map (Int.cast : Int → ℚ) = rows.filterMap responseTime := by
  unfold responseTimes
  rw [List.filterMap_filter, List.map_filterMap]
  refine List.filterMap_congr fun r _ => ?_
  unfold responseTime asRat
  split <;> rfl

theorem avg_responseTimes (rows : List MonitorSample) :
    avg (responseTimes rows) = mean (rows.filterMap responseTime) := by
  rw [← map_responseTimes, avg, mean, List.length_map, ← Int.cast_list_sum]
  simp only [List.map_eq_nil_iff]

theorem responseTimes_eq (rows : List MonitorSample) :
    responseTimes rows = rows.filterMap fun r => if r.success then r.responseTimeMs else none := by
  rw [responseTimes, List.filterMap_filter]

end Averages

section Days

variable {ks : List BucketKey} {k : BucketKey} {ns : List NamedKey} {n : NamedKey}

theorem monitor_day_iff {samples : List MonitorSample} (hks : HoursOf monitor samples k ks) :
    aggregateMonitorDaily k (ks.map fun h =>
        aggregateMonitor h (group (monitor.bucket hourMs) h (dayRows monitor k samples))) =
        aggregateMonitor k (dayRows monitor k samples) ↔
      BalancedDay monitor k samples (·.success) responseTime := by
  have hc : ∀ r : MonitorSample, responseTime r ≠ none → r.success = true := by
    intro r hr
    unfold responseTime at hr
    by_contra hs
    exact hr (if_neg hs)
  unfold BalancedDay
  rw [← hks.weightedMean_iff _ _ hc]
  simp only [aggregateMonitorDaily, aggregateMonitor, MonitorBucket.mk.injEq, List.map_map,
    List.filterMap_map, Function.comp_def, avg_responseTimes, hks.count_all, hks.count, true_and]
  simp only [responseTimes_eq, min_parts hks.hour_mem, max_parts hks.hour_mem, and_true]

theorem telemetry_day_iff {samples : List TelemetrySample} (hks : HoursOf telemetry samples k ks)
    (hd : DistinctTimes telemetry k samples) :
    aggregateTelemetryDaily k (ks.map fun h =>
        aggregateTelemetry h (group (telemetry.bucket hourMs) h (dayRows telemetry k samples))) =
        aggregateTelemetry k (dayRows telemetry k samples) ↔
      BalancedDay telemetry k samples everyRow (·.cpuPct) ∧
      BalancedDay telemetry k samples everyRow (·.memPct) ∧
      BalancedDay telemetry k samples everyRow fun r => asRat r.memUsedBytes := by
  have hmean := fun val => hks.weightedMean_iff everyRow val fun _ _ => rfl
  have hlast : first (fun h : BucketKey => -h.2) (fun h =>
      first (fun r => -r.timestamp) (·.memTotalBytes)
        (group (telemetry.bucket hourMs) h (dayRows telemetry k samples))) ks =
      first (fun r => -r.timestamp) (·.memTotalBytes) (dayRows telemetry k samples) :=
    hks.latest hd _
  simp only [filter_everyRow] at hmean
  simp only [BalancedDay, ← hmean, aggregateTelemetryDaily, aggregateTelemetry,
    TelemetryBucket.mk.injEq, List.map_map, List.filterMap_map, first_map, Function.comp_def,
    hks.count_all, min_parts hks.hour_mem, max_parts hks.hour_mem, hlast, true_and, and_true]

theorem temperature_day_iff {samples : List TemperatureSample} (hks : HoursOf temperature samples n ns) :
    aggregateTemperatureDaily n (ns.map fun h =>
        aggregateTemperature h (group (temperature.bucket hourMs) h (dayRows temperature n samples))) =
        aggregateTemperature n (dayRows temperature n samples) ↔
      BalancedDay temperature n samples everyRow (·.celsius) := by
  have hmean := fun val => hks.weightedMean_iff everyRow val fun _ _ => rfl
  simp only [filter_everyRow] at hmean
  simp only [BalancedDay, ← hmean, aggregateTemperatureDaily, aggregateTemperature,
    TemperatureBucket.mk.injEq, List.map_map, List.filterMap_map, Function.comp_def,
    hks.count_all, min_parts hks.hour_mem, max_parts hks.hour_mem, true_and, and_true]

theorem storage_day_iff {samples : List StorageSample} (hks : HoursOf storage samples n ns)
    (hd : DistinctTimes storage n samples) :
    aggregateStorageDaily n (ns.map fun h =>
        aggregateStorage h (group (storage.bucket hourMs) h (dayRows storage n samples))) =
        aggregateStorage n (dayRows storage n samples) ↔
      BalancedDay storage n samples everyRow fun r => asRat r.usedBytes := by
  have hmean := fun val => hks.weightedMean_iff everyRow val fun _ _ => rfl
  have hlast : first (fun h : NamedKey => -h.2) (fun h => first (fun r => -r.timestamp) (·.totalBytes)
        (group (storage.bucket hourMs) h (dayRows storage n samples))) ns =
      first (fun r => -r.timestamp) (·.totalBytes) (dayRows storage n samples) :=
    hks.latest hd _
  simp only [filter_everyRow] at hmean
  simp only [BalancedDay, ← hmean, aggregateStorageDaily, aggregateStorage,
    StorageBucket.mk.injEq, List.map_map, List.filterMap_map, first_map, Function.comp_def,
    hks.count_all, min_parts hks.hour_mem, max_parts hks.hour_mem, hlast, true_and, and_true]

theorem interface_day {samples : List InterfaceSample} (hks : HoursOf interface samples n ns)
    (hd : DistinctTimes interface n samples) :
    aggregateInterfaceDaily n (ns.map fun h =>
        aggregateInterface h (group (interface.bucket hourMs) h (dayRows interface n samples))) =
      aggregateInterface n (dayRows interface n samples) := by
  have hfirst : ∀ col : InterfaceSample → Option Int,
      first (fun h : NamedKey => h.2) (fun h => first (fun r => r.timestamp) col
        (group (interface.bucket hourMs) h (dayRows interface n samples))) ns =
      first (fun r => r.timestamp) col (dayRows interface n samples) :=
    fun col => hks.earliest hd col
  have hlast : ∀ {β : Type} (col : InterfaceSample → Option β),
      first (fun h : NamedKey => -h.2) (fun h => first (fun r => -r.timestamp) col
        (group (interface.bucket hourMs) h (dayRows interface n samples))) ns =
      first (fun r => -r.timestamp) col (dayRows interface n samples) :=
    fun col => hks.latest hd col
  simp only [aggregateInterfaceDaily, aggregateInterface, List.map_map, List.filterMap_map, first_map,
    Function.comp_def, hks.count_all, max_parts hks.hour_mem, hfirst, hlast]

end Days

section Service

structure Detail where
  monitor : List MonitorSample
  telemetry : List TelemetrySample
  temperature : List TemperatureSample
  storage : List StorageSample
  interface : List InterfaceSample

structure Rollups where
  monitor : List MonitorBucket
  telemetry : List TelemetryBucket
  temperature : List TemperatureBucket
  storage : List StorageBucket
  interface : List InterfaceBucket

def Rollups.empty : Rollups := ⟨[], [], [], [], []⟩

def runAllHourly (since : Int) (detail : Detail) (hourly : Rollups) : Rollups where
  monitor := (sqlMonitorHourly since ⟨detail.monitor, hourly.monitor⟩).hourly
  telemetry := sqlTelemetryHourly since detail.telemetry hourly.telemetry
  temperature := sqlTemperatureHourly since detail.temperature hourly.temperature
  storage := sqlStorageHourly since detail.storage hourly.storage
  interface := sqlInterfaceHourly since detail.interface hourly.interface

def runAllDaily (since : Int) (hourly daily : Rollups) : Rollups where
  monitor := sqlMonitorDaily since hourly.monitor daily.monitor
  telemetry := sqlTelemetryDaily since hourly.telemetry daily.telemetry
  temperature := sqlTemperatureDaily since hourly.temperature daily.temperature
  storage := sqlStorageDaily since hourly.storage daily.storage
  interface := sqlInterfaceDaily since hourly.interface daily.interface

structure Entity where
  assetId : String
  sensorName : String
  mountPath : String
  ifName : String
  day : Int

namespace Entity

def asset (e : Entity) : BucketKey := (e.assetId, e.day)

def sensor (e : Entity) : NamedKey := ((e.assetId, e.sensorName), e.day)

def mount (e : Entity) : NamedKey := ((e.assetId, e.mountPath), e.day)

def port (e : Entity) : NamedKey := ((e.assetId, e.ifName), e.day)

end Entity

def DistinctDay (e : Entity) (detail : Detail) : Prop :=
  DistinctTimes monitor e.asset detail.monitor ∧ DistinctTimes telemetry e.asset detail.telemetry ∧
    DistinctTimes temperature e.sensor detail.temperature ∧
    DistinctTimes storage e.mount detail.storage ∧ DistinctTimes interface e.port detail.interface

instance (e : Entity) (detail : Detail) : Decidable (DistinctDay e detail) :=
  inferInstanceAs (Decidable (List.Nodup _ ∧ List.Nodup _ ∧ List.Nodup _ ∧ List.Nodup _ ∧ List.Nodup _))

/-- The daily rows of an entity are those that aggregate its detail rows. -/
def MatchesDetail (e : Entity) (detail : Detail) (daily : Rollups) : Prop :=
  lookup MonitorBucket.key e.asset daily.monitor = directRow monitor e.asset detail.monitor ∧
    lookup TelemetryBucket.key e.asset daily.telemetry =
      directRow telemetry e.asset detail.telemetry ∧
    lookup TemperatureBucket.key e.sensor daily.temperature =
      directRow temperature e.sensor detail.temperature ∧
    lookup StorageBucket.key e.mount daily.storage = directRow storage e.mount detail.storage ∧
    lookup InterfaceBucket.key e.port daily.interface = directRow interface e.port detail.interface

/-- In every averaged column, the rows that add to the weight of their hour
without a value, each taken at the average of its hour, average to the average
of the day. -/
def BalancedColumns (e : Entity) (detail : Detail) : Prop :=
  BalancedDay monitor e.asset detail.monitor (·.success) responseTime ∧
    (BalancedDay telemetry e.asset detail.telemetry everyRow (·.cpuPct) ∧
      BalancedDay telemetry e.asset detail.telemetry everyRow (·.memPct) ∧
      BalancedDay telemetry e.asset detail.telemetry everyRow fun r => asRat r.memUsedBytes) ∧
    BalancedDay temperature e.sensor detail.temperature everyRow (·.celsius) ∧
    BalancedDay storage e.mount detail.storage everyRow fun r => asRat r.usedBytes

/-- Rolling the detail rows up to hours and the hours up to days gives the
direct aggregate of the day exactly when the averaged columns are balanced. -/
theorem daily_matches_iff (e : Entity) (detail : Detail) (sinceHourly sinceDaily : Int)
    (hsh : sinceHourly ≤ e.day) (hsd : sinceDaily ≤ e.day) (hd : DistinctDay e detail) :
    MatchesDetail e detail
        (runAllDaily sinceDaily (runAllHourly sinceHourly detail .empty) .empty) ↔
      BalancedColumns e detail := by
  obtain ⟨-, htelemetry, -, hstorage, hinterface⟩ := hd
  have hmonitor := lookup_daily_iff monitor detail.monitor e.asset hsh hsd balancedDay_of_empty
    fun _ hks => monitor_day_iff hks
  have hasset := lookup_daily_iff telemetry detail.telemetry e.asset hsh hsd
    (fun h => ⟨balancedDay_of_empty h, balancedDay_of_empty h, balancedDay_of_empty h⟩)
    fun _ hks => telemetry_day_iff hks htelemetry
  have hsensor := lookup_daily_iff temperature detail.temperature e.sensor hsh hsd
    balancedDay_of_empty fun _ hks => temperature_day_iff hks
  have hmount := lookup_daily_iff storage detail.storage e.mount hsh hsd balancedDay_of_empty
    fun _ hks => storage_day_iff hks hstorage
  have hport := lookup_daily_iff interface detail.interface e.port hsh hsd (fun _ => trivial)
    fun _ hks => iff_true_intro (interface_day hks hinterface)
  refine (and_congr hmonitor (and_congr hasset (and_congr hsensor (and_congr hmount hport)))).trans ?_
  rw [and_true]
  rfl

/-- A day whose rows all have their metrics rolls up as it should. -/
theorem daily_matches_full_rows :
    let detail : Detail :=
      { monitor := [⟨"a", 0, true, some 10⟩, ⟨"a", 3600000, true, some 20⟩, ⟨"a", 3600001, false, none⟩]
        telemetry := [⟨"a", 0, some 10, some 5, some 7, some 8⟩, ⟨"a", 1, some 20, some 5, some 7, none⟩]
        temperature := [⟨"a", 5, "cpu", some 40⟩]
        storage := [⟨"a", 5, "/", some 100, some 40⟩]
        interface := [⟨"a", 5, "wan1", none, none, none, none, none, some 3, none, none, none, none, none,
          none, none, none⟩] }
    let e : Entity := ⟨"a", "cpu", "/", "wan1", 0⟩
    MatchesDetail e detail (runAllDaily 0 (runAllHourly 0 detail .empty) .empty) := by
  intro detail e
  refine (daily_matches_iff e detail 0 0 (by decide) (by decide) (by decide)).mpr ?_
  refine ⟨?_, ⟨?_, ?_, ?_⟩, ?_, ?_⟩
  all_goals exact balanced_of_no_blanks (by decide)

/-- The hour with a missing `cpuPct` weighs twice as much as it has values. -/
theorem missing_metric_overweighs :
    let detail : Detail :=
      { monitor := []
        telemetry := [⟨"a", 0, some 10, none, none, none⟩, ⟨"a", 1, none, none, none, none⟩,
          ⟨"a", 3600000, some 20, none, none, none⟩]
        temperature := []
        storage := []
        interface := [] }
    let e : Entity := ⟨"a", "cpu", "/", "wan1", 0⟩
    DistinctDay e detail ∧
      ¬ MatchesDetail e detail (runAllDaily 0 (runAllHourly 0 detail .empty) .empty) := by
  refine ⟨by decide, fun h => ?_⟩
  have htelemetry := h.2.1
  revert htelemetry
  decide +kernel

end Service

end Polaris.SampleRollupDays
