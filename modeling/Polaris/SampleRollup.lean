import Polaris.Lib.Rollup
import Mathlib.Algebra.Ring.Int.Defs
import Mathlib.Data.Rat.Defs
import Mathlib.Algebra.BigOperators.Group.List.Basic
import Mathlib.Data.List.MinMax

namespace Polaris.SampleRollup

open Polaris.Lib.Rollup

def hourMs : Int := 3600 * 1000

/-- A row of `asset_monitor_samples`, with its time in epoch milliseconds. -/
structure MonitorSample where
  assetId : String
  timestamp : Int
  success : Bool
  responseTimeMs : Option Int
  deriving DecidableEq

structure MonitorBucket where
  assetId : String
  bucketStart : Int
  sampleCount : Nat
  successCount : Nat
  failureCount : Nat
  avgResponseTimeMs : Option ℚ
  minResponseTimeMs : Option Int
  maxResponseTimeMs : Option Int
  deriving DecidableEq

structure MonitorTables where
  samples : List MonitorSample
  hourly : List MonitorBucket

section Aggregates

def avg (xs : List Int) : Option ℚ := if xs = [] then none else some (xs.sum / xs.length)

def dateTrunc (unit timestamp : Int) : Int := timestamp / unit * unit

abbrev BucketKey := String × Int

def MonitorSample.hour (s : MonitorSample) : BucketKey := (s.assetId, dateTrunc hourMs s.timestamp)

def MonitorBucket.key (b : MonitorBucket) : BucketKey := (b.assetId, b.bucketStart)

/-- The values of `FILTER (WHERE success AND "responseTimeMs" IS NOT NULL)`. -/
def responseTimes (rows : List MonitorSample) : List Int :=
  (rows.filter (·.success)).filterMap (·.responseTimeMs)

def aggregateMonitor (k : BucketKey) (rows : List MonitorSample) : MonitorBucket where
  assetId := k.1
  bucketStart := k.2
  sampleCount := rows.length
  successCount := (rows.filter (·.success)).length
  failureCount := (rows.filter (! ·.success)).length
  avgResponseTimeMs := avg (responseTimes rows)
  minResponseTimeMs := (responseTimes rows).min?
  maxResponseTimeMs := (responseTimes rows).max?

end Aggregates

section Statements

def sqlMonitorHourly (since : Int) (db : MonitorTables) : MonitorTables :=
  { db with
    hourly := insertSelect MonitorSample.hour MonitorBucket.key aggregateMonitor
      (db.samples.filter (since ≤ ·.timestamp)) db.hourly }

def lookbackStart (lookbackHours now : Int) : Int := now - lookbackHours * 3600 * 1000

def rollupHourly (lookbackHours now : Int) (db : MonitorTables) : MonitorTables :=
  sqlMonitorHourly (lookbackStart lookbackHours now) db

end Statements

inductive Event
  | sample (row : MonitorSample)
  | tickHourly (now : Int)
  deriving DecidableEq

def step (lookbackHours : Int) (db : MonitorTables) : Event → MonitorTables
  | .sample row => { db with samples := db.samples ++ [row] }
  | .tickHourly now => rollupHourly lookbackHours now db

def run (lookbackHours : Int) (es : List Event) : MonitorTables :=
  es.foldl (step lookbackHours) ⟨[], []⟩

def arrived (k : BucketKey) (es : List Event) : List MonitorSample :=
  group MonitorSample.hour k (es.filterMap fun | .sample row => some row | .tickHourly _ => none)

def hourlyRow (lookbackHours : Int) (es : List Event) (k : BucketKey) : Option MonitorBucket :=
  lookup MonitorBucket.key k (run lookbackHours es).hourly

/-- The row of an hour that holds all of its samples; an hour without
samples has none. -/
def completeRow (k : BucketKey) (rows : List MonitorSample) : Option MonitorBucket :=
  if rows = [] then none else some (aggregateMonitor k rows)

section Reads

variable {lookbackHours : Int} {es fs : List Event} {k : BucketKey} {row : MonitorSample} {now : Int}

@[simp] theorem arrived_append : arrived k (es ++ fs) = arrived k es ++ arrived k fs := by
  simp [arrived, group]

@[simp] theorem arrived_nil : arrived k [] = [] := rfl

@[simp] theorem arrived_tick : arrived k (.tickHourly now :: fs) = arrived k fs := rfl

theorem arrived_sample :
    arrived k [.sample row] = if row.hour = k then [row] else [] := by
  by_cases h : row.hour = k <;> simp [arrived, group, h]

theorem run_append_singleton (e : Event) :
    run lookbackHours (es ++ [e]) = step lookbackHours (run lookbackHours es) e := by
  simp [run]

theorem run_samples (lookbackHours : Int) (es : List Event) (k : BucketKey) :
    group MonitorSample.hour k (run lookbackHours es).samples = arrived k es := by
  induction es using List.reverseRecOn with
  | nil => rfl
  | append_singleton es e ih =>
    rw [run_append_singleton, arrived_append]
    cases e with
    | sample row =>
      rw [arrived_sample, ← ih]
      by_cases h : row.hour = k <;> simp [step, group, h]
    | tickHourly now => simpa [step, rollupHourly, sqlMonitorHourly] using ih

theorem hourlyRow_sample :
    hourlyRow lookbackHours (es ++ [.sample row]) k = hourlyRow lookbackHours es k := by
  simp [hourlyRow, run_append_singleton, step]

theorem hourlyRow_tick :
    hourlyRow lookbackHours (es ++ [.tickHourly now]) k =
      if (arrived k es).filter (lookbackStart lookbackHours now ≤ ·.timestamp) = []
      then hourlyRow lookbackHours es k
      else some (aggregateMonitor k
        ((arrived k es).filter (lookbackStart lookbackHours now ≤ ·.timestamp))) := by
  have hgroup : group MonitorSample.hour k ((run lookbackHours es).samples.filter
      (lookbackStart lookbackHours now ≤ ·.timestamp)) =
      (arrived k es).filter (lookbackStart lookbackHours now ≤ ·.timestamp) := by
    rw [← run_samples lookbackHours es k]
    simp [group, List.filter_filter, Bool.and_comm]
  unfold hourlyRow
  rw [run_append_singleton]
  unfold step rollupHourly sqlMonitorHourly
  rw [lookup_insertSelect MonitorSample.hour (fun _ _ => rfl), hgroup]

end Reads

end Polaris.SampleRollup
