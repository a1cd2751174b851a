import Polaris.Lib.Rounding

namespace Polaris.CapacityAdvisor

open Polaris.Lib.Rounding

section Types

inductive CadenceKey
  | probe | fastFiltered | telemetry | systemInfo
  deriving DecidableEq

def cadenceKeys : List CadenceKey := [.probe, .fastFiltered, .telemetry, .systemInfo]

inductive AdvisorLeverKey
  | DATABASE_POOL_SIZE | POLARIS_PGBOSS_POOL_SIZE
  | POLARIS_MONITOR_PROBE_WORKERS | POLARIS_MONITOR_FAST_WORKERS
  | POLARIS_MONITOR_HEAVY_WORKERS | POLARIS_MONITOR_FLOATING_WORKERS
  | POLARIS_PROBE_CONCURRENCY | POLARIS_HEAVY_CONCURRENCY
  | QUEUE_MODE | PG_MAX_CONNECTIONS
  | PG_SHARED_BUFFERS | PG_EFFECTIVE_CACHE_SIZE | PG_WORK_MEM | PG_RANDOM_PAGE_COST
  deriving DecidableEq

inductive ApplyMode
  | env | queueModeEndpoint | advisoryOnly
  deriving DecidableEq

inductive QueueMode
  | cursor | pgboss
  deriving DecidableEq

def QueueMode.text : QueueMode → String
  | cursor => "cursor"
  | pgboss => "pgboss"

inductive Value
  | number (n : ℕ)
  | text (s : String)
  deriving DecidableEq

def Value.toNumber : Value → ℕ
  | number n => n
  | text _ => 0

structure AdvisorRecommendation where
  key : AdvisorLeverKey
  applyMode : ApplyMode
  current : Option Value
  recommended : Value
  rationale : String
  breakdown : List (String × ℚ) := []
  changeRequired : Bool
  appliesAfterQueueModeFlip : Option Bool := none

structure CadenceObservation where
  sampleCount : ℕ
  p50 : Option ℚ
  p90 : Option ℚ
  usedDefault : Bool

structure HandlerTimeoutPressure where
  cadence : CadenceKey
  p90Sec : ℚ
  expireSec : ℚ
  utilization : ℚ

structure AdvisorState where
  usingColdStartDefaults : Bool
  cadenceSamples : CadenceKey → CadenceObservation
  recommendations : List AdvisorRecommendation
  anyChangeRequired : Bool
  restartRequired : Bool
  activeQueueMode : QueueMode
  recommendedQueueMode : QueueMode
  handlerTimeoutSec : CadenceKey → Option ℚ
  handlerTimeoutPressure : List HandlerTimeoutPressure

structure IntegrationBreakdown where
  fortimanagerProxy : ℕ
  fortimanagerDirectParallelismSum : ℕ
  fortigate : ℕ
  entra : ℕ
  activedirectory : ℕ
  windowsserver : ℕ

structure PgRecommendation where
  current : Option String
  recommended : String
  changeRequired : Bool

structure CapacitySnapshot where
  monitoredAssetCount : ℕ
  peakObserved : ℕ
  maxConnections : ℕ
  activeQueueMode : QueueMode

structure CurrentEnv where
  DATABASE_POOL_SIZE : ℕ
  POLARIS_PGBOSS_POOL_SIZE : ℕ
  POLARIS_MONITOR_PROBE_WORKERS : ℕ
  POLARIS_MONITOR_FAST_WORKERS : ℕ
  POLARIS_MONITOR_HEAVY_WORKERS : ℕ
  POLARIS_MONITOR_FLOATING_WORKERS : ℕ
  POLARIS_PROBE_CONCURRENCY : ℕ
  POLARIS_HEAVY_CONCURRENCY : ℕ

structure PgTuning where
  sharedBuffers : PgRecommendation
  effectiveCacheSize : PgRecommendation
  workMem : PgRecommendation
  randomPageCost : PgRecommendation

structure AdvisorInputs where
  snapshot : CapacitySnapshot
  integrations : IntegrationBreakdown
  cadence : CadenceKey → CadenceObservation
  cadenceIntervals : CadenceKey → ℚ
  handlerTimeoutSec : CadenceKey → Option ℚ
  applicable : CadenceKey → ℕ
  currentEnv : CurrentEnv
  pgTuning : PgTuning

structure Runtime where
  text : ℚ → String
  toFixed : ℚ → ℕ → String
  isPgbossInstalled : Bool

end Types

section Constants

def coldStartP90Sec : CadenceKey → ℚ
  | .probe => 4 / 10
  | .fastFiltered => 6 / 10
  | .telemetry => 8 / 10
  | .systemInfo => 1

def perCadenceFloorCap : ℕ := 24

def perCadenceFloorMin : ℕ := 4

def floatingFloorCap : ℕ := 32

def floatingFloorMin : ℕ := 4

def fleetFloorFactor : ℚ := 1 / 2

def safetyFactor : ℚ := 3 / 2

def httpJobOverhead : ℕ := 15

def pgbossPoolTarget : ℕ := 20

def pgbossPoolWorkerFraction : ℚ := 1 / 4

def polarisFractionOfMax : ℚ := 65 / 100

def maxConnectionsRounding : ℕ := 50

def poolRounding : ℕ := 50

def pgbossRecommendAssets : ℕ := 500

def handlerTimeoutPressureRatio : ℚ := 7 / 10

def roundUpToNearest (value multiple : ℕ) : ℕ :=
  if multiple = 0 then value else ⌈(value : ℚ) / multiple⌉₊ * multiple

/-- The whole number that is nearest, the larger one of two. -/
def mathRound (q : ℚ) : ℤ := ⌊q + 1 / 2⌋

end Constants

section Targets

variable (inputs : AdvisorInputs)

def perCadenceFloor : ℕ :=
  min perCadenceFloorCap (max perCadenceFloorMin ⌈inputs.snapshot.monitoredAssetCount * fleetFloorFactor⌉₊)

def floatingFloor : ℕ :=
  min floatingFloorCap (max floatingFloorMin ⌈inputs.snapshot.monitoredAssetCount * fleetFloorFactor⌉₊)

def p90Of (c : CadenceKey) : ℚ := (inputs.cadence c).p90.getD (coldStartP90Sec c)

def workersNeeded (c : CadenceKey) : ℕ :=
  let interval := max 1 (inputs.cadenceIntervals c)
  let need := ⌈inputs.applicable c * p90Of inputs c * safetyFactor / interval⌉₊
  max need (perCadenceFloor inputs)

def timeoutPressure (c : CadenceKey) : Option HandlerTimeoutPressure :=
  (inputs.handlerTimeoutSec c).bind fun expire =>
    let p90 := p90Of inputs c
    if expire ≠ 0 ∧ p90 ≥ expire * handlerTimeoutPressureRatio then some ⟨c, p90, expire,
      p90 / expire⟩ else none

def sumWorkersNeeded : ℕ := (cadenceKeys.map (workersNeeded inputs)).foldl (· + ·) 0

def floatingWorkers : ℕ := max (floatingFloor inputs) ⌈sumWorkersNeeded inputs * (1 / 4 : ℚ)⌉₊

def workerCeiling : ℕ := sumWorkersNeeded inputs + floatingWorkers inputs

def discoveryReserve : ℕ :=
  inputs.integrations.fortimanagerProxy * 1 + min inputs.integrations.fortimanagerDirectParallelismSum 20 +
    inputs.integrations.fortigate * 1 +
    (inputs.integrations.entra + inputs.integrations.activedirectory + inputs.integrations.windowsserver) * 2

def pgbossTarget : ℕ := max pgbossPoolTarget ⌈workerCeiling inputs * pgbossPoolWorkerFraction⌉₊

def modeledPrismaTarget : ℕ := workerCeiling inputs + discoveryReserve inputs + httpJobOverhead

def peakPrismaFloor : ℕ := ⌈((inputs.snapshot.peakObserved - pgbossTarget inputs : ℕ) : ℚ) / (80 / 100)⌉₊

def prismaTarget : ℕ := max (modeledPrismaTarget inputs) (peakPrismaFloor inputs)

def effectivePrismaPool : ℕ := max (prismaTarget inputs) inputs.currentEnv.DATABASE_POOL_SIZE

def effectivePgbossPool : ℕ := max (pgbossTarget inputs) inputs.currentEnv.POLARIS_PGBOSS_POOL_SIZE

def polarisNeeded : ℕ := effectivePrismaPool inputs + effectivePgbossPool inputs

def polarisFloor : ℕ := max (polarisNeeded inputs) inputs.snapshot.peakObserved

def recommendedMax : ℕ :=
  roundUpToNearest ⌈(polarisFloor inputs : ℚ) / polarisFractionOfMax⌉₊ maxConnectionsRounding

def recommendedMode (R : Runtime) : QueueMode :=
  if inputs.snapshot.monitoredAssetCount > pgbossRecommendAssets ∧ R.isPgbossInstalled then .pgboss
  else inputs.snapshot.activeQueueMode

end Targets

section Recommendations

variable (R : Runtime) (inputs : AdvisorInputs)

structure WorkerLever where
  key : AdvisorLeverKey
  cad : Option CadenceKey
  need : ℕ
  current : ℕ

def pgbossWorkerLevers : List WorkerLever :=
  let env := inputs.currentEnv
  let needed := workersNeeded inputs
  [⟨.POLARIS_MONITOR_PROBE_WORKERS, some .probe, needed .probe, env.POLARIS_MONITOR_PROBE_WORKERS⟩,
    ⟨.POLARIS_MONITOR_FAST_WORKERS, some .fastFiltered, needed .fastFiltered,
      env.POLARIS_MONITOR_FAST_WORKERS⟩,
    ⟨.POLARIS_MONITOR_HEAVY_WORKERS, some .telemetry, max (needed .telemetry) (needed .systemInfo),
      env.POLARIS_MONITOR_HEAVY_WORKERS⟩,
    ⟨.POLARIS_MONITOR_FLOATING_WORKERS, none, floatingWorkers inputs, env.POLARIS_MONITOR_FLOATING_WORKERS⟩]

def queueModeRecommendation : AdvisorRecommendation :=
  let activeMode := inputs.snapshot.activeQueueMode
  let mode := recommendedMode inputs R
  let monitoredCount := inputs.snapshot.monitoredAssetCount
  { key := .QUEUE_MODE
    applyMode := .queueModeEndpoint
    current := some (.text activeMode.text)
    recommended := .text mode.text
    rationale :=
      if mode = .pgboss ∧ activeMode ≠ .pgboss then
        s!"Monitoring {monitoredCount} assets. pg-boss provides per-cadence isolation that scales further than the cursor queue."
      else s!"Current queue mode fits the workload ({monitoredCount} monitored)."
    breakdown := [("monitoredAssetCount", monitoredCount), ("threshold", pgbossRecommendAssets)]
    changeRequired := activeMode ≠ mode }

def floatingRationale : String :=
  let floor := floatingFloor inputs
  s!"Floating pool absorbs cross-queue backlog. Sized at max({floor}, 25% of dedicated workers)."

def cadenceRationale (cad : CadenceKey) : String :=
  let applicable := inputs.applicable cad
  let p90Sec := p90Of inputs cad
  let p90Text := R.toFixed p90Sec 2
  let factor := R.text safetyFactor
  let intervalText := R.text (inputs.cadenceIntervals cad)
  let floor := perCadenceFloor inputs
  let base := s!"Workers needed = ceil(applicable={applicable} × p90={p90Text}s × {factor} / cadence-interval={intervalText}s). Floored at {floor}."
  base ++ match (inputs.handlerTimeoutSec cad).filter (· ≠ 0) with
    | some timeoutSec =>
      let timeoutText := R.text timeoutSec
      let percent := R.toFixed (p90Sec / timeoutSec * 100) 0
      s!" Handler timeout cap: {timeoutText}s (p90 at {percent}%). p90 above this cap would cause jobs to be killed and re-queued."
    | none => " Handler timeout cap unknown (queue not yet created — fires on first pgboss boot)."

def cadenceBreakdown (lever : WorkerLever) (cad : CadenceKey) : List (String × ℚ) :=
  let p90Sec := p90Of inputs cad
  [("applicable", (inputs.applicable cad : ℚ)), ("p90Sec", p90Sec),
    ("cadenceIntervalSec", inputs.cadenceIntervals cad), ("safetyFactor", safetyFactor),
    ("workersNeeded", lever.need), ("floor", perCadenceFloor inputs)] ++
    match (inputs.handlerTimeoutSec cad).filter (· ≠ 0) with
    | some timeoutSec =>
      [("handlerTimeoutSec", timeoutSec), ("p90PctOfTimeout", mathRound (p90Sec / timeoutSec * 100))]
    | none => []

def pgbossLeverRecommendation (lever : WorkerLever) : AdvisorRecommendation :=
  let recommended := max lever.need lever.current
  { key := lever.key
    applyMode := .env
    current := some (.number lever.current)
    recommended := .number recommended
    rationale := lever.cad.elim (floatingRationale inputs) (cadenceRationale R inputs)
    breakdown := lever.cad.elim
      [("sumWorkersNeeded", (sumWorkersNeeded inputs : ℚ)), ("floor", floatingFloor inputs),
        ("quarterOfDedicated", ⌈sumWorkersNeeded inputs * (1 / 4 : ℚ)⌉₊)]
      (cadenceBreakdown inputs lever)
    changeRequired := recommended > lever.current
    appliesAfterQueueModeFlip :=
      some (inputs.snapshot.activeQueueMode = .cursor ∧ recommendedMode inputs R = .pgboss) }

def cursorLeverRecommendation (key : AdvisorLeverKey) (need current : ℕ) (rationale : String)
    (breakdown : List (String × ℚ)) : AdvisorRecommendation :=
  let recommended := max need current
  { key := key
    applyMode := .env
    current := some (.number current)
    recommended := .number recommended
    rationale := rationale
    breakdown := breakdown
    changeRequired := recommended > current
    appliesAfterQueueModeFlip :=
      some (inputs.snapshot.activeQueueMode = .pgboss ∧ recommendedMode inputs R = .cursor) }

def cursorWorkerLevers : List AdvisorRecommendation :=
  let needed := workersNeeded inputs
  [cursorLeverRecommendation R inputs .POLARIS_PROBE_CONCURRENCY (needed .probe + needed .fastFiltered)
      inputs.currentEnv.POLARIS_PROBE_CONCURRENCY
      "Cursor mode's light loop runs probe + fastFiltered together. Sized as sum of both cadence needs."
      [("probeWorkers", needed .probe), ("fastFilteredWorkers", needed .fastFiltered)],
    cursorLeverRecommendation R inputs .POLARIS_HEAVY_CONCURRENCY (needed .telemetry + needed .systemInfo)
      inputs.currentEnv.POLARIS_HEAVY_CONCURRENCY
      "Cursor mode's heavy loop runs telemetry + systemInfo together. Sized as sum of both cadence needs."
      [("telemetryWorkers", needed .telemetry), ("systemInfoWorkers", needed .systemInfo)]]

def prismaRecommendation : AdvisorRecommendation :=
  let prismaCurrent := inputs.currentEnv.DATABASE_POOL_SIZE
  let prismaRecommended := roundUpToNearest (max (prismaTarget inputs) prismaCurrent) poolRounding
  { key := .DATABASE_POOL_SIZE
    applyMode := .env
    current := some (.number prismaCurrent)
    recommended := .number prismaRecommended
    rationale :=
      if peakPrismaFloor inputs > modeledPrismaTarget inputs then
        "Sized to keep observed peak below 80% pool utilization — peak demand currently exceeds the worker-count model."
      else "Sized to cover the worker ceiling plus discovery reserve plus HTTP/job overhead."
    breakdown := [("workerCeiling", workerCeiling inputs), ("discoveryReserve", discoveryReserve inputs),
      ("httpOverhead", httpJobOverhead), ("modeledTarget", modeledPrismaTarget inputs),
      ("peakObserved", inputs.snapshot.peakObserved), ("peakPrismaFloor", peakPrismaFloor inputs),
      ("target", prismaTarget inputs)]
    changeRequired := prismaRecommended > prismaCurrent }

def pgbossRecommendation : AdvisorRecommendation :=
  let pgbossCurrent := inputs.currentEnv.POLARIS_PGBOSS_POOL_SIZE
  let pgbossRecommended := roundUpToNearest (max (pgbossTarget inputs) pgbossCurrent) poolRounding
  let percent := mathRound (pgbossPoolWorkerFraction * 100)
  let ceiling := workerCeiling inputs
  { key := .POLARIS_PGBOSS_POOL_SIZE
    applyMode := .env
    current := some (.number pgbossCurrent)
    recommended := .number pgbossRecommended
    rationale :=
      if pgbossTarget inputs > pgbossPoolTarget then
        s!"Sized to {percent}% of the {ceiling}-worker ceiling so simultaneous boss.complete()/fail() bursts don't queue on pg-boss's internal pool."
      else
        "Pg-boss queue ops are fast and multiplex many workers onto few connections — the 20-conn floor is plenty for this worker count."
    breakdown := [("workerCeiling", ceiling), ("workerFraction", pgbossPoolWorkerFraction),
      ("floor", pgbossPoolTarget), ("target", pgbossTarget inputs)]
    changeRequired := pgbossRecommended > pgbossCurrent
    appliesAfterQueueModeFlip :=
      some (inputs.snapshot.activeQueueMode = .cursor ∧ recommendedMode inputs R = .pgboss) }

def maxConnectionsRecommendation : AdvisorRecommendation :=
  let recommended := recommendedMax inputs
  let current := if inputs.snapshot.maxConnections = 0 then none else some inputs.snapshot.maxConnections
  let percent := mathRound (polarisFractionOfMax * 100)
  { key := .PG_MAX_CONNECTIONS
    applyMode := .advisoryOnly
    current := current.map .number
    recommended := .number recommended
    rationale :=
      s!"Set max_connections so Polaris's combined pool sits at {percent}% of max. Requires a PostgreSQL restart."
    breakdown := [("polarisNeeded", polarisNeeded inputs), ("peakObserved", inputs.snapshot.peakObserved),
      ("polarisFloor", polarisFloor inputs), ("polarisFraction", polarisFractionOfMax),
      ("rounding", maxConnectionsRounding)]
    changeRequired := current.any fun c => recommended > c }

def tuningRecommendation (key : AdvisorLeverKey) (tuning : PgRecommendation) (rationale : String) :
    AdvisorRecommendation :=
  { key := key
    applyMode := .advisoryOnly
    current := tuning.current.map .text
    recommended := .text tuning.recommended
    rationale := rationale
    changeRequired := tuning.changeRequired }

def recommendations : List AdvisorRecommendation :=
  [queueModeRecommendation R inputs] ++
    (pgbossWorkerLevers inputs).map (pgbossLeverRecommendation R inputs) ++
    cursorWorkerLevers R inputs ++
    [prismaRecommendation inputs, pgbossRecommendation R inputs, maxConnectionsRecommendation inputs,
      tuningRecommendation .PG_SHARED_BUFFERS inputs.pgTuning.sharedBuffers
        "25% of host RAM, minimum 128 MB. Requires a PostgreSQL restart.",
      tuningRecommendation .PG_EFFECTIVE_CACHE_SIZE inputs.pgTuning.effectiveCacheSize
        "75% of host RAM, minimum 256 MB. Requires a PostgreSQL reload.",
      tuningRecommendation .PG_WORK_MEM inputs.pgTuning.workMem
        "RAM/128, capped at 256 MB, minimum 32 MB. Requires a PostgreSQL reload.",
      tuningRecommendation .PG_RANDOM_PAGE_COST inputs.pgTuning.randomPageCost
        "1.1 on SSD. Requires a PostgreSQL reload."]

def buildAdvisorState : AdvisorState :=
  let recs := recommendations R inputs
  { usingColdStartDefaults := cadenceKeys.any fun c => (inputs.cadence c).usedDefault
    cadenceSamples := inputs.cadence
    recommendations := recs
    anyChangeRequired := recs.any (·.changeRequired)
    restartRequired := recs.any fun r =>
      r.changeRequired && (r.applyMode = .env || r.applyMode = .queueModeEndpoint)
    activeQueueMode := inputs.snapshot.activeQueueMode
    recommendedQueueMode := recommendedMode inputs R
    handlerTimeoutSec := inputs.handlerTimeoutSec
    handlerTimeoutPressure := cadenceKeys.filterMap (timeoutPressure inputs) }

end Recommendations

section Adoption

variable (R : Runtime) (inputs : AdvisorInputs)

def recommendedNumber (state : AdvisorState) (key : AdvisorLeverKey) : ℕ :=
  match state.recommendations.find? (·.key = key) with
  | some r => r.recommended.toNumber
  | none => 0

def adopt (state : AdvisorState) : AdvisorInputs :=
  let value := recommendedNumber state
  { inputs with
    snapshot := { inputs.snapshot with maxConnections := value .PG_MAX_CONNECTIONS }
    currentEnv := {
      DATABASE_POOL_SIZE := value .DATABASE_POOL_SIZE
      POLARIS_PGBOSS_POOL_SIZE := value .POLARIS_PGBOSS_POOL_SIZE
      POLARIS_MONITOR_PROBE_WORKERS := value .POLARIS_MONITOR_PROBE_WORKERS
      POLARIS_MONITOR_FAST_WORKERS := value .POLARIS_MONITOR_FAST_WORKERS
      POLARIS_MONITOR_HEAVY_WORKERS := value .POLARIS_MONITOR_HEAVY_WORKERS
      POLARIS_MONITOR_FLOATING_WORKERS := value .POLARIS_MONITOR_FLOATING_WORKERS
      POLARIS_PROBE_CONCURRENCY := value .POLARIS_PROBE_CONCURRENCY
      POLARIS_HEAVY_CONCURRENCY := value .POLARIS_HEAVY_CONCURRENCY } }

/-- The levers of workers, pools and connections. -/
def AdvisorLeverKey.isSize : AdvisorLeverKey → Bool
  | QUEUE_MODE | PG_SHARED_BUFFERS | PG_EFFECTIVE_CACHE_SIZE | PG_WORK_MEM | PG_RANDOM_PAGE_COST => false
  | _ => true

/-- Once adopted the advice asks for no further change, and it never asks for
less than there is. -/
structure Settles : Prop where
  settled : ∀ r ∈ (buildAdvisorState R (adopt inputs (buildAdvisorState R inputs))).recommendations,
    r.key.isSize → r.changeRequired = false
  grows : ∀ r ∈ (buildAdvisorState R inputs).recommendations, r.changeRequired →
    ∀ c n, r.current = some (.number c) → r.recommended = .number n → c ≤ n

/-- Rounding the pools up moves the ceiling over no step. -/
def Tight : Prop :=
  (2 * max (roundUp (effectivePrismaPool inputs) 50 + roundUp (effectivePgbossPool inputs) 50)
    inputs.snapshot.peakObserved) ⌈/⌉ 65 =
  (2 * max (effectivePrismaPool inputs + effectivePgbossPool inputs) inputs.snapshot.peakObserved) ⌈/⌉ 65

variable {R inputs}

theorem roundUpToNearest_eq (value : ℕ) {multiple : ℕ} (hm : 0 < multiple) :
    roundUpToNearest value multiple = roundUp value multiple := by
  rw [roundUpToNearest, if_neg (Nat.pos_iff_ne_zero.mp hm), ceil_div _ _ hm, roundUp]

theorem recommendedMax_eq (inputs : AdvisorInputs) :
    recommendedMax inputs = ((2 * polarisFloor inputs) ⌈/⌉ 65) * 50 := by
  have hq : (polarisFloor inputs : ℚ) / polarisFractionOfMax / ((50 : ℕ) : ℚ) =
      ((2 * polarisFloor inputs : ℕ) : ℚ) / ((65 : ℕ) : ℚ) := by
    rw [polarisFractionOfMax]
    push_cast
    ring
  rw [recommendedMax, maxConnectionsRounding, roundUpToNearest_eq _ (by omega), roundUp_ceil _ (by omega), hq,
    ceil_div _ _ (by omega)]

theorem recommendedNumber_eq (R : Runtime) (inputs : AdvisorInputs) (key : AdvisorLeverKey) :
    recommendedNumber (buildAdvisorState R inputs) key = match key with
      | .DATABASE_POOL_SIZE => roundUp (effectivePrismaPool inputs) 50
      | .POLARIS_PGBOSS_POOL_SIZE => roundUp (effectivePgbossPool inputs) 50
      | .POLARIS_MONITOR_PROBE_WORKERS =>
        max (workersNeeded inputs .probe) inputs.currentEnv.POLARIS_MONITOR_PROBE_WORKERS
      | .POLARIS_MONITOR_FAST_WORKERS =>
        max (workersNeeded inputs .fastFiltered) inputs.currentEnv.POLARIS_MONITOR_FAST_WORKERS
      | .POLARIS_MONITOR_HEAVY_WORKERS =>
        max (max (workersNeeded inputs .telemetry) (workersNeeded inputs .systemInfo))
        inputs.currentEnv.POLARIS_MONITOR_HEAVY_WORKERS
      | .POLARIS_MONITOR_FLOATING_WORKERS =>
        max (floatingWorkers inputs) inputs.currentEnv.POLARIS_MONITOR_FLOATING_WORKERS
      | .POLARIS_PROBE_CONCURRENCY => max (workersNeeded inputs .probe + workersNeeded inputs .fastFiltered)
        inputs.currentEnv.POLARIS_PROBE_CONCURRENCY
      | .POLARIS_HEAVY_CONCURRENCY => max (workersNeeded inputs .telemetry + workersNeeded inputs .systemInfo)
        inputs.currentEnv.POLARIS_HEAVY_CONCURRENCY
      | .PG_MAX_CONNECTIONS => recommendedMax inputs
      | _ => 0 := by
  cases key <;>
    simp [recommendedNumber, buildAdvisorState, recommendations, queueModeRecommendation, pgbossWorkerLevers,
      pgbossLeverRecommendation, cursorWorkerLevers, cursorLeverRecommendation, prismaRecommendation,
      pgbossRecommendation, maxConnectionsRecommendation, tuningRecommendation, Value.toNumber, poolRounding,
      roundUpToNearest_eq, effectivePrismaPool, effectivePgbossPool, -Nat.max_assoc]

/-- No size is to be changed. -/
structure Adopted (inputs : AdvisorInputs) : Prop where
  workers : ∀ lever ∈ pgbossWorkerLevers inputs, lever.need ≤ lever.current
  probeConcurrency : workersNeeded inputs .probe + workersNeeded inputs .fastFiltered ≤
    inputs.currentEnv.POLARIS_PROBE_CONCURRENCY
  heavyConcurrency : workersNeeded inputs .telemetry + workersNeeded inputs .systemInfo ≤
    inputs.currentEnv.POLARIS_HEAVY_CONCURRENCY
  prisma : roundUp (effectivePrismaPool inputs) 50 ≤ inputs.currentEnv.DATABASE_POOL_SIZE
  pgboss : roundUp (effectivePgbossPool inputs) 50 ≤ inputs.currentEnv.POLARIS_PGBOSS_POOL_SIZE
  connections : inputs.snapshot.maxConnections = 0 ∨ recommendedMax inputs ≤ inputs.snapshot.maxConnections

theorem mem_recommendations {r : AdvisorRecommendation} (hr : r ∈ recommendations R inputs) :
    (r.key.isSize = false ∧ ∃ s, r.recommended = .text s) ∨
      (∃ lever ∈ pgbossWorkerLevers inputs, r = pgbossLeverRecommendation R inputs lever) ∨
      r ∈ cursorWorkerLevers R inputs ∨ r = prismaRecommendation inputs ∨ r = pgbossRecommendation R inputs ∨
      r = maxConnectionsRecommendation inputs := by
  simp only [recommendations, List.mem_append, List.mem_map, List.mem_cons, List.not_mem_nil, or_false] at hr
  obtain ((rfl | ⟨lever, hl, rfl⟩) | hc) | h := hr
  · exact .inl ⟨rfl, _, rfl⟩
  · exact .inr (.inl ⟨lever, hl, rfl⟩)
  · exact .inr (.inr (.inl hc))
  · obtain rfl | rfl | rfl | rfl | rfl | rfl | rfl := h
    · exact .inr (.inr (.inr (.inl rfl)))
    · exact .inr (.inr (.inr (.inr (.inl rfl))))
    · exact .inr (.inr (.inr (.inr (.inr rfl))))
    · exact .inl ⟨rfl, _, rfl⟩
    · exact .inl ⟨rfl, _, rfl⟩
    · exact .inl ⟨rfl, _, rfl⟩
    · exact .inl ⟨rfl, _, rfl⟩

theorem Adopted.unchanged (h : Adopted inputs) :
    ∀ r ∈ (buildAdvisorState R inputs).recommendations, r.key.isSize → r.changeRequired = false := by
  intro r hr hs
  obtain ⟨hnot, -⟩ | ⟨lever, hl, rfl⟩ | hc | rfl | rfl | rfl := mem_recommendations hr
  · rw [hnot] at hs
    cases hs
  · simpa [pgbossLeverRecommendation] using h.workers lever hl
  · rw [cursorWorkerLevers, List.mem_pair] at hc
    obtain rfl | rfl := hc
    · simpa [cursorLeverRecommendation] using h.probeConcurrency
    · simpa [cursorLeverRecommendation] using h.heavyConcurrency
  · simpa [prismaRecommendation, poolRounding, roundUpToNearest_eq, effectivePrismaPool] using h.prisma
  · simpa [pgbossRecommendation, poolRounding, roundUpToNearest_eq, effectivePgbossPool] using h.pgboss
  · obtain h0 | hle := h.connections
    · simp [maxConnectionsRecommendation, h0]
    · rw [maxConnectionsRecommendation]
      dsimp only
      split
      · rfl
      · simpa using hle

theorem connections_of_unchanged (hm : inputs.snapshot.maxConnections ≠ 0)
    (h : ∀ r ∈ (buildAdvisorState R inputs).recommendations, r.key.isSize → r.changeRequired = false) :
    recommendedMax inputs ≤ inputs.snapshot.maxConnections := by
  have hmem : maxConnectionsRecommendation inputs ∈ (buildAdvisorState R inputs).recommendations := by
    simp [buildAdvisorState, recommendations]
  have hr := h _ hmem rfl
  rw [maxConnectionsRecommendation] at hr
  dsimp only at hr
  rw [if_neg hm] at hr
  simpa using hr

/-- No recommendation is below what there is. -/
theorem recommended_ge {r : AdvisorRecommendation} (hr : r ∈ (buildAdvisorState R inputs).recommendations)
    (hchange : r.changeRequired) {c n : ℕ} (hc : r.current = some (.number c))
    (hn : r.recommended = .number n) :
    c ≤ n := by
  obtain ⟨-, s, htext⟩ | ⟨lever, hl, rfl⟩ | hmem | rfl | rfl | rfl := mem_recommendations hr
  · cases hn.symm.trans htext
  · cases hc
    cases hn
    exact le_max_right _ _
  · rw [cursorWorkerLevers, List.mem_pair] at hmem
    obtain rfl | rfl := hmem
    · cases hc
      cases hn
      exact le_max_right _ _
    · cases hc
      cases hn
      exact le_max_right _ _
  · cases hc
    cases hn
    rw [roundUpToNearest_eq _ (by decide)]
    exact (le_max_right _ _).trans (le_roundUp _ (by decide))
  · cases hc
    cases hn
    rw [roundUpToNearest_eq _ (by decide)]
    exact (le_max_right _ _).trans (le_roundUp _ (by decide))
  · cases hn
    rw [maxConnectionsRecommendation] at hc hchange
    dsimp only at hc hchange
    split at hc
    · cases hc
    · next hm =>
      cases hc
      rw [if_neg hm] at hchange
      exact (of_decide_eq_true hchange).le

theorem prismaTarget_le (inputs : AdvisorInputs) :
    prismaTarget inputs ≤ roundUp (effectivePrismaPool inputs) 50 :=
  (le_max_left _ _).trans (le_roundUp _ (by decide))

theorem pgbossTarget_le (inputs : AdvisorInputs) :
    pgbossTarget inputs ≤ roundUp (effectivePgbossPool inputs) 50 :=
  (le_max_left _ _).trans (le_roundUp _ (by decide))

theorem effectivePrismaPool_adopt : effectivePrismaPool (adopt inputs (buildAdvisorState R inputs)) =
    roundUp (effectivePrismaPool inputs) 50 := by
  have hsize : (adopt inputs (buildAdvisorState R inputs)).currentEnv.DATABASE_POOL_SIZE =
      roundUp (effectivePrismaPool inputs) 50 := recommendedNumber_eq R inputs .DATABASE_POOL_SIZE
  rw [effectivePrismaPool, hsize]
  exact max_eq_right (prismaTarget_le inputs)

theorem effectivePgbossPool_adopt : effectivePgbossPool (adopt inputs (buildAdvisorState R inputs)) =
    roundUp (effectivePgbossPool inputs) 50 := by
  have hsize : (adopt inputs (buildAdvisorState R inputs)).currentEnv.POLARIS_PGBOSS_POOL_SIZE =
      roundUp (effectivePgbossPool inputs) 50 := recommendedNumber_eq R inputs .POLARIS_PGBOSS_POOL_SIZE
  rw [effectivePgbossPool, hsize]
  exact max_eq_right (pgbossTarget_le inputs)

theorem polarisFloor_pos (inputs : AdvisorInputs) : 0 < polarisFloor inputs := by
  have hp : pgbossPoolTarget ≤ effectivePgbossPool inputs := (le_max_left _ _).trans (le_max_left _ _)
  have hneeded : effectivePgbossPool inputs ≤ polarisFloor inputs :=
    (Nat.le_add_left _ _).trans (le_max_left _ _)
  exact Nat.lt_of_lt_of_le (by decide) (hp.trans hneeded)

theorem recommendedMax_pos (inputs : AdvisorInputs) : recommendedMax inputs ≠ 0 := by
  rw [recommendedMax_eq]
  have hpos := polarisFloor_pos inputs
  have hle := (ceilDiv_le (n := 2 * polarisFloor inputs) (k := (2 * polarisFloor inputs) ⌈/⌉ 65) (m := 65)
    (by decide)).mp le_rfl
  omega

theorem recommendedMax_adopt : recommendedMax (adopt inputs (buildAdvisorState R inputs)) =
    ((2 * max (roundUp (effectivePrismaPool inputs) 50 + roundUp (effectivePgbossPool inputs) 50)
      inputs.snapshot.peakObserved) ⌈/⌉ 65) * 50 := by
  rw [recommendedMax_eq, polarisFloor, polarisNeeded, effectivePrismaPool_adopt, effectivePgbossPool_adopt]
  rfl

theorem workers_adopt {lever : WorkerLever}
    (hl : lever ∈ pgbossWorkerLevers (adopt inputs (buildAdvisorState R inputs))) :
    lever.need ≤ lever.current := by
  simp only [pgbossWorkerLevers, List.mem_cons, List.not_mem_nil, or_false] at hl
  obtain rfl | rfl | rfl | rfl := hl
  · exact (le_max_left _ _).trans_eq (recommendedNumber_eq R inputs .POLARIS_MONITOR_PROBE_WORKERS).symm
  · exact (le_max_left _ _).trans_eq (recommendedNumber_eq R inputs .POLARIS_MONITOR_FAST_WORKERS).symm
  · exact (le_max_left _ _).trans_eq (recommendedNumber_eq R inputs .POLARIS_MONITOR_HEAVY_WORKERS).symm
  · exact (le_max_left _ _).trans_eq (recommendedNumber_eq R inputs .POLARIS_MONITOR_FLOATING_WORKERS).symm

theorem adopted_adopt (h : Tight inputs) : Adopted (adopt inputs (buildAdvisorState R inputs)) where
  workers _ hl := workers_adopt hl
  probeConcurrency := (le_max_left _ _).trans_eq
    (recommendedNumber_eq R inputs .POLARIS_PROBE_CONCURRENCY).symm
  heavyConcurrency := (le_max_left _ _).trans_eq
    (recommendedNumber_eq R inputs .POLARIS_HEAVY_CONCURRENCY).symm
  prisma := by
    rw [effectivePrismaPool_adopt, roundUp_roundUp _ (by decide)]
    exact (recommendedNumber_eq R inputs .DATABASE_POOL_SIZE).ge
  pgboss := by
    rw [effectivePgbossPool_adopt, roundUp_roundUp _ (by decide)]
    exact (recommendedNumber_eq R inputs .POLARIS_PGBOSS_POOL_SIZE).ge
  connections := by
    right
    have hmax : (adopt inputs (buildAdvisorState R inputs)).snapshot.maxConnections = recommendedMax inputs :=
      recommendedNumber_eq R inputs .PG_MAX_CONNECTIONS
    rw [hmax, recommendedMax_adopt, recommendedMax_eq, show _ ⌈/⌉ 65 = _ from h]
    exact le_rfl

theorem Settles.tight (h : Settles R inputs) : Tight inputs := by
  have hmax : (adopt inputs (buildAdvisorState R inputs)).snapshot.maxConnections = recommendedMax inputs :=
    recommendedNumber_eq R inputs .PG_MAX_CONNECTIONS
  have hle := connections_of_unchanged (by rw [hmax]; exact recommendedMax_pos inputs) h.settled
  rw [hmax, recommendedMax_adopt, recommendedMax_eq] at hle
  refine Nat.le_antisymm (Nat.le_of_mul_le_mul_right hle (by decide)) (ceilDiv_mono 65 ?_)
  refine Nat.mul_le_mul_left 2 (max_le_max (Nat.add_le_add ?_ ?_) le_rfl)
  · exact le_roundUp _ (by decide)
  · exact le_roundUp _ (by decide)

/-- Following the advice settles exactly where rounding the pools up needs no
larger ceiling. -/
theorem settles_iff_tight (R : Runtime) (inputs : AdvisorInputs) : Settles R inputs ↔ Tight inputs :=
  ⟨Settles.tight, fun h =>
    ⟨(adopted_adopt h).unchanged, fun _ hr hchange _ _ hc hn => recommended_ge hr hchange hc hn⟩⟩

end Adoption

section Ceiling

variable (inputs : AdvisorInputs)

theorem perCadenceFloor_ge : 4 ≤ perCadenceFloor inputs :=
  le_min (by decide) (le_max_left _ _)

theorem workersNeeded_ge (c : CadenceKey) : 4 ≤ workersNeeded inputs c :=
  (perCadenceFloor_ge inputs).trans (le_max_right _ _)

theorem floatingWorkers_ge : 4 ≤ floatingWorkers inputs :=
  (le_min (by decide) (le_max_left _ _)).trans (le_max_left _ _)

theorem workerCeiling_ge : 20 ≤ workerCeiling inputs := by
  have hp := workersNeeded_ge inputs .probe
  have hf := workersNeeded_ge inputs .fastFiltered
  have ht := workersNeeded_ge inputs .telemetry
  have hs := workersNeeded_ge inputs .systemInfo
  have hfloating := floatingWorkers_ge inputs
  have hsum : sumWorkersNeeded inputs = 0 + workersNeeded inputs .probe + workersNeeded inputs .fastFiltered +
      workersNeeded inputs .telemetry + workersNeeded inputs .systemInfo := rfl
  rw [workerCeiling, hsum]
  omega

theorem effectivePrismaPool_ge : 35 ≤ effectivePrismaPool inputs := by
  have hceiling := workerCeiling_ge inputs
  have hmodel : 35 ≤ modeledPrismaTarget inputs := by
    rw [modeledPrismaTarget, httpJobOverhead]
    omega
  exact hmodel.trans ((le_max_left _ _).trans (le_max_left _ _))

theorem effectivePgbossPool_ge : 20 ≤ effectivePgbossPool inputs := (le_max_left _ _).trans (le_max_left _ _)

theorem roundUp_add_le {a b n : ℕ} (ha : 35 ≤ a) (hb : 20 ≤ b) (hn : a + b ≤ n) :
    roundUp a 50 + roundUp b 50 ≤ ((2 * n) ⌈/⌉ 65) * 50 := by
  rw [roundUp, roundUp, ← Nat.add_mul]
  refine Nat.mul_le_mul_right 50 ?_
  have hx : a ⌈/⌉ 50 = (a + 49) / 50 := Nat.ceilDiv_eq_add_pred_div a 50
  have hy : b ⌈/⌉ 50 = (b + 49) / 50 := Nat.ceilDiv_eq_add_pred_div b 50
  have hz : (2 * n) ⌈/⌉ 65 = (2 * n + 64) / 65 := Nat.ceilDiv_eq_add_pred_div (2 * n) 65
  rw [hx, hy, hz, Nat.le_div_iff_mul_le (by decide)]
  generalize hgx : (a + 49) / 50 = x
  generalize hgy : (b + 49) / 50 = y
  -- from four steps on the rounding is within the slack, below that the least sizes decide
  by_cases hfour : 4 ≤ x + y
  · omega
  · obtain rfl | rfl | rfl : x = 1 ∨ x = 2 ∨ x = 3 := by omega
    · omega
    · omega
    · omega

/-- The advised pools together stay within the advised connections. -/
theorem advised_pools_fit (R : Runtime) : recommendedNumber (buildAdvisorState R inputs) .DATABASE_POOL_SIZE +
    recommendedNumber (buildAdvisorState R inputs) .POLARIS_PGBOSS_POOL_SIZE ≤
      recommendedNumber (buildAdvisorState R inputs) .PG_MAX_CONNECTIONS := by
  rw [recommendedNumber_eq, recommendedNumber_eq, recommendedNumber_eq]
  dsimp only
  rw [recommendedMax_eq]
  exact roundUp_add_le (effectivePrismaPool_ge inputs) (effectivePgbossPool_ge inputs) (le_max_left _ _)

end Ceiling

section TinyInstall

def quietCadence : CadenceObservation := ⟨0, none, none, true⟩

/-- Six monitored assets on a fresh install. -/
def tinyInstall : AdvisorInputs where
  snapshot := ⟨6, 10, 100, .cursor⟩
  integrations := ⟨0, 0, 0, 0, 0, 0⟩
  cadence _ := quietCadence
  cadenceIntervals _ := 60
  handlerTimeoutSec _ := none
  applicable _ := 6
  currentEnv := ⟨20, 20, 24, 24, 24, 32, 32, 16⟩
  pgTuning := ⟨⟨none, "128MB", false⟩, ⟨none, "256MB", false⟩, ⟨none, "32MB", false⟩, ⟨none, "1.1", false⟩⟩

def plainRuntime : Runtime := ⟨fun _ => "", fun _ _ => "", true⟩

theorem tiny_pools : effectivePrismaPool tinyInstall = 35 ∧ effectivePgbossPool tinyInstall = 20 := by
  decide +kernel

/-- Both pools are rounded up to 50, and then the ceiling of 100 does no more. -/
theorem tiny_asks_again : recommendedMax tinyInstall = 100 ∧
    recommendedMax (adopt tinyInstall (buildAdvisorState plainRuntime tinyInstall)) = 200 ∧
    ¬ Settles plainRuntime tinyInstall := by
  obtain ⟨hprisma, hpgboss⟩ := tiny_pools
  have hpeak : tinyInstall.snapshot.peakObserved = 10 := rfl
  refine ⟨?_, ?_, fun h => ?_⟩
  · rw [recommendedMax_eq, polarisFloor, polarisNeeded, hprisma, hpgboss, hpeak]
    decide
  · rw [recommendedMax_adopt, hprisma, hpgboss, hpeak]
    decide
  · have ht := h.tight
    rw [Tight, hprisma, hpgboss, hpeak] at ht
    revert ht
    decide

end TinyInstall

end Polaris.CapacityAdvisor
