import Polaris.MonitorSettings
import Polaris.MonitorStatus

namespace Polaris.MonitorReports

open Polaris.AgentEtags (AssetSourceKind PollingMethod assetSourceKindFromIntegrationType
  defaultPollingForSource
  isPollingMethod isPollingMethodCompatible)
open Polaris.MonitorSettings
open Polaris.MonitorStatus
open Polaris.SettingsMigration (Json)

section Data

/-- Where a result of a response-time probe comes from. -/
inductive Caller
  | pass | probeNow | agent
  deriving DecidableEq

/-- A result on its way to the status of the asset. The outcome is what the
network has answered, or what the agent has measured. -/
structure Report where
  caller : Caller
  now : Nat
  db : Db
  asset : AssetMonitorContext
  monitored : Bool
  took : Nat
  outcome : ProbeResult

/-- The columns that are read again where no row is handed over. -/
def selected (asset : AssetMonitorContext) : AssetMonitorContext where
  assetType := asset.assetType
  discoveredByIntegrationId := asset.discoveredByIntegrationId
  num s :=
    match s with
    | .intervalSeconds | .cpuMemoryIntervalSeconds | .temperatureIntervalSeconds | .systemInfoIntervalSeconds
    | .probeTimeoutMs => asset.num s
    | _ => none

/-- The row that the probe has loaded. The type of its integration is not
among its columns. -/
def snapshot (asset : AssetMonitorContext) : AssetMonitorContext :=
  { asset with discoveredByIntegrationType := none }

def Report.context (r : Report) : AssetMonitorContext :=
  match r.caller with
  | .pass => snapshot r.asset
  | .probeNow | .agent => selected r.asset

end Data

section Reports

variable (Number : Json → Option Rat)

def probeAsset (r : Report) : ProbeResult :=
  if r.monitored = false then ⟨false, r.took, some "Monitoring disabled"⟩
  else
    match (resolveMonitorSettings Number r.db r.asset).polling .responseTime with
    | none => ⟨false, r.took, some "No response-time polling method configured"⟩
    | some .agent => ⟨true, r.took, none⟩
    | some _ => r.outcome

def Report.result (r : Report) : ProbeResult :=
  match r.caller with
  | .pass | .probeNow => probeAsset Number r
  | .agent => r.outcome

def recordProbeResult (now : Nat) (db : Db) (context : AssetMonitorContext) (result : ProbeResult)
    (fromAgent : Bool)
    (asset : Monitored) : Monitored :=
  let effective := resolveMonitorSettings Number db context
  if effective.polling .responseTime = some .agent ∧ fromAgent = false then asset
  else persist (effective.num .failureThreshold) now result asset

/-- The samples route stores what the agent has measured before it is
recorded. -/
def received (r : Report) (asset : Monitored) : Monitored :=
  if r.caller = .agent then { asset with samples := asset.samples ++ [sampleOf r.now r.outcome] } else asset

def report (asset : Monitored) (r : Report) : Monitored :=
  recordProbeResult Number r.now r.db r.context (r.result Number) (r.caller = .agent) (received r asset)

end Reports

section Truth

variable (Number : Json → Option Rat)

/-- The probe has made the result up. -/
def synthetic (r : Report) : Prop :=
  r.caller ≠ .agent ∧ r.monitored = true ∧
    (resolveMonitorSettings Number r.db r.asset).polling .responseTime = some .agent

instance (r : Report) : Decidable (synthetic Number r) := inferInstanceAs (Decidable (_ ∧ _ ∧ _))

/-- What would be recorded if every result counted but those made up. -/
def genuine (asset : Monitored) (r : Report) : Monitored :=
  if synthetic Number r then received r asset
  else persist ((resolveMonitorSettings Number r.db r.asset).num .failureThreshold) r.now
    (r.result Number) (received r asset)

def namedAbove (r : Report) : List PollingMethod :=
  [(classTier r.db r.asset).bind (·.polling .responseTime),
    (tier3 Number r.db r.asset).polling .responseTime].reduceOption

def named (r : Report) : List PollingMethod :=
  ((r.asset.polling .responseTime).bind isPollingMethod).toList ++ namedAbove Number r

def sourceKind (r : Report) : AssetSourceKind :=
  assetSourceKindFromIntegrationType r.asset.discoveredByIntegrationType

/-- The method that the guard goes by: the first one named, admitted or not,
and where no row is handed over, the first named above the asset. -/
def seen (r : Report) : Option PollingMethod :=
  match r.caller with
  | .pass => (named Number r).head?
  | .probeNow | .agent => (namedAbove Number r).head?

/-- The guard sees an agent just where the probe has made the result up. -/
def Guarded (r : Report) : Prop :=
  r.caller ≠ .agent → (seen Number r = some .agent ↔
    r.monitored = true ∧ (named Number r).find? (isPollingMethodCompatible (sourceKind r)) = some .agent)

end Truth

section Runs

variable {Number : Json → Option Rat} {r : Report}

theorem filter_or_find? {p : PollingMethod → Bool} (a : Option PollingMethod) (ms : List PollingMethod) :
    (a.filter p).or (ms.find? p) = (a.toList ++ ms).find? p := by
  cases a with
  | none => rfl
  | some m => cases hm : p m <;> simp [hm, Option.filter_some]

/-- The method in use is the first one named that the source admits. -/
theorem polling_responseTime (db : Db) (asset : AssetMonitorContext) :
    (resolveMonitorSettings Number db asset).polling .responseTime =
      ((((asset.polling .responseTime).bind isPollingMethod).toList ++
        [(classTier db asset).bind (·.polling .responseTime),
          (tier3 Number db asset).polling .responseTime].reduceOption).find?
        (isPollingMethodCompatible (assetSourceKindFromIntegrationType asset.discoveredByIntegrationType))).or
      (defaultPollingForSource (assetSourceKindFromIntegrationType asset.discoveredByIntegrationType)
        .responseTime) := by
  have hlist : ∀ a b : Option PollingMethod, [a, b].reduceOption = a.toList ++ (b.toList ++ []) := by
    intro a b
    cases a <;> cases b <;> rfl
  rw [resolveMonitorSettings]
  dsimp only
  rw [resolveStream_eq, assetPolling, hlist, ← filter_or_find?, ← filter_or_find?, ← filter_or_find?,
    List.find?_nil,
    Option.or_none, Option.or_assoc, Option.or_assoc]

theorem default_ne_agent (source : AssetSourceKind) :
    defaultPollingForSource source .responseTime ≠ some .agent := by
  cases source <;> exact fun h => by cases h

theorem or_default_eq_agent {source : AssetSourceKind} {a : Option PollingMethod} :
    a.or (defaultPollingForSource source .responseTime) = some .agent ↔ a = some .agent := by
  cases a with
  | none => exact iff_of_false (default_ne_agent source) fun h => by cases h
  | some m => rfl

theorem find?_manual (ms : List PollingMethod) : ms.find? (isPollingMethodCompatible .manual) = ms.head? := by
  cases ms with
  | nil => rfl
  | cons m ms => exact List.find?_cons_of_pos (by cases m <;> rfl)

theorem synthetic_iff : synthetic Number r ↔ r.caller ≠ .agent ∧ r.monitored = true ∧
    (named Number r).find? (isPollingMethodCompatible (sourceKind r)) = some .agent := by
  rw [synthetic, polling_responseTime, or_default_eq_agent]
  rfl

theorem guard_iff : (resolveMonitorSettings Number r.db r.context).polling .responseTime = some .agent ↔
    seen Number r = some .agent := by
  rw [polling_responseTime, or_default_eq_agent, Report.context, seen]
  cases r.caller with
  | pass => exact iff_of_eq (congrArg (· = some PollingMethod.agent) (find?_manual _))
  | probeNow => exact iff_of_eq (congrArg (· = some PollingMethod.agent) (find?_manual _))
  | agent => exact iff_of_eq (congrArg (· = some PollingMethod.agent) (find?_manual _))

theorem threshold_context : (resolveMonitorSettings Number r.db r.context).num .failureThreshold =
    (resolveMonitorSettings Number r.db r.asset).num .failureThreshold := by
  rw [Report.context]
  cases r.caller <;> rfl

theorem persist_ne (threshold now : Nat) (result : ProbeResult) (asset : Monitored) :
    persist threshold now result asset ≠ asset := by
  intro h
  have hlength := congrArg (fun a => a.samples.length) h
  simp [persist] at hlength

theorem ite_eq_ite_iff {α : Type} {p q : Prop} [Decidable p] [Decidable q] {a b : α} (h : a ≠ b) :
    (if p then a else b) = (if q then a else b) ↔ (p ↔ q) := by
  by_cases hp : p <;> by_cases hq : q <;> simp [hp, hq, h, h.symm]

theorem report_eq_iff (asset : Monitored) : report Number asset r = genuine Number asset r ↔
    Guarded Number r := by
  rw [report, recordProbeResult, genuine, Guarded]
  rw [threshold_context, if_congr (and_congr_left' guard_iff) rfl rfl, if_congr synthetic_iff rfl rfl]
  by_cases hagent : r.caller = .agent
  · rw [if_neg fun h => Bool.false_ne_true (h.2.symm.trans (decide_eq_true hagent)),
      if_neg fun h => h.1 hagent]
    exact iff_of_true rfl fun h => absurd hagent h
  · have hfrom : decide (r.caller = .agent) = false := decide_eq_false hagent
    have hreceived : received r asset = asset := if_neg hagent
    rw [hreceived, if_congr (and_iff_left hfrom) rfl rfl, if_congr (and_iff_right hagent) rfl rfl]
    rw [ite_eq_ite_iff (persist_ne _ _ _ _).symm]
    exact ⟨fun h _ => h, fun h => h hagent⟩

theorem foldl_take_eq_iff {σ ε : Type} {f g : σ → ε → σ} {P : ε → Prop} (hstep : ∀ s e, f s e = g s e ↔ P e)
    (s : σ) (es : List ε) :
    (∀ n, (es.take n).foldl f s = (es.take n).foldl g s) ↔ ∀ e ∈ es, P e := by
  induction es generalizing s with
  | nil => exact iff_of_true (fun n => by rw [List.take_nil]; rfl) (List.forall_mem_nil _)
  | cons e es ih =>
    rw [List.forall_mem_cons]
    constructor
    · intro h
      have hfirst : f s e = g s e := h 1
      refine ⟨(hstep s e).mp hfirst, (ih (f s e)).mp fun n => ?_⟩
      have hnext := h (n + 1)
      rwa [List.take_succ_cons, List.foldl_cons, List.foldl_cons, ← hfirst] at hnext
    · rintro ⟨he, hes⟩ n
      cases n with
      | zero => rfl
      | succ n =>
        rw [List.take_succ_cons, List.foldl_cons, List.foldl_cons, ← (hstep s e).mpr he]
        exact (ih (f s e)).mpr hes n

/-- At every point of a run the columns, the samples and the events are what
they would be without the results that a probe has made up, just where the
guard sees an agent for those results and for no others. -/
theorem reports_genuine_iff (asset : Monitored) (reports : List Report) :
    (∀ n, (reports.take n).foldl (report Number) asset = (reports.take n).foldl (genuine Number) asset) ↔
      ∀ r ∈ reports, Guarded Number r :=
  foldl_take_eq_iff (fun asset r => report_eq_iff (r := r) asset) asset reports

end Runs

end Polaris.MonitorReports
