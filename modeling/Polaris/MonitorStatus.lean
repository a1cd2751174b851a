import Polaris.Lib.Streaks
import Polaris.Reservations

namespace Polaris.MonitorStatus

open Polaris.Lib.Streaks
open Polaris.Reservations (MonitorStatus)

section Data

structure ProbeResult where
  success : Bool
  responseTimeMs : Nat
  error : Option String := none
  deriving DecidableEq

structure MonitorSample where
  timestamp : Nat
  success : Bool
  responseTimeMs : Option Nat
  error : Option String
  deriving DecidableEq

/-- The `monitor.status_changed` event. -/
structure StatusChanged where
  timestamp : Nat
  previousStatus : MonitorStatus
  nextStatus : MonitorStatus
  responseTimeMs : Option Nat
  error : Option String
  consecutiveFailures : Nat
  consecutiveSuccesses : Nat
  deriving DecidableEq

structure Monitored where
  monitorStatus : Option MonitorStatus := none
  lastMonitorAt : Option Nat := none
  lastResponseTimeMs : Option Nat := none
  consecutiveFailures : Nat := 0
  consecutiveSuccesses : Nat := 0
  monitorStatusChangedAt : Option Nat := none
  samples : List MonitorSample := []
  events : List StatusChanged := []
  deriving DecidableEq

end Data

section Machine

/-- The five-state machine. -/
def nextStatus (threshold : Nat) (previousStatus : MonitorStatus) (success : Bool) (newCf newCs : Nat) :
    MonitorStatus :=
  if success then
    match previousStatus with
    | .up => .up
    | .warning | .recovering => if threshold ≤ newCs then .up else previousStatus
    | .unknown | .down => if threshold ≤ newCs then .up else .recovering
  else if threshold ≤ newCf then .down
  else
    match previousStatus with
    | .up | .unknown => .warning
    | .warning | .recovering | .down => previousStatus

def sampleOf (now : Nat) (result : ProbeResult) : MonitorSample where
  timestamp := now
  success := result.success
  responseTimeMs := if result.success then some result.responseTimeMs else none
  error := if result.success then none else result.error

def persist (threshold now : Nat) (result : ProbeResult) (asset : Monitored) : Monitored :=
  let previousStatus := asset.monitorStatus.getD .unknown
  let newCf := if result.success then 0 else asset.consecutiveFailures + 1
  let newCs := if result.success then asset.consecutiveSuccesses + 1 else 0
  let next := nextStatus threshold previousStatus result.success newCf newCs
  { monitorStatus := some next
    lastMonitorAt := some now
    lastResponseTimeMs := if result.success then some result.responseTimeMs else none
    consecutiveFailures := newCf
    consecutiveSuccesses := newCs
    monitorStatusChangedAt := if previousStatus ≠ next then some now else asset.monitorStatusChangedAt
    samples := asset.samples ++ [sampleOf now result]
    events :=
      if previousStatus ≠ next ∧ (next = .up ∨ next = .down) then
        asset.events ++ [{ timestamp := now, previousStatus, nextStatus := next
                           responseTimeMs := if result.success then some result.responseTimeMs else none
                           error := result.error, consecutiveFailures := newCf, consecutiveSuccesses :=
                             newCs }]
      else asset.events }

end Machine

section Windows

/-- A probe of an asset and the time it is recorded at. -/
structure Probe where
  now : Nat
  result : ProbeResult

def outcomes (probes : List Probe) : List Bool := probes.map (·.result.success)

theorem outcomes_cons (p : Probe) (older : List Probe) : outcomes (p :: older) = p.result.success ::
    outcomes older := rfl

/-- What the status says of the outcomes: up or down once there are so many of
one kind in a row, and from then until the other kind has as many a warning or
a recovery. -/
def statusOf (threshold : Nat) (h : List Bool) : MonitorStatus :=
  match h with
  | [] => .unknown
  | b :: _ =>
    if threshold ≤ lead b h then if b then .up else .down
    else
      match verdict threshold h with
      | some true => .warning
      | some false => .recovering
      | none => if h.getLast? = some true then .recovering else .warning

/-- The events of the probes, the newest first: one where a window of equal
outcomes is full. -/
def alertsOf (threshold : Nat) : List Probe → List StatusChanged
  | [] => []
  | p :: older =>
    let h := outcomes (p :: older)
    if lead p.result.success h = max threshold 1 then
      { timestamp := p.now, previousStatus := statusOf threshold (outcomes older),
        nextStatus := statusOf threshold h
        responseTimeMs := if p.result.success then some p.result.responseTimeMs else none
        error := p.result.error, consecutiveFailures := lead false h, consecutiveSuccesses := lead true h } ::
        alertsOf threshold older
    else alertsOf threshold older

def recordAll (threshold : Nat) (probes : List Probe) (asset : Monitored) : Monitored :=
  probes.foldl (fun asset p => persist threshold p.now p.result asset) asset

variable {threshold : Nat} {h : List Bool} {b : Bool}

theorem statusOf_open (hopen : ¬threshold ≤ lead b (b :: h)) :
    statusOf threshold (b :: h) = .warning ∨ statusOf threshold (b :: h) = .recovering := by
  rw [statusOf, if_neg hopen]
  split
  · exact .inl rfl
  · exact .inr rfl
  · split
    · exact .inr rfl
    · exact .inl rfl

theorem statusOf_full (hfull : threshold ≤ lead b (b :: h)) :
    statusOf threshold (b :: h) = if b then .up else .down := by
  rw [statusOf, if_pos hfull]

theorem confirmed_iff :
    (statusOf threshold h = if b then .up else .down) ↔ 1 ≤ lead b h ∧ threshold ≤ lead b h := by
  cases h with
  | nil => cases b <;> simp [statusOf]
  | cons c h =>
    by_cases hfull : threshold ≤ lead c (c :: h)
    · rw [statusOf_full hfull]
      by_cases hcb : c = b
      · subst hcb
        exact iff_of_true rfl ⟨by rw [lead_cons_self]; omega, hfull⟩
      · rw [lead_cons_ne hcb]
        cases b <;> cases c <;> simp at hcb ⊢
    · have hne : ∀ b : Bool, statusOf threshold (c :: h) ≠ if b then .up else .down := by
        intro b
        rcases statusOf_open hfull with hst | hst <;> rw [hst] <;> cases b <;> exact fun hx => by cases hx
      refine iff_of_false (hne b) fun ⟨hpos, hle⟩ => ?_
      by_cases hcb : c = b
      · exact hfull (hcb ▸ hle)
      · rw [lead_cons_ne hcb] at hpos
        omega

/-- Before a window is full again, the status is the one before, a warning or
a recovery. -/
theorem statusOf_cons_open {c : Bool} (hopen : ¬threshold ≤ lead b (b :: c :: h))
    (hbefore : ¬threshold ≤ lead c (c :: h)) :
    statusOf threshold (b :: c :: h) = statusOf threshold (c :: h) := by
  rw [statusOf, if_neg hopen, verdict_cons_of_lt (Nat.not_le.mp hopen), statusOf, if_neg hbefore,
    List.getLast?_cons_cons]

theorem nextStatus_full {previousStatus : MonitorStatus} {newCf newCs : Nat}
    (hfull : threshold ≤ if b then newCs else newCf) :
    nextStatus threshold previousStatus b newCf newCs = if b then .up else .down := by
  cases b with
  | true =>
    cases previousStatus <;> simp only [nextStatus, if_true, if_pos (show threshold ≤ newCs from hfull)]
  | false => exact if_pos hfull

theorem nextStatus_open {previousStatus : MonitorStatus} {newCf newCs : Nat}
    (hopen : ¬threshold ≤ if b then newCs else newCf) :
    nextStatus threshold previousStatus b newCf newCs =
      if previousStatus = .warning ∨ previousStatus = .recovering then previousStatus
      else if b then if previousStatus = .up then .up else .recovering
      else if previousStatus = .down then .down else .warning := by
  cases b with
  | true =>
    have hcs : ¬threshold ≤ newCs := hopen
    cases previousStatus <;> simp [nextStatus, hcs]
  | false =>
    have hcf : ¬threshold ≤ newCf := hopen
    cases previousStatus <;> simp [nextStatus, hcf]

theorem nextStatus_statusOf : nextStatus threshold (statusOf threshold h) b (lead false (b :: h))
    (lead true (b :: h)) =
    statusOf threshold (b :: h) := by
  have hself : (if b then lead true (b :: h) else lead false (b :: h)) = lead b (b :: h) := by cases b <;> rfl
  by_cases hfull : threshold ≤ lead b (b :: h)
  · rw [statusOf_full hfull, nextStatus_full (hself ▸ hfull)]
  · rw [nextStatus_open (hself ▸ hfull)]
    cases h with
    | nil =>
      rw [lead_cons_self, lead_nil, Nat.zero_add] at hfull
      cases b <;> simp [statusOf, verdict, hfull]
    | cons c h =>
      by_cases hbefore : threshold ≤ lead c (c :: h)
      · have hcb : c ≠ b := by
          rintro rfl
          rw [lead_cons_self] at hfull
          omega
        rw [statusOf_full hbefore, statusOf, if_neg hfull, verdict_cons_of_lt (Nat.not_le.mp hfull),
          verdict_cons_of_le hbefore]
        cases b <;> cases c <;> simp at hcb ⊢
      · rw [statusOf_cons_open hfull hbefore, if_pos (statusOf_open hbefore)]

theorem alert_iff : (statusOf threshold h ≠ statusOf threshold (b :: h) ∧
    (statusOf threshold (b :: h) = .up ∨ statusOf threshold (b :: h) = .down)) ↔
      lead b (b :: h) = max threshold 1 := by
  have hself : lead b (b :: h) = lead b h + 1 := lead_cons_self
  by_cases hfull : threshold ≤ lead b (b :: h)
  · have hside : (if b then MonitorStatus.up else .down) = .up ∨
      (if b then MonitorStatus.up else .down) = .down := by
      cases b
      · exact .inr rfl
      · exact .inl rfl
    rw [statusOf_full hfull, and_iff_left hside, ne_eq, confirmed_iff]
    omega
  · have hquiet : ¬(statusOf threshold (b :: h) = .up ∨ statusOf threshold (b :: h) = .down) := by
      rcases statusOf_open hfull with hst | hst <;> rw [hst] <;> simp
    refine iff_of_false (fun hx => hquiet hx.2) ?_
    omega

/-- What the stored columns have to do with the probes so far. -/
structure Follows (threshold : Nat) (older : List Probe) (asset : Monitored) : Prop where
  status : asset.monitorStatus.getD .unknown = statusOf threshold (outcomes older)
  failures : asset.consecutiveFailures = lead false (outcomes older)
  successes : asset.consecutiveSuccesses = lead true (outcomes older)
  events : asset.events = (alertsOf threshold older).reverse

theorem Follows.persist {older : List Probe} {asset : Monitored} (hf : Follows threshold older asset)
    (p : Probe) :
    Follows threshold (p :: older) (persist threshold p.now p.result asset) := by
  have hcf : (if p.result.success then 0 else asset.consecutiveFailures + 1) = lead false
    (outcomes (p :: older)) := by
    rw [hf.failures, outcomes_cons, lead_cons]
    cases p.result.success <;> rfl
  have hcs : (if p.result.success then asset.consecutiveSuccesses + 1 else 0) = lead true
    (outcomes (p :: older)) := by
    rw [hf.successes, outcomes_cons, lead_cons]
  have hnext : nextStatus threshold (asset.monitorStatus.getD .unknown) p.result.success
      (if p.result.success then 0 else asset.consecutiveFailures + 1)
      (if p.result.success then asset.consecutiveSuccesses + 1 else 0) = statusOf threshold (outcomes (p ::
        older)) := by
    rw [hcf, hcs, hf.status]
    exact nextStatus_statusOf
  have hiff : (statusOf threshold (outcomes older) ≠ statusOf threshold (outcomes (p :: older)) ∧
      (statusOf threshold (outcomes (p :: older)) = .up ∨
        statusOf threshold (outcomes (p :: older)) = .down)) ↔
      lead p.result.success (outcomes (p :: older)) = max threshold 1 := alert_iff
  refine ⟨hnext, hcf, hcs, ?_⟩
  rw [MonitorStatus.persist]
  dsimp only
  rw [hnext, hcf, hcs, hf.status, hf.events, alertsOf]
  by_cases halert : lead p.result.success (outcomes (p :: older)) = max threshold 1
  · rw [if_pos (hiff.mpr halert), if_pos halert, List.reverse_cons]
  · rw [if_neg fun hx => halert (hiff.mp hx), if_neg halert]

/-- After any probes of a new asset, with one threshold throughout: the status
and the counters are what the last outcomes say, and an event was logged each
time that so many equal outcomes had come in a row, and at no other time. -/
theorem status_follows_outcomes (threshold : Nat) (probes : List Probe) :
    Follows threshold probes.reverse (recordAll threshold probes {}) := by
  have hrun : ∀ (probes older : List Probe) (asset : Monitored), Follows threshold older asset →
      Follows threshold (probes.reverse ++ older) (recordAll threshold probes asset) := by
    intro probes
    induction probes with
    | nil => exact fun _ _ hf => hf
    | cons p probes ih =>
      intro older asset hf
      have hstep := ih (p :: older) _ (hf.persist p)
      rwa [List.reverse_cons, List.append_assoc]
  have hall := hrun probes [] {} ⟨rfl, rfl, rfl, rfl⟩
  rwa [List.append_nil] at hall

end Windows

end Polaris.MonitorStatus
