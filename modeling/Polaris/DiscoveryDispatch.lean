import Mathlib.Data.List.Basic
import Mathlib.Data.List.Infix
import Mathlib.Data.List.Nodup
import Mathlib.Data.List.Perm.Basic
import Mathlib.Data.List.Sort
import Mathlib.Logic.Function.Basic

namespace Polaris.DiscoveryDispatch

section Setup

structure RawDevice where
  name : String := ""
  hostname : String := ""
  connStatus : Option Nat := none
  deriving DecidableEq

def RawDevice.label (d : RawDevice) : String := if d.name ≠ "" then d.name else d.hostname

def RawDevice.isConnected (d : RawDevice) : Bool := d.connStatus = none || d.connStatus = some 1

structure Roster where
  devices : List RawDevice
  named : ∀ d ∈ devices, d.label ≠ ""
  distinct : (devices.map RawDevice.label).Nodup

/-- The management addresses of the gateways that were up at the start. -/
structure WarmCache where
  ips : List (String × String)
  distinct : (ips.map Prod.fst).Nodup

structure Setup where
  roster : Roster
  warmCacheIps : WarmCache
  useProxy : Bool
  discoveryParallelism : Option Int := none
  before : String → String → Bool

variable (c : Setup)

def Setup.concurrency : Nat := if c.useProxy then 1 else (max 1 (c.discoveryParallelism.getD 5)).toNat

def Setup.devicesByName (n : String) : Option RawDevice := c.roster.devices.reverse.find? (·.label = n)

def Setup.warmDispatched : List String :=
  if c.useProxy then [] else (c.warmCacheIps.ips.map Prod.fst).filter fun n => (c.devicesByName n).isSome

def Setup.sortDevicesByName (devices : List RawDevice) : List RawDevice :=
  devices.mergeSort fun a b => c.before a.label b.label

def Setup.warmTargets : List RawDevice := c.warmDispatched.filterMap c.devicesByName

def Setup.verifyTargets : List RawDevice :=
  if c.useProxy then c.sortDevicesByName c.roster.devices
  else c.sortDevicesByName (c.roster.devices.filter (·.label ∉ c.warmDispatched))

end Setup

section Machine

inductive Producer
  | warm | verify
  deriving DecidableEq

/-- Where a producer stands: at the top of its loop, at an await inside it,
or at its end. A race is over the tasks that ran when it began. -/
inductive Stage
  | loop (rest : List RawDevice)
  | resolving (d : RawDevice) (rest : List RawDevice)
  | racing (d : RawDevice) (rest : List RawDevice) (tasks : List RawDevice)
  | finished
  deriving DecidableEq

inductive Main
  | producing
  | draining (tasks : List RawDevice)
  | returned
  deriving DecidableEq

/-- A run of the discovery, with a note of the tasks in the order they were
started. -/
structure State where
  aborted : Bool := false
  executing : List RawDevice := []
  started : List RawDevice := []
  mgmtIpByDevice : List (String × String) := []
  stage : Producer → Stage
  main : Main := .producing

inductive Event
  | abort
  | complete (d : RawDevice)
  | advance (p : Producer) (resolved : Except String (Option String))
  | main

variable (c : Setup) (s : State) (p : Producer)

def State.goto (stage : Stage) : State := { s with stage := Function.update s.stage p stage }

/-- The part of `dispatchDevice` from one await to the next. -/
def dispatchDevice (d : RawDevice) (rest : List RawDevice) : State :=
  if s.aborted then s.goto p (.loop rest)
  else if c.concurrency ≤ s.executing.length then s.goto p (.racing d rest s.executing)
  else { s.goto p (.loop rest) with executing := s.executing ++ [d], started := s.started ++ [d] }

def recordIp (d : RawDevice) (resolved : Except String (Option String)) : State :=
  match resolved with
  | .ok (some ip) => { s with mgmtIpByDevice := (d.label, ip) :: s.mgmtIpByDevice }
  | .ok none | .error _ => s

/-- The loop of a producer, up to its next await. -/
def advance (resolved : Except String (Option String)) : State :=
  match s.stage p with
  | .loop [] => s.goto p .finished
  | .loop (d :: rest) =>
    if s.aborted then s.goto p .finished
    else if p = .verify ∧ ¬ c.useProxy ∧ d.isConnected ∧ d.label ≠ "" then s.goto p (.resolving d rest)
    else dispatchDevice c s p d rest
  | .resolving d rest => dispatchDevice c (recordIp s d resolved) p d rest
  | .racing d rest tasks => if ∀ t ∈ tasks, t ∈ s.executing then s else dispatchDevice c s p d rest
  | .finished => s

def proceed : State :=
  match s.main with
  | .producing =>
    if s.stage .warm = .finished ∧
      s.stage .verify = .finished then { s with main := .draining s.executing } else s
  | .draining tasks => if ∀ t ∈ tasks, t ∉ s.executing then { s with main := .returned } else s
  | .returned => s

/-- A task leaves the set when it settles, before a race that it ends goes
on. -/
def step : Event → State
  | .abort => { s with aborted := true }
  | .complete d => { s with executing := s.executing.erase d }
  | .advance p resolved => advance c s p resolved
  | .main => proceed s

def start : State :=
  { stage := fun
      | .warm => .loop c.warmTargets
      | .verify => .loop c.verifyTargets
    mgmtIpByDevice := if c.useProxy then [] else c.warmCacheIps.ips }

def run (events : List Event) : State := events.foldl (step c) (start c)

end Machine

section Partition

variable (c : Setup)

theorem Roster.nodup (r : Roster) : r.devices.Nodup := List.Nodup.of_map _ r.distinct

variable {c} {d : RawDevice} {n : String}

theorem label_inj {r : Roster} {d d' : RawDevice} (hd : d ∈ r.devices) (hd' : d' ∈ r.devices)
    (h : d.label = d'.label) : d = d' := List.inj_on_of_nodup_map r.distinct hd hd' h

theorem devicesByName_eq : c.devicesByName n = some d ↔ d ∈ c.roster.devices ∧ d.label = n := by
  refine ⟨fun h => ?_, fun ⟨hd, hn⟩ => ?_⟩
  · exact ⟨List.mem_reverse.mp (List.mem_of_find?_eq_some h), by simpa using List.find?_some h⟩
  · have hsome : (c.devicesByName n).isSome := by
      rw [Setup.devicesByName, List.find?_isSome]
      exact ⟨d, List.mem_reverse.mpr hd, by simpa using hn⟩
    obtain ⟨d', hd'⟩ := Option.isSome_iff_exists.mp hsome
    have hmem : d' ∈ c.roster.devices := List.mem_reverse.mp (List.mem_of_find?_eq_some hd')
    have hlabel : d'.label = n := by simpa using List.find?_some hd'
    rw [hd', label_inj hmem hd (hlabel.trans hn.symm)]

theorem mem_warmTargets : d ∈ c.warmTargets ↔ d ∈ c.roster.devices ∧ d.label ∈ c.warmDispatched := by
  rw [Setup.warmTargets, List.mem_filterMap]
  refine ⟨fun ⟨n, hn, hd⟩ => ?_, fun ⟨hd, hn⟩ => ⟨d.label, hn, devicesByName_eq.mpr ⟨hd, rfl⟩⟩⟩
  obtain ⟨hmem, rfl⟩ := devicesByName_eq.mp hd
  exact ⟨hmem, hn⟩

theorem warmTargets_nodup : c.warmTargets.Nodup := by
  refine List.Nodup.filterMap (fun n n' d hd hd' => ?_) ?_
  · rw [← (devicesByName_eq.mp hd).2, ← (devicesByName_eq.mp hd').2]
  · unfold Setup.warmDispatched
    split
    · exact List.nodup_nil
    · exact c.warmCacheIps.distinct.filter _

theorem verifyTargets_perm :
    c.verifyTargets.Perm (c.roster.devices.filter (·.label ∉ c.warmDispatched)) := by
  unfold Setup.verifyTargets
  split
  next h =>
    have hnone : c.warmDispatched = [] := by rw [Setup.warmDispatched, if_pos h]
    refine (List.mergeSort_perm _ _).trans ?_
    rw [List.filter_eq_self.mpr]
    simp [hnone]
  next => exact List.mergeSort_perm _ _

/-- The two producers share the roster between them. -/
theorem targets_perm : (c.warmTargets ++ c.verifyTargets).Perm c.roster.devices := by
  have hwarm : c.warmTargets.Perm (c.roster.devices.filter (·.label ∈ c.warmDispatched)) := by
    rw [List.perm_ext_iff_of_nodup warmTargets_nodup (c.roster.nodup.filter _)]
    intro d
    rw [mem_warmTargets, List.mem_filter, decide_eq_true_eq]
  refine (hwarm.append verifyTargets_perm).trans ?_
  have := List.filter_append_perm (fun d : RawDevice => decide (d.label ∈ c.warmDispatched)) c.roster.devices
  simpa using this

end Partition

section Invariant

def left : Stage → List RawDevice
  | .loop rest => rest
  | .resolving d rest | .racing d rest _ => d :: rest
  | .finished => []

/-- How often a device is still to be dispatched. -/
def queued (s : State) (d : RawDevice) : Nat :=
  (left (s.stage .warm)).count d + (left (s.stage .verify)).count d

structure Sound (c : Setup) (s : State) : Prop where
  bounded : s.executing.length ≤ c.concurrency
  running : s.executing.Sublist s.started
  once : ∀ d, s.started.count d + queued s d ≤ c.roster.devices.count d
  complete : s.aborted = false → ∀ d, s.started.count d + queued s d = c.roster.devices.count d
  racing : ∀ p d rest tasks, s.stage p = .racing d rest tasks → tasks ≠ []
  draining : ∀ tasks, s.main = .draining tasks → (∀ p, s.stage p = .finished) ∧ ∀ t ∈ s.executing, t ∈ tasks
  returned : s.main = .returned → (∀ p, s.stage p = .finished) ∧ s.executing = []

variable {c : Setup} {s : State} {p : Producer} {stage : Stage} {d : RawDevice} {rest : List RawDevice}

theorem queued_goto (s : State) (p : Producer) (stage : Stage) (d : RawDevice) :
    queued (s.goto p stage) d + (left (s.stage p)).count d = queued s d + (left stage).count d := by
  cases p with
  | warm =>
    simp only [queued, State.goto, Function.update_self,
      Function.update_of_ne (by decide : Producer.verify ≠ .warm)]
    omega
  | verify =>
    simp only [queued, State.goto, Function.update_self,
      Function.update_of_ne (by decide : Producer.warm ≠ .verify)]
    omega

theorem goto_self (s : State) (p : Producer) (stage : Stage) : (s.goto p stage).stage p = stage :=
  Function.update_self ..

theorem goto_ne {q : Producer} (s : State) (stage : Stage) (h : q ≠ p) :
    (s.goto p stage).stage q = s.stage q :=
  Function.update_of_ne h ..

theorem concurrency_pos : 0 < c.concurrency := by
  unfold Setup.concurrency
  split
  · exact Nat.one_pos
  · omega

/-- A producer that is not at its end keeps the discovery from draining. -/
theorem Sound.producing (h : Sound c s) (hp : s.stage p ≠ .finished) : s.main = .producing := by
  cases hm : s.main with
  | producing => rfl
  | draining tasks => exact absurd ((h.draining tasks hm).1 p) hp
  | returned => exact absurd ((h.returned hm).1 p) hp

theorem Sound.goto (h : Sound c s) (hp : s.stage p ≠ .finished)
    (hleft : ∀ d, (left stage).count d ≤ (left (s.stage p)).count d)
    (hkept : s.aborted = false → ∀ d, (left stage).count d = (left (s.stage p)).count d)
    (hrace : ∀ d rest tasks, stage = .racing d rest tasks → tasks ≠ []) : Sound c (s.goto p stage) := by
  have hmain : s.main = .producing := h.producing hp
  refine ⟨h.bounded, h.running, fun d => ?_, fun ha d => ?_, fun q d rest tasks hq => ?_, fun tasks hm => ?_,
    fun hm => ?_⟩
  · have hgoto := queued_goto s p stage d
    have honce := h.once d
    have hle := hleft d
    change s.started.count d + queued (s.goto p stage) d ≤ _
    omega
  · have hgoto := queued_goto s p stage d
    have hcomplete := h.complete ha d
    have heq := hkept ha d
    change s.started.count d + queued (s.goto p stage) d = _
    omega
  · by_cases hqp : q = p
    · subst hqp
      rw [goto_self] at hq
      exact hrace d rest tasks hq
    · rw [goto_ne s stage hqp] at hq
      exact h.racing q d rest tasks hq
  · cases hmain.symm.trans hm
  · cases hmain.symm.trans hm

theorem Sound.start (h : Sound c s) (hleft : left (s.stage p) = d :: rest)
    (hroom : s.executing.length < c.concurrency) (ha : s.aborted = false) :
    Sound c { s.goto p (.loop rest) with executing := s.executing ++ [d], started := s.started ++ [d] } := by
  have hp : s.stage p ≠ .finished := by
    intro hp
    rw [hp] at hleft
    cases hleft
  have hmain : s.main = .producing := h.producing hp
  have hcount : ∀ x, (s.started ++ [d]).count x + queued (s.goto p (.loop rest)) x =
      s.started.count x + queued s x := by
    intro x
    have hgoto := queued_goto s p (.loop rest) x
    rw [hleft] at hgoto
    simp only [left, List.count_cons] at hgoto
    rw [List.count_append, List.count_singleton]
    omega
  refine ⟨?_, h.running.append (List.Sublist.refl [d]), fun x => ?_, fun _ x => ?_, fun q x r tasks hq => ?_,
    fun tasks hm => ?_, fun hm => ?_⟩
  · change (s.executing ++ [d]).length ≤ c.concurrency
    rw [List.length_append, List.length_singleton]
    omega
  · exact (hcount x).trans_le (h.once x)
  · exact (hcount x).trans (h.complete ha x)
  · by_cases hqp : q = p
    · subst hqp
      cases (goto_self s q _).symm.trans hq
    · exact h.racing q x r tasks ((goto_ne s _ hqp).symm.trans hq)
  · cases hmain.symm.trans hm
  · cases hmain.symm.trans hm

theorem Sound.dispatchDevice (h : Sound c s) (hleft : left (s.stage p) = d :: rest) :
    Sound c (dispatchDevice c s p d rest) := by
  have hp : s.stage p ≠ .finished := by
    intro hp
    rw [hp] at hleft
    cases hleft
  unfold DiscoveryDispatch.dispatchDevice
  split
  next ha =>
    refine h.goto hp (fun x => ?_) (fun ha' => ?_) nofun
    · rw [hleft]
      exact List.count_le_count_cons
    · rw [ha] at ha'
      cases ha'
  next ha =>
    split
    next hfull =>
      refine h.goto hp (fun x => ?_) (fun _ x => ?_) ?_
      · rw [hleft]
        exact Nat.le_refl _
      · rw [hleft]
        rfl
      · rintro _ _ _ ⟨⟩ hnil
        rw [hnil] at hfull
        exact absurd hfull (Nat.not_le_of_lt concurrency_pos)
    next hroom => exact h.start hleft (Nat.lt_of_not_le hroom) (by simpa using ha)

theorem Sound.recordIp (h : Sound c s) (d : RawDevice) (resolved : Except String (Option String)) :
    Sound c (recordIp s d resolved) := by
  unfold DiscoveryDispatch.recordIp
  split
  · exact ⟨h.bounded, h.running, h.once, h.complete, h.racing, h.draining, h.returned⟩
  · exact h
  · exact h

theorem recordIp_stage (s : State) (d : RawDevice) (resolved : Except String (Option String)) :
    (recordIp s d resolved).stage = s.stage := by
  unfold recordIp
  split <;> rfl

theorem Sound.advance (h : Sound c s) (resolved : Except String (Option String)) :
    Sound c (advance c s p resolved) := by
  unfold DiscoveryDispatch.advance
  split
  next hs =>
    refine h.goto (by rw [hs]; nofun) (fun d => ?_) (fun _ d => ?_) nofun
    · rw [hs]
      exact Nat.le_refl _
    · rw [hs]
      rfl
  next d rest hs =>
    have hp : s.stage p ≠ .finished := by
      rw [hs]
      nofun
    split
    next ha =>
      refine h.goto hp (fun x => Nat.zero_le _) (fun ha' => ?_) nofun
      rw [ha] at ha'
      cases ha'
    next =>
      split
      next =>
        refine h.goto hp (fun x => ?_) (fun _ x => ?_) nofun
        · rw [hs]
          exact Nat.le_refl _
        · rw [hs]
          rfl
      next =>
        refine h.dispatchDevice ?_
        rw [hs]
        rfl
  next d rest hs =>
    refine (h.recordIp d resolved).dispatchDevice ?_
    rw [recordIp_stage, hs]
    rfl
  next d rest tasks hs =>
    split
    next => exact h
    next =>
      refine h.dispatchDevice ?_
      rw [hs]
      rfl
  next => exact h

theorem Sound.proceed (h : Sound c s) : Sound c (proceed s) := by
  unfold DiscoveryDispatch.proceed
  split
  next =>
    split
    next hfin =>
      refine ⟨h.bounded, h.running, h.once, h.complete, h.racing, ?_, nofun⟩
      rintro tasks ⟨⟩
      refine ⟨fun p => ?_, fun t ht => ht⟩
      cases p with
      | warm => exact hfin.1
      | verify => exact hfin.2
    next => exact h
  next tasks hm =>
    split
    next hdone =>
      obtain ⟨hfin, hsub⟩ := h.draining tasks hm
      refine ⟨h.bounded, h.running, h.once, h.complete, h.racing, nofun, fun _ => ⟨hfin, ?_⟩⟩
      exact List.eq_nil_iff_forall_not_mem.mpr fun t ht => hdone t (hsub t ht) ht
    next => exact h
  next => exact h

theorem Sound.step (h : Sound c s) (e : Event) : Sound c (step c s e) := by
  cases e with
  | abort => exact ⟨h.bounded, h.running, h.once, nofun, h.racing, h.draining, h.returned⟩
  | complete d =>
    refine ⟨?_, List.erase_sublist.trans h.running, h.once, h.complete, h.racing, fun tasks hm => ?_,
      fun hm => ?_⟩
    · exact List.erase_sublist.length_le.trans h.bounded
    · obtain ⟨hfin, hsub⟩ := h.draining tasks hm
      exact ⟨hfin, fun t ht => hsub t (List.mem_of_mem_erase ht)⟩
    · obtain ⟨hfin, hnil⟩ := h.returned hm
      refine ⟨hfin, ?_⟩
      change s.executing.erase d = []
      rw [hnil]
      rfl
  | advance p resolved => exact h.advance resolved
  | main => exact h.proceed

variable (c) in
theorem sound_start : Sound c (start c) := by
  have hcount : ∀ d, queued (start c) d = c.roster.devices.count d := by
    intro d
    rw [← targets_perm.count_eq, List.count_append]
    rfl
  refine ⟨Nat.zero_le _, List.Sublist.refl [], fun d => ?_, fun _ d => ?_, fun p d rest tasks hp => ?_,
    nofun, nofun⟩
  · rw [hcount]
    simp [start]
  · rw [hcount]
    simp [start]
  · cases p with
    | warm => cases hp
    | verify => cases hp

variable (c) in
theorem sound_run (events : List Event) : Sound c (run c events) := by
  induction events using List.reverseRecOn with
  | nil => exact sound_start c
  | append_singleton events e ih =>
    rw [run, List.foldl_append]
    exact ih.step e

end Invariant

section Progress

/-- What a producer still costs; one that can leave its race costs one more. -/
def cost (executing : List RawDevice) : Stage → Nat
  | .loop rest => 8 * rest.length + 1
  | .resolving _ rest => 8 * rest.length + 8
  | .racing _ rest tasks => 8 * rest.length + 6 + if ∀ t ∈ tasks, t ∈ executing then 0 else 1
  | .finished => 0

def Main.cost : Main → Nat
  | .producing => 2
  | .draining _ => 1
  | .returned => 0

def measure (s : State) : Nat :=
  cost s.executing (s.stage .warm) + cost s.executing (s.stage .verify) + 3 * s.executing.length +
    s.main.cost +
    if s.aborted then 0 else 1

variable {c : Setup} {s : State} {p : Producer} {stage : Stage} {d : RawDevice} {rest : List RawDevice}

theorem cost_loop (executing : List RawDevice) : cost executing (.loop rest) = 8 * rest.length + 1 := rfl

theorem cost_finished (executing : List RawDevice) : cost executing .finished = 0 := rfl

theorem cost_resolving (executing : List RawDevice) :
    cost executing (.resolving d rest) = 8 * rest.length + 8 :=
  rfl

theorem cost_racing (executing : List RawDevice) :
    cost executing (.racing d rest executing) = 8 * rest.length + 6 := by
  rw [cost, if_pos fun t ht => ht, Nat.add_zero]

theorem cost_append (executing more : List RawDevice) (stage : Stage) :
    cost (executing ++ more) stage ≤ cost executing stage := by
  cases stage with
  | racing d rest tasks =>
    simp only [cost]
    by_cases h : ∀ t ∈ tasks, t ∈ executing
    · rw [if_pos h, if_pos fun t ht => List.mem_append_left more (h t ht)]
    · rw [if_neg h]
      split <;> omega
  | loop | resolving | finished => exact Nat.le_refl _

theorem cost_erase (executing : List RawDevice) (d : RawDevice) (stage : Stage) :
    cost (executing.erase d) stage ≤ cost executing stage + 1 := by
  cases stage with
  | racing d rest tasks =>
    simp only [cost]
    split <;> split <;> omega
  | loop | resolving | finished => exact Nat.le_add_right _ _

theorem measure_goto (s : State) (p : Producer) (stage : Stage) :
    measure (s.goto p stage) + cost s.executing (s.stage p) = measure s + cost s.executing stage := by
  cases p with
  | warm =>
    have h : measure (s.goto .warm stage) = cost s.executing stage + cost s.executing (s.stage .verify) +
        3 * s.executing.length + s.main.cost + if s.aborted then 0 else 1 := by
      rw [measure, goto_self, goto_ne s stage (by decide : Producer.verify ≠ .warm)]
      rfl
    rw [h, measure]
    omega
  | verify =>
    have h : measure (s.goto .verify stage) = cost s.executing (s.stage .warm) + cost s.executing stage +
        3 * s.executing.length + s.main.cost + if s.aborted then 0 else 1 := by
      rw [measure, goto_self, goto_ne s stage (by decide : Producer.warm ≠ .verify)]
      rfl
    rw [h, measure]
    omega

theorem measure_start (s : State) (p : Producer) (d : RawDevice) (rest : List RawDevice) :
    measure { s.goto p (.loop rest) with executing := s.executing ++ [d], started := s.started ++ [d] } ≤
      measure (s.goto p (.loop rest)) + 3 := by
  have hwarm := cost_append s.executing [d] ((s.goto p (.loop rest)).stage .warm)
  have hverify := cost_append s.executing [d] ((s.goto p (.loop rest)).stage .verify)
  have h : measure (s.goto p (.loop rest)) = cost s.executing ((s.goto p (.loop rest)).stage .warm) +
      cost s.executing ((s.goto p (.loop rest)).stage .verify) + 3 * s.executing.length + s.main.cost +
        if s.aborted then 0 else 1 := rfl
  rw [h]
  change cost (s.executing ++ [d]) ((s.goto p (.loop rest)).stage .warm) +
    cost (s.executing ++ [d]) ((s.goto p (.loop rest)).stage .verify) + 3 * (s.executing ++ [d]).length +
      s.main.cost + (if s.aborted then 0 else 1) ≤ _
  rw [List.length_append, List.length_singleton]
  omega

theorem measure_dispatchDevice (hcost : 8 * rest.length + 7 ≤ cost s.executing (s.stage p)) :
    measure (dispatchDevice c s p d rest) < measure s := by
  unfold dispatchDevice
  split
  next =>
    have hgoto := measure_goto s p (.loop rest)
    rw [cost_loop] at hgoto
    omega
  next =>
    split
    next =>
      have hgoto := measure_goto s p (.racing d rest s.executing)
      rw [cost_racing] at hgoto
      omega
    next =>
      have hgoto := measure_goto s p (.loop rest)
      have hstart := measure_start s p d rest
      rw [cost_loop] at hgoto
      omega

theorem measure_recordIp (s : State) (d : RawDevice) (resolved : Except String (Option String)) :
    measure (recordIp s d resolved) = measure s := by
  unfold recordIp
  split <;> rfl

theorem recordIp_executing (s : State) (d : RawDevice) (resolved : Except String (Option String)) :
    (recordIp s d resolved).executing = s.executing := by
  unfold recordIp
  split <;> rfl

/-- At the end of its loop, or in a race none of whose tasks has settled. -/
def Blocked (s : State) (p : Producer) : Prop :=
  s.stage p = .finished ∨ ∃ d rest tasks, s.stage p = .racing d rest tasks ∧ ∀ t ∈ tasks, t ∈ s.executing

theorem measure_advance (h : ¬ Blocked s p) (resolved : Except String (Option String)) :
    measure (advance c s p resolved) < measure s := by
  unfold advance
  split
  next hs =>
    have hgoto := measure_goto s p .finished
    rw [hs, cost_loop, cost_finished] at hgoto
    omega
  next d rest hs =>
    split
    next =>
      have hgoto := measure_goto s p .finished
      rw [hs, cost_loop, cost_finished] at hgoto
      omega
    next =>
      split
      next =>
        have hgoto := measure_goto s p (.resolving d rest)
        rw [hs, cost_loop, cost_resolving, List.length_cons] at hgoto
        omega
      next =>
        apply measure_dispatchDevice
        rw [hs, cost_loop, List.length_cons]
        omega
  next d rest hs =>
    rw [← measure_recordIp s d resolved]
    apply measure_dispatchDevice
    rw [recordIp_stage, recordIp_executing, hs, cost_resolving]
    omega
  next d rest tasks hs =>
    split
    next hall => exact absurd (.inr ⟨d, rest, tasks, hs, hall⟩) h
    next hleft =>
      apply measure_dispatchDevice
      rw [hs, cost, if_neg hleft]
  next hs => exact absurd (.inl hs) h

theorem measure_complete (hd : d ∈ s.executing) : measure (step c s (.complete d)) < measure s := by
  have hwarm := cost_erase s.executing d (s.stage .warm)
  have hverify := cost_erase s.executing d (s.stage .verify)
  have hlen := List.length_erase_of_mem hd
  have hpos := List.length_pos_of_mem hd
  change cost (s.executing.erase d) (s.stage .warm) + cost (s.executing.erase d) (s.stage .verify) +
    3 * (s.executing.erase d).length + s.main.cost + (if s.aborted then 0 else 1) < measure s
  rw [measure]
  omega

theorem measure_proceed : proceed s = s ∨ measure (proceed s) < measure s := by
  unfold proceed
  split
  next hm =>
    split
    next =>
      refine .inr (Nat.add_lt_add_right (Nat.add_lt_add_left ?_ _) _)
      rw [hm]
      exact Nat.lt_succ_self 1
    next => exact .inl rfl
  next tasks hm =>
    split
    next =>
      refine .inr (Nat.add_lt_add_right (Nat.add_lt_add_left ?_ _) _)
      rw [hm]
      exact Nat.one_pos
    next => exact .inl rfl
  next => exact .inl rfl

theorem measure_main (hm : s.main ≠ .returned) (hfin : ∀ p, s.stage p = .finished)
    (hidle : s.executing = []) :
    measure (step c s .main) < measure s := by
  refine measure_proceed.resolve_left fun heq => ?_
  have hne : (proceed s).main ≠ s.main := by
    unfold proceed
    split
    next hs =>
      rw [if_pos ⟨hfin .warm, hfin .verify⟩, hs]
      nofun
    next tasks hs =>
      rw [if_pos fun t _ => hidle ▸ List.not_mem_nil, hs]
      nofun
    next hs => exact absurd hs hm
  exact hne (congrArg State.main heq)

theorem exists_step (h : Sound c s) (hm : s.main ≠ .returned) :
    ∃ e, e ≠ .abort ∧ measure (step c s e) < measure s := by
  cases hidle : s.executing with
  | cons t executing => exact ⟨.complete t, nofun, measure_complete (hidle ▸ List.mem_cons_self)⟩
  | nil =>
    by_cases hfin : ∀ p, s.stage p = .finished
    · exact ⟨.main, nofun, measure_main hm hfin hidle⟩
    · obtain ⟨p, hp⟩ := not_forall.mp hfin
      refine ⟨.advance p (.ok none), nofun, measure_advance ?_ _⟩
      rintro (hs | ⟨d, rest, tasks, hs, hall⟩)
      · exact hp hs
      · obtain ⟨t, ht⟩ := List.exists_mem_of_ne_nil tasks (h.racing p d rest tasks hs)
        have hrun := hall t ht
        rw [hidle] at hrun
        exact List.not_mem_nil hrun

theorem exists_return (h : Sound c s) :
    ∃ more : List Event, (∀ e ∈ more, e ≠ .abort) ∧ (more.foldl (step c) s).main = .returned := by
  induction hn : measure s using Nat.strong_induction_on generalizing s with
  | _ n ih =>
    by_cases hm : s.main = .returned
    · exact ⟨[], by simp, hm⟩
    · obtain ⟨e, he, hlt⟩ := exists_step h hm
      obtain ⟨more, hmore, hret⟩ := ih _ (hn ▸ hlt) (h.step e) rfl
      exact ⟨e :: more, List.forall_mem_cons.mpr ⟨he, hmore⟩, hret⟩

end Progress

section Dispatch

variable {c : Setup} {s : State} {p : Producer} {d : RawDevice} {rest : List RawDevice}

theorem dispatchDevice_aborted (ha : s.aborted = true) :
    (dispatchDevice c s p d rest).started = s.started ∧ (dispatchDevice c s p d rest).aborted = true := by
  rw [dispatchDevice, if_pos ha]
  exact ⟨rfl, ha⟩

theorem advance_aborted (ha : s.aborted = true) (resolved : Except String (Option String)) :
    (advance c s p resolved).started = s.started ∧ (advance c s p resolved).aborted = true := by
  unfold advance
  split
  next => exact ⟨rfl, ha⟩
  next =>
    rw [if_pos ha]
    exact ⟨rfl, ha⟩
  next d rest _ =>
    have hkept : (recordIp s d resolved).started = s.started ∧ (recordIp s d resolved).aborted = true := by
      unfold recordIp
      split <;> exact ⟨rfl, ha⟩
    refine ⟨?_, (dispatchDevice_aborted hkept.2).2⟩
    exact (dispatchDevice_aborted hkept.2).1.trans hkept.1
  next =>
    split
    next => exact ⟨rfl, ha⟩
    next => exact dispatchDevice_aborted ha
  next => exact ⟨rfl, ha⟩

theorem step_aborted (ha : s.aborted = true) (e : Event) :
    (step c s e).started = s.started ∧ (step c s e).aborted = true := by
  cases e with
  | abort => exact ⟨rfl, rfl⟩
  | complete d => exact ⟨rfl, ha⟩
  | advance p resolved => exact advance_aborted ha resolved
  | main =>
    change (proceed s).started = s.started ∧ (proceed s).aborted = true
    unfold proceed
    split
    · split <;> exact ⟨rfl, ha⟩
    · split <;> exact ⟨rfl, ha⟩
    · exact ⟨rfl, ha⟩

theorem foldl_aborted (ha : s.aborted = true) (more : List Event) :
    (more.foldl (step c) s).started = s.started := by
  induction more generalizing s with
  | nil => rfl
  | cons e more ih =>
    obtain ⟨hstarted, habort⟩ := step_aborted (c := c) ha e
    exact (ih habort).trans hstarted

theorem Sound.started_nodup (h : Sound c s) : s.started.Nodup := by
  rw [List.nodup_iff_count_le_one]
  intro d
  have hroster := List.nodup_iff_count_le_one.mp c.roster.nodup d
  have honce := h.once d
  omega

theorem Sound.started_subset (h : Sound c s) (hd : d ∈ s.started) : d ∈ c.roster.devices := by
  rw [← List.count_pos_iff] at hd ⊢
  have honce := h.once d
  omega

theorem Sound.started_perm (h : Sound c s) (hm : s.main = .returned) (ha : s.aborted = false) :
    s.started.Perm c.roster.devices := by
  rw [List.perm_iff_count]
  intro d
  have hnone : queued s d = 0 := by
    rw [queued, (h.returned hm).1 .warm, (h.returned hm).1 .verify]
    rfl
  have hcomplete := h.complete ha d
  omega

theorem run_append (c : Setup) (events more : List Event) :
    run c (events ++ more) = more.foldl (step c) (run c events) := List.foldl_append ..

/-- At most `concurrency` tasks at any time, each device of the roster once,
none after an abort, and nothing left running at the return. -/
theorem dispatch_bounded_complete (c : Setup) (events : List Event) :
    (run c events).executing.length ≤ c.concurrency ∧ (run c events).started.Nodup ∧
      (∀ d ∈ (run c events).started, d ∈ c.roster.devices) ∧
      ((run c events).main = .returned → (run c events).executing = [] ∧
        ((run c events).aborted = false → (run c events).started.Perm c.roster.devices)) ∧
      ((run c events).aborted = true → ∀ more, (run c (events ++ more)).started = (run c events).started) ∧
      ∃ more, (∀ e ∈ more, e ≠ .abort) ∧ (run c (events ++ more)).main = .returned := by
  have h : Sound c (run c events) := sound_run c events
  refine ⟨h.bounded, h.started_nodup, fun d => h.started_subset,
    fun hm => ⟨(h.returned hm).2, h.started_perm hm⟩,
    fun ha more => ?_, ?_⟩
  · rw [run_append]
    exact foldl_aborted ha more
  · obtain ⟨more, hmore, hret⟩ := exists_return h
    refine ⟨more, hmore, ?_⟩
    rw [run_append]
    exact hret

end Dispatch

end Polaris.DiscoveryDispatch
