import Mathlib.Data.List.Basic
import Mathlib.Data.List.Nodup
import Mathlib.Data.List.Perm.Basic
import Mathlib.Data.List.Range

namespace Polaris.FmgWorker

/-- A job of the proxy lane, under its number in the order of submission. -/
structure QueueEntry where
  id : Nat
  label : String
  signal : Option Nat
  /-- Its `run` throws before it has returned a promise. -/
  throws : Bool
  deriving DecidableEq

inductive Settlement
  | resolved
  | failed
  | aborted (message : String)
  deriving DecidableEq

/-- The worker with the signals that have fired, the abort listeners that are
attached, and a record of the jobs it started and the promises it settled. -/
structure Lane where
  proxyQueue : List QueueEntry := []
  proxyInFlight : Option QueueEntry := none
  proxyDraining : Bool := false
  listeners : List QueueEntry := []
  fired : List Nat := []
  started : List Nat := []
  settled : List (Nat × Settlement) := []
  submitted : Nat := 0
  deriving DecidableEq

namespace Lane

variable (s : Lane)

def aborted (signal : Option Nat) : Bool := signal.any (· ∈ s.fired)

def settle (id : Nat) (o : Settlement) : Lane := { s with settled := s.settled ++ [(id, o)] }

def dispatch (e : QueueEntry) (rest : List QueueEntry) : Lane :=
  { s with proxyQueue := rest, listeners := s.listeners.filter (· ≠ e) }

def start (e : QueueEntry) : Lane := { s with proxyInFlight := some e, started := s.started ++ [e.id] }

/-- The loop of `drainProxy` over the queue, up to the `await` of a job. -/
def drain : List QueueEntry → Lane → Lane
  | [], s => { s with proxyQueue := [], proxyDraining := false }
  | e :: rest, s =>
    if s.aborted e.signal then
      drain rest ((s.dispatch e rest).settle e.id (.aborted ("Aborted before dispatch: " ++ e.label)))
    else if e.throws then
      drain rest { ((s.dispatch e rest).start e).settle e.id .failed with proxyInFlight := none }
    else (s.dispatch e rest).start e

def drainProxy : Lane :=
  if s.proxyDraining then s else drain s.proxyQueue { s with proxyDraining := true }

def submitProxy (label : String) (signal : Option Nat) (throws : Bool) : Lane :=
  let e : QueueEntry := ⟨s.submitted, label, signal, throws⟩
  let s := { s with submitted := s.submitted + 1 }
  if s.aborted signal then s.settle e.id (.aborted ("Aborted before submit: " ++ label))
  else
    drainProxy { s with
      proxyQueue := s.proxyQueue ++ [e]
      listeners := if signal.isSome then s.listeners ++ [e] else s.listeners }

/-- The listener of a job, which runs once. -/
def onAbort (e : QueueEntry) : Lane :=
  let s := { s with listeners := s.listeners.filter (· ≠ e) }
  if e ∈ s.proxyQueue then
    { s with proxyQueue := s.proxyQueue.erase e }.settle e.id
      (.aborted ("Aborted while queued: " ++ e.label))
  else s

/-- The running job has answered, and the loop goes on. -/
def finish (o : Settlement) : Lane :=
  match s.proxyInFlight with
  | none => s
  | some e => drain s.proxyQueue ({ s with proxyInFlight := none }.settle e.id o)

end Lane

/-- What can happen to a worker. A signal fires, and each listener attached to
it is then told, at any later time. -/
inductive Event
  | submit (label : String) (signal : Option Nat) (throws : Bool)
  | fire (signal : Nat)
  | notify (e : QueueEntry)
  | complete
  | fail

def step (s : Lane) : Event → Lane
  | .submit label signal throws => s.submitProxy label signal throws
  | .fire signal => { s with fired := signal :: s.fired }
  | .notify e => if e ∈ s.listeners ∧ s.aborted e.signal then s.onAbort e else s
  | .complete => s.finish .resolved
  | .fail => s.finish .failed

def run (events : List Event) : Lane := events.foldl step {}

section Invariant

variable {s : Lane} {e : QueueEntry} {rest : List QueueEntry}

def inFlightIds (s : Lane) : List Nat := s.proxyInFlight.toList.map (·.id)

def settledIds (s : Lane) : List Nat := s.settled.map Prod.fst

/-- Every job is settled, running or queued, once; jobs start in order, before
those in the queue; and a job that started is running or has answered. -/
structure Ordered (s : Lane) : Prop where
  ids : (settledIds s ++ inFlightIds s ++ s.proxyQueue.map (·.id)).Perm (List.range s.submitted)
  sorted : (s.started ++ s.proxyQueue.map (·.id)).Pairwise (· < ·)
  started_iff : ∀ i, i ∈ s.started ↔ i ∈ inFlightIds s ∨ (i, .resolved) ∈ s.settled ∨ (i, .failed) ∈ s.settled

/-- Between events the lane drains exactly while a job runs, and an idle lane
has nothing queued. -/
structure Settled (s : Lane) : Prop extends Ordered s where
  draining : s.proxyDraining = s.proxyInFlight.isSome
  idle : s.proxyInFlight = none → s.proxyQueue = []

theorem Ordered.nodup (h : Ordered s) :
    (settledIds s ++ inFlightIds s ++ s.proxyQueue.map (·.id)).Nodup :=
  h.ids.nodup_iff.mpr List.nodup_range

theorem settled_empty : Settled {} :=
  ⟨⟨List.Perm.refl _, List.Pairwise.nil, by simp [inFlightIds]⟩, rfl, fun _ => rfl⟩

theorem Ordered.lt_submitted (h : Ordered s) {i : Nat}
    (hi : i ∈ s.started ++ s.proxyQueue.map (·.id)) : i < s.submitted := by
  rw [← List.mem_range, ← h.ids.mem_iff, List.mem_append, List.mem_append]
  obtain hi | hi := List.mem_append.mp hi
  · obtain hrun | hdone | hdone := (h.started_iff i).mp hi
    · exact .inl (.inr hrun)
    · exact .inl (.inl (List.mem_map_of_mem hdone))
    · exact .inl (.inl (List.mem_map_of_mem hdone))
  · exact .inr hi

theorem Ordered.abort (h : Ordered s) (hmem : e ∈ s.proxyQueue) (listeners : List QueueEntry)
    (message : String) :
    Ordered ({ s with proxyQueue := s.proxyQueue.erase e, listeners := listeners }.settle e.id
      (.aborted message)) := by
  have hperm : (s.proxyQueue.map (·.id)).Perm (e.id :: (s.proxyQueue.erase e).map (·.id)) :=
    (List.perm_cons_erase hmem).map _
  refine ⟨?_, ?_, ?_⟩
  · refine List.Perm.trans ?_ h.ids
    simp only [settledIds, inFlightIds, Lane.settle, List.map_append, List.map_cons, List.map_nil,
      List.append_assoc, List.singleton_append]
    refine List.Perm.append_left _ ?_
    exact List.perm_middle.symm.trans (hperm.symm.append_left _)
  · exact h.sorted.sublist (List.Sublist.append_left (List.erase_sublist.map _) _)
  · intro i
    simp [Lane.settle, inFlightIds, h.started_iff i]

theorem Ordered.start (h : Ordered s) (hq : s.proxyQueue = e :: rest) (hidle : s.proxyInFlight = none) :
    Ordered ((s.dispatch e rest).start e) := by
  refine ⟨?_, ?_, ?_⟩
  · have hids := h.ids
    simp only [hq, hidle, settledIds, inFlightIds] at hids
    simpa [settledIds, inFlightIds, Lane.dispatch, Lane.start] using hids
  · have hsorted := h.sorted
    simp only [hq] at hsorted
    simpa [Lane.dispatch, Lane.start] using hsorted
  · intro i
    have hstarted := h.started_iff i
    simp only [hidle, inFlightIds, Option.toList_none, List.map_nil, List.not_mem_nil, false_or] at hstarted
    simp [Lane.dispatch, Lane.start, inFlightIds, hstarted, or_comm]

theorem Ordered.answer (h : Ordered s) (hrun : s.proxyInFlight = some e) {o : Settlement}
    (ho : o = .resolved ∨ o = .failed) :
    Ordered ({ s with proxyInFlight := none }.settle e.id o) := by
  refine ⟨?_, h.sorted, ?_⟩
  · have hids := h.ids
    simp only [hrun, settledIds, inFlightIds] at hids
    simpa [settledIds, inFlightIds, Lane.settle] using hids
  · intro i
    have hstarted := h.started_iff i
    simp only [hrun, inFlightIds, Option.toList_some, List.map_cons, List.map_nil,
      List.mem_singleton] at hstarted
    obtain rfl | rfl := ho <;> simp [Lane.settle, inFlightIds, hstarted] <;> tauto

/-- The loop ends idle with an empty queue, or at the `await` of a job. -/
theorem settled_drain {q : List QueueEntry} {s : Lane} (hq : s.proxyQueue = q)
    (hidle : s.proxyInFlight = none) (hdrain : s.proxyDraining = true) (h : Ordered s) :
    Settled (s.drain q) := by
  induction q generalizing s with
  | nil =>
    refine ⟨⟨?_, ?_, h.started_iff⟩, ?_, fun _ => rfl⟩
    · have hids := h.ids
      rwa [hq] at hids
    · have hsorted := h.sorted
      rwa [hq] at hsorted
    · simp [Lane.drain, hidle]
  | cons e rest ih =>
    rw [Lane.drain]
    split_ifs with habort hthrow
    · have herase : s.proxyQueue.erase e = rest := by simp [hq]
      have hnext := h.abort (e := e) (by simp [hq]) (s.listeners.filter (· ≠ e))
        ("Aborted before dispatch: " ++ e.label)
      rw [herase] at hnext
      exact ih rfl hidle hdrain hnext
    · exact ih rfl rfl hdrain ((h.start hq hidle).answer rfl (.inr rfl))
    · exact ⟨h.start hq hidle, by simpa [Lane.dispatch, Lane.start] using hdrain, by simp [Lane.start]⟩

theorem Ordered.push (h : Ordered s) (label : String) (signal : Option Nat) (throws : Bool)
    (listeners : List QueueEntry) (draining : Bool) :
    Ordered { s with
      submitted := s.submitted + 1, listeners := listeners, proxyDraining := draining
      proxyQueue := s.proxyQueue ++ [⟨s.submitted, label, signal, throws⟩] } := by
  refine ⟨?_, ?_, h.started_iff⟩
  · change (settledIds s ++ inFlightIds s ++ _).Perm (List.range (s.submitted + 1))
    rw [List.range_succ, List.map_append, ← List.append_assoc]
    exact h.ids.append_right _
  · rw [List.map_append, ← List.append_assoc, List.pairwise_append]
    refine ⟨h.sorted, by simp, fun i hi j hj => ?_⟩
    obtain rfl : j = s.submitted := by simpa using hj
    exact h.lt_submitted hi

theorem Settled.idle_of_not_draining (h : Settled s) (hdrain : ¬ s.proxyDraining = true) :
    s.proxyInFlight = none := by
  rw [h.draining] at hdrain
  simpa using hdrain

theorem settled_submit (h : Settled s) (label : String) (signal : Option Nat) (throws : Bool) :
    Settled (s.submitProxy label signal throws) := by
  unfold Lane.submitProxy
  dsimp only
  split
  · refine ⟨⟨?_, h.sorted, ?_⟩, h.draining, h.idle⟩
    · change (settledIds _ ++ _ ++ _).Perm (List.range (s.submitted + 1))
      rw [List.range_succ]
      refine List.Perm.trans ?_ (h.ids.append_right _)
      simp only [settledIds, inFlightIds, Lane.settle, List.map_append, List.map_cons, List.map_nil,
        List.append_assoc]
      refine List.Perm.append_left _ ?_
      exact List.perm_append_comm.trans (by simp)
    · intro i
      simp [Lane.settle, inFlightIds, h.started_iff i]
  · have hpush := h.push label signal throws
    unfold Lane.drainProxy
    dsimp only
    by_cases hdrain : s.proxyDraining = true
    · rw [if_pos hdrain]
      refine ⟨hpush _ _, h.draining, fun hidle => ?_⟩
      have := h.draining
      rw [hdrain] at this
      simp [show s.proxyInFlight = none from hidle] at this
    · rw [if_neg hdrain]
      exact settled_drain rfl (h.idle_of_not_draining hdrain) rfl (hpush _ _)

theorem settled_finish (h : Settled s) {o : Settlement} (ho : o = .resolved ∨ o = .failed) :
    Settled (s.finish o) := by
  unfold Lane.finish
  cases hrun : s.proxyInFlight with
  | none => exact h
  | some e =>
    have hdrain : s.proxyDraining = true := by rw [h.draining, hrun]; rfl
    exact settled_drain rfl rfl hdrain (h.answer hrun ho)

theorem settled_step (h : Settled s) (ev : Event) : Settled (step s ev) := by
  cases ev with
  | submit label signal throws => exact settled_submit h label signal throws
  | fire signal => exact ⟨⟨h.ids, h.sorted, h.started_iff⟩, h.draining, h.idle⟩
  | notify e =>
    simp only [step]
    split_ifs with hlisten
    · unfold Lane.onAbort
      dsimp only
      split_ifs with hmem
      · refine ⟨h.abort hmem _ _, h.draining, fun hidle => ?_⟩
        rw [h.idle hidle] at hmem
        cases hmem
      · exact ⟨⟨h.ids, h.sorted, h.started_iff⟩, h.draining, h.idle⟩
    · exact h
  | complete => exact settled_finish h (.inl rfl)
  | fail => exact settled_finish h (.inr rfl)

theorem settled_run (events : List Event) : Settled (run events) := by
  unfold run
  induction events using List.reverseRecOn with
  | nil => exact settled_empty
  | append_singleton events ev ih =>
    rw [List.foldl_append]
    exact settled_step ih ev

end Invariant

section Aborts

variable {s : Lane} {a e : QueueEntry} {rest : List QueueEntry}

/-- A job whose signal fired before it started: it waits in the queue, or has
been settled. -/
structure Doomed (e : QueueEntry) (s : Lane) : Prop where
  aborted : s.aborted e.signal = true
  not_started : e.id ∉ s.started
  waits : e ∈ s.proxyQueue ∨ e.id ∈ settledIds s

theorem Doomed.ne_of_live (h : Doomed e s) (hs : Ordered s) (ha : a ∈ s.proxyQueue)
    (hlive : s.aborted a.signal = false) : a.id ≠ e.id := by
  intro hid
  obtain ⟨-, hqueue, hdisjoint⟩ := List.nodup_append.mp hs.nodup
  obtain hwaits | hdone := h.waits
  · have hae : a = e := List.inj_on_of_nodup_map hqueue ha hwaits hid
    rw [hae, h.aborted] at hlive
    cases hlive
  · exact hdisjoint e.id (List.mem_append_left _ hdone) a.id (List.mem_map_of_mem ha) hid.symm

theorem Doomed.dispatch (h : Doomed e s) (hq : s.proxyQueue = a :: rest) (o : Settlement) :
    Doomed e ((s.dispatch a rest).settle a.id o) := by
  refine ⟨h.aborted, h.not_started, ?_⟩
  have hsettled : settledIds ((s.dispatch a rest).settle a.id o) = settledIds s ++ [a.id] := by
    simp [settledIds, Lane.settle, Lane.dispatch]
  rw [hsettled]
  obtain hwaits | hdone := h.waits
  · rw [hq] at hwaits
    obtain rfl | hrest := List.mem_cons.mp hwaits
    · exact .inr (by simp)
    · exact .inl hrest
  · exact .inr (List.mem_append_left _ hdone)

theorem doomed_drain {q : List QueueEntry} {s : Lane} (hq : s.proxyQueue = q)
    (hidle : s.proxyInFlight = none) (hs : Ordered s) (h : Doomed e s) : Doomed e (s.drain q) := by
  induction q generalizing s with
  | nil =>
    refine ⟨h.aborted, h.not_started, .inr ?_⟩
    exact h.waits.resolve_left (by simp [hq])
  | cons a rest ih =>
    have ha : a ∈ s.proxyQueue := by simp [hq]
    rw [Lane.drain]
    split_ifs with habort hthrow
    · have herase : s.proxyQueue.erase a = rest := by simp [hq]
      have hnext := hs.abort ha (s.listeners.filter (· ≠ a)) ("Aborted before dispatch: " ++ a.label)
      rw [herase] at hnext
      exact ih rfl hidle hnext (h.dispatch hq _)
    · have hne := h.ne_of_live hs ha (by simpa using habort)
      refine ih rfl rfl ((hs.start hq hidle).answer rfl (.inr rfl)) ?_
      have hnext := h.dispatch hq .failed
      refine ⟨hnext.aborted, ?_, hnext.waits⟩
      simpa [Lane.start, Lane.settle, Lane.dispatch, hne.symm] using h.not_started
    · have hne := h.ne_of_live hs ha (by simpa using habort)
      refine ⟨h.aborted, ?_, ?_⟩
      · simpa [Lane.start, Lane.dispatch, hne.symm] using h.not_started
      · obtain hwaits | hdone := h.waits
        · rw [hq] at hwaits
          obtain rfl | hrest := List.mem_cons.mp hwaits
          · exact absurd rfl hne
          · exact .inl hrest
        · exact .inr hdone

theorem Doomed.settle (h : Doomed e s) (id : Nat) (o : Settlement) : Doomed e (s.settle id o) := by
  refine ⟨h.aborted, h.not_started, h.waits.imp_right fun hdone => ?_⟩
  exact List.map_subset _ (List.subset_append_left _ _) hdone

theorem doomed_submit (hs : Settled s) (h : Doomed e s) (label : String) (signal : Option Nat)
    (throws : Bool) : Doomed e (s.submitProxy label signal throws) := by
  unfold Lane.submitProxy
  dsimp only
  split
  · have hnext : Doomed e { s with submitted := s.submitted + 1 } :=
      ⟨h.aborted, h.not_started, h.waits⟩
    exact hnext.settle _ _
  · have hpush : ∀ listeners draining, Doomed e { s with
        submitted := s.submitted + 1, listeners := listeners, proxyDraining := draining
        proxyQueue := s.proxyQueue ++ [⟨s.submitted, label, signal, throws⟩] } := fun _ _ =>
      ⟨h.aborted, h.not_started, h.waits.imp_left (List.mem_append_left _)⟩
    unfold Lane.drainProxy
    dsimp only
    by_cases hdrain : s.proxyDraining = true
    · rw [if_pos hdrain]
      exact hpush _ _
    · rw [if_neg hdrain]
      exact doomed_drain rfl (hs.idle_of_not_draining hdrain) (hs.push _ _ _ _ _) (hpush _ _)

theorem doomed_finish (hs : Settled s) (h : Doomed e s) {o : Settlement}
    (ho : o = .resolved ∨ o = .failed) : Doomed e (s.finish o) := by
  unfold Lane.finish
  cases hrun : s.proxyInFlight with
  | none => exact h
  | some a =>
    have hnext : Doomed e { s with proxyInFlight := none } := ⟨h.aborted, h.not_started, h.waits⟩
    exact doomed_drain rfl rfl (hs.answer hrun ho) (hnext.settle _ _)

theorem doomed_step (hs : Settled s) (h : Doomed e s) (ev : Event) : Doomed e (step s ev) := by
  cases ev with
  | submit label signal throws => exact doomed_submit hs h label signal throws
  | fire signal =>
    refine ⟨?_, h.not_started, h.waits⟩
    obtain ⟨x, hx, hfired⟩ := (Option.any_eq_true _ _).mp h.aborted
    exact (Option.any_eq_true _ _).mpr ⟨x, hx, by simp_all [step]⟩
  | notify a =>
    simp only [step]
    split_ifs with hlisten
    · unfold Lane.onAbort
      dsimp only
      split_ifs with hmem
      · refine ⟨h.aborted, h.not_started, ?_⟩
        have hsettled : settledIds ({ s with
            proxyQueue := s.proxyQueue.erase a, listeners := s.listeners.filter (· ≠ a) }.settle a.id
              (.aborted ("Aborted while queued: " ++ a.label))) = settledIds s ++ [a.id] := by
          simp [settledIds, Lane.settle]
        rw [hsettled]
        obtain hwaits | hdone := h.waits
        · by_cases hae : e = a
          · exact .inr (by simp [hae])
          · exact .inl ((List.mem_erase_of_ne hae).mpr hwaits)
        · exact .inr (List.mem_append_left _ hdone)
      · exact ⟨h.aborted, h.not_started, h.waits⟩
    · exact h
  | complete => exact doomed_finish hs h (.inl rfl)
  | fail => exact doomed_finish hs h (.inr rfl)

theorem doomed_run (events later : List Event) (h : Doomed e (run events)) :
    Doomed e (run (events ++ later)) := by
  induction later using List.reverseRecOn with
  | nil => simpa using h
  | append_singleton later ev ih =>
    rw [← List.append_assoc]
    unfold run
    rw [List.foldl_append]
    exact doomed_step (settled_run _) ih ev

end Aborts

section Lane

theorem Ordered.not_started_of_aborted {s : Lane} (h : Ordered s) {i : Nat} {m : String}
    (ha : (i, .aborted m) ∈ s.settled) : i ∉ s.started := by
  intro hi
  obtain ⟨hsettled, -, -⟩ := List.nodup_append.mp h.nodup
  obtain ⟨hids, -, hdisjoint⟩ := List.nodup_append.mp hsettled
  have hunique : ∀ o, (i, o) ∈ s.settled → o = .aborted m := by
    intro o ho
    exact congrArg Prod.snd (List.inj_on_of_nodup_map hids ho ha rfl)
  obtain hrun | hdone | hdone := (h.started_iff i).mp hi
  · exact hdisjoint i (List.mem_map_of_mem ha) i hrun rfl
  · cases hunique _ hdone
  · cases hunique _ hdone

/-- At most one job runs at a time, jobs start in the order of submission and
pass over only aborted ones, a job aborted while it waits never starts, no
promise is settled twice, and an idle lane has settled them all. -/
theorem proxy_lane_fifo (events : List Event) :
    let s := run events
    (s.started.filter (· ∉ settledIds s)).length ≤ 1 ∧
      s.started.Pairwise (· < ·) ∧
      (∀ j ∈ s.started, ∀ i < j, i ∈ s.started ∨ ∃ m, (i, .aborted m) ∈ s.settled) ∧
      (∀ i m, (i, .aborted m) ∈ s.settled → i ∉ s.started) ∧
      (∀ e ∈ s.proxyQueue, s.aborted e.signal = true →
        ∀ later, e.id ∉ (run (events ++ later)).started) ∧
      (settledIds s).Nodup ∧
      (s.proxyDraining = false → s.proxyQueue = [] ∧ ∀ i < s.submitted, i ∈ settledIds s) := by
  intro s
  have h : Settled s := settled_run events
  obtain ⟨hsettled, -, hqueue⟩ := List.nodup_append.mp h.nodup
  obtain ⟨hids, -, -⟩ := List.nodup_append.mp hsettled
  have hcover : ∀ i < s.submitted, i ∈ settledIds s ∨ i ∈ inFlightIds s ∨ i ∈ s.proxyQueue.map (·.id) := by
    intro i hi
    rw [← List.mem_range, ← h.ids.mem_iff, List.mem_append, List.mem_append, or_assoc] at hi
    exact hi
  have hstarted : s.started.Pairwise (· < ·) := (List.pairwise_append.mp h.sorted).1
  have hdone : ∀ i o, (i, o) ∈ s.settled → i ∈ settledIds s := fun i o ho => List.mem_map_of_mem ho
  refine ⟨?_, hstarted, ?_, fun i m => h.not_started_of_aborted, ?_, hids, ?_⟩
  · have hsub : s.started.filter (· ∉ settledIds s) ⊆ inFlightIds s := by
      intro i hi
      obtain ⟨hi, hnot⟩ := List.mem_filter.mp hi
      obtain hrun | hok | hfail := (h.started_iff i).mp hi
      · exact hrun
      · exact absurd (hdone i _ hok) (of_decide_eq_true hnot)
      · exact absurd (hdone i _ hfail) (of_decide_eq_true hnot)
    have hnodup : (s.started.filter (· ∉ settledIds s)).Nodup :=
      (hstarted.imp fun hlt => Nat.ne_of_lt hlt).filter _
    refine (List.subperm_of_subset hnodup hsub).length_le.trans ?_
    rw [inFlightIds, List.length_map]
    exact Option.length_toList_le
  · intro j hj i hij
    have hjlt := h.lt_submitted (List.mem_append_left _ hj)
    obtain hset | hrun | hwait := hcover i (by omega)
    · obtain ⟨⟨i', o⟩, ho, rfl⟩ := List.mem_map.mp hset
      cases o with
      | resolved => exact .inl ((h.started_iff i').mpr (.inr (.inl ho)))
      | failed => exact .inl ((h.started_iff i').mpr (.inr (.inr ho)))
      | aborted m => exact .inr ⟨m, ho⟩
    · exact .inl ((h.started_iff i).mpr (.inl hrun))
    · have := (List.pairwise_append.mp h.sorted).2.2 j hj i hwait
      omega
  · intro e he habort later
    refine (doomed_run events later ⟨habort, fun hin => ?_, .inl he⟩).not_started
    have := (List.pairwise_append.mp h.sorted).2.2 e.id hin e.id (List.mem_map_of_mem he)
    omega
  · intro hidle
    have hnone : s.proxyInFlight = none := h.idle_of_not_draining (by simp [hidle])
    have hempty := h.idle hnone
    refine ⟨hempty, fun i hi => ?_⟩
    obtain hset | hrun | hwait := hcover i hi
    · exact hset
    · simp [inFlightIds, hnone] at hrun
    · simp [hempty] at hwait

/-- The job behind the running one is aborted, and the next one starts. -/
example : (run [.submit "a" none false, .submit "b" (some 0) false, .submit "c" none false, .fire 0,
    .notify ⟨1, "b", some 0, false⟩, .complete]).started = [0, 2] := by
  decide

end Lane

end Polaris.FmgWorker
