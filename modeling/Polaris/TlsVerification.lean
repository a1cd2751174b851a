import Mathlib.Data.List.Nodup
import Mathlib.Data.List.Pairwise
import Polaris.Lib.Runs

namespace Polaris.TlsVerification

open Polaris.Lib.Runs

inductive Caller
  | rpcInner | fgRequest
  deriving DecidableEq

/-- A request between its start and its `finally`, with the value it saved. -/
structure Request where
  id : Nat
  caller : Caller
  verifySsl : Option Bool
  prevTls : Option String
  deriving DecidableEq

/-- A connection that was made, with the value it met. A client of the
process other than the two has no setting of its own. -/
structure Connection where
  verifySsl : Option Bool
  met : Option String
  deriving DecidableEq

/-- The process with its `NODE_TLS_REJECT_UNAUTHORIZED`. The requests in
flight are listed newest first. -/
structure Process where
  rejectUnauthorized : Option String := none
  inFlight : List Request := []
  started : Nat := 0
  connections : List Connection := []
  deriving DecidableEq

namespace Process

variable (p : Process)

def start (caller : Caller) (verifySsl : Option Bool) : Process :=
  { p with
    rejectUnauthorized := if verifySsl = some false then some "0" else p.rejectUnauthorized
    inFlight := ⟨p.started, caller, verifySsl, p.rejectUnauthorized⟩ :: p.inFlight
    started := p.started + 1 }

def rpcInner (verifySsl : Option Bool) : Process := p.start .rpcInner verifySsl

def fgRequest (verifySsl : Option Bool) : Process := p.start .fgRequest verifySsl

def connect (verifySsl : Option Bool) : Process :=
  { p with connections := ⟨verifySsl, p.rejectUnauthorized⟩ :: p.connections }

def settle (r : Request) : Process :=
  { p with
    rejectUnauthorized := if r.verifySsl = some false then r.prevTls else p.rejectUnauthorized
    inFlight := p.inFlight.filter (·.id ≠ r.id) }

def find (id : Nat) : Option Request := p.inFlight.find? (·.id = id)

end Process

/-- A request in flight connects any number of times, or never, before it
settles. -/
inductive Event
  | rpcInner (verifySsl : Option Bool)
  | fgRequest (verifySsl : Option Bool)
  | connect (id : Nat)
  | other
  | settle (id : Nat)

def step (p : Process) : Event → Process
  | .rpcInner verifySsl => p.rpcInner verifySsl
  | .fgRequest verifySsl => p.fgRequest verifySsl
  | .connect id =>
    match p.find id with
    | none => p
    | some r => p.connect r.verifySsl
  | .other => p.connect none
  | .settle id =>
    match p.find id with
    | none => p
    | some r => p.settle r

def run (events : List Event) : Process := events.foldl step {}

/-- Verification is on again once all is quiet, and was never off for a client
that had not asked for it. -/
def Verified (p : Process) : Prop :=
  (p.inFlight = [] → p.rejectUnauthorized = none) ∧
    ∀ c ∈ p.connections, c.verifySsl ≠ some false → c.met ≠ some "0"

def insecure (r : Request) : Bool := r.verifySsl = some false

/-- The requests that verify nothing settle in the reverse of the order they
started in, and no other client connects meanwhile. -/
def Nested (p : Process) : Event → Prop
  | .rpcInner _ | .fgRequest _ => True
  | .connect id => ∀ r ∈ p.find id, insecure r = false → ∀ q ∈ p.inFlight, insecure q = false
  | .other => ∀ q ∈ p.inFlight, insecure q = false
  | .settle id => ∀ r ∈ p.find id, insecure r → ∀ q ∈ p.inFlight, insecure q → q.id ≤ id

instance (p : Process) : ∀ e, Decidable (Nested p e)
  | .rpcInner _ | .fgRequest _ => inferInstanceAs (Decidable True)
  | .connect id => inferInstanceAs (Decidable (∀ r ∈ p.find id, insecure r = false → _))
  | .other => inferInstanceAs (Decidable (∀ q ∈ p.inFlight, insecure q = false))
  | .settle id => inferInstanceAs (Decidable (∀ r ∈ p.find id, insecure r → _))

section Stack

variable {p : Process} {r : Request} {rs : List Request} {value : Option String}

/-- Every request found the value that its predecessor had left. -/
def Saved : List Request → Option String → Prop
  | [], value => value = none
  | r :: rs, value => value = some "0" ∧ Saved rs r.prevTls

structure Stacked (p : Process) : Prop where
  saved : Saved (p.inFlight.filter insecure) p.rejectUnauthorized
  sorted : p.inFlight.Pairwise fun q r => r.id < q.id
  bound : ∀ r ∈ p.inFlight, r.id < p.started
  verified : ∀ c ∈ p.connections, c.verifySsl ≠ some false → c.met ≠ some "0"

theorem saved_none (h : Saved rs value) (hnone : ∀ r ∈ rs, insecure r = false)
    (hrs : ∀ r ∈ rs, insecure r) : value = none := by
  cases rs with
  | nil => exact h
  | cons r rs =>
    have hr := hnone r List.mem_cons_self
    rw [hrs r List.mem_cons_self] at hr
    cases hr

theorem Stacked.unset (h : Stacked p) (hnone : ∀ r ∈ p.inFlight, insecure r = false) :
    p.rejectUnauthorized = none := by
  refine saved_none h.saved (fun r hr => hnone r (List.mem_filter.mp hr).1) fun r hr => ?_
  exact (List.mem_filter.mp hr).2

theorem stacked_start (h : Stacked p) (caller : Caller) (verifySsl : Option Bool) :
    Stacked (p.start caller verifySsl) := by
  refine ⟨?_, ?_, ?_, h.verified⟩
  · by_cases hv : verifySsl = some false
    · simp only [Process.start, insecure, hv, decide_true, List.filter_cons_of_pos, if_true]
      exact ⟨rfl, h.saved⟩
    · simp only [Process.start, insecure, hv, decide_false, Bool.false_eq_true, not_false_eq_true,
        List.filter_cons_of_neg, if_false]
      exact h.saved
  · exact List.pairwise_cons.mpr ⟨fun r hr => h.bound r hr, h.sorted⟩
  · intro r hr
    obtain rfl | hr := List.mem_cons.mp hr
    · exact Nat.lt_succ_self _
    · exact Nat.lt_succ_of_lt (h.bound r hr)

theorem stacked_connect {verifySsl : Option Bool} (h : Stacked p)
    (hnone : verifySsl ≠ some false → ∀ q ∈ p.inFlight, insecure q = false) :
    Stacked (p.connect verifySsl) := by
  refine ⟨h.saved, h.sorted, h.bound, fun c hc hv => ?_⟩
  obtain rfl | hc := List.mem_cons.mp hc
  · rw [h.unset (hnone hv)]
    exact nofun
  · exact h.verified c hc hv

theorem insecure_cons (h : Stacked p) (hr : r ∈ p.inFlight) (hi : insecure r)
    (hnew : ∀ q ∈ p.inFlight, insecure q → q.id ≤ r.id) :
    ∃ rs, p.inFlight.filter insecure = r :: rs ∧
      (p.inFlight.filter (·.id ≠ r.id)).filter insecure = rs := by
  have hmem : r ∈ p.inFlight.filter insecure := List.mem_filter.mpr ⟨hr, hi⟩
  have hsorted := h.sorted.filter insecure
  rw [List.filter_comm]
  cases hl : p.inFlight.filter insecure with
  | nil =>
    rw [hl] at hmem
    cases hmem
  | cons q rs =>
    rw [hl] at hmem hsorted
    have hq : q ∈ p.inFlight ∧ insecure q := by
      rw [← List.mem_filter, hl]
      exact List.mem_cons_self
    obtain ⟨hlt, -⟩ := List.pairwise_cons.mp hsorted
    obtain rfl | hmem := List.mem_cons.mp hmem
    · refine ⟨rs, rfl, ?_⟩
      rw [List.filter_cons_of_neg (by simp), List.filter_eq_self]
      intro x hx
      simpa using Nat.ne_of_lt (hlt x hx)
    · have hle := hnew q hq.1 hq.2
      have hlt := hlt r hmem
      omega

theorem stacked_settle (h : Stacked p) (hr : r ∈ p.inFlight)
    (hnew : insecure r → ∀ q ∈ p.inFlight, insecure q → q.id ≤ r.id) : Stacked (p.settle r) := by
  refine ⟨?_, h.sorted.filter _, fun q hq => h.bound q (List.mem_filter.mp hq).1, h.verified⟩
  by_cases hi : r.verifySsl = some false
  · obtain ⟨rs, hl, hrest⟩ := insecure_cons h hr (decide_eq_true hi) (hnew (decide_eq_true hi))
    have hsaved := h.saved
    rw [hl] at hsaved
    simp only [Process.settle, hrest, hi, if_true]
    exact hsaved.2
  · have hsame : (p.inFlight.filter (·.id ≠ r.id)).filter insecure = p.inFlight.filter insecure := by
      rw [List.filter_comm, List.filter_eq_self]
      intro q hq
      obtain ⟨hq, hqi⟩ := List.mem_filter.mp hq
      refine decide_eq_true fun hid => hi ?_
      have hnodup : (p.inFlight.map Request.id).Nodup :=
        List.pairwise_map.mpr (h.sorted.imp fun hlt => (Nat.ne_of_lt hlt).symm)
      exact List.inj_on_of_nodup_map hnodup hq hr hid ▸ of_decide_eq_true hqi
    simp only [Process.settle, hsame, hi, if_false]
    exact h.saved

theorem find_mem {id : Nat} (h : p.find id = some r) : r ∈ p.inFlight ∧ r.id = id :=
  ⟨List.mem_of_find?_eq_some h, by simpa using List.find?_some h⟩

theorem stacked_step (p : Process) (e : Event) (h : Stacked p) (hc : Nested p e) : Stacked (step p e) := by
  cases e with
  | rpcInner verifySsl => exact stacked_start h .rpcInner verifySsl
  | fgRequest verifySsl => exact stacked_start h .fgRequest verifySsl
  | connect id =>
    simp only [step]
    cases hr : p.find id with
    | none => exact h
    | some r => exact stacked_connect h fun hv => hc r hr (decide_eq_false hv)
  | other => exact stacked_connect h fun _ => hc
  | settle id =>
    simp only [step]
    cases hr : p.find id with
    | none => exact h
    | some r =>
      obtain ⟨hmem, hid⟩ := find_mem hr
      exact stacked_settle h hmem (hid ▸ hc r hr)

end Stack

/-- In every run of nested requests verification is never left off. -/
theorem verification_restored (events : List Event) (h : Along step Nested {} events) :
    Verified (run events) := by
  have hstart : Stacked {} := ⟨rfl, List.Pairwise.nil, nofun, nofun⟩
  have hrun : Stacked (run events) := foldl_invariant stacked_step hstart h
  refine ⟨fun hnone => hrun.unset fun r hr => ?_, hrun.verified⟩
  rw [hnone] at hr
  cases hr

theorem verification_restored_nested :
    Verified (run [.rpcInner (some false), .fgRequest (some false), .connect 1, .settle 1, .connect 0,
      .settle 0, .fgRequest none, .connect 2, .settle 2, .other]) :=
  verification_restored _ (by decide)

/-- Two requests that overlap and settle in the order they started in leave
verification off. -/
theorem overlap_leaves_verification_off :
    (run [.rpcInner (some false), .fgRequest (some false), .settle 0, .settle 1]).inFlight = [] ∧
      ¬ Verified (run [.rpcInner (some false), .fgRequest (some false), .settle 0, .settle 1]) := by
  have hquiet : (run [.rpcInner (some false), .fgRequest (some false), .settle 0, .settle 1]).inFlight =
    [] := by
    decide
  refine ⟨hquiet, fun h => ?_⟩
  have hleft := h.1 hquiet
  revert hleft
  decide

end Polaris.TlsVerification
