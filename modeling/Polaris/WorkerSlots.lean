import Polaris.Lib.Slots
import Polaris.Lib.Text

namespace Polaris.WorkerSlots

open Polaris.Lib.Slots Polaris.Lib.Text

abbrev Text := List Char

inductive WorkerSlotPrefix
  | probe
  | fast
  | telemetry
  | sysinfo
  | floating
  deriving DecidableEq

def WorkerSlotPrefix.text : WorkerSlotPrefix → Text
  | .probe => "probe".toList
  | .fast => "fast".toList
  | .telemetry => "telemetry".toList
  | .sysinfo => "sysinfo".toList
  | .floating => "floating".toList

structure WorkerSlotPool where
  kind : WorkerSlotPrefix
  letter : Char
  busy : List Bool
  deriving DecidableEq

def createWorkerSlotPool (kind : WorkerSlotPrefix) (size : Int) : Except String WorkerSlotPool :=
  if max 1 size < 2 ^ 32 then
    .ok ⟨kind, if kind = .floating then 'F' else 'W', List.replicate (max 1 size).toNat false⟩
  else .error "Invalid array length"

variable (pool : WorkerSlotPool)

def head : Text := pool.kind.text ++ ['-', pool.letter]

def padStart (width : Nat) (digits : Text) : Text := List.replicate (width - digits.length) '0' ++ digits

def formatSlotId (oneBasedIndex : Nat) : Text :=
  head pool ++ padStart (if 99 < pool.busy.length then 3 else 2) (Nat.toDigits 10 oneBasedIndex)

def fallbackId : Text := head pool ++ ['?']

def acquireWorkerSlot : WorkerSlotPool × Text :=
  match firstFree pool.busy with
  | some i => ({ pool with busy := pool.busy.set i true }, formatSlotId pool (i + 1))
  | none => (pool, fallbackId pool)

def parseSlotIndex (slotId : Text) : Int :=
  if (head pool).isPrefixOf slotId then
    let tail := slotId.drop (head pool).length
    if tail = ['?'] then -1
    else
      match parseInt tail with
      | some n => if n < 1 then -1 else n - 1
      | none => -1
  else -1

def releaseWorkerSlot (slotId : Text) : WorkerSlotPool :=
  let idx := parseSlotIndex pool slotId
  if idx < 0 ∨ (pool.busy.length : Int) ≤ idx then pool
  else { pool with busy := pool.busy.set idx.toNat false }

structure Lease where
  slot : Option Nat
  id : Text

structure Workers where
  pool : WorkerSlotPool
  outstanding : List Lease

inductive Op
  | acquire
  | release (holder : Nat)

def step (s : Workers) : Op → Workers
  | .acquire => ⟨(acquireWorkerSlot s.pool).1, ⟨firstFree s.pool.busy, (acquireWorkerSlot s.pool).2⟩ ::
    s.outstanding⟩
  | .release holder =>
    match s.outstanding[holder]? with
    | some l => ⟨releaseWorkerSlot s.pool l.id, s.outstanding.eraseIdx holder⟩
    | none => s

def run (s : Workers) (ops : List Op) : Workers := ops.foldl step s

section Format

variable {pool} {i n width : Nat}

theorem ofDigitChars_padStart : Nat.ofDigitChars 10 (padStart width (Nat.toDigits 10 n)) 0 = n := by
  have hzeros : ∀ k, Nat.ofDigitChars 10 (List.replicate k '0') 0 = 0 := by
    intro k
    induction k with
    | zero => rfl
    | succ k ih => rw [List.replicate_succ, Nat.ofDigitChars_cons]; exact ih
  rw [padStart, Nat.ofDigitChars_append, hzeros, Nat.ofDigitChars_ten_toDigits]

theorem parseInt_padStart : parseInt (padStart width (Nat.toDigits 10 n)) = some (n : Int) := by
  have hne : padStart width (Nat.toDigits 10 n) ≠ [] := fun h =>
    Nat.toDigits_ne_nil (List.append_eq_nil_iff.mp h).2
  have hall : ∀ c ∈ padStart width (Nat.toDigits 10 n), c.isDigit = true := by
    intro c hc
    obtain hc | hc := List.mem_append.mp hc
    · rw [List.eq_of_mem_replicate hc]
      rfl
    · exact isDigit_of_mem_decimal hc
  rw [parseInt_isDigit hne hall, ofDigitChars_padStart]

theorem padStart_ne : padStart width (Nat.toDigits 10 n) ≠ ['?'] := by
  intro h
  have hparse : parseInt (padStart width (Nat.toDigits 10 n)) = some (n : Int) := parseInt_padStart
  have hnone : parseInt ['?'] = none := by decide
  rw [h, hnone] at hparse
  cases hparse

theorem parse_format (i : Nat) : parseSlotIndex pool (formatSlotId pool (i + 1)) = i := by
  have hpre : (head pool).isPrefixOf (formatSlotId pool (i + 1)) = true :=
    List.isPrefixOf_iff_prefix.mpr (List.prefix_append _ _)
  rw [parseSlotIndex, if_pos hpre]
  simp only [formatSlotId, List.drop_left, padStart_ne, if_false, parseInt_padStart]
  rw [if_neg (by omega)]
  omega

theorem parse_fallback : parseSlotIndex pool (fallbackId pool) = -1 := by
  have hpre : (head pool).isPrefixOf (fallbackId pool) = true :=
    List.isPrefixOf_iff_prefix.mpr (List.prefix_append _ _)
  rw [parseSlotIndex, if_pos hpre]
  simp only [fallbackId, List.drop_left, if_true]

end Format

section Runs

variable {pool : WorkerSlotPool} {s : Workers} {i : Nat} {l : Lease}

theorem release_format (hi : i < pool.busy.length) :
    releaseWorkerSlot pool (formatSlotId pool (i + 1)) = { pool with busy := pool.busy.set i false } := by
  rw [releaseWorkerSlot]
  simp only [parse_format, Int.toNat_natCast]
  rw [if_neg (by omega)]

theorem release_fallback : releaseWorkerSlot pool (fallbackId pool) = pool := by
  rw [releaseWorkerSlot]
  simp only [parse_fallback]
  rw [if_pos (by omega)]

theorem format_ne_fallback : formatSlotId pool (i + 1) ≠ fallbackId pool := by
  intro h
  have hindex := congrArg (parseSlotIndex pool) h
  rw [parse_format, parse_fallback] at hindex
  omega

theorem format_injective {j : Nat} (h : formatSlotId pool (i + 1) = formatSlotId pool (j + 1)) : i = j := by
  have hindex := congrArg (parseSlotIndex pool) h
  rw [parse_format, parse_format] at hindex
  exact_mod_cast hindex

def idOf (pool : WorkerSlotPool) : Option Nat → Text
  | some i => formatSlotId pool (i + 1)
  | none => fallbackId pool

theorem idOf_set {busy : List Bool} (h : busy.length = pool.busy.length) (slot : Option Nat) :
    idOf { pool with busy := busy } slot = idOf pool slot := by
  cases slot with
  | none => rfl
  | some i =>
    rw [idOf, formatSlotId]
    simp only [h]
    rfl

theorem idOf_eq_fallback (slot : Option Nat) : idOf pool slot = fallbackId pool ↔ slot = none := by
  cases slot with
  | none => exact ⟨fun _ => rfl, fun _ => rfl⟩
  | some i => exact ⟨fun h => absurd h format_ne_fallback, fun h => by cases h⟩

theorem acquire_eq : acquireWorkerSlot pool =
    ({ pool with busy := (firstFree pool.busy).elim pool.busy (pool.busy.set · true) },
      idOf pool (firstFree pool.busy)) := by
  rw [acquireWorkerSlot]
  cases firstFree pool.busy with
  | none => rfl
  | some i => rfl

def slots (s : Workers) : List Nat := s.outstanding.filterMap (·.slot)

/-- The busy slots are the ones of the outstanding leases, and each lease has
the id of its slot. -/
structure Inv (s : Workers) : Prop where
  exact : Exact s.pool.busy (slots s)
  ids : ∀ l ∈ s.outstanding, l.id = idOf s.pool l.slot

theorem Inv.acquire (h : Inv s) : Inv (step s .acquire) := by
  rw [step, acquire_eq]
  cases hfree : firstFree s.pool.busy with
  | none => exact ⟨h.exact, List.forall_mem_cons.mpr ⟨rfl, h.ids⟩⟩
  | some i =>
    have hid (slot : Option Nat) :
      idOf { s.pool with busy := s.pool.busy.set i true } slot = idOf s.pool slot :=
      idOf_set List.length_set slot
    exact ⟨h.exact.acquire hfree, List.forall_mem_cons.mpr ⟨(hid (some i)).symm,
      fun l hl => (h.ids l hl).trans (hid _).symm⟩⟩

theorem release_idOf {slot : Option Nat} (h : ∀ i, slot = some i → i < pool.busy.length) :
    releaseWorkerSlot pool (idOf pool slot) =
      { pool with busy := slot.elim pool.busy (pool.busy.set · false) } := by
  cases slot with
  | none => exact release_fallback
  | some i => exact release_format (h i rfl)

theorem slots_perm {k : Nat} (hl : s.outstanding[k]? = some l) :
    (slots s).Perm (l.slot.toList ++ (s.outstanding.eraseIdx k).filterMap (·.slot)) := by
  obtain ⟨hk, rfl⟩ := List.getElem?_eq_some_iff.mp hl
  have hperm := (List.getElem_cons_eraseIdx_perm hk).symm.filterMap (·.slot)
  refine hperm.trans (List.Perm.of_eq ?_)
  cases hslot : s.outstanding[k].slot with
  | none => rw [List.filterMap_cons_none hslot]; rfl
  | some i => rw [List.filterMap_cons_some hslot]; rfl

theorem Inv.taken (h : Inv s) (hl : l ∈ s.outstanding) (hi : l.slot = some i) : s.pool.busy[i]? = some true :=
  (h.exact.mem i).mp (List.mem_filterMap.mpr ⟨l, hl, hi⟩)

theorem Inv.release_eq (h : Inv s) (hl : l ∈ s.outstanding) :
    releaseWorkerSlot s.pool l.id =
      { s.pool with busy := l.slot.elim s.pool.busy (s.pool.busy.set · false) } := by
  rw [h.ids l hl]
  exact release_idOf fun i hi => (List.getElem?_eq_some_iff.mp (h.taken hl hi)).1

theorem Inv.release (h : Inv s) (holder : Nat) : Inv (step s (.release holder)) := by
  rw [step]
  cases hl : s.outstanding[holder]? with
  | none => exact h
  | some l =>
    have hids : ∀ m ∈ s.outstanding.eraseIdx holder, m.id = idOf s.pool m.slot := fun m hm =>
      h.ids m (List.mem_of_mem_eraseIdx hm)
    have hexact := h.exact.perm (slots_perm hl)
    dsimp only
    rw [h.release_eq (List.mem_of_getElem? hl)]
    cases hslot : l.slot with
    | none => rw [hslot] at hexact; exact ⟨hexact, hids⟩
    | some i =>
      rw [hslot] at hexact
      exact ⟨hexact.release, fun m hm => (hids m hm).trans (idOf_set List.length_set _).symm⟩

theorem Inv.step (h : Inv s) (op : Op) : Inv (step s op) := by
  cases op with
  | acquire => exact h.acquire
  | release holder => exact h.release holder

theorem Inv.run (h : Inv s) (ops : List Op) : Inv (run s ops) := by
  induction ops generalizing s with
  | nil => exact h
  | cons op ops ih => exact ih (h.step op)

theorem inv_create {kind : WorkerSlotPrefix} {size : Int} (h : createWorkerSlotPool kind size = .ok pool) :
    Inv ⟨pool, []⟩ := by
  rw [createWorkerSlotPool] at h
  split at h
  · cases h
    exact ⟨exact_replicate _, fun l hl => absurd hl List.not_mem_nil⟩
  · cases h

end Runs

section Exclusive

variable {pool : WorkerSlotPool} {s : Workers} {kind : WorkerSlotPrefix} {size : Int}

def held (s : Workers) : List Lease := s.outstanding.filter (·.id ≠ fallbackId s.pool)

theorem map_held {leases : List Lease} (h : ∀ l ∈ leases, l.id = idOf pool l.slot) :
    (leases.filter (·.id ≠ fallbackId pool)).map (·.id) =
      (leases.filterMap (·.slot)).map fun i => formatSlotId pool (i + 1) := by
  induction leases with
  | nil => rfl
  | cons l leases ih =>
    obtain ⟨hl, hrest⟩ := List.forall_mem_cons.mp h
    cases hslot : l.slot with
    | none =>
      have hid : l.id = fallbackId pool := by rw [hl, hslot]; rfl
      rw [List.filterMap_cons_none hslot, List.filter_cons_of_neg (by simpa using hid), ih hrest]
    | some i =>
      have hid : l.id = formatSlotId pool (i + 1) := by rw [hl, hslot]; rfl
      have hne : l.id ≠ fallbackId pool := hid ▸ format_ne_fallback
      rw [List.filterMap_cons_some hslot, List.filter_cons_of_pos (by simpa using hne), List.map_cons,
        List.map_cons,
        ih hrest, hid]

theorem length_step (s : Workers) (op : Op) : (step s op).pool.busy.length = s.pool.busy.length := by
  cases op with
  | acquire =>
    rw [step, acquire_eq]
    cases firstFree s.pool.busy with
    | none => rfl
    | some i => exact List.length_set
  | release holder =>
    rw [step]
    cases s.outstanding[holder]? with
    | none => rfl
    | some l =>
      dsimp only [releaseWorkerSlot]
      split
      · rfl
      · exact List.length_set

theorem length_run (s : Workers) (ops : List Op) : (run s ops).pool.busy.length = s.pool.busy.length := by
  induction ops generalizing s with
  | nil => rfl
  | cons op ops ih => exact (ih (step s op)).trans (length_step s op)

theorem length_create (h : createWorkerSlotPool kind size = .ok pool) :
    pool.busy.length = (max 1 size).toNat := by
  rw [createWorkerSlotPool] at h
  split at h
  · cases h
    exact List.length_replicate
  · cases h

/-- Whatever the size and the order, no slot is handed out twice. -/
theorem slots_exclusive (h : createWorkerSlotPool kind size = .ok pool) (ops : List Op) :
    let s := run ⟨pool, []⟩ ops
    s.pool.busy.length = (max 1 size).toNat ∧ ((held s).map (·.id)).Nodup ∧
      s.pool.busy.count true = (held s).length ∧
      ((acquireWorkerSlot s.pool).2 = fallbackId s.pool ↔ ∀ b ∈ s.pool.busy, b = true) ∧
      (∀ l ∈ s.outstanding, ∀ i, l.slot = some i → s.pool.busy[i]? = some true ∧
        releaseWorkerSlot s.pool l.id = { s.pool with busy := s.pool.busy.set i false }) ∧
      (∀ l ∈ s.outstanding, l.slot = none → l.id = fallbackId s.pool ∧
        releaseWorkerSlot s.pool l.id = s.pool) ∧
      ∀ i, parseSlotIndex s.pool (formatSlotId s.pool (i + 1)) = i := by
  intro s
  have hinv : Inv s := (inv_create h).run ops
  have hheld : (held s).map (·.id) = (slots s).map fun i => formatSlotId s.pool (i + 1) := map_held hinv.ids
  refine ⟨?_, ?_, ?_, ?_, fun l hl i hi => ⟨hinv.taken hl hi, ?_⟩, fun l hl hi => ⟨?_, ?_⟩, parse_format⟩
  · exact (length_run _ ops).trans (length_create h)
  · rw [hheld]
    exact hinv.exact.nodup.map fun _ _ => format_injective
  · have hlength := congrArg List.length hheld
    rw [List.length_map, List.length_map] at hlength
    rw [hlength, hinv.exact.count]
  · rw [acquire_eq, idOf_eq_fallback, firstFree_eq_none]
  · rw [hinv.release_eq hl, hi]
    rfl
  · rw [hinv.ids l hl, hi]
    rfl
  · rw [hinv.release_eq hl, hi]
    rfl

def twoSlots : WorkerSlotPool := ⟨.floating, 'F', [false, false]⟩

/-- Of three workers one is left with the fallback, and the first leaves. -/
theorem slots_exclusive_two :
    let s := run ⟨twoSlots, []⟩ [.acquire, .acquire, .acquire, .release 2]
    s.outstanding.map (·.slot) = [none, some 1] ∧
      s.pool.busy.length = 2 ∧ ((held s).map (·.id)).Nodup ∧ s.pool.busy.count true = (held s).length ∧
      ((acquireWorkerSlot s.pool).2 = fallbackId s.pool ↔ ∀ b ∈ s.pool.busy, b = true) ∧
      (∀ l ∈ s.outstanding, ∀ i, l.slot = some i → s.pool.busy[i]? = some true ∧
        releaseWorkerSlot s.pool l.id = { s.pool with busy := s.pool.busy.set i false }) ∧
      (∀ l ∈ s.outstanding, l.slot = none → l.id = fallbackId s.pool ∧
        releaseWorkerSlot s.pool l.id = s.pool) ∧
      ∀ i, parseSlotIndex s.pool (formatSlotId s.pool (i + 1)) = i :=
  ⟨by decide +kernel, slots_exclusive (show createWorkerSlotPool .floating 2 = .ok twoSlots from rfl) _⟩

end Exclusive

end Polaris.WorkerSlots
