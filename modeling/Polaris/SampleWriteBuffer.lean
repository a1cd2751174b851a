import Polaris.Lib.Runs
import Mathlib.Data.List.Infix
import Mathlib.Data.Multiset.AddSub
import Mathlib.Logic.Function.Basic

namespace Polaris.SampleWriteBuffer

open Polaris.Lib.Runs

section Retry

/-- The fields of a thrown error that the retry helper looks at. -/
structure WriteError where
  code : Option String := none
  originalCode : Option String := none
  causeCode : Option String := none
  message : String := ""
  deriving DecidableEq

def extractPgCode (err : WriteError) : Option String :=
  if err.code = some "40P01" then some "40P01"
  else if err.originalCode = some "40P01" then some "40P01"
  else if err.causeCode = some "40P01" then some "40P01"
  else if err.message.toList.tails.any fun rest =>
    "deadlock detected".toList.isPrefixOf rest then some "40P01"
  else none

/-- How a call of the retry helper goes on. -/
inductive Retry
  | returns
  | throws
  | backsOff (attempt : Nat)
  | attempts (attempt : Nat)

def attemptSettled (attempt : Nat) : Except WriteError Unit → Retry
  | .ok () => .returns
  | .error err => if extractPgCode err = some "40P01" then .backsOff (attempt + 1) else .throws

def backoffOver (attempt : Nat) : Retry := if attempt < 4 then .attempts attempt else .throws

end Retry

section Tables

structure Flush (ρ : Type) where
  id : Nat
  batch : List ρ
  attempt : Nat := 0
  waiting : Bool := false

structure TableState (ρ : Type) where
  buffer : List ρ := []
  flushing : Bool := false
  inFlight : List (Flush ρ) := []
  stored : List ρ := []

variable {ρ : Type} (t : TableState ρ)

def TableState.push (rows : List ρ) : TableState ρ := { t with buffer := t.buffer ++ rows }

def TableState.splice (id : Nat) : TableState ρ :=
  { t with buffer := [], flushing := true, inFlight := t.inFlight ++ [{ id := id, batch := t.buffer }] }

def TableState.resume (f : Flush ρ) : Retry → TableState ρ
  | .returns =>
    { t with flushing := false, inFlight := t.inFlight.filter (·.id ≠ f.id), stored := t.stored ++ f.batch }
  | .throws =>
    { t with buffer := f.batch ++ t.buffer, flushing := false, inFlight := t.inFlight.filter (·.id ≠ f.id) }
  | .backsOff attempt =>
    { t with inFlight :=
      t.inFlight.map fun g => if g.id = f.id then { g with attempt := attempt, waiting := true } else g }
  | .attempts attempt =>
    { t with inFlight :=
      t.inFlight.map fun g => if g.id = f.id then { g with attempt := attempt, waiting := false } else g }

/-- The rows a table has taken, the oldest first. -/
def TableState.held : List ρ := t.stored ++ t.inFlight.flatMap Flush.batch ++ t.buffer

/-- The flag of a table tells of the one flush that may be under way. -/
structure TableState.Guarded : Prop where
  atMostOne : t.inFlight.length ≤ 1
  flag : t.flushing = !t.inFlight.isEmpty

variable {t} {f : Flush ρ}

theorem TableState.Guarded.idle (h : t.Guarded) (hflag : t.flushing = false) : t.inFlight = [] := by
  have hempty := h.flag
  rw [hflag] at hempty
  cases hin : t.inFlight with
  | nil => rfl
  | cons f rest =>
    rw [hin] at hempty
    cases hempty

theorem TableState.Guarded.only (h : t.Guarded) (hf : f ∈ t.inFlight) : t.inFlight = [f] := by
  have hlen := h.atMostOne
  cases hin : t.inFlight with
  | nil => exact absurd (hin ▸ hf) List.not_mem_nil
  | cons g rest =>
    rw [hin, List.length_cons] at hlen
    have hnil : rest = [] := List.length_eq_zero_iff.mp (by omega)
    rw [hin, hnil] at hf
    rw [hnil, List.mem_singleton.mp hf]

theorem TableState.Guarded.splice (h : t.Guarded) (hflag : t.flushing = false) (id : Nat) :
    (t.splice id).Guarded := by
  constructor
  · rw [TableState.splice, h.idle hflag]
    exact Nat.le_refl 1
  · rw [TableState.splice, h.idle hflag]
    rfl

theorem TableState.held_splice (h : t.Guarded) (hflag : t.flushing = false)
    (id : Nat) : (t.splice id).held = t.held := by
  rw [TableState.held, TableState.held, TableState.splice, h.idle hflag]
  simp

theorem TableState.held_push (rows : List ρ) : (t.push rows).held = t.held ++ rows :=
  (List.append_assoc _ _ _).symm

theorem TableState.Guarded.resume (h : t.Guarded) (hf : f ∈ t.inFlight) (r : Retry) :
    (t.resume f r).Guarded := by
  have honly := h.only hf
  have hflag : t.flushing = true := by rw [h.flag, honly]; rfl
  cases r with
  | returns => exact ⟨by simp [TableState.resume, honly], by simp [TableState.resume, honly]⟩
  | throws => exact ⟨by simp [TableState.resume, honly], by simp [TableState.resume, honly]⟩
  | backsOff n => exact ⟨by simp [TableState.resume, honly], by simp [TableState.resume, honly, hflag]⟩
  | attempts n => exact ⟨by simp [TableState.resume, honly], by simp [TableState.resume, honly, hflag]⟩

/-- A failed batch goes back in front of the rows that came after it. -/
theorem TableState.held_resume (h : t.Guarded) (hf : f ∈ t.inFlight) (r : Retry) :
    (t.resume f r).held = t.held := by
  have honly := h.only hf
  cases r with
  | returns => simp [TableState.resume, TableState.held, honly]
  | throws => simp [TableState.resume, TableState.held, honly]
  | backsOff n => simp [TableState.resume, TableState.held, honly]
  | attempts n => simp [TableState.resume, TableState.held, honly]

end Tables

section Buffers

inductive BufferKey
  | monitor | telemetry | temperature | iface | storage | ipsecTunnel
  deriving DecidableEq

def TABLE_LABEL : BufferKey → String
  | .monitor => "asset_monitor_samples"
  | .telemetry => "asset_telemetry_samples"
  | .temperature => "asset_temperature_samples"
  | .iface => "asset_interface_samples"
  | .storage => "asset_storage_samples"
  | .ipsecTunnel => "asset_ipsec_tunnel_samples"

def bufferKeys : List BufferKey := [.monitor, .telemetry, .temperature, .iface, .storage, .ipsecTunnel]

def SIZE_THRESHOLD : Nat := 5000

structure State (Row : BufferKey → Type) where
  table : (k : BufferKey) → TableState (Row k) := fun _ => {}
  depth : String → Nat := fun _ => 0
  flushTimer : Bool := false
  nextFlush : Nat := 0

variable {Row : BufferKey → Type}

def setSampleBufferDepth (s : State Row) (table : String) (depth : Nat) : State Row :=
  { s with depth := Function.update s.depth table depth }

def setTable (s : State Row) (k : BufferKey) (t : TableState (Row k)) : State Row :=
  { s with table := Function.update s.table k t }

/-- Runs a flush up to its first wait. With no flush to wait for, its promise
is resolved at once. -/
def flushTable (k : BufferKey) (s : State Row) : State Row × Option Nat :=
  if (s.table k).flushing then (s, none)
  else if (s.table k).buffer.isEmpty then (s, none)
  else
    let s' := setSampleBufferDepth (setTable s k ((s.table k).splice s.nextFlush)) (TABLE_LABEL k) 0
    ({ s' with nextFlush := s.nextFlush + 1 }, some s.nextFlush)

def pushRows (k : BufferKey) (rows : List (Row k)) (s : State Row) : State Row :=
  let t := (s.table k).push rows
  let s' := setSampleBufferDepth (setTable s k t) (TABLE_LABEL k) t.buffer.length
  if t.buffer.length ≥ SIZE_THRESHOLD then (flushTable k s').1 else s'

def enqueueSample (k : BufferKey) (row : Row k) (s : State Row) : State Row := pushRows k [row] s

def enqueueSamples (k : BufferKey) (rows : List (Row k)) (s : State Row) : State Row :=
  if rows.isEmpty then s else pushRows k rows s

def enqueueMonitorSample : Row .monitor → State Row → State Row := enqueueSample .monitor
def enqueueTelemetrySample : Row .telemetry → State Row → State Row := enqueueSample .telemetry
def enqueueTemperatureSamples : List (Row .temperature) → State Row → State Row := enqueueSamples .temperature
def enqueueInterfaceSamples : List (Row .iface) → State Row → State Row := enqueueSamples .iface
def enqueueStorageSamples : List (Row .storage) → State Row → State Row := enqueueSamples .storage
def enqueueIpsecTunnelSamples : List (Row .ipsecTunnel) → State Row → State Row := enqueueSamples .ipsecTunnel

def flushTables : List BufferKey → State Row → State Row × List Nat
  | [], s => (s, [])
  | k :: ks, s =>
    let (s', started) := flushTable k s
    let (s'', awaited) := flushTables ks s'
    (s'', started.toList ++ awaited)

def flushAllSampleBuffers (s : State Row) : State Row × List Nat := flushTables bufferKeys s

def startSampleWriteBuffer (s : State Row) : State Row := { s with flushTimer := true }

def shutdownFlushSampleBuffers (s : State Row) : State Row × List Nat :=
  flushAllSampleBuffers { s with flushTimer := false }

/-- A suspended flush goes on. A failed one sets its gauge anew. -/
def resume (k : BufferKey) (f : Flush (Row k)) (r : Retry) (s : State Row) : State Row :=
  let t := (s.table k).resume f r
  match r with
  | .throws => setSampleBufferDepth (setTable s k t) (TABLE_LABEL k) t.buffer.length
  | _ => setTable s k t

/-- What the process does next: a row or a batch is enqueued, the timer is
started or ticks, somebody flushes, or a suspended flush hears of its write
or of the end of its backoff. -/
inductive Event (Row : BufferKey → Type)
  | enqueueMonitorSample (row : Row .monitor)
  | enqueueTelemetrySample (row : Row .telemetry)
  | enqueueTemperatureSamples (rows : List (Row .temperature))
  | enqueueInterfaceSamples (rows : List (Row .iface))
  | enqueueStorageSamples (rows : List (Row .storage))
  | enqueueIpsecTunnelSamples (rows : List (Row .ipsecTunnel))
  | start
  | tick
  | flush (k : BufferKey)
  | flushAll
  | shutdown
  | writeSettled (k : BufferKey) (id : Nat) (outcome : Except WriteError Unit)
  | backoffOver (k : BufferKey) (id : Nat)

def step (s : State Row) : Event Row → State Row
  | .enqueueMonitorSample row => enqueueMonitorSample row s
  | .enqueueTelemetrySample row => enqueueTelemetrySample row s
  | .enqueueTemperatureSamples rows => enqueueTemperatureSamples rows s
  | .enqueueInterfaceSamples rows => enqueueInterfaceSamples rows s
  | .enqueueStorageSamples rows => enqueueStorageSamples rows s
  | .enqueueIpsecTunnelSamples rows => enqueueIpsecTunnelSamples rows s
  | .start => startSampleWriteBuffer s
  | .tick => if s.flushTimer then (flushAllSampleBuffers s).1 else s
  | .flush k => (flushTable k s).1
  | .flushAll => (flushAllSampleBuffers s).1
  | .shutdown => (shutdownFlushSampleBuffers s).1
  | .writeSettled k id outcome =>
    match (s.table k).inFlight.find? fun f => f.id = id && !f.waiting with
    | some f => resume k f (attemptSettled f.attempt outcome) s
    | none => s
  | .backoffOver k id =>
    match (s.table k).inFlight.find? fun f => f.id = id && f.waiting with
    | some f => resume k f (SampleWriteBuffer.backoffOver f.attempt) s
    | none => s

end Buffers

section Steps

variable {Row : BufferKey → Type} {s : State Row} {k j : BufferKey}

theorem label_injective (h : TABLE_LABEL j = TABLE_LABEL k) : j = k := by
  revert h
  cases j <;> cases k <;> decide

theorem mem_bufferKeys : ∀ k, k ∈ bufferKeys := by
  intro k
  cases k <;> decide

/-- What holds of the buffers between any two steps. -/
structure State.Sound (s : State Row) : Prop where
  guarded : ∀ k, (s.table k).Guarded
  fresh : ∀ k, ∀ f ∈ (s.table k).inFlight, f.id < s.nextFlush
  gauge : ∀ k, s.depth (TABLE_LABEL k) = (s.table k).buffer.length

theorem flushTable_cases (k : BufferKey) (s : State Row) :
    (flushTable k s = (s, none) ∧ ((s.table k).flushing = true ∨ (s.table k).buffer = [])) ∨
    ((s.table k).flushing = false ∧ (s.table k).buffer ≠ [] ∧ flushTable k s =
      ({ setSampleBufferDepth (setTable s k ((s.table k).splice s.nextFlush)) (TABLE_LABEL k) 0 with
        nextFlush := s.nextFlush + 1 }, some s.nextFlush)) := by
  rw [flushTable]
  cases hflag : (s.table k).flushing with
  | true => exact .inl ⟨rfl, .inl rfl⟩
  | false =>
    rw [if_neg Bool.false_ne_true]
    split
    next hempty => exact .inl ⟨rfl, .inr (List.isEmpty_iff.mp hempty)⟩
    next hbuf => exact .inr ⟨rfl, fun h => hbuf (List.isEmpty_iff.mpr h), rfl⟩

theorem State.Sound.write {t : TableState (Row k)} {n : Nat} (h : s.Sound) (ht : t.Guarded)
    (hn : s.nextFlush ≤ n)
    (hfresh : ∀ f ∈ t.inFlight, f.id < n) :
    State.Sound
      { setSampleBufferDepth (setTable s k t) (TABLE_LABEL k) t.buffer.length with nextFlush := n } := by
  constructor
  · intro j
    by_cases hj : j = k
    · subst hj
      simpa [setSampleBufferDepth, setTable] using ht
    · simpa [setSampleBufferDepth, setTable, hj] using h.guarded j
  · intro j f hf
    by_cases hj : j = k
    · subst hj
      exact hfresh f (by simpa [setSampleBufferDepth, setTable] using hf)
    · exact Nat.lt_of_lt_of_le (h.fresh j f (by simpa [setSampleBufferDepth, setTable, hj] using hf)) hn
  · intro j
    by_cases hj : j = k
    · subst hj
      simp [setSampleBufferDepth, setTable]
    · have hlabel : TABLE_LABEL j ≠ TABLE_LABEL k := fun he => hj (label_injective he)
      simpa [setSampleBufferDepth, setTable, hj, hlabel] using h.gauge j

theorem State.Sound.setTable {t : TableState (Row k)} (h : s.Sound) (ht : t.Guarded)
    (hfresh : ∀ f ∈ t.inFlight, f.id < s.nextFlush) (hbuf : t.buffer = (s.table k).buffer) :
    (setTable s k t).Sound := by
  have hsound : (setSampleBufferDepth (SampleWriteBuffer.setTable s k t) (TABLE_LABEL k)
    t.buffer.length).Sound :=
    h.write ht (Nat.le_refl _) hfresh
  have hdepth : Function.update s.depth (TABLE_LABEL k) t.buffer.length = s.depth := by
    rw [hbuf, ← h.gauge k, Function.update_eq_self]
  rw [setSampleBufferDepth, SampleWriteBuffer.setTable, hdepth] at hsound
  exact hsound

theorem State.Sound.flushTable (h : s.Sound) (k : BufferKey) : (flushTable k s).1.Sound := by
  obtain ⟨hsame, -⟩ | ⟨hflag, -, htaken⟩ := flushTable_cases k s
  · rw [hsame]
    exact h
  · rw [htaken]
    refine h.write ((h.guarded k).splice hflag _) (Nat.le_succ _) fun f hf => ?_
    rw [TableState.splice, (h.guarded k).idle hflag] at hf
    obtain rfl := List.mem_singleton.mp hf
    exact Nat.lt_succ_self _

theorem State.Sound.pushRows (h : s.Sound) (k : BufferKey) (rows : List (Row k)) :
    (pushRows k rows s).Sound := by
  have hpushed :=
    h.write (t := (s.table k).push rows) ⟨(h.guarded k).atMostOne, (h.guarded k).flag⟩ (Nat.le_refl _)
    (h.fresh k)
  rw [SampleWriteBuffer.pushRows]
  split
  · exact hpushed.flushTable k
  · exact hpushed

theorem State.Sound.flushTables (h : s.Sound) (ks : List BufferKey) : (flushTables ks s).1.Sound := by
  induction ks generalizing s with
  | nil => exact h
  | cons k ks ih => exact ih (h.flushTable k)

theorem State.Sound.resume {f : Flush (Row k)} (h : s.Sound) (hf : f ∈ (s.table k).inFlight) (r : Retry) :
    (resume k f r s).Sound := by
  have hguarded := (h.guarded k).resume hf r
  have honly := (h.guarded k).only hf
  have hid := h.fresh k f hf
  cases r with
  | returns =>
    refine h.setTable hguarded (fun g hg => ?_) rfl
    exact h.fresh k g (List.mem_filter.mp hg).1
  | throws =>
    refine h.write hguarded (Nat.le_refl _) fun g hg => ?_
    exact h.fresh k g (List.mem_filter.mp hg).1
  | backsOff n =>
    refine h.setTable hguarded (fun g hg => ?_) rfl
    rw [TableState.resume, honly, List.map_singleton, if_pos rfl] at hg
    exact List.mem_singleton.mp hg ▸ hid
  | attempts n =>
    refine h.setTable hguarded (fun g hg => ?_) rfl
    rw [TableState.resume, honly, List.map_singleton, if_pos rfl] at hg
    exact List.mem_singleton.mp hg ▸ hid

theorem State.Sound.step (h : s.Sound) (e : Event Row) : (step s e).Sound := by
  have htimer : ∀ b, State.Sound { s with flushTimer := b } := fun _ => ⟨h.guarded, h.fresh, h.gauge⟩
  have hrows : ∀ k rows, (enqueueSamples k rows s).Sound := by
    intro k rows
    rw [enqueueSamples]
    split
    · exact h
    · exact h.pushRows k rows
  cases e with
  | enqueueMonitorSample row => exact h.pushRows _ _
  | enqueueTelemetrySample row => exact h.pushRows _ _
  | enqueueTemperatureSamples rows => exact hrows _ rows
  | enqueueInterfaceSamples rows => exact hrows _ rows
  | enqueueStorageSamples rows => exact hrows _ rows
  | enqueueIpsecTunnelSamples rows => exact hrows _ rows
  | start => exact htimer true
  | tick =>
    rw [SampleWriteBuffer.step]
    split
    · exact h.flushTables _
    · exact h
  | flush k => exact h.flushTable k
  | flushAll => exact h.flushTables _
  | shutdown => exact (htimer false).flushTables _
  | writeSettled k id outcome =>
    rw [SampleWriteBuffer.step]
    split
    next f hf => exact h.resume (List.mem_of_find?_eq_some hf) _
    next => exact h
  | backoffOver k id =>
    rw [SampleWriteBuffer.step]
    split
    next f hf => exact h.resume (List.mem_of_find?_eq_some hf) _
    next => exact h

/-- The gauge of a table, its flag and its writes in flight are right after
every run. -/
theorem sound_run (es : List (Event Row)) : (es.foldl step ({} : State Row)).Sound := by
  refine List.foldlRecOn es step ?_ fun s h e _ => State.Sound.step h e
  exact ⟨fun k => ⟨Nat.zero_le _, rfl⟩, fun k f hf => absurd hf List.not_mem_nil, fun k => rfl⟩

end Steps

section Conservation

variable {Row : BufferKey → Type} {s : State Row} {k j : BufferKey}

def Event.rows : (k : BufferKey) → Event Row → List (Row k)
  | .monitor, .enqueueMonitorSample row => [row]
  | .telemetry, .enqueueTelemetrySample row => [row]
  | .temperature, .enqueueTemperatureSamples rows => rows
  | .iface, .enqueueInterfaceSamples rows => rows
  | .storage, .enqueueStorageSamples rows => rows
  | .ipsecTunnel, .enqueueIpsecTunnelSamples rows => rows
  | _, _ => []

def enqueued (k : BufferKey) (es : List (Event Row)) : List (Row k) := es.flatMap (Event.rows k)

theorem table_setTable (s : State Row) (t : TableState (Row k)) : (setTable s k t).table k = t :=
  Function.update_self ..

theorem table_setTable_of_ne (t : TableState (Row k)) (h : j ≠ k) : (setTable s k t).table j = s.table j :=
  Function.update_of_ne h ..

theorem flushTable_of_ne (h : j ≠ k) : (flushTable k s).1.table j = s.table j := by
  obtain ⟨hsame, -⟩ | ⟨-, -, htaken⟩ := flushTable_cases k s
  · rw [hsame]
  · rw [htaken]
    exact table_setTable_of_ne _ h

theorem flushTable_self (h : (s.table k).flushing = false) (hbuf : (s.table k).buffer ≠ []) :
    (flushTable k s).1.table k = (s.table k).splice s.nextFlush ∧ (flushTable k s).2 = some s.nextFlush := by
  obtain ⟨-, hbusy | hempty⟩ | ⟨-, -, htaken⟩ := flushTable_cases k s
  · rw [h] at hbusy
    cases hbusy
  · exact absurd hempty hbuf
  · rw [htaken]
    exact ⟨table_setTable s _, rfl⟩

theorem held_flushTable (h : s.Sound) (k j : BufferKey) :
    ((flushTable k s).1.table j).held = (s.table j).held := by
  by_cases hj : j = k
  · subst hj
    obtain ⟨hsame, -⟩ | ⟨hflag, hbuf, -⟩ := flushTable_cases j s
    · rw [hsame]
    · rw [(flushTable_self hflag hbuf).1, TableState.held_splice (h.guarded j) hflag]
  · rw [flushTable_of_ne hj]

theorem held_flushTables (h : s.Sound) (ks : List BufferKey) (j : BufferKey) :
    ((flushTables ks s).1.table j).held = (s.table j).held := by
  induction ks generalizing s with
  | nil => rfl
  | cons k ks ih => exact (ih (h.flushTable k)).trans (held_flushTable h k j)

theorem pushRows_of_ne {rows : List (Row k)} (h : j ≠ k) : (pushRows k rows s).table j = s.table j := by
  rw [pushRows]
  split
  · exact (flushTable_of_ne h).trans (table_setTable_of_ne _ h)
  · exact table_setTable_of_ne _ h

theorem held_pushRows (h : s.Sound) (rows : List (Row k)) :
    ((pushRows k rows s).table k).held = (s.table k).held ++ rows := by
  have hpushed : State.Sound (setSampleBufferDepth (setTable s k ((s.table k).push rows)) (TABLE_LABEL k)
      ((s.table k).push rows).buffer.length) :=
    h.write ⟨(h.guarded k).atMostOne, (h.guarded k).flag⟩ (Nat.le_refl _) (h.fresh k)
  have hheld := (congrArg TableState.held (table_setTable s _)).trans ((s.table k).held_push rows)
  rw [pushRows]
  split
  · exact (held_flushTable hpushed k k).trans hheld
  · exact hheld

theorem enqueueSamples_of_ne {rows : List (Row k)} (h : j ≠ k) :
    (enqueueSamples k rows s).table j = s.table j := by
  rw [enqueueSamples]
  split
  · rfl
  · exact pushRows_of_ne h

theorem held_enqueueSamples (h : s.Sound) (rows : List (Row k)) :
    ((enqueueSamples k rows s).table k).held = (s.table k).held ++ rows := by
  rw [enqueueSamples]
  split
  next hempty => rw [List.isEmpty_iff.mp hempty, List.append_nil]
  next => exact held_pushRows h rows

theorem table_resume (f : Flush (Row k)) (r : Retry) :
    (resume k f r s).table = (setTable s k ((s.table k).resume f r)).table := by
  cases r <;> rfl

theorem held_resume {f : Flush (Row k)} (h : s.Sound) (hf : f ∈ (s.table k).inFlight) (r : Retry)
    (j : BufferKey) :
    ((resume k f r s).table j).held = (s.table j).held := by
  rw [table_resume]
  by_cases hj : j = k
  · subst hj
    rw [table_setTable, TableState.held_resume (h.guarded j) hf]
  · rw [table_setTable_of_ne _ hj]

theorem held_step (h : s.Sound) (e : Event Row) (k : BufferKey) :
    ((step s e).table k).held = (s.table k).held ++ e.rows k := by
  have htimer : State.Sound { s with flushTimer := false } := ⟨h.guarded, h.fresh, h.gauge⟩
  have hsilent : ∀ {e : Event Row}, e.rows k = [] → ((step s e).table k).held = (s.table k).held →
      ((step s e).table k).held = (s.table k).held ++ e.rows k := by
    intro e he hs
    rw [he, List.append_nil, hs]
  cases e with
  | enqueueMonitorSample row =>
    cases k with
    | monitor => exact held_pushRows h [row]
    | _ => exact hsilent rfl (congrArg TableState.held (pushRows_of_ne nofun))
  | enqueueTelemetrySample row =>
    cases k with
    | telemetry => exact held_pushRows h [row]
    | _ => exact hsilent rfl (congrArg TableState.held (pushRows_of_ne nofun))
  | enqueueTemperatureSamples rows =>
    cases k with
    | temperature => exact held_enqueueSamples h rows
    | _ => exact hsilent rfl (congrArg TableState.held (enqueueSamples_of_ne nofun))
  | enqueueInterfaceSamples rows =>
    cases k with
    | iface => exact held_enqueueSamples h rows
    | _ => exact hsilent rfl (congrArg TableState.held (enqueueSamples_of_ne nofun))
  | enqueueStorageSamples rows =>
    cases k with
    | storage => exact held_enqueueSamples h rows
    | _ => exact hsilent rfl (congrArg TableState.held (enqueueSamples_of_ne nofun))
  | enqueueIpsecTunnelSamples rows =>
    cases k with
    | ipsecTunnel => exact held_enqueueSamples h rows
    | _ => exact hsilent rfl (congrArg TableState.held (enqueueSamples_of_ne nofun))
  | start => exact hsilent (by cases k <;> rfl) rfl
  | tick =>
    refine hsilent (by cases k <;> rfl) ?_
    rw [step]
    split
    · exact held_flushTables h bufferKeys k
    · rfl
  | flush j => exact hsilent (by cases k <;> rfl) (held_flushTable h j k)
  | flushAll => exact hsilent (by cases k <;> rfl) (held_flushTables h bufferKeys k)
  | shutdown => exact hsilent (by cases k <;> rfl) (held_flushTables htimer bufferKeys k)
  | writeSettled j id outcome =>
    refine hsilent (by cases k <;> rfl) ?_
    rw [step]
    split
    next f hf => exact held_resume h (List.mem_of_find?_eq_some hf) _ k
    next => rfl
  | backoffOver j id =>
    refine hsilent (by cases k <;> rfl) ?_
    rw [step]
    split
    next f hf => exact held_resume h (List.mem_of_find?_eq_some hf) _ k
    next => rfl

theorem held_run (h : s.Sound) (es : List (Event Row)) (k : BufferKey) :
    ((es.foldl step s).table k).held = (s.table k).held ++ enqueued k es := by
  induction es generalizing s with
  | nil => exact (List.append_nil _).symm
  | cons e es ih =>
    rw [List.foldl_cons, ih (h.step e), held_step h, List.append_assoc, enqueued, enqueued, List.flatMap_cons]

end Conservation

section Shutdown

variable {Row : BufferKey → Type} {s : State Row} {awaited : List Nat} {k j : BufferKey}

/-- A promise that waits for flushes is resolved once none of them is under way. -/
def Resolved (awaited : List Nat) (s : State Row) : Prop :=
  ∀ k, ∀ f ∈ (s.table k).inFlight, f.id ∉ awaited

/-- Nothing is enqueued any more, and every write succeeds. -/
def Event.quiet : Event Row → Bool
  | .start | .tick | .flush _ | .flushAll | .shutdown | .backoffOver _ _ | .writeSettled _ _ (.ok ()) => true
  | _ => false

/-- Every row of a run is stored, and none is buffered or in flight. -/
def Drained (es : List (Event Row)) (s : State Row) : Prop :=
  ∀ k, (s.table k).buffer = [] ∧ (s.table k).inFlight = [] ∧ (s.table k).stored = enqueued k es

/-- The buffers are empty, and only flushes that somebody waits for are under
way, each with its first write. -/
def Draining (awaited : List Nat) (s : State Row) : Prop :=
  ∀ k, (s.table k).buffer = [] ∧ ∀ f ∈ (s.table k).inFlight, f.id ∈ awaited ∧ f.waiting = false

theorem enqueued_quiet {es : List (Event Row)} (h : ∀ e ∈ es, e.quiet = true) (k : BufferKey) :
    enqueued k es = [] := by
  refine List.flatMap_eq_nil_iff.mpr fun e he => ?_
  have hquiet := h e he
  cases e <;> cases k <;> first | rfl | cases hquiet

theorem Draining.flushTables (h : Draining awaited s)
    (ks : List BufferKey) : Draining awaited (flushTables ks s).1 := by
  induction ks with
  | nil => exact h
  | cons k ks ih =>
    obtain ⟨hsame, -⟩ | ⟨-, hbuf, -⟩ := flushTable_cases k s
    · rw [SampleWriteBuffer.flushTables, hsame]
      exact ih
    · exact absurd (h k).1 hbuf

theorem Draining.resume {f : Flush (Row k)} (h : Draining awaited s) :
    Draining awaited (resume k f .returns s) := by
  intro j
  rw [table_resume]
  by_cases hj : j = k
  · subst hj
    rw [table_setTable]
    exact ⟨(h j).1, fun g hg => (h j).2 g (List.mem_filter.mp hg).1⟩
  · rw [table_setTable_of_ne _ hj]
    exact h j

theorem Draining.step {e : Event Row} (h : Draining awaited s) (he : e.quiet = true) :
    Draining awaited (step s e) := by
  have hstopped : Draining awaited { s with flushTimer := false } := h
  cases e with
  | start => exact h
  | tick =>
    rw [SampleWriteBuffer.step]
    split
    · exact h.flushTables _
    · exact h
  | flush k => exact h.flushTables [k]
  | flushAll => exact h.flushTables _
  | shutdown => exact hstopped.flushTables _
  | writeSettled k id outcome =>
    cases outcome with
    | error err => cases he
    | ok u =>
      rw [SampleWriteBuffer.step]
      split
      next f hf => exact h.resume
      next => exact h
  | backoffOver k id =>
    rw [SampleWriteBuffer.step]
    split
    next f hf =>
      have hwaits := List.find?_some hf
      rw [((h k).2 f (List.mem_of_find?_eq_some hf)).2, Bool.and_false] at hwaits
      cases hwaits
    next => exact h
  | _ => cases he

theorem Draining.run {es : List (Event Row)} (h : Draining awaited s) (hes : ∀ e ∈ es, e.quiet = true) :
    Draining awaited (es.foldl SampleWriteBuffer.step s) :=
  List.foldlRecOn es SampleWriteBuffer.step h fun _ hs e he => hs.step (hes e he)

theorem flushTables_of_not_mem {ks : List BufferKey} (h : k ∉ ks) :
    (flushTables ks s).1.table k = s.table k := by
  induction ks generalizing s with
  | nil => rfl
  | cons j ks ih =>
    obtain ⟨hj, hks⟩ := not_or.mp (mt List.mem_cons.mpr h)
    exact (ih hks).trans (flushTable_of_ne hj)

theorem flushTable_idle (h : (s.table k).Guarded) (hflag : (s.table k).flushing = false) :
    ((flushTable k s).1.table k).buffer = [] ∧
    ∀ f ∈ ((flushTable k s).1.table k).inFlight, f.id ∈ (flushTable k s).2.toList ∧ f.waiting = false := by
  obtain ⟨hsame, hbusy | hempty⟩ | ⟨-, hbuf, -⟩ := flushTable_cases k s
  · rw [hflag] at hbusy
    cases hbusy
  · rw [hsame, h.idle hflag]
    exact ⟨hempty, fun f hf => absurd hf List.not_mem_nil⟩
  · obtain ⟨htable, hid⟩ := flushTable_self hflag hbuf
    rw [htable, hid]
    refine ⟨rfl, fun f hf => ?_⟩
    rw [TableState.splice, h.idle hflag] at hf
    obtain rfl := List.mem_singleton.mp hf
    exact ⟨List.mem_singleton_self _, rfl⟩

theorem flushTables_idle {ks : List BufferKey} (h : s.Sound) (hflag : ∀ k ∈ ks, (s.table k).flushing = false)
    (hnodup : ks.Nodup) (hk : k ∈ ks) : ((flushTables ks s).1.table k).buffer = [] ∧
    ∀ f ∈ ((flushTables ks s).1.table k).inFlight, f.id ∈ (flushTables ks s).2 ∧ f.waiting = false := by
  induction ks generalizing s with
  | nil => exact absurd hk List.not_mem_nil
  | cons j ks ih =>
    obtain ⟨hj, hks⟩ := List.nodup_cons.mp hnodup
    by_cases hkj : k = j
    · subst hkj
      have htable : (flushTables (k :: ks) s).1.table k = (flushTable k s).1.table k :=
        flushTables_of_not_mem hj
      obtain ⟨hbuf, hin⟩ := flushTable_idle (h.guarded k) (hflag k hk)
      rw [htable]
      exact ⟨hbuf, fun f hf => ⟨List.mem_append_left _ (hin f hf).1, (hin f hf).2⟩⟩
    · have hrest : ∀ i ∈ ks, ((flushTable j s).1.table i).flushing = false := by
        intro i hi
        have hij : i ≠ j := fun he => hj (he ▸ hi)
        rw [flushTable_of_ne hij]
        exact hflag i (List.mem_cons_of_mem _ hi)
      obtain ⟨hbuf, hin⟩ := ih (h.flushTable j) hrest hks ((List.mem_cons.mp hk).resolve_left hkj)
      exact ⟨hbuf, fun f hf => ⟨List.mem_append_right _ (hin f hf).1, (hin f hf).2⟩⟩

theorem mem_flushTable {f : Flush (Row j)} (k : BufferKey) (hf : f ∈ ((flushTable k s).1.table j).inFlight) :
    f ∈ (s.table j).inFlight ∨ f.waiting = false := by
  by_cases hj : j = k
  · subst hj
    obtain ⟨hsame, -⟩ | ⟨hflag, hbuf, -⟩ := flushTable_cases j s
    · rw [hsame] at hf
      exact .inl hf
    · rw [(flushTable_self hflag hbuf).1] at hf
      exact (List.mem_append.mp hf).imp_right fun hf => by rw [List.mem_singleton.mp hf]
  · rw [flushTable_of_ne hj] at hf
    exact .inl hf

theorem mem_flushTables {f : Flush (Row j)} {ks : List BufferKey}
    (hf : f ∈ ((flushTables ks s).1.table j).inFlight) :
    f ∈ (s.table j).inFlight ∨ f.waiting = false := by
  induction ks generalizing s with
  | nil => exact .inl hf
  | cons k ks ih => exact (ih hf).elim (mem_flushTable k) .inr

theorem kept_flushTable {f : Flush (Row j)} (k : BufferKey) (hf : f ∈ (s.table j).inFlight) :
    f ∈ ((flushTable k s).1.table j).inFlight := by
  by_cases hj : j = k
  · subst hj
    obtain ⟨hsame, -⟩ | ⟨hflag, hbuf, -⟩ := flushTable_cases j s
    · rw [hsame]
      exact hf
    · rw [(flushTable_self hflag hbuf).1]
      exact List.mem_append_left _ hf
  · rw [flushTable_of_ne hj]
    exact hf

theorem kept_flushTables {f : Flush (Row j)} (ks : List BufferKey) (hf : f ∈ (s.table j).inFlight) :
    f ∈ ((flushTables ks s).1.table j).inFlight := by
  induction ks generalizing s with
  | nil => exact hf
  | cons k ks ih => exact ih (kept_flushTable k hf)

theorem flushTables_awaited {ks : List BufferKey} : ∀ id ∈ (flushTables ks s).2, s.nextFlush ≤ id := by
  induction ks generalizing s with
  | nil => exact fun id hid => absurd hid List.not_mem_nil
  | cons k ks ih =>
    intro id hid
    obtain ⟨hsame, -⟩ | ⟨-, -, htaken⟩ := flushTable_cases k s
    · rw [flushTables, hsame] at hid
      exact ih id hid
    · rw [flushTables, htaken] at hid
      obtain hid | hid := List.mem_append.mp hid
      · exact Nat.le_of_eq (Option.mem_toList.mp hid |> Option.some.inj)
      · exact Nat.le_of_succ_le (ih id hid)

theorem mem_writeSettled {f : Flush (Row j)} {id : Nat} (hprompt : ∀ g ∈ (s.table k).inFlight, g.id = id →
    g.waiting = false) :
    f ∈ ((step s (.writeSettled k id (.ok ()))).table j).inFlight ↔ f ∈ (s.table j).inFlight ∧
      ¬ (j = k ∧ f.id = id) := by
  rw [step]
  split
  next g hg =>
    have hid := List.find?_some hg
    rw [Bool.and_eq_true, decide_eq_true_eq] at hid
    rw [table_resume]
    by_cases hj : j = k
    · subst hj
      rw [table_setTable]
      refine List.mem_filter.trans (and_congr_right fun _ => ?_)
      rw [decide_eq_true_eq, hid.1]
      exact ⟨fun hne h => hne h.2, fun h hid => h ⟨rfl, hid⟩⟩
    · rw [table_setTable_of_ne _ hj]
      exact ⟨fun hf => ⟨hf, fun h => hj h.1⟩, fun hf => hf.1⟩
  next hnone =>
    refine ⟨fun hf => ⟨hf, ?_⟩, fun hf => hf.1⟩
    rintro ⟨rfl, hid⟩
    have hnot := List.find?_eq_none.mp hnone f hf
    rw [hprompt f hf hid] at hnot
    exact hnot (by simp [hid])

theorem mem_writesSettled {f : Flush (Row j)} {writes : List (BufferKey × Nat)}
    (hprompt : ∀ k, ∀ g ∈ (s.table k).inFlight, (k, g.id) ∈ writes → g.waiting = false) :
    f ∈ (((writes.map fun w => Event.writeSettled w.1 w.2 (.ok ())).foldl step s).table j).inFlight ↔
      f ∈ (s.table j).inFlight ∧ (j, f.id) ∉ writes := by
  induction writes generalizing s with
  | nil => exact ⟨fun hf => ⟨hf, List.not_mem_nil⟩, fun hf => hf.1⟩
  | cons w writes ih =>
    have hfirst : ∀ {i} (g : Flush (Row i)),
      g ∈ ((step s (.writeSettled w.1 w.2 (.ok ()))).table i).inFlight ↔ _ :=
      fun g => mem_writeSettled fun g hg hid => hprompt w.1 g hg (hid ▸ List.mem_cons_self)
    rw [List.map_cons, List.foldl_cons, ih, hfirst, and_assoc]
    · refine and_congr_right fun _ => ?_
      rw [List.mem_cons, not_or]
      refine and_congr_left fun _ => not_congr ?_
      exact (@Prod.ext_iff _ _ (j, f.id) w).symm
    · intro k g hg hin
      exact hprompt k g ((hfirst g).mp hg).1 (List.mem_cons_of_mem _ hin)

/-- The shutdown promise is resolved once its own writes are stored, and
every other write may still be under way then. -/
theorem shutdown_resolves (h : s.Sound) : ∃ after : List (Event Row), (∀ e ∈ after, e.quiet = true) ∧
    Resolved (shutdownFlushSampleBuffers s).2 (after.foldl step (shutdownFlushSampleBuffers s).1) ∧
    ∀ k, ∀ f ∈ (s.table k).inFlight,
      f ∈ ((after.foldl step (shutdownFlushSampleBuffers s).1).table k).inFlight := by
  let writes := bufferKeys.product (shutdownFlushSampleBuffers s).2
  have hwrites : ∀ k id, (k, id) ∈ writes ↔ id ∈ (shutdownFlushSampleBuffers s).2 := by
    intro k id
    rw [List.pair_mem_product]
    exact and_iff_right (mem_bufferKeys k)
  have hold : ∀ k, ∀ f ∈ (s.table k).inFlight, f.id ∉ (shutdownFlushSampleBuffers s).2 := by
    intro k f hf hid
    have hnew : s.nextFlush ≤ f.id :=
      @flushTables_awaited _ { s with flushTimer := false } bufferKeys f.id hid
    exact absurd (h.fresh k f hf) (Nat.not_lt.mpr hnew)
  have hprompt : ∀ k, ∀ g ∈ ((shutdownFlushSampleBuffers s).1.table k).inFlight, (k, g.id) ∈ writes →
    g.waiting = false := by
    intro k g hg hin
    refine (mem_flushTables hg).resolve_left fun hg => ?_
    exact hold k g hg ((hwrites k g.id).mp hin)
  refine ⟨writes.map fun w => .writeSettled w.1 w.2 (.ok ()), fun e he => ?_, fun k f hf hid => ?_,
    fun k f hf => ?_⟩
  · obtain ⟨w, -, rfl⟩ := List.mem_map.mp he
    rfl
  · exact ((mem_writesSettled hprompt).mp hf).2 ((hwrites k f.id).mpr hid)
  · refine (mem_writesSettled hprompt).mpr ⟨kept_flushTables bufferKeys hf, fun hin => ?_⟩
    exact hold k f hf ((hwrites k f.id).mp hin)

/-- Shutdown drains the buffers just when it finds no flush under way: with
one under way its promise does not wait for it, nor for the rows behind it. -/
theorem shutdown_drains (before : List (Event Row)) :
    (∀ after : List (Event Row), (∀ e ∈ after, e.quiet = true) →
      Resolved (shutdownFlushSampleBuffers (before.foldl step {})).2
        (after.foldl step (shutdownFlushSampleBuffers (before.foldl step {})).1) →
      Drained before (after.foldl step (shutdownFlushSampleBuffers (before.foldl step {})).1)) ↔
    ∀ k, ((before.foldl step {}).table k).flushing = false := by
  have hsound : (before.foldl step ({} : State Row)).Sound := sound_run before
  refine ⟨fun h k => ?_, fun hidle after hquiet hresolved k => ?_⟩
  · obtain ⟨after, hquiet, hresolved, hkept⟩ := shutdown_resolves hsound
    have hempty := (h after hquiet hresolved k).2.1
    rw [(hsound.guarded k).flag]
    cases hin : ((before.foldl step {}).table k).inFlight with
    | nil => rfl
    | cons f rest =>
      have hf := hkept k f (hin ▸ List.mem_cons_self)
      rw [hempty] at hf
      exact absurd hf List.not_mem_nil
  · let s' := shutdownFlushSampleBuffers (before.foldl step {})
    have htimer : State.Sound { before.foldl step ({} : State Row) with flushTimer := false } :=
      ⟨hsound.guarded, hsound.fresh, hsound.gauge⟩
    have hdraining : Draining s'.2 s'.1 := fun k =>
      flushTables_idle htimer (fun k _ => hidle k) (by decide) (mem_bufferKeys k)
    obtain ⟨hbuf, hin⟩ := hdraining.run hquiet k
    have hnone : ((after.foldl step s'.1).table k).inFlight = [] := by
      refine List.eq_nil_iff_forall_not_mem.mpr fun f hf => ?_
      exact hresolved k f hf (hin f hf).1
    refine ⟨hbuf, hnone, ?_⟩
    have hafter := held_run (htimer.flushTables bufferKeys) after k
    have hbefore : ((before.foldl step {}).table k).held = enqueued k before :=
      held_run (sound_run []) before k
    rw [enqueued_quiet hquiet, List.append_nil, held_flushTables htimer] at hafter
    have hheld : ((after.foldl step s'.1).table k).held = enqueued k before := hafter.trans hbefore
    rw [TableState.held, hnone, hbuf, List.flatMap_nil, List.append_nil, List.append_nil] at hheld
    exact hheld

def flushUnderWay : List (Event fun _ => Nat) :=
  [.start, .enqueueMonitorSample 1, .tick, .enqueueMonitorSample 2]

theorem shutdown_leaves_rows : ¬ ∀ after : List (Event fun _ => Nat), (∀ e ∈ after, e.quiet = true) →
    Resolved (shutdownFlushSampleBuffers (flushUnderWay.foldl step {})).2
      (after.foldl step (shutdownFlushSampleBuffers (flushUnderWay.foldl step {})).1) →
    Drained flushUnderWay
      (after.foldl step (shutdownFlushSampleBuffers (flushUnderWay.foldl step {})).1) := by
  intro h
  have hnone : (shutdownFlushSampleBuffers (flushUnderWay.foldl step {})).2 = [] := by decide
  have hdrained := h [] (fun e he => absurd he List.not_mem_nil) fun k f _ hid => by
    rw [hnone] at hid
    exact List.not_mem_nil hid
  have hbuf := (hdrained .monitor).1
  revert hbuf
  decide

end Shutdown

end Polaris.SampleWriteBuffer
