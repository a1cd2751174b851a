import Mathlib.Data.List.Perm.Basic
import Polaris.Lib.Assoc
import Polaris.Lib.Runs
import Polaris.SettingsMigration

namespace Polaris.DiscoveryDurations

open Polaris.Lib Polaris.Lib.Runs Polaris.SettingsMigration

section Window

variable {α : Type} {l : List α} {n : Nat} {a : α}

/-- The last entries of a list, in the words of the language `slice(-n)`. -/
def lastOf (n : Nat) (l : List α) : List α := l.drop (l.length - n)

theorem length_lastOf (n : Nat) (l : List α) : (lastOf n l).length ≤ n := by
  rw [lastOf, List.length_drop]
  omega

theorem lastOf_of_length_le (h : l.length ≤ n) : lastOf n l = l := by
  have hzero : l.length - n = 0 := by omega
  rw [lastOf, hzero, List.drop_zero]

theorem mem_lastOf (h : a ∈ lastOf n l) : a ∈ l := List.mem_of_mem_drop h

theorem lastOf_append (n : Nat) (l : List α) (a : α) :
    lastOf n (lastOf n l ++ [a]) = lastOf n (l ++ [a]) := by
  by_cases hle : l.length ≤ n
  · rw [lastOf_of_length_le hle]
  · have hlen : (lastOf n l).length = n := by
      rw [lastOf, List.length_drop]
      omega
    have happend : lastOf n l ++ [a] = (l ++ [a]).drop (l.length - n) := by
      rw [lastOf, List.drop_append_of_le_length (by omega)]
    have hone : (lastOf n l ++ [a]).length - n = 1 := by
      rw [List.length_append, hlen, List.length_singleton]
      omega
    rw [lastOf.eq_def n (lastOf n l ++ [a]), hone, happend, List.drop_drop, lastOf, List.length_append,
      List.length_singleton]
    apply congrArg fun k => (l ++ [a]).drop k
    omega

theorem lastOf_append_list (n : Nat) (l l' : List α) : lastOf n (lastOf n l ++ l') = lastOf n (l ++ l') := by
  induction l' generalizing l with
  | nil => rw [List.append_nil, List.append_nil, lastOf_of_length_le (length_lastOf n l)]
  | cons a l' ih => rw [List.append_cons, ← ih, lastOf_append, ih, ← List.append_cons]

theorem lastOf_ne_nil (hn : 0 < n) (l : List α) (a : α) : lastOf n (l ++ [a]) ≠ [] := by
  rw [lastOf, ne_eq, List.drop_eq_nil_iff, List.length_append, List.length_singleton]
  omega

end Window

section Document

def WINDOW : Nat := 10

/-- The durations of the last runs of a unit. -/
@[ext]
structure UnitStats where
  samples : List Rat
  updatedAt : String
  valid : ∀ q ∈ samples, 0 ≤ q
  bounded : samples.length ≤ WINDOW
  nonempty : samples ≠ []

abbrev StatsDoc := List (String × UnitStats)

def StatsDoc.get (units : StatsDoc) (unitKey : String) : Option UnitStats := Assoc.get units unitKey

def StatsDoc.set (units : StatsDoc) (unitKey : String) (u : UnitStats) : StatsDoc := Assoc.set units unitKey u

def duration : Json → Option Rat
  | .num q => if 0 ≤ q then some q else none
  | _ => none

def readSamples (u : Json) : List Rat :=
  match u.get "samples" with
  | some (.arr items) => lastOf WINDOW (items.filterMap duration)
  | _ => []

theorem readSamples_valid {u : Json} : ∀ q ∈ readSamples u, 0 ≤ q := by
  intro q hq
  rw [readSamples] at hq
  split at hq
  · obtain ⟨item, -, hitem⟩ := List.mem_filterMap.mp (mem_lastOf hq)
    cases item with
    | num q' =>
      rw [duration] at hitem
      split_ifs at hitem with hpos
      exact Option.some.inj hitem ▸ hpos
    | _ => cases hitem
  · cases hq

theorem readSamples_bounded {u : Json} : (readSamples u).length ≤ WINDOW := by
  rw [readSamples]
  split
  · exact length_lastOf _ _
  · exact Nat.zero_le _

variable (now : String)

def readUnit (u : Json) : Option UnitStats :=
  if h : readSamples u = [] then none
  else
    some {
      samples := readSamples u
      updatedAt := match u.get "updatedAt" with
        | some (.str s) => s
        | _ => now
      valid := readSamples_valid
      bounded := readSamples_bounded
      nonempty := h }

def readDoc (stored : Option Json) : StatsDoc :=
  match stored with
  | none => []
  | some v =>
    match v.get "units" with
    | some u => if u.isObject then u.spread.filterMap fun p => (readUnit now p.2).map (p.1, ·) else []
    | none => []

def unitJson (u : UnitStats) : Json :=
  .obj [("samples", .arr (u.samples.map .num)), ("updatedAt", .str u.updatedAt)]

def docJson (units : StatsDoc) : Json := .obj [("units", .obj (units.map fun p => (p.1, unitJson p.2)))]

theorem window_pos : 0 < WINDOW := by decide

def withSample (existing : Option UnitStats) (durationMs : Rat) (h : 0 ≤ durationMs) : UnitStats where
  samples := lastOf WINDOW ((existing.elim [] UnitStats.samples) ++ [durationMs])
  updatedAt := now
  valid := by
    intro q hq
    obtain hq | hq := List.mem_append.mp (mem_lastOf hq)
    · cases existing with
      | none => cases hq
      | some u => exact u.valid q hq
    · exact List.mem_singleton.mp hq ▸ h
  bounded := length_lastOf _ _
  nonempty := lastOf_ne_nil window_pos _ _

end Document

section RoundTrip

variable {now : String} {u : UnitStats} {units : StatsDoc} {unitKey k : String}

theorem readSamples_unitJson (u : UnitStats) : readSamples (unitJson u) = u.samples := by
  have hget : (unitJson u).get "samples" = some (.arr (u.samples.map .num)) := rfl
  have hkept : (u.samples.map Json.num).filterMap duration = u.samples := by
    rw [List.filterMap_map]
    calc u.samples.filterMap (duration ∘ Json.num)
      _ = u.samples.filterMap some := by
        apply List.filterMap_congr
        intro q hq
        exact if_pos (u.valid q hq)
      _ = u.samples := List.filterMap_some
  rw [readSamples, hget]
  dsimp only
  rw [hkept, lastOf_of_length_le u.bounded]

theorem readUnit_unitJson (u : UnitStats) : readUnit now (unitJson u) = some u := by
  have hne : readSamples (unitJson u) ≠ [] := readSamples_unitJson u ▸ u.nonempty
  rw [readUnit, dif_neg hne]
  apply congrArg some
  apply UnitStats.ext
  · exact readSamples_unitJson u
  · rfl

/-- A document reads back as it was written. -/
theorem readDoc_docJson (units : StatsDoc) : readDoc now (some (docJson units)) = units := by
  have hread : readDoc now (some (docJson units)) =
      (units.map fun p => (p.1, unitJson p.2)).filterMap fun p => (readUnit now p.2).map (p.1, ·) := rfl
  rw [hread, List.filterMap_map]
  induction units with
  | nil => rfl
  | cons p units ih =>
    rw [List.filterMap_cons, Function.comp, readUnit_unitJson]
    exact congrArg (p :: ·) (ih rfl)

def samplesIn (units : StatsDoc) (unitKey : String) : List Rat :=
  (units.get unitKey).elim [] UnitStats.samples

theorem samplesIn_bounded (units : StatsDoc) (unitKey : String) :
    (samplesIn units unitKey).length ≤ WINDOW := by
  rw [samplesIn]
  cases units.get unitKey with
  | none => exact Nat.zero_le _
  | some u => exact u.bounded

theorem samplesIn_set (units : StatsDoc) (durationMs : Rat) (h : 0 ≤ durationMs) :
    samplesIn (units.set unitKey (withSample now (units.get unitKey) durationMs h)) k =
      if k = unitKey then lastOf WINDOW (samplesIn units k ++ [durationMs]) else samplesIn units k := by
  rw [samplesIn, StatsDoc.get, StatsDoc.set, Assoc.get_set]
  by_cases hk : k = unitKey
  · rw [if_pos hk, if_pos hk, samplesIn, hk]
    rfl
  · rw [if_neg hk, if_neg hk]
    rfl

end RoundTrip

section Calls

/-- A call waits for its read, then for its write. -/
inductive Phase
  | started
  | read (seen : Option Json) (doc : StatsDoc)
  | finished

/-- A call of `recordSample`. A number that is not finite is none. -/
structure Call where
  unitKey : String
  durationMs : Option Rat
  phase : Phase := .started

def Call.sample (c : Call) : Option Rat := c.durationMs.filter (0 ≤ ·)

def recordSample (now : String) (stored : Option Json) (c : Call) : Option Json × Call :=
  match c.phase with
  | .finished => (stored, c)
  | .started =>
    if c.sample = none then (stored, { c with phase := .finished })
    else (stored, { c with phase := .read stored (readDoc now stored) })
  | .read _ doc =>
    match c.durationMs with
    | none => (stored, { c with phase := .finished })
    | some durationMs =>
      if h : 0 ≤ durationMs then
        (some (docJson (doc.set c.unitKey (withSample now (doc.get c.unitKey) durationMs h))),
          { c with phase := .finished })
      else (stored, { c with phase := .finished })

def samplesOf (stored : Option Json) (unitKey : String) : List Rat := samplesIn (readDoc "" stored) unitKey

def Call.starts (c : Call) : Prop := c.phase = .started

/-- No other call has written since the one that writes now has read. -/
def Unwritten (_ : String) (stored : Option Json) (c : Call) : Prop :=
  match c.phase with
  | .read seen _ => stored = seen
  | _ => True

def recorded (unitKey : String) (c : Call) : List Rat :=
  match c.phase with
  | .finished => if c.unitKey = unitKey then c.sample.toList else []
  | _ => []

end Calls

section Runs

variable {now : String} {stored start : Option Json} {c : Call} {unitKey : String}

/-- The unit's samples are the last of its earlier ones with those that have
been recorded for it in some order. -/
def Kept (start : Option Json) (unitKey : String) (p : Pool (Option Json) Call) : Prop :=
  ∃ order : List Rat, order.Perm (p.total (recorded unitKey)) ∧
    samplesOf p.shared unitKey = lastOf WINDOW (samplesOf start unitKey ++ order)

/-- What a call has read is the document that was stored. -/
def Faithful (c : Call) : Prop :=
  match c.phase with
  | .read seen doc => ∀ unitKey, samplesIn doc unitKey = samplesOf seen unitKey
  | _ => True

theorem samplesIn_readDoc (now now' : String) (stored : Option Json) (unitKey : String) :
    samplesIn (readDoc now stored) unitKey = samplesIn (readDoc now' stored) unitKey := by
  have hunits : ∀ fields : Fields,
      samplesIn (fields.filterMap fun p => (readUnit now p.2).map (p.1, ·)) unitKey =
        samplesIn (fields.filterMap fun p => (readUnit now' p.2).map (p.1, ·)) unitKey := by
    intro fields
    induction fields with
    | nil => rfl
    | cons p fields ih =>
      rw [List.filterMap_cons, List.filterMap_cons]
      by_cases h : readSamples p.2 = []
      · rw [readUnit, dif_pos h, readUnit, dif_pos h]
        exact ih
      · rw [readUnit, dif_neg h, readUnit, dif_neg h]
        by_cases hk : p.1 = unitKey
        · simp [samplesIn, StatsDoc.get, Assoc.get, hk]
        · simp only [samplesIn, StatsDoc.get, Assoc.get, Option.map_some, List.find?_cons, hk,
            decide_false] at ih ⊢
          exact ih
  cases stored with
  | none => rfl
  | some v =>
    simp only [readDoc]
    cases v.get "units" with
    | none => rfl
    | some u =>
      dsimp only
      split_ifs
      · exact hunits u.spread
      · rfl

theorem recorded_finished (unitKey key : String) (durationMs : Option Rat) :
    recorded unitKey ⟨key, durationMs, .finished⟩ = if key = unitKey then (durationMs.filter (0 ≤ ·)).toList
      else [] := rfl

theorem faithful_recordSample (h : Faithful c) : Faithful (recordSample now stored c).2 := by
  rw [recordSample]
  cases hphase : c.phase with
  | finished => exact h
  | started =>
    dsimp only
    split_ifs
    · trivial
    · exact fun unitKey => samplesIn_readDoc _ _ _ _
  | read seen doc =>
    cases hd : c.durationMs with
    | none => trivial
    | some durationMs =>
      dsimp only
      split_ifs <;> trivial

/-- A step adds nothing to the samples of a unit but what it records for it,
at the end. -/
theorem samplesOf_recordSample (hfaithful : Faithful c) (hunwritten : Unwritten now stored c)
    (unitKey : String) :
    ∃ new, samplesOf (recordSample now stored c).1 unitKey = lastOf WINDOW (samplesOf stored unitKey ++ new) ∧
      recorded unitKey (recordSample now stored c).2 = recorded unitKey c ++ new := by
  have hsame : samplesOf stored unitKey = lastOf WINDOW (samplesOf stored unitKey ++ []) := by
    rw [List.append_nil]
    exact (lastOf_of_length_le (samplesIn_bounded _ _)).symm
  rw [recordSample]
  rw [Unwritten] at hunwritten
  rw [Faithful] at hfaithful
  cases hphase : c.phase with
  | finished => exact ⟨[], hsame, (List.append_nil _).symm⟩
  | started =>
    dsimp only
    have hnone : recorded unitKey c = [] := by rw [recorded, hphase]
    rw [hnone]
    split_ifs with hsample
    · refine ⟨[], hsame, ?_⟩
      rw [Call.sample] at hsample
      rw [recorded_finished, hsample]
      exact ite_self _
    · exact ⟨[], hsame, rfl⟩
  | read seen doc =>
    rw [hphase] at hunwritten hfaithful
    dsimp only at hunwritten hfaithful ⊢
    subst hunwritten
    have hnone : recorded unitKey c = [] := by rw [recorded, hphase]
    rw [hnone]
    cases hd : c.durationMs with
    | none =>
      refine ⟨[], hsame, ?_⟩
      dsimp only
      rw [recorded_finished]
      exact ite_self _
    | some durationMs =>
      dsimp only
      by_cases hpos : 0 ≤ durationMs
      · rw [dif_pos hpos]
        dsimp only
        rw [samplesOf, readDoc_docJson, samplesIn_set, hfaithful, recorded_finished, Option.filter_some,
          if_pos (decide_eq_true hpos)]
        by_cases hk : unitKey = c.unitKey
        · refine ⟨[durationMs], by rw [if_pos hk], ?_⟩
          rw [if_pos hk.symm]
          rfl
        · refine ⟨[], by rw [if_neg hk, ← hsame], ?_⟩
          rw [if_neg (Ne.symm hk)]
          rfl
      · rw [dif_neg hpos]
        refine ⟨[], hsame, ?_⟩
        dsimp only
        have hdropped : (some durationMs).filter (fun q => decide (0 ≤ q)) = none := by
          rw [Option.filter_some, if_neg (by simpa using hpos)]
        rw [recorded_finished, hdropped]
        exact ite_self _

theorem kept_advance {p : Pool (Option Json) Call} {i : Nat} (hi : p.calls[i]? = some c)
    (hfaithful : Faithful c)
    (hunwritten : Unwritten now p.shared c) (h : Kept start unitKey p) :
    Kept start unitKey (p.step recordSample (.advance i now)) := by
  obtain ⟨order, horder, hsamples⟩ := h
  obtain ⟨new, hnew, hrecorded⟩ := samplesOf_recordSample hfaithful hunwritten unitKey
  have hperm := @flatMap_set_perm _ _ (recorded unitKey) _ _ _ (recordSample now p.shared c).2 hi
  rw [hrecorded, List.append_assoc, List.perm_append_left_iff] at hperm
  rw [Kept]
  simp only [Pool.step, hi, Pool.total]
  refine ⟨order ++ new, ?_, ?_⟩
  · exact (List.perm_append_comm.trans (horder.append_left new)).trans hperm.symm
  · rw [hnew, hsamples, lastOf_append_list, List.append_assoc]

theorem kept_step (p : Pool (Option Json) Call) (m : Move Call String)
    (h : (∀ c ∈ p.calls, Faithful c) ∧ Kept start unitKey p) (hm : p.Guarded Call.starts Unwritten m) :
    (∀ c ∈ (p.step recordSample m).calls, Faithful c) ∧ Kept start unitKey (p.step recordSample m) := by
  obtain ⟨hfaithful, hkept⟩ := h
  cases m with
  | spawn c =>
    have hphase : c.phase = .started := hm
    refine ⟨fun d hd => ?_, ?_⟩
    · obtain hd | hd := List.mem_append.mp hd
      · exact hfaithful d hd
      · obtain rfl := List.mem_singleton.mp hd
        rw [Faithful, hphase]
        trivial
    · have hnone : recorded unitKey c = [] := by rw [recorded, hphase]
      rw [Kept, total_spawn hnone]
      exact hkept
  | advance i now =>
    cases hi : p.calls[i]? with
    | none => simpa only [Pool.step, hi] using ⟨hfaithful, hkept⟩
    | some c =>
      have hc := hfaithful c (List.mem_of_getElem? hi)
      refine ⟨fun d hd => ?_, kept_advance hi hc (hm c hi) hkept⟩
      simp only [Pool.step, hi] at hd
      obtain hd | rfl := List.mem_or_eq_of_mem_set hd
      · exact hfaithful d hd
      · exact faithful_recordSample hc

end Runs

section Main

theorem kept_run {start : Option Json} {moves : List (Move Call String)}
    (h : Along (Pool.step recordSample) (Pool.Guarded Call.starts Unwritten) ⟨start, []⟩ moves)
    (unitKey : String) :
    Kept start unitKey (moves.foldl (Pool.step recordSample) ⟨start, []⟩) := by
  refine (foldl_invariant (I := fun p => (∀ c ∈ p.calls, Faithful c) ∧ Kept start unitKey p)
    kept_step ⟨?_, ?_⟩ h).2
  · exact fun c hc => absurd hc List.not_mem_nil
  · refine ⟨[], List.Perm.refl _, ?_⟩
    rw [List.append_nil]
    exact (lastOf_of_length_le (samplesIn_bounded _ _)).symm

def samplesFor (unitKey : String) (calls : List Call) : List Rat :=
  (calls.filter (·.unitKey = unitKey)).filterMap Call.sample

theorem total_recorded {p : Pool (Option Json) Call} (h : ∀ c ∈ p.calls, c.phase = .finished)
    (unitKey : String) :
    p.total (recorded unitKey) = samplesFor unitKey p.calls := by
  rw [Pool.total, samplesFor]
  generalize p.calls = calls at h
  induction calls with
  | nil => rfl
  | cons c calls ih =>
    have hrecorded : recorded unitKey c = if c.unitKey = unitKey then c.sample.toList else [] := by
      rw [recorded, h c List.mem_cons_self]
    rw [List.flatMap_cons, ih fun d hd => h d (List.mem_cons_of_mem _ hd), hrecorded, List.filter_cons]
    by_cases hk : c.unitKey = unitKey
    · rw [if_pos hk, if_pos (decide_eq_true hk), List.filterMap_cons]
      cases c.sample <;> rfl
    · rw [if_neg hk, if_neg (by simpa using hk)]
      rfl

/-- The unit's samples are the last of its earlier ones followed by those of
all calls for it. -/
def AllRecorded (start : Option Json) (unitKey : String) (p : Pool (Option Json) Call) : Prop :=
  ∃ order : List Rat, order.Perm (samplesFor unitKey p.calls) ∧
    samplesOf p.shared unitKey = lastOf WINDOW (samplesOf start unitKey ++ order)

/-- Where no call writes over what another has written since it read, no
unit loses a sample. -/
theorem samples_kept (start : Option Json) (moves : List (Move Call String))
    (h : Along (Pool.step recordSample) (Pool.Guarded Call.starts Unwritten) ⟨start, []⟩ moves)
    (hfinished : ∀ c ∈ (moves.foldl (Pool.step recordSample) ⟨start, []⟩).calls, c.phase = .finished)
    (unitKey : String) :
    AllRecorded start unitKey (moves.foldl (Pool.step recordSample) ⟨start, []⟩) := by
  obtain ⟨order, horder, hsamples⟩ := kept_run h unitKey
  rw [total_recorded hfinished] at horder
  exact ⟨order, horder, hsamples⟩

def gate1 : Call := { unitKey := "i1:fg1", durationMs := some 4000 }

def gate2 : Call := { unitKey := "i1:fg2", durationMs := some 9000 }

def inTurn : List (Move Call String) :=
  [.spawn gate1, .advance 0 "t1", .advance 0 "t2", .spawn gate2, .advance 1 "t3", .advance 1 "t4"]

theorem samples_kept_in_turn :
    AllRecorded none "i1:fg1" (inTurn.foldl (Pool.step recordSample) ⟨none, []⟩) := by
  refine samples_kept none inTurn ⟨rfl, ?_, ?_, rfl, ?_, ?_, trivial⟩ ?_ "i1:fg1"
  · rintro c ⟨⟩
    trivial
  · rintro c ⟨⟩
    rfl
  · rintro c ⟨⟩
    trivial
  · rintro c ⟨⟩
    rfl
  · intro c hc
    obtain rfl | hc := List.mem_cons.mp hc
    · rfl
    · obtain rfl := List.mem_singleton.mp hc
      rfl

def abreast : List (Move Call String) :=
  [.spawn gate1, .spawn gate2, .advance 0 "t1", .advance 1 "t1", .advance 0 "t2", .advance 1 "t2"]

/-- The second FortiGate writes back the document from before the first. -/
theorem abreast_loses_sample :
    (∀ c ∈ (abreast.foldl (Pool.step recordSample) ⟨none, []⟩).calls, c.phase = .finished) ∧
      ¬ AllRecorded none "i1:fg1" (abreast.foldl (Pool.step recordSample) ⟨none, []⟩) := by
  constructor
  · intro c hc
    obtain rfl | hc := List.mem_cons.mp hc
    · rfl
    · obtain rfl := List.mem_singleton.mp hc
      rfl
  · rintro ⟨order, horder, hsamples⟩
    have hall : samplesFor "i1:fg1" (abreast.foldl (Pool.step recordSample) ⟨none, []⟩).calls = [4000] := by
      decide +kernel
    have hlost : samplesOf (abreast.foldl (Pool.step recordSample) ⟨none, []⟩).shared "i1:fg1" = [] := by
      decide +kernel
    rw [hall] at horder
    obtain rfl := List.perm_singleton.mp horder
    rw [hlost] at hsamples
    revert hsamples
    decide +kernel

end Main

end Polaris.DiscoveryDurations
