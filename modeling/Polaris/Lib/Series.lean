import Mathlib.Algebra.BigOperators.Group.List.Basic
import Mathlib.Algebra.Order.BigOperators.Group.List
import Mathlib.Algebra.Order.Field.Basic
import Mathlib.Data.List.MinMax
import Mathlib.Tactic.FieldSimp
import Mathlib.Tactic.Linarith
import Mathlib.Tactic.Ring

namespace Polaris.Lib.Series

variable {K : Type*} [Field K] [LinearOrder K]

section Segments

/-- The stretch up to a sample: how long it took, how much the counter grew,
and whether both of its ends were read. -/
structure Segment (K : Type*) where
  time : K
  growth : K
  measured : Bool
  deriving DecidableEq

def grown (a b : Option K) : K :=
  match a, b with
  | some a, some b => b - a
  | _, _ => 0

/-- The stretches of a series from an instant on. The reading at that instant
may be missing, and then the last one before it is carried. -/
def segments (t : K) (own carried : Option K) : List (K × Option K) → List (Segment K)
  | [] => []
  | (u, v) :: rest =>
    ⟨u - t, grown carried v, own.isSome && v.isSome && decide (0 ≤ grown carried v)⟩ ::
      segments u v (v.or carried) rest

def totalTime (segs : List (Segment K)) : K := (segs.map (·.time)).sum

def totalGrowth (segs : List (Segment K)) : K := (segs.map (·.growth)).sum

def measured (segs : List (Segment K)) : List (Segment K) := segs.filter (·.measured)

def outside (segs : List (Segment K)) : List (Segment K) := segs.filter fun s => !s.measured

/-- The rates that are seen between neighbouring samples. -/
def rates (segs : List (Segment K)) : List K := (measured segs).map fun s => s.growth / s.time

/-- What the measured stretches grew beyond a rate. -/
def excess (x : K) (segs : List (Segment K)) : K := ((measured segs).map fun s => s.growth - x * s.time).sum

/-- Growing at the slowest and at the fastest rate outside the measured
stretches bounds what the counter grew there, up to what they have to spare. -/
def Levels (segs : List (Segment K)) : Prop :=
  ∃ m ∈ (rates segs).min?, ∃ M ∈ (rates segs).max?,
    m * totalTime (outside segs) ≤ totalGrowth (outside segs) + excess m segs ∧
      totalGrowth (outside segs) + excess M segs ≤ M * totalTime (outside segs)

instance (segs : List (Segment K)) : Decidable (Levels segs) :=
  match hm : (rates segs).min?, hM : (rates segs).max? with
  | some m, some M =>
    decidable_of_iff (m * totalTime (outside segs) ≤ totalGrowth (outside segs) + excess m segs ∧
        totalGrowth (outside segs) + excess M segs ≤ M * totalTime (outside segs)) (by simp [Levels, hm, hM])
  | none, _ => isFalse (by simp [Levels, hm])
  | _, none => isFalse (by simp [Levels, hM])

end Segments

section Rates

variable {t u : K} {own v carried : Option K} {rest : List (K × Option K)}

theorem rates_read (ho : own.isSome) (hv : v.isSome) (hg : 0 ≤ grown carried v) :
    rates (segments t own carried ((u, v) :: rest)) =
      grown carried v / (u - t) :: rates (segments u v (v.or carried) rest) := by
  simp [segments, rates, measured, ho, hv, hg]

theorem rates_unread (h : ¬ (own.isSome ∧ v.isSome ∧ 0 ≤ grown carried v)) :
    rates (segments t own carried ((u, v) :: rest)) = rates (segments u v (v.or carried) rest) := by
  have hfalse : (own.isSome && v.isSome && decide (0 ≤ grown carried v)) = false := by
    simpa [Bool.and_eq_false_iff, imp_iff_not_or, or_assoc] using h
  simp only [segments, rates, measured, hfalse, List.filter_cons, Bool.false_eq_true, if_false]

end Rates

section Totals

variable {t x : K} {own carried : Option K} {points : List (K × Option K)} {segs : List (Segment K)}

/-- The stretches join up to the time from the start to the last sample. -/
theorem totalTime_segments :
    totalTime (segments t own carried points) = (points.getLast?.map (·.1)).getD t - t := by
  induction points generalizing t own carried with
  | nil => simp [segments, totalTime]
  | cons p rest ih =>
    obtain ⟨u, v⟩ := p
    have hrest : totalTime (segments t own carried ((u, v) :: rest)) =
        (u - t) + totalTime (segments u v (v.or carried) rest) := by
      simp [segments, totalTime]
    rw [hrest, ih, List.getLast?_cons]
    cases rest.getLast? with
    | none => simp
    | some q => simp

/-- And what they grew to the difference of the readings at the two ends. -/
theorem totalGrowth_segments :
    totalGrowth (segments t own carried points) =
      grown (carried.or (points.filterMap (·.2)).head?) ((points.filterMap (·.2)).getLast?.or carried) := by
  induction points generalizing t own carried with
  | nil =>
    cases carried with
    | none => rfl
    | some c => simp [segments, totalGrowth, grown]
  | cons p rest ih =>
    obtain ⟨u, v⟩ := p
    have hrest : totalGrowth (segments t own carried ((u, v) :: rest)) =
        grown carried v + totalGrowth (segments u v (v.or carried) rest) := by
      simp [segments, totalGrowth]
    rw [hrest, ih]
    cases v with
    | none => cases carried <;> simp [grown]
    | some y =>
      simp only [Option.or_some, List.filterMap_cons, List.getLast?_cons, List.head?_cons]
      cases (rest.filterMap (·.2)).getLast? <;> cases carried <;> simp [grown]

omit [LinearOrder K] in
theorem sum_split (f : Segment K → K) (segs : List (Segment K)) :
    (segs.map f).sum = ((measured segs).map f).sum + ((outside segs).map f).sum := by
  induction segs with
  | nil => simp [measured, outside]
  | cons s rest ih =>
    unfold measured outside at ih ⊢
    cases hs : s.measured with
    | false =>
      simp [hs, ih]
      ring
    | true =>
      simp [hs, ih]
      ring

omit [LinearOrder K] in
theorem excess_eq (x : K) (segs : List (Segment K)) :
    excess x segs = totalGrowth (measured segs) - x * totalTime (measured segs) := by
  unfold excess totalGrowth totalTime
  induction measured segs with
  | nil => simp
  | cons s rest ih =>
    simp only [List.map_cons, List.sum_cons, ih]
    ring

omit [LinearOrder K] in
theorem beyond_eq (x : K) (segs : List (Segment K)) :
    totalGrowth segs - x * totalTime segs =
      totalGrowth (outside segs) + excess x segs - x * totalTime (outside segs) := by
  rw [excess_eq, totalGrowth, totalTime, sum_split (·.growth), sum_split (·.time)]
  unfold totalGrowth totalTime
  ring

end Totals

section Between

variable [IsStrictOrderedRing K] {segs : List (Segment K)}

theorem between_iff (h : 0 < totalTime segs) :
    (∃ m ∈ (rates segs).min?, ∃ M ∈ (rates segs).max?,
        m ≤ totalGrowth segs / totalTime segs ∧ totalGrowth segs / totalTime segs ≤ M) ↔ Levels segs := by
  unfold Levels
  refine exists_congr fun m => and_congr_right fun _ => exists_congr fun M => and_congr_right fun _ => ?_
  rw [le_div_iff₀ h, div_le_iff₀ h]
  have hm := beyond_eq m segs
  have hM := beyond_eq M segs
  constructor
  · rintro ⟨hlow, hhigh⟩
    exact ⟨by linarith, by linarith⟩
  · rintro ⟨hlow, hhigh⟩
    exact ⟨by linarith, by linarith⟩

end Between

end Polaris.Lib.Series
