import Polaris.Lib.Text
import Mathlib.Logic.Function.Basic

namespace Polaris.LoginLockout

open Polaris.Lib.Text

structure Entry where
  failures : Nat
  lockedUntil : Int
  firstFailureAt : Int
  deriving DecidableEq

def maxFailures : Nat := 5

def lockoutMs : Int := 15 * 60 * 1000

def windowMs : Int := 15 * 60 * 1000

/-- The process-local counters, by normalized user name. -/
abbrev Store := String → Option Entry

/-- The answer of `recordFailure`; the lock has an end only when this
failure tripped it. -/
structure Tripped where
  lockedNow : Bool
  failures : Nat
  until? : Option Int
  deriving DecidableEq

section Operations

variable (toLowerCase : String → String)

def key (username : String) : String := toLowerCase (trim username)

def isLocked (store : Store) (username : String) (now : Int) : Option Int :=
  match store (key toLowerCase username) with
  | none => none
  | some entry => if entry.lockedUntil > now then some entry.lockedUntil else none

def freshEntry (now : Int) : Option Entry → Entry
  | none => ⟨0, 0, now⟩
  | some entry => if now - entry.firstFailureAt > windowMs then ⟨0, 0, now⟩ else entry

def recordFailure (store : Store) (username : String) (now : Int) : Store × Tripped :=
  let k := key toLowerCase username
  let entry := freshEntry now (store k)
  let failures := entry.failures + 1
  if failures ≥ maxFailures then
    (Function.update store k (some ⟨failures, now + lockoutMs, entry.firstFailureAt⟩),
      ⟨true, failures, some (now + lockoutMs)⟩)
  else (Function.update store k (some { entry with failures }), ⟨false, failures, none⟩)

def clearLockout (store : Store) (username : String) : Store :=
  Function.update store (key toLowerCase username) none

end Operations

def cleanup (store : Store) (now : Int) : Store := fun k =>
  (store k).filter fun v => ¬ (v.lockedUntil ≤ now ∧ now - v.firstFailureAt > windowMs)

variable {toLowerCase : String → String} {store : Store} {username : String} {now opened : Int}

section Counters

variable {k : String}

theorem recordFailure_other (h : key toLowerCase username ≠ k) :
    (recordFailure toLowerCase store username now).1 k = store k := by
  unfold recordFailure
  dsimp only
  split_ifs
  · exact Function.update_of_ne (Ne.symm h) _ _
  · exact Function.update_of_ne (Ne.symm h) _ _

variable (store now) in
theorem recordFailure_own (h : key toLowerCase username = k) :
    ∃ entry, (recordFailure toLowerCase store username now).1 k = some entry ∧
      entry.failures = (freshEntry now (store k)).failures + 1 ∧
      entry.firstFailureAt = (freshEntry now (store k)).firstFailureAt ∧
      ((maxFailures ≤ entry.failures ∧ entry.lockedUntil = now + lockoutMs ∧
          (recordFailure toLowerCase store username now).2.until? = some (now + lockoutMs)) ∨
        (entry.failures < maxFailures ∧
          (recordFailure toLowerCase store username now).2.until? = none)) := by
  subst h
  unfold recordFailure
  dsimp only
  split_ifs with hfull
  · exact ⟨_, Function.update_self _ _ _, rfl, rfl, .inl ⟨hfull, rfl, rfl⟩⟩
  · exact ⟨_, Function.update_self _ _ _, rfl, rfl, .inr ⟨Nat.lt_of_not_le hfull, rfl⟩⟩

theorem clearLockout_other (h : key toLowerCase username ≠ k) :
    clearLockout toLowerCase store username k = store k :=
  Function.update_of_ne (Ne.symm h) _ _

theorem clearLockout_own (h : key toLowerCase username = k) :
    clearLockout toLowerCase store username k = none := by
  rw [← h]
  exact Function.update_self _ _ _

theorem isLocked_none (h : key toLowerCase username = k) :
    isLocked toLowerCase store username now = none ↔
      ∀ entry, store k = some entry → entry.lockedUntil ≤ now := by
  subst h
  unfold isLocked
  cases store (key toLowerCase username) with
  | none => simp
  | some entry =>
    dsimp only
    split_ifs with hlock
    · simp [hlock]
    · simp [Int.not_lt.mp hlock]

theorem isLocked_of_lt {entry : Entry} (h : key toLowerCase username = k) (he : store k = some entry)
    (hlt : now < entry.lockedUntil) :
    isLocked toLowerCase store username now = some entry.lockedUntil := by
  subst h
  simp only [isLocked, he]
  exact if_pos hlt

theorem cleanup_some {entry : Entry} : cleanup store now k = some entry ↔
    store k = some entry ∧ (now < entry.lockedUntil ∨ now - entry.firstFailureAt ≤ windowMs) := by
  unfold cleanup
  rw [Option.filter_eq_some_iff]
  refine and_congr_right fun _ => ?_
  rw [decide_eq_true_iff]
  omega

theorem cleanup_none : cleanup store now k = none ↔ ∀ entry, store k = some entry →
    entry.lockedUntil ≤ now ∧ windowMs < now - entry.firstFailureAt := by
  unfold cleanup
  cases store k with
  | none => simp
  | some entry =>
    simp only [Option.filter_some, Option.some.injEq, forall_eq', ite_eq_right_iff, decide_eq_true_eq,
      reduceCtorEq, imp_false, not_not]

end Counters

/-- While a 15-minute window opened at `opened` lasts, a counter started in
it never goes stale, and once full it is locked to the end of the window. -/
structure Counting (opened : Int) (entry : Entry) : Prop where
  started : opened ≤ entry.firstFailureAt
  full : maxFailures ≤ entry.failures → opened + windowMs ≤ entry.lockedUntil

theorem failures_lt_of_not_locked {entry : Entry} (hnow : now < opened + windowMs)
    (hs : store (key toLowerCase username) = some entry) (hc : Counting opened entry)
    (hopen : isLocked toLowerCase store username now = none) : entry.failures < maxFailures := by
  by_contra hge
  have hl := hc.full (not_lt.mp hge)
  simp only [isLocked, hs] at hopen
  split_ifs at hopen with h
  omega

variable (toLowerCase store username) in
theorem recordFailure_entry (hlow : opened ≤ now) (hnow : now < opened + windowMs)
    (hc : ∀ entry ∈ store (key toLowerCase username), Counting opened entry) :
    ∃ entry, (recordFailure toLowerCase store username now).1 =
        Function.update store (key toLowerCase username) (some entry) ∧ Counting opened entry ∧
      entry.failures = ((store (key toLowerCase username)).map (·.failures)).getD 0 + 1 := by
  have hfresh : opened ≤ (freshEntry now (store (key toLowerCase username))).firstFailureAt ∧
      (freshEntry now (store (key toLowerCase username))).failures =
        ((store (key toLowerCase username)).map (·.failures)).getD 0 := by
    cases hs : store (key toLowerCase username) with
    | none => exact ⟨hlow, rfl⟩
    | some entry =>
      have hstart := (hc entry hs).started
      have hstale : ¬ now - entry.firstFailureAt > windowMs := by omega
      simp only [freshEntry, if_neg hstale]
      exact ⟨hstart, rfl⟩
  obtain ⟨hstart, hcount⟩ := hfresh
  unfold recordFailure
  dsimp only
  split_ifs with hfull
  · exact ⟨_, rfl, ⟨hstart, fun _ => by simp only [lockoutMs, windowMs]; omega⟩, by rw [hcount]⟩
  · exact ⟨_, rfl, ⟨hstart, fun h => absurd h (by simpa using hfull)⟩, by rw [← hcount]⟩

theorem cleanup_entry (hnow : now < opened + windowMs) {k : String}
    (hc : ∀ entry ∈ store k, Counting opened entry) : cleanup store now k = store k := by
  unfold cleanup
  cases hs : store k with
  | none => rfl
  | some entry =>
    have hstart := (hc entry hs).started
    have hkeep : ¬ (entry.lockedUntil ≤ now ∧ now - entry.firstFailureAt > windowMs) := by omega
    rw [Option.filter_some, if_pos (decide_eq_true hkeep)]

end Polaris.LoginLockout
