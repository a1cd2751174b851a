import Polaris.LoginRequests

namespace Polaris.LoginLocks

open Polaris.Lib.Runs Polaris.LoginLockout Polaris.Auth Polaris.LoginRequests
open Polaris.AuthRoutes hiding act

section Locks

variable (R : Runtime) (k : String)

/-- A failure does not find the counter locked with its first failure past
the window. -/
def Fresh (now : Int) (store : Store) : Effect → Prop
  | .fail username => key R.toLowerCase username = k →
    ∀ entry ∈ store k, ¬ (now < entry.lockedUntil ∧ windowMs < now - entry.firstFailureAt)
  | .clear _ | .sweep | .none => True

instance (now : Int) (store : Store) : ∀ e, Decidable (Fresh R k now store e)
  | .fail _ => inferInstanceAs (Decidable (_ → ∀ entry ∈ _, _))
  | .clear _ | .sweep | .none => isTrue trivial

def Orderly (w : Watched) : Move Call Int → Prop
  | .spawn t => Begins t
  | .advance i now => w.book.clock ≤ now ∧
    ∀ t ∈ w.pool.calls[i]?, Fresh R k now w.pool.shared.lockout (effect R t)

instance (w : Watched) : ∀ m, Decidable (Orderly R k w m)
  | .spawn t => inferInstanceAs (Decidable (Begins t))
  | .advance _ _ => inferInstanceAs (Decidable (_ ∧ ∀ t ∈ _, _))

/-- Until the end of each lock that was set the counter answers with a lock
that ends no sooner. -/
def LocksHold (w : Watched) : Prop :=
  ∀ trip ∈ w.book.trips, ∀ now username, w.book.clock ≤ now → now < trip.2 →
    key R.toLowerCase username = k →
      ∃ until?, isLocked R.toLowerCase w.pool.shared.lockout username now = some until? ∧ trip.2 ≤ until?

/-- The lock is over, or the counter is full and locked at least as long. -/
structure Standing (clock : Int) (store : Store) (trip : Int × Int) : Prop where
  bounded : trip.2 ≤ clock + lockoutMs
  kept : trip.2 ≤ clock ∨
    ∃ entry, store k = some entry ∧ maxFailures ≤ entry.failures ∧ trip.2 ≤ entry.lockedUntil

variable {R k} {clock now : Int} {store : Store} {trip : Int × Int}

theorem Standing.tick (h : Standing k clock store trip) (hnow : clock ≤ now) :
    Standing k now store trip where
  bounded := h.bounded.trans (by omega)
  kept := h.kept.imp_left (·.trans hnow)

theorem Standing.congr {store' : Store} (h : Standing k clock store trip) (hs : store' k = store k) :
    Standing k clock store' trip := ⟨h.bounded, by rw [hs]; exact h.kept⟩

theorem Standing.sweep (h : Standing k now store trip) :
    Standing k now (LoginLockout.cleanup store now) trip := by
  refine ⟨h.bounded, ?_⟩
  obtain hover | ⟨entry, he, hfull, huntil⟩ := h.kept
  · exact .inl hover
  · by_cases hlive : now < entry.lockedUntil
    · exact .inr ⟨entry, cleanup_some.mpr ⟨he, .inl hlive⟩, hfull, huntil⟩
    · exact .inl (huntil.trans (by omega))

/-- A failure that counts on keeps the locks, since it sets its own from a
later time. -/
theorem Standing.fail {username : String} (h : Standing k now store trip)
    (hk : key R.toLowerCase username = k)
    (hfresh : ∀ entry ∈ store k, ¬ (now < entry.lockedUntil ∧ windowMs < now - entry.firstFailureAt)) :
    Standing k now (recordFailure R.toLowerCase store username now).1 trip := by
  refine ⟨h.bounded, ?_⟩
  obtain hover | ⟨entry, he, hfull, huntil⟩ := h.kept
  · exact .inl hover
  by_cases hstale : now - entry.firstFailureAt > windowMs
  · have hopen := hfresh entry he
    exact .inl (huntil.trans (by omega))
  obtain ⟨entry', he', hcount, -, hlock⟩ := recordFailure_own store now hk
  rw [he, freshEntry, if_neg hstale] at hcount
  obtain ⟨hfull', huntil', -⟩ | ⟨hfew, -⟩ := hlock
  · exact .inr ⟨entry', he', hfull', by rw [huntil']; exact h.bounded⟩
  · omega

theorem standing_record {b : Book} {e : Effect} (hnow : b.clock ≤ now)
    (hfresh : Fresh R k now store e) (h : ∀ trip ∈ b.trips, Standing k b.clock store trip) :
    ∀ trip ∈ (b.record R k now store e).trips,
      Standing k (b.record R k now store e).clock (e.apply R now store) trip := by
  have htick : ∀ trip ∈ b.trips, Standing k now store trip := fun trip ht => (h trip ht).tick hnow
  cases e with
  | fail username =>
    by_cases hk : key R.toLowerCase username = k
    · simp only [Book.record, hk, if_true, Effect.apply]
      intro trip ht
      obtain hnew | hold := List.mem_append.mp ht
      · obtain ⟨until?, huntil, rfl⟩ := Option.map_eq_some_iff.mp (Option.mem_toList.mp hnew)
        obtain ⟨entry, he, -, -, ⟨hfull, hlock, hset⟩ | ⟨-, hset⟩⟩ :=
          recordFailure_own store now hk
        · rw [hset] at huntil
          cases huntil
          exact ⟨le_refl _, .inr ⟨entry, he, hfull, hlock.ge⟩⟩
        · rw [hset] at huntil
          cases huntil
      · exact (htick trip hold).fail hk (hfresh hk)
    · simp only [Book.record, hk, if_false, Effect.apply]
      exact fun trip ht => (htick trip ht).congr (recordFailure_other hk)
  | clear username =>
    by_cases hk : key R.toLowerCase username = k
    · simp [Book.record, hk]
    · simp only [Book.record, hk, if_false, Effect.apply]
      exact fun trip ht => (htick trip ht).congr (clearLockout_other hk)
  | sweep => exact fun trip ht => (htick trip ht).sweep
  | none => exact htick

theorem standing_step (w : Watched) (m : Move Call Int)
    (h : ∀ trip ∈ w.book.trips, Standing k w.book.clock w.pool.shared.lockout trip)
    (hm : Orderly R k w m) :
    ∀ trip ∈ (step R k w m).book.trips,
      Standing k (step R k w m).book.clock (step R k w m).pool.shared.lockout trip := by
  cases m with
  | spawn t => exact h
  | advance i now =>
    cases hi : w.pool.calls[i]? with
    | none => simpa only [step, hi] using h
    | some t =>
      have hlock : ((w.pool.step (act R) (.advance i now)).shared).lockout =
          (effect R t).apply R now w.pool.shared.lockout := by
        simp only [Pool.step, hi]
        exact act_lockout t
      simp only [step, hi, hlock]
      exact standing_record hm.1 (hm.2 t hi) h

theorem locksHold_of_standing {w : Watched}
    (h : ∀ trip ∈ w.book.trips, Standing k w.book.clock w.pool.shared.lockout trip) :
    LocksHold R k w := by
  intro trip ht now username hnow huntil hk
  obtain hover | ⟨entry, he, -, hlong⟩ := (h trip ht).kept
  · omega
  · exact ⟨entry.lockedUntil, isLocked_of_lt hk he (by omega), hlong⟩

/-- Where no failure meets a locked counter with its window over, every lock
lasts to its end. -/
theorem locks_hold (w : Watched) (moves : List (Move Call Int)) (hw : w.book.trips = [])
    (h : Along (step R k) (Orderly R k) w moves) : LocksHold R k (moves.foldl (step R k) w) := by
  refine locksHold_of_standing (foldl_invariant standing_step ?_ h)
  simp [hw]

end Locks

section Guessing

def minutes (n : Int) : Int := n * 60 * 1000

def guess (n : Nat) : List (Move Call Int) :=
  List.replicate n (.spawn (.login (.start ⟨"root", "guess", 0, 0, "", ""⟩)))

/-- The requests with these numbers each make a step. -/
def advance (now : Int) (calls : List Nat) : List (Move Call Int) := calls.map (.advance · now)

def locked : List (Move Call Int) :=
  guess 6 ++ advance 0 [1, 2, 3, 4, 5, 6] ++ advance 0 [1, 2, 3, 4, 5, 6] ++
    advance (minutes 1) [1, 2, 3, 4, 5] ++ advance (minutes 12) [0, 6]

theorem locks_hold_locked : LocksHold plain "root" (locked.foldl (step plain "root") idleProcess) :=
  locks_hold idleProcess locked rfl (by decide +kernel)

def lateFailure : List (Move Call Int) :=
  guess 6 ++ advance 0 [1, 2, 3, 4, 5, 6] ++ advance 0 [1, 2, 3, 4, 5, 6] ++ advance 0 [1] ++
    advance (minutes 14) [2, 3, 4, 5] ++ advance (minutes 15 + 1) [6]

/-- A request from before the lock fails once the window is over, and the lock
is gone. -/
theorem late_failure_unlocks :
    (minutes 14, minutes 29) ∈ (lateFailure.foldl (step plain "root") idleProcess).book.trips ∧
      isLocked plain.toLowerCase (lateFailure.foldl (step plain "root") idleProcess).pool.shared.lockout
        "root" (minutes 16) = none ∧
      ¬ LocksHold plain "root" (lateFailure.foldl (step plain "root") idleProcess) := by
  have htrip : (minutes 14, minutes 29) ∈
      (lateFailure.foldl (step plain "root") idleProcess).book.trips := by decide +kernel
  have hopen : isLocked plain.toLowerCase
      (lateFailure.foldl (step plain "root") idleProcess).pool.shared.lockout "root" (minutes 16) =
        none := by decide +kernel
  refine ⟨htrip, hopen, fun h => ?_⟩
  obtain ⟨until?, hlocked, -⟩ := h _ htrip (minutes 16) "root" (by decide +kernel) (by decide)
    (by decide +kernel)
  rw [hopen] at hlocked
  cases hlocked

end Guessing

end Polaris.LoginLocks
