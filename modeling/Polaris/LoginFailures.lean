import Polaris.LoginRequests

namespace Polaris.LoginFailures

open Polaris.Lib.Runs Polaris.LoginLockout Polaris.Auth Polaris.LoginRequests
open Polaris.AuthRoutes hiding act

section Recent

/-- How many of the times are later than the given one. -/
def recent (x : Int) (times : List Int) : Nat := times.countP (x < ·)

variable {x y now : Int} {times : List Int}

theorem recent_anti (h : x ≤ y) : recent y times ≤ recent x times := by
  apply List.countP_mono_left
  intro t _ ht
  simp only [decide_eq_true_eq] at ht ⊢
  omega

theorem recent_cons_le : recent x (now :: times) ≤ recent x times + 1 := by
  unfold recent
  rw [List.countP_cons]
  split_ifs <;> omega

theorem recent_eq_zero (h : ∀ t ∈ times, t ≤ x) : recent x times = 0 := by
  rw [recent, List.countP_eq_zero]
  intro t ht
  simpa using h t ht

/-- No stretch of the width, closed at either end, has more than eight of
the times. -/
def AtMostEight (width : Int) (times : List Int) : Prop :=
  ∀ x, times.countP (fun t => x ≤ t ∧ t < x + width) ≤ 8 ∧
    times.countP (fun t => x < t ∧ t ≤ x + width) ≤ 8

theorem AtMostEight.cons {width : Int} (h : AtMostEight width times)
    (hroom : recent (now - width) times ≤ 7) : AtMostEight width (now :: times) := by
  have hbelow : ∀ p : Int → Bool, times.countP p ≤ 8 → (p now = true → ∀ t, p t = true → now - width < t) →
      (now :: times).countP p ≤ 8 := by
    intro p hold hlate
    rw [List.countP_cons]
    split_ifs with hnow
    · have hle : times.countP p ≤ recent (now - width) times :=
        List.countP_mono_left fun t _ ht => by simpa using hlate hnow t ht
      omega
    · exact hold
  intro x
  refine ⟨hbelow _ (h x).1 ?_, hbelow _ (h x).2 ?_⟩
  · intro hnow t ht
    simp only [decide_eq_true_eq] at hnow ht
    omega
  · intro hnow t ht
    simp only [decide_eq_true_eq] at hnow ht
    omega

end Recent

section Counter

/-- What the counter says of the failures that were recorded, and of the
locks; a request that was admitted is still at work when `busy`. -/
structure Sound (entry : Option Entry) (b : Book) (busy : Prop) : Prop where
  past : ∀ f ∈ b.failures, f ≤ b.clock
  idle : entry = none → recent (b.clock - windowMs) b.failures ≤ 3
  few : ∀ e, entry = some e → e.failures < maxFailures →
    e.firstFailureAt ≤ b.clock ∧ recent e.firstFailureAt b.failures + 1 ≤ e.failures ∧
      recent (e.firstFailureAt - windowMs) b.failures ≤ e.failures + 3
  full : ∀ e, entry = some e → maxFailures ≤ e.failures → ∀ f ∈ b.failures, f + windowMs ≤ e.lockedUntil
  admitted : busy → ∀ e, entry = some e → maxFailures ≤ e.failures → e.lockedUntil ≤ b.clock
  locked : ∀ trip ∈ b.trips, trip.1 + lockoutMs ≤ b.clock ∨
    ∃ e, entry = some e ∧ maxFailures ≤ e.failures ∧ trip.1 + lockoutMs ≤ e.lockedUntil
  bounded : AtMostEight windowMs b.failures

variable {entry : Option Entry} {b : Book} {busy busy' : Prop} {now : Int}

theorem Sound.tick (h : Sound entry b busy) (hnow : b.clock ≤ now) :
    Sound entry { b with clock := now } busy where
  past f hf := (h.past f hf).trans hnow
  idle he := (recent_anti (Int.sub_le_sub_right hnow _)).trans (h.idle he)
  few e he hlt := ⟨(h.few e he hlt).1.trans hnow, (h.few e he hlt).2⟩
  full := h.full
  admitted hb e he hle := (h.admitted hb e he hle).trans hnow
  locked trip ht := (h.locked trip ht).imp_left (·.trans hnow)
  bounded := h.bounded

theorem Sound.mono (h : Sound entry b busy) (hbusy : busy' → busy) : Sound entry b busy' :=
  { h with admitted := fun hb => h.admitted (hbusy hb) }

theorem Sound.admit (h : Sound entry b busy)
    (hopen : ∀ e, entry = some e → e.lockedUntil ≤ b.clock) : Sound entry b busy' :=
  { h with admitted := fun _ e he _ => hopen e he }

/-- Once the window of a counter is over few of the last failures are its
own, and none when it was full. -/
theorem Sound.stale {e : Entry} (h : Sound (some e) b busy) (hstale : windowMs < b.clock - e.firstFailureAt)
    (hopen : maxFailures ≤ e.failures → e.lockedUntil ≤ b.clock) :
    recent (b.clock - windowMs) b.failures ≤ 3 := by
  by_cases hlt : e.failures < maxFailures
  · obtain ⟨-, hown, -⟩ := h.few e rfl hlt
    have hle : recent (b.clock - windowMs) b.failures ≤ recent e.firstFailureAt b.failures :=
      recent_anti (by omega)
    unfold maxFailures at hlt
    omega
  · have hfull := not_lt.mp hlt
    rw [recent_eq_zero fun f hf => ?_]
    · exact Nat.zero_le _
    · have hf' := h.full e rfl hfull f hf
      have hover := hopen hfull
      omega

theorem Sound.sweep {store : Store} {k : String} (h : Sound (store k) b busy) :
    Sound (LoginLockout.cleanup store b.clock k) b busy := by
  refine ⟨h.past, fun he => ?_, fun e he => ?_, fun e he => ?_, fun hb e he => ?_, fun trip ht => ?_,
    h.bounded⟩
  · cases hs : store k with
    | none => exact h.idle hs
    | some e =>
      obtain ⟨hopen, hstale⟩ := cleanup_none.mp he e hs
      rw [hs] at h
      exact h.stale hstale fun _ => hopen
  · exact h.few e (cleanup_some.mp he).1
  · exact h.full e (cleanup_some.mp he).1
  · exact h.admitted hb e (cleanup_some.mp he).1
  · obtain hover | ⟨e, he, hfull, huntil⟩ := h.locked trip ht
    · exact .inl hover
    · by_cases hlive : b.clock < e.lockedUntil
      · exact .inr ⟨e, cleanup_some.mpr ⟨he, .inl hlive⟩, hfull, huntil⟩
      · exact .inl (huntil.trans (not_lt.mp hlive))

theorem Sound.trips_over (h : Sound entry b busy) (hb : busy) :
    ∀ trip ∈ b.trips, trip.1 + lockoutMs ≤ b.clock := by
  intro trip ht
  obtain hover | ⟨e, he, hfull, huntil⟩ := h.locked trip ht
  · exact hover
  · exact huntil.trans (h.admitted hb e he hfull)

/-- The counter that a failure adds to: it has counted what it should, and
few enough of the last failures came before. -/
structure Room (e : Entry) (b : Book) : Prop where
  counted : e.failures < maxFailures → e.firstFailureAt ≤ b.clock ∧
    recent e.firstFailureAt (b.clock :: b.failures) ≤ e.failures ∧
    recent (e.firstFailureAt - windowMs) (b.clock :: b.failures) ≤ e.failures + 4
  room : recent (b.clock - windowMs) b.failures ≤ 7

theorem Sound.room_anew (h : Sound entry b busy) (hfew : recent (b.clock - windowMs) b.failures ≤ 3) :
    Room ⟨0, 0, b.clock⟩ b where
  counted _ := by
    refine ⟨le_refl _, ?_, ?_⟩
    · rw [recent_eq_zero fun f hf => ?_]
      obtain rfl | hf := List.mem_cons.mp hf
      · exact le_refl _
      · exact h.past f hf
    · exact recent_cons_le.trans (Nat.succ_le_succ hfew)
  room := hfew.trans (by decide)

theorem Sound.room (h : Sound entry b busy) (hb : busy) : Room (freshEntry b.clock entry) b := by
  cases he : entry with
  | none => exact h.room_anew (h.idle he)
  | some e =>
    subst he
    unfold freshEntry
    dsimp only
    split_ifs with hstale
    · exact h.room_anew (h.stale hstale (h.admitted hb e rfl))
    by_cases hlt : e.failures < maxFailures
    · obtain ⟨hpast, hown, hboth⟩ := h.few e rfl hlt
      refine ⟨fun _ => ⟨hpast, ?_, ?_⟩, ?_⟩
      · exact recent_cons_le.trans hown
      · exact recent_cons_le.trans (Nat.succ_le_succ hboth)
      · have hle : recent (b.clock - windowMs) b.failures ≤ recent (e.firstFailureAt - windowMs) b.failures :=
          recent_anti (Int.sub_le_sub_right hpast _)
        unfold maxFailures at hlt
        omega
    · have hover := h.admitted hb e rfl (not_lt.mp hlt)
      refine ⟨fun hlt' => absurd hlt' hlt, ?_⟩
      rw [recent_eq_zero fun f hf => ?_]
      · exact Nat.zero_le _
      · have hf' := h.full e rfl (not_lt.mp hlt) f hf
        omega

theorem Sound.fail {R : Runtime} {k username : String} {store : Store} (h : Sound (store k) b busy)
    (hb : busy) (hk : key R.toLowerCase username = k) :
    Sound ((recordFailure R.toLowerCase store username b.clock).1 k)
      (b.record R k b.clock store (.fail username)) False := by
  have hroom := h.room hb
  obtain ⟨e, he, hcount, hfirst, hlock⟩ := recordFailure_own store b.clock hk
  simp only [Book.record, hk, if_true, he]
  have hpast : ∀ f ∈ b.clock :: b.failures, f ≤ b.clock := by
    intro f hf
    obtain rfl | hf := List.mem_cons.mp hf
    · exact le_refl _
    · exact h.past f hf
  refine ⟨hpast, nofun, ?_, ?_, False.elim, ?_, h.bounded.cons hroom.room⟩
  · rintro _ ⟨⟩ hlt
    obtain ⟨hle, hown, hboth⟩ := hroom.counted (by omega)
    rw [hfirst, hcount]
    exact ⟨hle, Nat.succ_le_succ hown, by omega⟩
  · rintro _ ⟨⟩ hle f hf
    obtain ⟨-, huntil, -⟩ | ⟨hlt, -⟩ := hlock
    · have hf' := hpast f hf
      rw [huntil]
      unfold lockoutMs windowMs
      omega
    · exact absurd hle (Nat.not_le_of_lt hlt)
  · intro trip ht
    obtain hnew | hold := List.mem_append.mp ht
    · obtain ⟨until?, huntil, rfl⟩ := Option.map_eq_some_iff.mp (Option.mem_toList.mp hnew)
      obtain ⟨hfull, hset, -⟩ | ⟨-, hnone⟩ := hlock
      · exact .inr ⟨e, rfl, hfull, hset.ge⟩
      · rw [hnone] at huntil
        cases huntil
    · exact .inl (h.trips_over hb trip hold)

end Counter

section Attempts

variable (R : Runtime) (k : String)

/-- The request was admitted for a name of the counter and has its password
yet to be checked. -/
def InFlight : Call → Bool
  | .login (.admitted req) | .login (.found req _) => key R.toLowerCase req.username = k
  | _ => false

/-- Attempts at the counter come one at a time and are passwords only. -/
def OneAtATime (w : Watched) : Call → Prop
  | .login (.start req) => key R.toLowerCase req.username = k → w.pool.calls.countP (InFlight R k) = 0
  | .loginTotp (.verified _ pending _ _) => key R.toLowerCase pending.username ≠ k
  | _ => True

instance (w : Watched) : DecidablePred (OneAtATime R k w)
  | .login (.start _) => inferInstanceAs (Decidable (_ → _ = 0))
  | .loginTotp (.verified _ _ _ _) => inferInstanceAs (Decidable (_ ≠ k))
  | .login (.admitted _) | .login (.found _ _) | .login (.accepted _ _ _) | .login (.stamped _ _)
  | .login (.done _) | .loginTotp (.start _) | .loginTotp (.admitted _ _) | .loginTotp (.read _ _ _ _)
  | .loginTotp (.consumed _ _ _) | .loginTotp (.updated _ _ _) | .loginTotp (.done _)
  | .cleanupLockout | .cleanupPending => isTrue trivial

/-- The step does not clear the counter. -/
def Keeps : Effect → Prop
  | .clear username => key R.toLowerCase username ≠ k
  | _ => True

instance : DecidablePred (Keeps R k)
  | .clear _ => inferInstanceAs (Decidable (_ ≠ k))
  | .fail _ | .sweep | .none => isTrue trivial

def InTurn (w : Watched) : Move Call Int → Prop
  | .spawn t => Begins t
  | .advance i now => w.book.clock ≤ now ∧
    ∀ t ∈ w.pool.calls[i]?, OneAtATime R k w t ∧ Keeps R k (effect R t)

instance (w : Watched) : ∀ m, Decidable (InTurn R k w m)
  | .spawn t => inferInstanceAs (Decidable (Begins t))
  | .advance _ _ => inferInstanceAs (Decidable (_ ∧ ∀ t ∈ _, _ ∧ _))

/-- Nobody has failed at the counter, and no attempt is in flight. -/
structure Untouched (w : Watched) : Prop where
  counter : w.pool.shared.lockout k = none
  quiet : w.pool.calls.countP (InFlight R k) = 0
  failures : w.book.failures = []
  trips : w.book.trips = []

/-- At most eight failures fall into any fifteen minutes, and a lock keeps
attempts out for as long. -/
structure Contained (w : Watched) : Prop where
  failures : AtMostEight windowMs w.book.failures
  locked : ∀ trip ∈ w.book.trips, ∀ now username, w.book.clock ≤ now → key R.toLowerCase username = k →
    isLocked R.toLowerCase w.pool.shared.lockout username now = none → trip.1 + lockoutMs ≤ now

structure Steady (w : Watched) : Prop where
  single : w.pool.calls.countP (InFlight R k) ≤ 1
  sound : Sound (w.pool.shared.lockout k) w.book (0 < w.pool.calls.countP (InFlight R k))

variable {R k} {w : Watched} {now : Int}

theorem Steady.contained (h : Steady R k w) : Contained R k w where
  failures := h.sound.bounded
  locked trip ht now username hnow hk hopen := by
    obtain hover | ⟨e, he, -, huntil⟩ := h.sound.locked trip ht
    · exact hover.trans hnow
    · exact huntil.trans ((isLocked_none hk).mp hopen e he)

theorem inFlight_act {s : State} {t : Call} (h : InFlight R k (act R now s t).2 = true) :
    InFlight R k t = true ∨ ∃ req, t = .login (.start req) ∧ key R.toLowerCase req.username = k ∧
      isLocked R.toLowerCase s.lockout req.username now = none := by
  cases t with
  | login stage =>
    cases stage with
    | start req =>
      simp only [act, actLogin, admitLogin] at h
      split_ifs at h
      · cases h
      · cases h
      · split at h
        · cases h
        · rename_i hopen
          exact .inr ⟨req, rfl, of_decide_eq_true h, hopen⟩
    | admitted req => exact .inl h
    | found req user =>
      simp only [act, actLogin, settleLogin] at h
      split at h <;> cases h
    | accepted req user needsRehash => cases h
    | stamped req user =>
      simp only [act, actLogin, grantLogin] at h
      split_ifs at h <;> cases h
    | done result => cases h
  | loginTotp stage => cases h
  | cleanupLockout => cases h
  | cleanupPending => cases h

variable (now) in
theorem inFlight_fail (s : State) {t : Call} {username : String} (h : effect R t = .fail username)
    (hk : key R.toLowerCase username = k) (hturn : OneAtATime R k w t) :
    InFlight R k t = true ∧ InFlight R k (act R now s t).2 = false := by
  cases t with
  | login stage =>
    cases stage with
    | found req user =>
      simp only [effect] at h
      split_ifs at h with hgood
      cases h
      have hnone : goodPassword R req user = none := by simpa using hgood
      simp [InFlight, act, actLogin, settleLogin, hnone, hk]
    | start req | admitted req | accepted req user needsRehash | stamped req user | done result =>
      cases h
  | loginTotp stage =>
    cases stage with
    | verified req pending user verdict =>
      cases verdict with
      | rejected =>
        cases h
        exact absurd hk hturn
      | totp | backupCode remaining => cases h
    | start req | admitted req pending | read req pending user secret | consumed req user verdict
    | updated req user verdict | done result => cases h
  | cleanupLockout => cases h
  | cleanupPending => cases h

theorem Sound.record {e : Effect} {store : Store} {b : Book} {busy : Prop}
    (h : Sound (store k) b busy) (hfail : ∀ username, e = .fail username → key R.toLowerCase username ≠ k)
    (hkeeps : Keeps R k e) : Sound (e.apply R b.clock store k) (b.record R k b.clock store e) busy := by
  cases e with
  | fail username =>
    have hne := hfail username rfl
    simp only [Effect.apply, Book.record, hne, if_false, recordFailure_other hne]
    exact h
  | clear username =>
    have hne : key R.toLowerCase username ≠ k := hkeeps
    simp only [Effect.apply, Book.record, hne, if_false, clearLockout_other hne]
    exact h
  | sweep => exact h.sweep
  | none => exact h

theorem record_tick (store : Store) (b : Book) (e : Effect) :
    b.record R k now store e = { b with clock := now }.record R k now store e := by
  cases e <;> rfl

theorem steady_spawn {t : Call} (h : Steady R k w) (ht : Begins t) :
    Steady R k (step R k w (.spawn t)) := by
  have hout : InFlight R k t = false := by
    cases t with
    | login stage => cases stage <;> first | rfl | cases ht
    | loginTotp stage => rfl
    | cleanupLockout => rfl
    | cleanupPending => rfl
  have hcount : (step R k w (.spawn t)).pool.calls.countP (InFlight R k) =
      w.pool.calls.countP (InFlight R k) := by
    simp [step, Pool.step, hout]
  refine ⟨hcount.trans_le h.single, ?_⟩
  rw [hcount]
  exact h.sound

theorem steady_advance {i : Nat} {t : Call} (h : Steady R k w) (hi : w.pool.calls[i]? = some t)
    (hnow : w.book.clock ≤ now) (hturn : OneAtATime R k w t) (hkeeps : Keeps R k (effect R t)) :
    Steady R k ⟨⟨(act R now w.pool.shared t).1, w.pool.calls.set i (act R now w.pool.shared t).2⟩,
      w.book.record R k now w.pool.shared.lockout (effect R t)⟩ := by
  obtain ⟨hlt, hget⟩ := List.getElem?_eq_some_iff.mp hi
  have hcount := List.countP_set (p := InFlight R k) (a := (act R now w.pool.shared t).2) hlt
  rw [hget] at hcount
  have htick := h.sound.tick hnow
  have hsingle := h.single
  have hsound : Sound ((act R now w.pool.shared t).1.lockout k)
      (w.book.record R k now w.pool.shared.lockout (effect R t))
      (0 < (w.pool.calls.set i (act R now w.pool.shared t).2).countP (InFlight R k)) := by
    rw [act_lockout, record_tick]
    by_cases hfail : ∃ username, effect R t = .fail username ∧ key R.toLowerCase username = k
    · obtain ⟨username, heffect, hk⟩ := hfail
      obtain ⟨hin, hout⟩ := inFlight_fail now w.pool.shared heffect hk hturn
      have hbusy : 0 < w.pool.calls.countP (InFlight R k) :=
        List.countP_pos_iff.mpr ⟨t, List.mem_of_getElem? hi, hin⟩
      rw [heffect]
      refine (htick.fail hbusy hk).mono fun hafter => ?_
      rw [hcount, hin, hout] at hafter
      simp only [if_true, Bool.false_eq_true, if_false] at hafter
      omega
    · have hother : ∀ username, effect R t = .fail username → key R.toLowerCase username ≠ k :=
        fun username he hk => hfail ⟨username, he, hk⟩
      by_cases hbusy : 0 < w.pool.calls.countP (InFlight R k)
      · exact (htick.record hother hkeeps).mono fun _ => hbusy
      · have hidle : InFlight R k t = false := by
          refine Bool.eq_false_of_not_eq_true fun hin => hbusy ?_
          exact List.countP_pos_iff.mpr ⟨t, List.mem_of_getElem? hi, hin⟩
        cases hafter : InFlight R k (act R now w.pool.shared t).2 with
        | false =>
          refine (htick.record hother hkeeps).mono fun hpos => ?_
          rw [hcount, hidle, hafter] at hpos
          simp only [Bool.false_eq_true, if_false] at hpos
          omega
        | true =>
          obtain hin | ⟨req, rfl, hk, hopen⟩ := inFlight_act hafter
          · rw [hidle] at hin
            cases hin
          · exact htick.admit ((isLocked_none hk).mp hopen)
  refine ⟨?_, hsound⟩
  rw [hcount]
  cases hafter : InFlight R k (act R now w.pool.shared t).2 with
  | false =>
    simp only [Bool.false_eq_true, if_false]
    omega
  | true =>
    obtain hin | ⟨req, rfl, hk, -⟩ := inFlight_act hafter
    · have hpos : 0 < w.pool.calls.countP (InFlight R k) :=
        List.countP_pos_iff.mpr ⟨t, List.mem_of_getElem? hi, hin⟩
      simp only [hin, if_true]
      omega
    · have hzero : w.pool.calls.countP (InFlight R k) = 0 := hturn hk
      simp [hzero]

theorem steady_step (w : Watched) (m : Move Call Int) (h : Steady R k w) (hm : InTurn R k w m) :
    Steady R k (step R k w m) := by
  cases m with
  | spawn t => exact steady_spawn h hm
  | advance i now =>
    cases hi : w.pool.calls[i]? with
    | none => simpa only [step, hi] using h
    | some t =>
      obtain ⟨hturn, hkeeps⟩ := hm.2 t hi
      have hstep := steady_advance h hi hm.1 hturn hkeeps
      simpa only [step, Pool.step, hi] using hstep

theorem Untouched.steady (h : Untouched R k w) : Steady R k w := by
  refine ⟨by rw [h.quiet]; exact Nat.zero_le _, ?_⟩
  rw [h.counter]
  constructor
  · simp [h.failures]
  · simp [h.failures, recent]
  · simp
  · simp
  · simp
  · simp [h.trips]
  · intro x
    simp [h.failures]

/-- Wrong passwords for one name that are tried one after another stay
contained, whenever the timers run. -/
theorem failures_contained (moves : List (Move Call Int)) (h : Untouched R k w)
    (hc : Along (step R k) (InTurn R k) w moves) : Contained R k (moves.foldl (step R k) w) :=
  (foldl_invariant steady_step h.steady hc).contained

def attempt (i : Nat) (now : Int) : List (Move Call Int) :=
  [.spawn (.login (.start ⟨"root", "guess", 0, 0, "", ""⟩)), .advance i now, .advance i now, .advance i now]

/-- Four failures that end with the window of the first, then five more. -/
def burst : List (Move Call Int) :=
  attempt 1 0 ++ attempt 2 windowMs ++ attempt 3 windowMs ++ attempt 4 windowMs ++
    attempt 5 (windowMs + 1) ++ attempt 6 (windowMs + 1) ++ attempt 7 (windowMs + 1) ++
    attempt 8 (windowMs + 1) ++ attempt 9 (windowMs + 1) ++ [.advance 0 (windowMs + 2)]

theorem failures_contained_burst : Contained plain "root" (burst.foldl (step plain "root") idleProcess) :=
  failures_contained burst ⟨rfl, by decide, rfl, rfl⟩ (by decide +kernel)

/-- The bound is reached. -/
example : recent 0 (burst.foldl (step plain "root") idleProcess).book.failures = 8 := by decide +kernel

end Attempts

end Polaris.LoginFailures
