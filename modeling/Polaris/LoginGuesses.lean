import Polaris.AuthRoutes
import Polaris.Lib.Runs

namespace Polaris.LoginGuesses

open Polaris.Lib.Runs Polaris.LoginLockout Polaris.Auth Polaris.AuthRoutes

inductive Event
  | login (req : LoginRequest)
  | loginTotp (arrivedAt verifiedAt : Int) (req : TotpRequest)
  | cleanupLockout (now : Int)
  | cleanupPending (now : Int)

section Handled

variable (R : Runtime)

def handle (s : State) : Event → State
  | .login req => (AuthRoutes.login R s req).1
  | .loginTotp arrivedAt verifiedAt req => (AuthRoutes.loginTotp R arrivedAt verifiedAt req s).1
  | .cleanupLockout now => { s with lockout := LoginLockout.cleanup s.lockout now }
  | .cleanupPending now => { s with pending := MfaPending.cleanup s.pending now }

/-- The account whose second factor a request had evaluated, and whether it
was verified. -/
def evaluated (s : State) : Event → Option (String × Bool)
  | .loginTotp arrivedAt verifiedAt req =>
    match (MfaPending.peek s.pending req.pendingToken arrivedAt).2 with
    | none => none
    | some pending =>
      match (AuthRoutes.loginTotp R arrivedAt verifiedAt req s).2 with
      | .done (.ok _) => some (pending.userId, true)
      | .done (.error e) => if .error e = invalidCode then some (pending.userId, false) else none
      | _ => none
  | _ => none

/-- The failed verifications evaluated for an account since its second
factor was last verified. -/
def count (userId : String) (guesses : Nat) : Option (String × Bool) → Nat
  | none => guesses
  | some (id, true) => if id = userId then 0 else guesses
  | some (id, false) => if id = userId then guesses + 1 else guesses

structure Watched where
  state : State
  guesses : Nat

def step (userId : String) (w : Watched) (e : Event) : Watched :=
  ⟨handle R w.state e, count userId w.guesses (evaluated R w.state e)⟩

def codeAccepted (s : State) (now : Int) (req : TotpRequest) (userId : String) : Bool :=
  match s.findUser userId with
  | none => false
  | some user =>
    match user.totpSecret with
    | none => false
    | some secret =>
      match verdictOf R now req user secret with
      | .ok .totp | .ok (.backupCode _) => true
      | _ => false

end Handled

section Inversion

variable {R : Runtime} {s s' s'' : State} {req : TotpRequest} {arrivedAt verifiedAt now : Int}

def names (s : State) : List (String × String) := s.users.map fun u => (u.id, u.username)

/-- What no request for a second factor touches: no pending challenge is
added, and the accounts keep their names. -/
structure Frame (s s' : State) : Prop where
  within : MfaPending.Within s'.pending s.pending
  names_eq : names s' = names s

theorem Frame.refl : Frame s s := ⟨MfaPending.within_refl, rfl⟩

theorem Frame.trans (h : Frame s s') (h' : Frame s' s'') : Frame s s'' :=
  ⟨MfaPending.within_trans h'.within h.within, h'.names_eq.trans h.names_eq⟩

theorem names_updateUser {id : String} {f : User → User} (hid : ∀ u, (f u).id = u.id)
    (hname : ∀ u, (f u).username = u.username) : names (s.updateUser id f) = names s := by
  simp only [names, State.updateUser, List.map_map]
  refine List.map_congr_left fun u _ => ?_
  by_cases h : u.id = id <;> simp [h, hid, hname]

def Silent (r : Except Denied Reply) : Prop := r ≠ invalidCode ∧ ∀ reply, r ≠ .ok reply

theorem expired_silent : Silent expired := ⟨by simp [expired, invalidCode], by simp [expired]⟩

theorem iterate_done (n : Nat) (r : Except Denied Reply) :
    (fun p : State × Stage => act R now p.1 p.2)^[n] (s, .done r) = (s, .done r) := by
  induction n with
  | zero => rfl
  | succ n ih => rw [Function.iterate_succ_apply, act, ih]

variable (R now s req) in
theorem admitRequest_cases :
    (∃ s' r, admitRequest R now s req = (s', .done r) ∧ Silent r ∧ s'.lockout = s.lockout ∧ Frame s s') ∨
    ∃ pending, (MfaPending.peek s.pending req.pendingToken now).2 = some pending ∧
      isLocked R.toLowerCase s.lockout pending.username now = none ∧
      ∃ s', admitRequest R now s req = (s', .admitted req pending) ∧ s'.lockout = s.lockout ∧
        s'.users = s.users ∧ Frame s s' := by
  have hw := @MfaPending.peek_within s.pending req.pendingToken now
  unfold admitRequest
  split_ifs
  · exact .inl ⟨_, _, rfl, ⟨by simp [invalidCode], by simp⟩, rfl, .refl⟩
  · exact .inl ⟨_, _, rfl, ⟨by simp [invalidCode], by simp⟩, rfl, .refl⟩
  · dsimp only
    cases hp : (MfaPending.peek s.pending req.pendingToken now).2 with
    | none => exact .inl ⟨_, _, rfl, expired_silent, rfl, hw, rfl⟩
    | some pending =>
      dsimp only
      cases hl : isLocked R.toLowerCase s.lockout pending.username now with
      | some t => exact .inl ⟨_, _, rfl, ⟨by simp [invalidCode], by simp⟩, rfl, hw, rfl⟩
      | none => exact .inr ⟨pending, rfl, hl, _, rfl, rfl, rfl, hw, rfl⟩

variable (now s req) in
theorem readUser_cases (pending : MfaPending.Entry) :
    (∃ s', readUser now s req pending = (s', .done expired) ∧ s'.lockout = s.lockout ∧ Frame s s') ∨
    ∃ user secret, s.findUser pending.userId = some user ∧ user.totpSecret = some secret ∧
      readUser now s req pending = (s, .read req pending user secret) := by
  have hdrop := @MfaPending.consume_within s.pending req.pendingToken now
  unfold readUser
  cases hu : s.findUser pending.userId with
  | none => exact .inl ⟨_, rfl, rfl, hdrop, rfl⟩
  | some user =>
    cases hsec : user.totpSecret with
    | none =>
      simp only [hsec]
      exact .inl ⟨_, rfl, rfl, hdrop, rfl⟩
    | some secret =>
      simp only [hsec]
      split_ifs
      · exact .inl ⟨_, rfl, rfl, hdrop, rfl⟩
      · exact .inr ⟨user, secret, rfl, hsec, rfl⟩

variable (R now s req) in
theorem reject_cases (pending : MfaPending.Entry) :
    ∃ s', reject R now s req pending = (s', .done invalidCode) ∧
      s'.lockout = (recordFailure R.toLowerCase s.lockout pending.username now).1 ∧ Frame s s' := by
  unfold reject
  dsimp only
  split_ifs
  · exact ⟨_, rfl, rfl, MfaPending.consume_within, rfl⟩
  · exact ⟨_, rfl, rfl, MfaPending.within_refl, rfl⟩

variable (R now s req) in
theorem accept_cases (pending : MfaPending.Entry) (user : User) {verdict : Verdict}
    (hv : verdict ≠ .rejected) :
    ∃ s' reply, (fun p : State × Stage => act R now p.1 p.2)^[3]
        (s, .verified req pending user verdict) = (s', .done (.ok reply)) ∧
      s'.lockout = clearLockout R.toLowerCase s.lockout pending.username ∧ Frame s s' := by
  have hact : act R now s (.verified req pending user verdict) =
      consume R now s req pending user verdict := by
    cases verdict with
    | rejected => exact absurd rfl hv
    | totp => rfl
    | backupCode remaining => rfl
  rw [Function.iterate_succ_apply, hact]
  refine ⟨_, _, rfl, rfl, MfaPending.consume_within, ?_⟩
  exact names_updateUser (fun _ => rfl) (fun _ => rfl)

theorem loginTotp_cases (R : Runtime) (s : State) (req : TotpRequest) (arrivedAt verifiedAt : Int) :
    (∃ s' r, AuthRoutes.loginTotp R arrivedAt verifiedAt req s = (s', .done r) ∧ Silent r ∧
      s'.lockout = s.lockout ∧ Frame s s') ∨
    ∃ pending, (MfaPending.peek s.pending req.pendingToken arrivedAt).2 = some pending ∧
      isLocked R.toLowerCase s.lockout pending.username arrivedAt = none ∧
      ((∃ s', AuthRoutes.loginTotp R arrivedAt verifiedAt req s = (s', .done invalidCode) ∧
          s'.lockout = (recordFailure R.toLowerCase s.lockout pending.username verifiedAt).1 ∧
          Frame s s') ∨
        ∃ s' reply, AuthRoutes.loginTotp R arrivedAt verifiedAt req s = (s', .done (.ok reply)) ∧
          s'.lockout = clearLockout R.toLowerCase s.lockout pending.username ∧ Frame s s' ∧
          codeAccepted R s verifiedAt req pending.userId) := by
  unfold AuthRoutes.loginTotp
  obtain ⟨s₁, r, h₁, hr, hl, hf⟩ | ⟨pending, hp, hopen, s₁, h₁, hl, hu, hf⟩ :=
    admitRequest_cases R s req arrivedAt
  · refine .inl ⟨s₁, r, ?_, hr, hl, hf⟩
    rw [act, h₁, iterate_done]
  rw [act, h₁, Function.iterate_succ_apply, act]
  obtain ⟨s₂, h₂, hl₂, hf₂⟩ | ⟨user, secret, huser, hsecret, h₂⟩ :=
    readUser_cases s₁ req verifiedAt pending
  · refine .inl ⟨s₂, _, ?_, expired_silent, hl₂.trans hl, hf.trans hf₂⟩
    rw [h₂, iterate_done]
  rw [h₂, Function.iterate_succ_apply, act, verify]
  cases hv : verdictOf R verifiedAt req user secret with
  | error message =>
    refine .inl ⟨s₁, .error (.thrown message), ?_, ⟨by simp [invalidCode], by simp⟩, hl, hf⟩
    exact iterate_done 3 _
  | ok verdict =>
    refine .inr ⟨pending, hp, hopen, ?_⟩
    by_cases hrej : verdict = .rejected
    · obtain ⟨s₃, h₃, hl₃, hf₃⟩ :=
        reject_cases R s₁ req verifiedAt pending
      refine .inl ⟨s₃, ?_, hl ▸ hl₃, hf.trans hf₃⟩
      rw [hrej, Function.iterate_succ_apply, act, h₃, iterate_done]
    · obtain ⟨s₃, reply, h₃, hl₃, hf₃⟩ := accept_cases R s₁ req verifiedAt pending
        user hrej
      refine .inr ⟨s₃, reply, h₃, hl ▸ hl₃, hf.trans hf₃, ?_⟩
      rw [State.findUser, hu] at huser
      simp only [codeAccepted, State.findUser, huser, hsecret, hv]
      cases verdict with
      | rejected => exact absurd rfl hrej
      | totp => rfl
      | backupCode remaining => rfl

end Inversion

section Ceiling

variable (R : Runtime) (userId k : String) (opened : Int)

/-- Inside the window, and neither a good password nor another account that
shares the counter clears it while it holds failed guesses. -/
def Uncleared (w : Watched) : Event → Prop
  | .login req =>
    (opened ≤ req.arrivedAt ∧ req.arrivedAt < opened + windowMs) ∧
      (opened ≤ req.verifiedAt ∧ req.verifiedAt < opened + windowMs) ∧
      (key R.toLowerCase req.username = k →
        isLocked R.toLowerCase w.state.lockout req.username req.arrivedAt = none →
        (passwordHolder R w.state req).isSome → w.guesses = 0)
  | .loginTotp arrivedAt verifiedAt req =>
    (opened ≤ arrivedAt ∧ arrivedAt < opened + windowMs) ∧
      (opened ≤ verifiedAt ∧ verifiedAt < opened + windowMs) ∧
      ∀ pending ∈ w.state.pending req.pendingToken, pending.userId ≠ userId →
        key R.toLowerCase pending.username = k →
        codeAccepted R w.state verifiedAt req pending.userId → w.guesses = 0
  | .cleanupLockout now => now < opened + windowMs
  | .cleanupPending _ => True

instance (w : Watched) : ∀ e, Decidable (Uncleared R userId k opened w e)
  | .login _ | .loginTotp _ _ _ => inferInstanceAs (Decidable (_ ∧ _ ∧ _))
  | .cleanupLockout now => inferInstanceAs (Decidable (now < opened + windowMs))
  | .cleanupPending _ => isTrue trivial

/-- The account's name and its pending challenges share one counter, which
was started in the window and holds every failed guess. -/
structure Counted (w : Watched) : Prop where
  named : ∀ user ∈ names w.state, user.1 = userId → key R.toLowerCase user.2 = k
  challenged : ∀ token, ∀ pending ∈ w.state.pending token, pending.userId = userId →
    key R.toLowerCase pending.username = k
  counting : ∀ entry ∈ w.state.lockout k, Counting opened entry
  counted : w.guesses ≤ ((w.state.lockout k).map (·.failures)).getD 0
  bounded : w.guesses ≤ maxFailures

variable {R userId k opened} {w : Watched}

theorem Counted.frame {s' : State} {guesses : Nat} (h : Counted R userId k opened w)
    (hf : Frame w.state s') (hcounting : ∀ entry ∈ s'.lockout k, Counting opened entry)
    (hcounted : guesses ≤ ((s'.lockout k).map (·.failures)).getD 0) (hb : guesses ≤ maxFailures) :
    Counted R userId k opened ⟨s', guesses⟩ where
  named := by
    intro user hu
    rw [hf.names_eq] at hu
    exact h.named user hu
  challenged := by
    intro token pending hp
    obtain hnone | hsame := hf.within token
    · rw [hnone] at hp
      cases hp
    · exact h.challenged token pending (hsame ▸ hp)
  counting := hcounting
  counted := hcounted
  bounded := hb

/-- A failure recorded for any name keeps the count; one for the account's
own name leaves room for one more guess. -/
theorem recordFailure_counted (username : String) {now : Int} (h : Counted R userId k opened w)
    (hlow : opened ≤ now) (hnow : now < opened + windowMs) :
    (∀ entry ∈ (recordFailure R.toLowerCase w.state.lockout username now).1 k,
        Counting opened entry) ∧
      (((w.state.lockout k).map (·.failures)).getD 0 + if key R.toLowerCase username = k then 1 else 0) =
        (((recordFailure R.toLowerCase w.state.lockout username now).1 k).map (·.failures)).getD 0 := by
  by_cases hk : key R.toLowerCase username = k
  · obtain ⟨entry, heq, hc, hcount⟩ := recordFailure_entry R.toLowerCase
      w.state.lockout username hlow hnow (by rw [hk]; exact h.counting)
    rw [heq, hk, Function.update_self]
    rw [hk] at hcount
    refine ⟨fun e he => ?_, by simp [hcount]⟩
    cases he
    exact hc
  · rw [recordFailure_other hk]
    exact ⟨h.counting, by simp [hk]⟩

theorem login_cases (R : Runtime) (s : State) (req : LoginRequest) :
    (AuthRoutes.login R s req).1 = s ∨
    (AuthRoutes.login R s req).1 =
      { s with lockout := (recordFailure R.toLowerCase s.lockout req.username req.verifiedAt).1 } ∨
    ∃ user check, isLocked R.toLowerCase s.lockout req.username req.arrivedAt = none ∧
      passwordHolder R s req = some (user, check) ∧
      (AuthRoutes.login R s req).1 = (acceptPassword R s user check.needsRehash req).1 := by
  unfold AuthRoutes.login
  split_ifs
  · exact .inl rfl
  · exact .inl rfl
  · split
    · exact .inl rfl
    · rename_i hopen
      split
      · exact .inr (.inl rfl)
      · rename_i user check hp
        exact .inr (.inr ⟨user, check, hopen, hp, rfl⟩)

theorem acceptPassword_state (s : State) (user : User) (needsRehash : Bool) (req : LoginRequest) :
    (acceptPassword R s user needsRehash req).1.lockout =
        clearLockout R.toLowerCase s.lockout req.username ∧
      names (acceptPassword R s user needsRehash req).1 = names s ∧
      ∀ token, (acceptPassword R s user needsRehash req).1.pending token = s.pending token ∨
        (acceptPassword R s user needsRehash req).1.pending token =
          some ⟨user.id, user.username, req.verifiedAt + MfaPending.ttlMs⟩ := by
  have hnames : names ((State.mk s.users (clearLockout R.toLowerCase s.lockout req.username) s.pending
      s.sessions).updateUser user.id (stampLogin R user needsRehash req)) = names s :=
    names_updateUser (fun _ => rfl) (fun _ => rfl)
  unfold acceptPassword
  dsimp only
  split_ifs
  · refine ⟨rfl, hnames, fun token => ?_⟩
    by_cases h : token = req.token
    · exact .inr (by rw [h]; exact Function.update_self _ _ _)
    · exact .inl (Function.update_of_ne h _ _)
  · exact ⟨rfl, hnames, fun _ => .inl rfl⟩

theorem passwordHolder_mem {s : State} {req : LoginRequest} {user : User} {check : PasswordCheck}
    (h : passwordHolder R s req = some (user, check)) : user ∈ s.users := by
  unfold passwordHolder at h
  dsimp only at h
  split at h
  · cases h
  · rename_i u hu
    split_ifs at h
    cases h
    exact List.mem_of_find?_eq_some hu

theorem login_counted {req : LoginRequest} (h : Counted R userId k opened w)
    (hc : Uncleared R userId k opened w (.login req)) :
    Counted R userId k opened ⟨(AuthRoutes.login R w.state req).1, w.guesses⟩ := by
  obtain ⟨_, ⟨hlow, hnow⟩, hclear⟩ := hc
  obtain heq | heq | ⟨user, check, hopen, hp, heq⟩ := login_cases R w.state req
  · rw [heq]
    exact h
  · rw [heq]
    obtain ⟨hcounting, hcount⟩ := recordFailure_counted req.username h hlow hnow
    refine h.frame ⟨MfaPending.within_refl, rfl⟩ hcounting ?_ h.bounded
    rw [← hcount]
    exact h.counted.trans (Nat.le_add_right _ _)
  · rw [heq]
    obtain ⟨hlock, hnames, hpend⟩ := acceptPassword_state (R := R) w.state user check.needsRehash req
    have huser : key R.toLowerCase user.username = k ∨ user.id ≠ userId := by
      by_cases hid : user.id = userId
      · have hmem : (user.id, user.username) ∈ names w.state :=
          List.mem_map.mpr ⟨user, passwordHolder_mem hp, rfl⟩
        exact .inl (h.named (user.id, user.username) hmem hid)
      · exact .inr hid
    have hkeep : (acceptPassword R w.state user check.needsRehash req).1.lockout k = w.state.lockout k ∨
        (w.guesses = 0 ∧ (acceptPassword R w.state user check.needsRehash req).1.lockout k = none) := by
      rw [hlock]
      by_cases hk : key R.toLowerCase req.username = k
      · exact .inr ⟨hclear hk hopen (by simp [hp]), clearLockout_own hk⟩
      · exact .inl (clearLockout_other hk)
    refine ⟨?_, ?_, ?_, ?_, h.bounded⟩
    · rw [hnames]
      exact h.named
    · intro token pending hmem hid
      obtain hsame | hnew := hpend token
      · exact h.challenged token pending (hsame ▸ hmem) hid
      · rw [hnew] at hmem
        cases hmem
        exact huser.resolve_right (not_not.mpr hid)
    · obtain hsame | ⟨_, hnone⟩ := hkeep
      · rw [hsame]
        exact h.counting
      · simp [hnone]
    · obtain hsame | ⟨hzero, _⟩ := hkeep
      · rw [hsame]
        exact h.counted
      · exact hzero.le.trans (Nat.zero_le _)

theorem count_silent {arrivedAt verifiedAt : Int} {req : TotpRequest} {s s' : State}
    {r : Except Denied Reply}
    (h : AuthRoutes.loginTotp R arrivedAt verifiedAt req s = (s', .done r)) (hr : Silent r) :
    evaluated R s (.loginTotp arrivedAt verifiedAt req) = none := by
  simp only [evaluated, h]
  cases (MfaPending.peek s.pending req.pendingToken arrivedAt).2 with
  | none => rfl
  | some pending =>
    cases r with
    | ok reply => exact absurd rfl (hr.2 reply)
    | error e => exact if_neg hr.1

theorem loginTotp_counted {arrivedAt verifiedAt : Int} {req : TotpRequest}
    (h : Counted R userId k opened w)
    (hc : Uncleared R userId k opened w (.loginTotp arrivedAt verifiedAt req)) :
    Counted R userId k opened (step R userId w (.loginTotp arrivedAt verifiedAt req)) := by
  obtain ⟨⟨_, harrived⟩, ⟨hlow, hnow⟩, hclear⟩ := hc
  obtain ⟨s', r, heq, hr, hlock, hf⟩ | ⟨pending, hp, hopen, hcase⟩ :=
    loginTotp_cases R w.state req arrivedAt verifiedAt
  · rw [step, count_silent heq hr]
    simp only [handle, heq, count]
    exact h.frame hf (hlock ▸ h.counting) (hlock ▸ h.counted) h.bounded
  obtain ⟨hmem, _⟩ := MfaPending.peek_some hp
  obtain ⟨s', heq, hlock, hf⟩ | ⟨s', reply, heq, hlock, hf, hacc⟩ := hcase
  · have heval : evaluated R w.state (.loginTotp arrivedAt verifiedAt req) =
        some (pending.userId, false) := by
      simp [evaluated, hp, heq, invalidCode]
    obtain ⟨hcounting, hcount⟩ := recordFailure_counted pending.username h hlow hnow
    rw [step, heval]
    simp only [handle, heq, count]
    refine h.frame hf (hlock ▸ hcounting) ?_ ?_
    · rw [hlock, ← hcount]
      by_cases hid : pending.userId = userId
      · rw [if_pos hid, if_pos (h.challenged _ _ hmem hid)]
        exact Nat.succ_le_succ h.counted
      · rw [if_neg hid]
        exact h.counted.trans (Nat.le_add_right _ _)
    · by_cases hid : pending.userId = userId
      · rw [if_pos hid]
        have hk := h.challenged _ _ hmem hid
        have hc := h.counted
        cases hs : w.state.lockout k with
        | none =>
          rw [hs] at hc
          exact Nat.succ_le_succ (hc.trans (Nat.zero_le _))
        | some entry =>
          have hlt := failures_lt_of_not_locked harrived (hk ▸ hs) (h.counting entry hs) hopen
          rw [hs] at hc
          exact Nat.succ_le_of_lt (lt_of_le_of_lt hc hlt)
      · rw [if_neg hid]
        exact h.bounded
  · have heval : evaluated R w.state (.loginTotp arrivedAt verifiedAt req) =
        some (pending.userId, true) := by
      simp [evaluated, hp, heq]
    rw [step, heval]
    simp only [handle, heq, count]
    by_cases hk : key R.toLowerCase pending.username = k
    · have hnone : s'.lockout k = none := by rw [hlock, clearLockout_own hk]
      have hzero : (if pending.userId = userId then 0 else w.guesses) = 0 := by
        by_cases hid : pending.userId = userId
        · rw [if_pos hid]
        · rw [if_neg hid, hclear pending hmem hid hk hacc]
      rw [hzero]
      exact h.frame hf (by simp [hnone]) (Nat.zero_le _) (Nat.zero_le _)
    · have hid : pending.userId ≠ userId := fun hid => hk (h.challenged _ _ hmem hid)
      have hsame : s'.lockout k = w.state.lockout k := by rw [hlock, clearLockout_other hk]
      rw [if_neg hid]
      exact h.frame hf (hsame ▸ h.counting) (hsame ▸ h.counted) h.bounded

theorem step_counted (w : Watched) (e : Event) (h : Counted R userId k opened w)
    (hc : Uncleared R userId k opened w e) : Counted R userId k opened (step R userId w e) := by
  cases e with
  | login req => exact login_counted h hc
  | loginTotp arrivedAt verifiedAt req => exact loginTotp_counted h hc
  | cleanupLockout now =>
    have hsame : (handle R w.state (.cleanupLockout now)).lockout k = w.state.lockout k :=
      cleanup_entry hc h.counting
    exact h.frame ⟨MfaPending.within_refl, rfl⟩ (hsame ▸ h.counting) (hsame ▸ h.counted) h.bounded
  | cleanupPending now =>
    exact h.frame ⟨MfaPending.cleanup_within, rfl⟩ h.counting h.counted h.bounded

end Ceiling

/-- An account whose counter is clear when a 15-minute window opens has at
most five failed codes evaluated in it between two verified ones, as long as
nothing clears the counter while it holds failed guesses. -/
theorem guesses_stay_bounded (R : Runtime) (s : State) (userId username : String) (opened : Int)
    (hnamed : ∀ user ∈ s.users, user.id = userId → user.username = username)
    (hchallenged : ∀ token, ∀ pending ∈ s.pending token, pending.userId = userId →
      pending.username = username)
    (hclear : s.lockout (key R.toLowerCase username) = none) (es : List Event)
    (hes : Along (step R userId) (Uncleared R userId (key R.toLowerCase username) opened) ⟨s, 0⟩ es) :
    (es.foldl (step R userId) ⟨s, 0⟩).guesses ≤ maxFailures := by
  refine (foldl_invariant step_counted (I := Counted R userId _ opened) ⟨?_, ?_, ?_, ?_, ?_⟩ hes).bounded
  · intro user hu hid
    obtain ⟨u, hmem, rfl⟩ := List.mem_map.mp hu
    rw [hnamed u hmem hid]
  · intro token pending hp hid
    rw [hchallenged token pending hp hid]
  · simp [hclear]
  · exact Nat.zero_le _
  · exact Nat.zero_le _

section Site

def alice : User where
  id := "u1"
  username := "alice"
  passwordHash := "$argon2pw"
  totpSecret := some "JBSWY3DP"
  totpEnabledAt := some 0

def site : State := ⟨[alice], fun _ => none, fun _ => none, []⟩

def signIn (now : Int) : Event := .login ⟨"alice", "pw", now, now, "", "t"⟩

def guess (now : Int) : Event := .loginTotp now now ⟨"t", "000000", false⟩

theorem guesses_stay_bounded_site :
    site.lockout "alice" = none ∧
      ([signIn 0, guess 1, guess 2, guess 3].foldl (step plain "u1") ⟨site, 0⟩).guesses = 3 ∧
      ([signIn 0, guess 1, guess 2, guess 3].foldl (step plain "u1") ⟨site, 0⟩).guesses ≤ maxFailures := by
  refine ⟨rfl, by decide, ?_⟩
  exact guesses_stay_bounded plain site "u1" "alice" 0 (by decide) (by simp [site]) rfl _ (by decide)

/-- Signing in again after every fourth wrong code: eight codes are
evaluated within ten milliseconds and the account is not locked. -/
theorem password_clears_guesses :
    site.lockout (key plain.toLowerCase "alice") = none ∧
      ([signIn 0, guess 1, guess 2, guess 3, guess 4, signIn 5, guess 6, guess 7, guess 8, guess 9].foldl
        (step plain "u1") ⟨site, 0⟩).guesses = 8 ∧
      ¬ ([signIn 0, guess 1, guess 2, guess 3, guess 4, signIn 5, guess 6, guess 7, guess 8, guess 9].foldl
        (step plain "u1") ⟨site, 0⟩).guesses ≤ maxFailures := by
  decide +kernel

end Site

end Polaris.LoginGuesses
