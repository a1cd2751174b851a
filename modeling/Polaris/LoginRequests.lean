import Polaris.AuthRoutes
import Polaris.Lib.Runs

namespace Polaris.LoginRequests

open Polaris.Lib.Runs Polaris.LoginLockout Polaris.Auth Polaris.AuthRoutes

/-- Where a `/login` request stands between two of its awaits. -/
inductive LoginStage
  | start (req : LoginRequest)
  | admitted (req : LoginRequest)
  | found (req : LoginRequest) (user : Option User)
  | accepted (req : LoginRequest) (user : User) (needsRehash : Bool)
  | stamped (req : LoginRequest) (user : User)
  | done (result : Except Denied Reply)

section Login

variable (R : Runtime)

def admitLogin (now : Int) (s : State) (req : LoginRequest) : State × LoginStage :=
  if req.username = "" then (s, .done (.error (.validation "username")))
  else if req.password = "" then (s, .done (.error (.validation "password")))
  else
    match isLocked R.toLowerCase s.lockout req.username now with
    | some until? => (s, .done (.error (.locked until?)))
    | none => (s, .admitted req)

def goodPassword (req : LoginRequest) (user : Option User) : Option (User × PasswordCheck) :=
  let check := verifyPassword R req.password (user.map (·.passwordHash))
  match user with
  | none => none
  | some user => if check.valid then some (user, check) else none

def settleLogin (now : Int) (s : State) (req : LoginRequest) (user : Option User) : State × LoginStage :=
  match goodPassword R req user with
  | none =>
    ({ s with lockout := (recordFailure R.toLowerCase s.lockout req.username now).1 },
      .done (.error (.app 401 "Invalid username or password")))
  | some (user, check) =>
    ({ s with lockout := clearLockout R.toLowerCase s.lockout req.username },
      .accepted { req with verifiedAt := now } user check.needsRehash)

def grantLogin (now : Int) (s : State) (req : LoginRequest) (user : User) : State × LoginStage :=
  if user.authProvider = .local ∧ user.totpEnabledAt.isSome then
    ({ s with pending := MfaPending.issue s.pending req.token user.id user.username now },
      .done (.ok (.mfaRequired req.token)))
  else
    ({ s with sessions := ⟨sessionFor user false now, none, none⟩ :: s.sessions },
      .done (.ok (.ok user.username user.role)))

def actLogin (now : Int) (s : State) : LoginStage → State × LoginStage
  | .start req => admitLogin R now s req
  | .admitted req => (s, .found req (s.users.find? (·.username = req.username)))
  | .found req user => settleLogin R now s req user
  | .accepted req user needsRehash =>
    (s.updateUser user.id (stampLogin R user needsRehash req), .stamped req user)
  | .stamped req user => grantLogin now s req user
  | .done result => (s, .done result)

theorem goodPassword_found (s : State) (req : LoginRequest) :
    goodPassword R req (s.users.find? (·.username = req.username)) = passwordHolder R s req := rfl

theorem actLogin_done (now : Int) (s : State) (result : Except Denied Reply) (n : Nat) :
    (fun p : State × LoginStage => actLogin R now p.1 p.2)^[n] (s, .done result) = (s, .done result) := by
  induction n with
  | zero => rfl
  | succ n ih => rw [Function.iterate_succ_apply, actLogin, ih]

/-- A request that no other one runs between is the request handled at once. -/
theorem login_alone (s : State) (req : LoginRequest) :
    (fun p : State × LoginStage => actLogin R req.verifiedAt p.1 p.2)^[4]
        (actLogin R req.arrivedAt s (.start req)) =
      ((AuthRoutes.login R s req).1, .done (AuthRoutes.login R s req).2) := by
  unfold AuthRoutes.login
  rw [actLogin, admitLogin]
  split_ifs
  · exact actLogin_done R _ _ _ 4
  · exact actLogin_done R _ _ _ 4
  cases hlock : isLocked R.toLowerCase s.lockout req.username req.arrivedAt with
  | some until? => exact actLogin_done R _ _ _ 4
  | none =>
    dsimp only
    rw [Function.iterate_succ_apply, Function.iterate_succ_apply]
    simp only [actLogin, settleLogin, goodPassword_found]
    cases hgood : passwordHolder R s req with
    | none => rfl
    | some good =>
      obtain ⟨user, check⟩ := good
      simp only [Function.iterate_succ_apply, Function.iterate_zero, id, grantLogin, acceptPassword,
        State.updateUser]
      split_ifs <;> rfl

end Login

/-- What runs in the process: requests, and the timers that sweep the two
stores. -/
inductive Call
  | login (stage : LoginStage)
  | loginTotp (stage : Stage)
  | cleanupLockout
  | cleanupPending

section Calls

variable (R : Runtime)

def act (now : Int) (s : State) : Call → State × Call
  | .login stage =>
    let (s, stage) := actLogin R now s stage
    (s, .login stage)
  | .loginTotp stage =>
    let (s, stage) := AuthRoutes.act R now s stage
    (s, .loginTotp stage)
  | .cleanupLockout => ({ s with lockout := LoginLockout.cleanup s.lockout now }, .cleanupLockout)
  | .cleanupPending => ({ s with pending := MfaPending.cleanup s.pending now }, .cleanupPending)

/-- What a step does to the counters. -/
inductive Effect
  | fail (username : String)
  | clear (username : String)
  | sweep
  | none
  deriving DecidableEq

def Effect.apply (now : Int) (store : Store) : Effect → Store
  | .fail username => (recordFailure R.toLowerCase store username now).1
  | .clear username => clearLockout R.toLowerCase store username
  | .sweep => LoginLockout.cleanup store now
  | .none => store

def effect : Call → Effect
  | .login (.found req user) =>
    if (goodPassword R req user).isSome then .clear req.username else .fail req.username
  | .loginTotp (.verified _ pending _ .rejected) => .fail pending.username
  | .loginTotp (.verified _ pending _ _) => .clear pending.username
  | .cleanupLockout => .sweep
  | _ => .none

variable {R} {now : Int} {s : State}

theorem admitLogin_lockout (req : LoginRequest) : (admitLogin R now s req).1.lockout = s.lockout := by
  unfold admitLogin
  split_ifs
  · rfl
  · rfl
  · split <;> rfl

theorem actLogin_lockout (stage : LoginStage) :
    (actLogin R now s stage).1.lockout = (effect R (.login stage)).apply R now s.lockout := by
  cases stage with
  | start req => exact admitLogin_lockout req
  | found req user =>
    simp only [actLogin, settleLogin, effect]
    cases goodPassword R req user <;> rfl
  | stamped req user =>
    simp only [actLogin, grantLogin]
    split_ifs <;> rfl
  | admitted req | accepted req user needsRehash | done result => rfl

theorem actTotp_lockout (stage : Stage) :
    (AuthRoutes.act R now s stage).1.lockout =
      (effect R (.loginTotp stage)).apply R now s.lockout := by
  cases stage with
  | start req =>
    simp only [AuthRoutes.act, admitRequest]
    split_ifs
    · rfl
    · rfl
    · split
      · rfl
      · split <;> rfl
  | admitted req pending =>
    simp only [AuthRoutes.act, readUser]
    split
    · rfl
    · split
      · rfl
      · split_ifs <;> rfl
  | read req pending user secret =>
    simp only [AuthRoutes.act, verify]
    split <;> rfl
  | verified req pending user verdict =>
    cases verdict with
    | rejected =>
      simp only [AuthRoutes.act, reject]
      split_ifs <;> rfl
    | totp | backupCode remaining => rfl
  | consumed req user verdict | updated req user verdict | done result => rfl

theorem act_lockout (t : Call) : (act R now s t).1.lockout = (effect R t).apply R now s.lockout := by
  cases t with
  | login stage => exact actLogin_lockout stage
  | loginTotp stage => exact actTotp_lockout stage
  | cleanupLockout | cleanupPending => rfl

end Calls

section Books

variable (R : Runtime) (k : String)

/-- What has happened to one counter since it was last cleared: the failures,
and each lock with the time it was set at and its end. -/
structure Book where
  clock : Int
  failures : List Int := []
  trips : List (Int × Int) := []

def Book.record (now : Int) (store : Store) (b : Book) : Effect → Book
  | .fail username =>
    if key R.toLowerCase username = k then
      ⟨now, now :: b.failures,
        ((recordFailure R.toLowerCase store username now).2.until?.map (now, ·)).toList ++ b.trips⟩
    else { b with clock := now }
  | .clear username => if key R.toLowerCase username = k then ⟨now, [], []⟩ else { b with clock := now }
  | .sweep | .none => { b with clock := now }

structure Watched where
  pool : Pool State Call
  book : Book

def step (w : Watched) : Move Call Int → Watched
  | .spawn t => { w with pool := w.pool.step (act R) (.spawn t) }
  | .advance i now =>
    match w.pool.calls[i]? with
    | none => w
    | some t =>
      ⟨w.pool.step (act R) (.advance i now),
        w.book.record R k now w.pool.shared.lockout (effect R t)⟩

/-- A request begins at its start. -/
def Begins : Call → Prop
  | .login (.start _) | .loginTotp (.start _) | .cleanupLockout | .cleanupPending => True
  | _ => False

instance : DecidablePred Begins
  | .login (.start _) | .loginTotp (.start _) | .cleanupLockout | .cleanupPending => isTrue trivial
  | .login (.admitted _) | .login (.found _ _) | .login (.accepted _ _ _) | .login (.stamped _ _)
  | .login (.done _) | .loginTotp (.admitted _ _) | .loginTotp (.read _ _ _ _)
  | .loginTotp (.verified _ _ _ _) | .loginTotp (.consumed _ _ _) | .loginTotp (.updated _ _ _)
  | .loginTotp (.done _) => isFalse id

/-- A process with no users and the timer of its counters. -/
def idleProcess : Watched where
  pool := ⟨⟨[], fun _ => none, fun _ => none, []⟩, [.cleanupLockout]⟩
  book := { clock := 0 }

end Books

end Polaris.LoginRequests
