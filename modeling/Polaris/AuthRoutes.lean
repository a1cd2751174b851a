import Polaris.Auth

namespace Polaris.AuthRoutes

open Polaris.LoginLockout Polaris.Auth

/-- A request to `/login`: the time it arrives, the time its awaited password
check is over, and the random bytes it draws. -/
structure LoginRequest where
  username : String
  password : String
  arrivedAt : Int
  verifiedAt : Int
  salt : String := ""
  token : String := ""
  deriving DecidableEq

structure TotpRequest where
  pendingToken : String
  code : String
  isBackupCode : Bool := false
  deriving DecidableEq

inductive Reply
  | mfaRequired (pendingToken : String)
  | ok (username : String) (role : Role)
  deriving DecidableEq

def sessionFor (user : User) (mfaVerified : Bool) (now : Int) : Session :=
  ⟨user.id, user.username, user.role, user.authProvider, mfaVerified, now⟩

section Login

variable (R : Runtime)

def stampLogin (user : User) (needsRehash : Bool) (req : LoginRequest) (u : User) : User :=
  { u with
    lastLogin := some req.verifiedAt
    passwordHash := if needsRehash then R.argonHash req.salt req.password else u.passwordHash
    needsRoleReview := u.needsRoleReview || user.lastLogin.isNone }

/-- A good password clears the counter before the second factor is asked
for. -/
def acceptPassword (s : State) (user : User) (needsRehash : Bool) (req : LoginRequest) :
    State × Reply :=
  let s := { s with lockout := clearLockout R.toLowerCase s.lockout req.username }
  let s := s.updateUser user.id (stampLogin R user needsRehash req)
  if user.authProvider = .local ∧ user.totpEnabledAt.isSome then
    ({ s with
        pending := MfaPending.issue s.pending req.token user.id user.username req.verifiedAt },
      .mfaRequired req.token)
  else
    ({ s with sessions := ⟨sessionFor user false req.verifiedAt, none, none⟩ :: s.sessions },
      .ok user.username user.role)

def passwordHolder (s : State) (req : LoginRequest) : Option (User × PasswordCheck) :=
  let user := s.users.find? (·.username = req.username)
  let check := verifyPassword R req.password (user.map (·.passwordHash))
  match user with
  | none => none
  | some user => if check.valid then some (user, check) else none

def login (s : State) (req : LoginRequest) : State × Except Denied Reply :=
  if req.username = "" then (s, .error (.validation "username"))
  else if req.password = "" then (s, .error (.validation "password"))
  else
    match isLocked R.toLowerCase s.lockout req.username req.arrivedAt with
    | some until? => (s, .error (.locked until?))
    | none =>
      match passwordHolder R s req with
      | none =>
        ({ s with lockout := (recordFailure R.toLowerCase s.lockout req.username req.verifiedAt).1 },
          .error (.app 401 "Invalid username or password"))
      | some (user, check) =>
        let (s, reply) := acceptPassword R s user check.needsRehash req
        (s, .ok reply)

end Login

section LoginTotp

inductive Verdict
  | rejected
  | totp
  | backupCode (remaining : List String)
  deriving DecidableEq

def Verdict.remaining : Verdict → Option (List String)
  | .backupCode remaining => some remaining
  | _ => none

/-- Where a `/login/totp` request stands between two of its awaits. -/
inductive Stage
  | start (req : TotpRequest)
  | admitted (req : TotpRequest) (pending : MfaPending.Entry)
  | read (req : TotpRequest) (pending : MfaPending.Entry) (user : User) (secret : String)
  | verified (req : TotpRequest) (pending : MfaPending.Entry) (user : User) (verdict : Verdict)
  | consumed (req : TotpRequest) (user : User) (verdict : Verdict)
  | updated (req : TotpRequest) (user : User) (verdict : Verdict)
  | done (result : Except Denied Reply)

def expired : Except Denied Reply := .error (.app 401 "Session expired — please sign in again.")

def invalidCode : Except Denied Reply := .error (.app 401 "Invalid verification code")

variable (R : Runtime)

def admitRequest (now : Int) (s : State) (req : TotpRequest) : State × Stage :=
  if req.pendingToken = "" then (s, .done (.error (.validation "pendingToken")))
  else if req.code = "" then (s, .done (.error (.validation "code")))
  else
    let (store, entry) := MfaPending.peek s.pending req.pendingToken now
    let s := { s with pending := store }
    match entry with
    | none => (s, .done expired)
    | some pending =>
      match isLocked R.toLowerCase s.lockout pending.username now with
      | some until? => (s, .done (.error (.locked until?)))
      | none => (s, .admitted req pending)

def readUser (now : Int) (s : State) (req : TotpRequest) (pending : MfaPending.Entry) :
    State × Stage :=
  let drop := { s with pending := (MfaPending.consume s.pending req.pendingToken now).1 }
  match s.findUser pending.userId with
  | none => (drop, .done expired)
  | some user =>
    match user.totpSecret with
    | none => (drop, .done expired)
    | some secret =>
      if secret = "" ∨ user.totpEnabledAt.isNone then (drop, .done expired)
      else (s, .read req pending user secret)

def verdictOf (now : Int) (req : TotpRequest) (user : User) (secret : String) :
    Except String Verdict := do
  if req.isBackupCode then
    match consumeBackupCode R user.totpBackupCodes req.code with
    | some remaining => return .backupCode remaining
    | none => return .rejected
  else
    let ok ← verifyCode R secret req.code now
    return if ok then .totp else .rejected

def verify (now : Int) (s : State) (req : TotpRequest) (pending : MfaPending.Entry) (user : User)
    (secret : String) : State × Stage :=
  match verdictOf R now req user secret with
  | .error message => (s, .done (.error (.thrown message)))
  | .ok verdict => (s, .verified req pending user verdict)

def reject (now : Int) (s : State) (req : TotpRequest) (pending : MfaPending.Entry) : State × Stage :=
  let (lockout, tripped) := recordFailure R.toLowerCase s.lockout pending.username now
  let s := { s with lockout }
  let s := if tripped.lockedNow then
      { s with pending := (MfaPending.consume s.pending req.pendingToken now).1 }
    else s
  (s, .done invalidCode)

def consume (now : Int) (s : State) (req : TotpRequest) (pending : MfaPending.Entry) (user : User)
    (verdict : Verdict) : State × Stage :=
  ({ s with
      pending := (MfaPending.consume s.pending req.pendingToken now).1
      lockout := clearLockout R.toLowerCase s.lockout pending.username },
    .consumed req user verdict)

def persist (now : Int) (s : State) (req : TotpRequest) (user : User) (verdict : Verdict) :
    State × Stage :=
  (s.updateUser user.id fun u =>
      { u with lastLogin := some now, totpBackupCodes := verdict.remaining.getD u.totpBackupCodes },
    .updated req user verdict)

def issue (now : Int) (s : State) (req : TotpRequest) (user : User) : State × Stage :=
  let backupCode :=
    if req.isBackupCode then spentBackupCode R user.totpBackupCodes req.code else none
  ({ s with sessions := ⟨sessionFor user true now, some req.pendingToken, backupCode⟩ :: s.sessions },
    .done (.ok (.ok user.username user.role)))

def act (now : Int) (s : State) : Stage → State × Stage
  | .start req => admitRequest R now s req
  | .admitted req pending => readUser now s req pending
  | .read req pending user secret => verify R now s req pending user secret
  | .verified req pending _ .rejected => reject R now s req pending
  | .verified req pending user verdict => consume R now s req pending user verdict
  | .consumed req user verdict => persist now s req user verdict
  | .updated req user _ => issue R now s req user
  | .done result => (s, .done result)

/-- A request handled on its own: it is checked when it arrives and the rest
happens when its code has been verified. -/
def loginTotp (arrivedAt verifiedAt : Int) (req : TotpRequest) (s : State) : State × Stage :=
  (fun p => act R verifiedAt p.1 p.2)^[5] (act R arrivedAt s (.start req))

end LoginTotp

end Polaris.AuthRoutes
