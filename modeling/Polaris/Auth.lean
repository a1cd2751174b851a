import Polaris.LoginLockout
import Polaris.MfaPending

namespace Polaris.Auth

open Polaris.Lib.Text

/-- What the handlers take from outside: case mapping, password hashing and
one-time codes. A one-time code library may throw on a malformed secret. -/
structure Runtime where
  toLowerCase : String → String
  toUpperCase : String → String
  argonVerify : (stored plaintext : String) → Bool
  argonHash : (salt plaintext : String) → String
  validate : (secret token : String) → (now : Int) → Except String (Option Int)

inductive AuthProvider
  | local
  | azure
  deriving DecidableEq

structure Role where
  id : String
  name : String
  deriving DecidableEq

structure User where
  id : String
  username : String
  passwordHash : String
  role : Role := ⟨"", ""⟩
  authProvider : AuthProvider := .local
  lastLogin : Option Int := none
  totpSecret : Option String := none
  totpEnabledAt : Option Int := none
  totpBackupCodes : List String := []
  needsRoleReview : Bool := false
  deriving DecidableEq

structure Session where
  userId : String
  username : String
  role : Role
  authProvider : AuthProvider
  mfaVerified : Bool
  lastActivity : Int
  deriving DecidableEq

/-- A session with what it was issued for: the pending token, and the stored
backup code when one was spent. -/
structure Issued where
  session : Session
  pendingToken : Option String := none
  backupCode : Option String := none
  deriving DecidableEq

structure State where
  users : List User
  lockout : LoginLockout.Store
  pending : MfaPending.Store
  sessions : List Issued

def State.findUser (s : State) (id : String) : Option User := s.users.find? (·.id = id)

def State.updateUser (s : State) (id : String) (f : User → User) : State :=
  { s with users := s.users.map fun u => if u.id = id then f u else u }

inductive Denied
  | validation (field : String)
  | app (httpStatus : Nat) (message : String)
  | locked (until? : Int)
  | thrown (message : String)
  deriving DecidableEq

section Passwords

structure PasswordCheck where
  valid : Bool
  needsRehash : Bool
  deriving DecidableEq

def memoryCost : Nat := 19456

def timeCost : Nat := 2

def parallelism : Nat := 1

def eat (text : String) (cs : List Char) : Option (List Char) :=
  if text.toList.isPrefixOf cs then some (cs.drop text.toList.length) else none

def eatNumber (cs : List Char) : Option (Nat × List Char) :=
  let digits := cs.takeWhile Char.isDigit
  if digits = [] then none else some (Nat.ofDigitChars 10 digits 0, cs.dropWhile Char.isDigit)

/-- The parameters `$m=…,t=…,p=…$` at the head of a text. -/
def matchParams (cs : List Char) : Option (Nat × Nat × Nat) := do
  let (m, cs) ← eatNumber (← eat "$m=" cs)
  let (t, cs) ← eatNumber (← eat ",t=" cs)
  let (p, cs) ← eatNumber (← eat ",p=" cs)
  let _ ← eat "$" cs
  return (m, t, p)

def argonParamsWeakerThanTarget (stored : String) : Bool :=
  match stored.toList.tails.findSome? matchParams with
  | none => true
  | some (m, t, p) => m < memoryCost || t < timeCost || p < parallelism

def verifyPassword (R : Runtime) (plaintext : String) (stored : Option String) : PasswordCheck :=
  match stored with
  | none => ⟨false, false⟩
  | some stored =>
    if "$argon2".toList.isPrefixOf stored.toList then
      let valid := R.argonVerify stored plaintext
      ⟨valid, valid && argonParamsWeakerThanTarget stored⟩
    else ⟨false, false⟩

end Passwords

section Codes

variable (R : Runtime)

def verifyCode (secret code : String) (now : Int) : Except String Bool := do
  let cleaned := code.toList.filter (! isSpace ·)
  if cleaned.length = 6 && cleaned.all Char.isDigit then
    let delta ← R.validate secret (String.ofList cleaned) now
    return delta.isSome
  else return false

def matchesBackupCode (code stored : String) : Bool :=
  (verifyPassword R (R.toUpperCase (trim code)) (some stored)).valid

def consumeBackupCode (storedHashes : List String) (code : String) : Option (List String) :=
  match storedHashes with
  | [] => none
  | h :: hs => if matchesBackupCode R code h then some hs else (consumeBackupCode hs code).map (h :: ·)

def spentBackupCode (storedHashes : List String) (code : String) : Option String :=
  storedHashes.find? (matchesBackupCode R code)

theorem consumeBackupCode_some {hashes remaining : List String} {code : String}
    (h : consumeBackupCode R hashes code = some remaining) :
    ∃ spent, spentBackupCode R hashes code = some spent ∧ hashes.Perm (spent :: remaining) ∧
      remaining.Sublist hashes := by
  induction hashes generalizing remaining with
  | nil => cases h
  | cons x xs ih =>
    unfold consumeBackupCode at h
    by_cases hx : matchesBackupCode R code x
    · rw [if_pos hx, Option.some.injEq] at h
      exact ⟨x, by simp [spentBackupCode, hx], h ▸ .refl _, h ▸ List.sublist_cons_self x xs⟩
    · rw [if_neg hx] at h
      obtain ⟨rest, hrest, rfl⟩ := Option.map_eq_some_iff.mp h
      obtain ⟨spent, hs, hperm, hsub⟩ := ih hrest
      refine ⟨spent, ?_, (hperm.cons x).trans (.swap spent x rest), hsub.cons_cons x⟩
      simpa [spentBackupCode, hx] using hs

end Codes

/-- Passwords hash to themselves and no one-time code is right. -/
def plain : Runtime where
  toLowerCase := fun s => String.ofList (s.toList.map Char.toLower)
  toUpperCase := fun s => String.ofList (s.toList.map Char.toUpper)
  argonVerify := fun stored plaintext => stored = "$argon2" ++ plaintext
  argonHash := fun _ plaintext => "$argon2" ++ plaintext
  validate := fun _ _ _ => .ok none

end Polaris.Auth
