import Polaris.AuthRoutes
import Polaris.Lib.Runs

namespace Polaris.LoginTotpRaces

open Polaris.Lib.Runs Polaris.Auth Polaris.AuthRoutes

variable {R : Runtime} {userId : String} {s : State} {now : Int}

def Starts : Stage → Prop
  | .start _ => True
  | _ => False

instance : DecidablePred Starts
  | .start _ => isTrue trivial
  | .admitted _ _ | .read _ _ _ _ | .verified _ _ _ _ | .consumed _ _ _ | .updated _ _ _
  | .done _ => isFalse id

def storedCodes (userId : String) (s : State) : List String :=
  ((s.findUser userId).map (·.totpBackupCodes)).getD []

/-- A verified request still finds its token in the store, and a request that
writes backup codes back finds them as it read them. -/
def Unspent (s : State) : Stage → Prop
  | .verified req _ _ .totp | .verified req _ _ (.backupCode _) => (s.pending req.pendingToken).isSome
  | .consumed _ user (.backupCode _) => storedCodes user.id s = user.totpBackupCodes
  | _ => True

instance (s : State) : DecidablePred (Unspent s)
  | .verified req _ _ .totp | .verified req _ _ (.backupCode _) =>
    inferInstanceAs (Decidable ((s.pending req.pendingToken).isSome = true))
  | .consumed _ user (.backupCode _) =>
    inferInstanceAs (Decidable (storedCodes user.id s = user.totpBackupCodes))
  | .consumed _ _ .totp | .consumed _ _ .rejected | .verified _ _ _ .rejected
  | .start _ | .admitted _ _ | .read _ _ _ _ | .updated _ _ _ | .done _ => isTrue trivial

section Ledgers

def sessionTokens (s : State) : List String := s.sessions.filterMap (·.pendingToken)

def spentCodes (userId : String) (s : State) : List String :=
  s.sessions.filterMap fun i => if i.session.userId = userId then i.backupCode else none

def heldToken : Stage → List String
  | .consumed req _ _ | .updated req _ _ => [req.pendingToken]
  | _ => []

variable (R userId) in
def heldCode : Stage → List String
  | .updated req user _ =>
    if user.id = userId ∧ req.isBackupCode then
      (spentBackupCode R user.totpBackupCodes req.code).toList
    else []
  | _ => []

end Ledgers

section Requests

variable (R)

def Vouched (req : TotpRequest) (user : User) : Verdict → Prop
  | .rejected => True
  | .totp => req.isBackupCode = false
  | .backupCode remaining =>
    req.isBackupCode = true ∧ consumeBackupCode R user.totpBackupCodes req.code = some remaining

/-- What a request has established so far. -/
def Justified : Stage → Prop
  | .start _ | .done _ => True
  | .admitted req _ | .read req _ _ _ => req.pendingToken ≠ ""
  | .verified req _ user verdict => req.pendingToken ≠ "" ∧ Vouched R req user verdict
  | .consumed req user verdict | .updated req user verdict =>
    verdict ≠ .rejected ∧ Vouched R req user verdict

variable {R}

theorem verdictOf_vouched {req : TotpRequest} {user : User} {secret : String} {verdict : Verdict}
    (h : verdictOf R now req user secret = .ok verdict) : Vouched R req user verdict := by
  unfold verdictOf at h
  by_cases hb : req.isBackupCode
  · rw [if_pos hb] at h
    split at h
    · rename_i remaining hr
      cases h
      exact ⟨hb, hr⟩
    · cases h
      trivial
  · rw [if_neg hb] at h
    cases hv : verifyCode R secret req.code now with
    | error message =>
      rw [hv] at h
      cases h
    | ok ok =>
      rw [hv] at h
      cases h
      cases ok with
      | true => exact Bool.eq_false_of_not_eq_true hb
      | false => trivial

end Requests

section Steps

/-- Outside the stretch from its consume step to its session a request holds
neither a token nor a code. -/
def Free : Stage → Prop
  | .consumed _ _ _ | .updated _ _ _ => False
  | _ => True

/-- A step that only looks, rejects or gives up. -/
structure Quiet (R : Runtime) (s : State) (t : Stage) (r : State × Stage) : Prop where
  before : Free t
  after : Free r.2
  users : r.1.users = s.users
  sessions : r.1.sessions = s.sessions
  within : MfaPending.Within r.1.pending s.pending
  justified : Justified R t → Justified R r.2

theorem admitRequest_quiet (req : TotpRequest) : Quiet R s (.start req) (admitRequest R now s req) := by
  have hw := @MfaPending.peek_within s.pending req.pendingToken now
  unfold admitRequest
  split_ifs with htok
  · exact ⟨trivial, trivial, rfl, rfl, MfaPending.within_refl, id⟩
  · exact ⟨trivial, trivial, rfl, rfl, MfaPending.within_refl, id⟩
  · dsimp only
    split
    · exact ⟨trivial, trivial, rfl, rfl, hw, id⟩
    · split
      · exact ⟨trivial, trivial, rfl, rfl, hw, id⟩
      · exact ⟨trivial, trivial, rfl, rfl, hw, fun _ => htok⟩

theorem readUser_quiet (req : TotpRequest) (pending : MfaPending.Entry) :
    Quiet R s (.admitted req pending) (readUser now s req pending) := by
  have hw := @MfaPending.consume_within s.pending req.pendingToken now
  unfold readUser
  split
  · exact ⟨trivial, trivial, rfl, rfl, hw, fun _ => trivial⟩
  · split
    · exact ⟨trivial, trivial, rfl, rfl, hw, fun _ => trivial⟩
    · split_ifs
      · exact ⟨trivial, trivial, rfl, rfl, hw, fun _ => trivial⟩
      · exact ⟨trivial, trivial, rfl, rfl, MfaPending.within_refl, id⟩

theorem verify_quiet (req : TotpRequest) (pending : MfaPending.Entry) (user : User) (secret : String) :
    Quiet R s (.read req pending user secret) (verify R now s req pending user secret) := by
  unfold verify
  split
  · exact ⟨trivial, trivial, rfl, rfl, MfaPending.within_refl, fun _ => trivial⟩
  · rename_i verdict hv
    exact ⟨trivial, trivial, rfl, rfl, MfaPending.within_refl, fun h => ⟨h, verdictOf_vouched hv⟩⟩

theorem reject_quiet (req : TotpRequest) (pending : MfaPending.Entry) (user : User) :
    Quiet R s (.verified req pending user .rejected) (reject R now s req pending) := by
  unfold reject
  dsimp only
  split_ifs
  · exact ⟨trivial, trivial, rfl, rfl, MfaPending.consume_within, fun _ => trivial⟩
  · exact ⟨trivial, trivial, rfl, rfl, MfaPending.within_refl, fun _ => trivial⟩

variable (R s now) in
theorem act_cases (t : Stage) :
    Quiet R s t (act R now s t) ∨
    (∃ req pending user verdict, t = .verified req pending user verdict ∧ verdict ≠ .rejected ∧
      act R now s t = consume R now s req pending user verdict) ∨
    (∃ req user verdict, t = .consumed req user verdict ∧
      act R now s t = persist now s req user verdict) ∨
    ∃ req user verdict, t = .updated req user verdict ∧ act R now s t = issue R now s req user := by
  cases t with
  | start req => exact .inl (admitRequest_quiet req)
  | admitted req pending => exact .inl (readUser_quiet req pending)
  | read req pending user secret => exact .inl (verify_quiet req pending user secret)
  | verified req pending user verdict =>
    cases verdict with
    | rejected => exact .inl (reject_quiet req pending user)
    | totp => exact .inr (.inl ⟨req, pending, user, .totp, rfl, by simp, rfl⟩)
    | backupCode remaining =>
      exact .inr (.inl ⟨req, pending, user, .backupCode remaining, rfl, by simp, rfl⟩)
  | consumed req user verdict => exact .inr (.inr (.inl ⟨req, user, verdict, rfl, rfl⟩))
  | updated req user verdict => exact .inr (.inr (.inr ⟨req, user, verdict, rfl, rfl⟩))
  | done result => exact .inl ⟨trivial, trivial, rfl, rfl, MfaPending.within_refl, id⟩

theorem heldToken_free {t : Stage} (h : Free t) : heldToken t = [] := by
  cases t with
  | consumed req user verdict => cases h
  | updated req user verdict => cases h
  | _ => rfl

theorem heldCode_free {t : Stage} (h : Free t) : heldCode R userId t = [] := by
  cases t with
  | updated req user verdict => cases h
  | _ => rfl

theorem act_justified {t : Stage} (h : Justified R t) : Justified R (act R now s t).2 := by
  obtain hq | ⟨req, pending, user, verdict, rfl, hv, heq⟩ | ⟨req, user, verdict, rfl, heq⟩ |
    ⟨req, user, verdict, rfl, heq⟩ := act_cases R s now t
  · exact hq.justified h
  · rw [heq]
    exact ⟨hv, h.2⟩
  · rw [heq]
    exact h
  · rw [heq]
    trivial

variable (R s now) in
theorem act_within (t : Stage) : MfaPending.Within (act R now s t).1.pending s.pending := by
  obtain hq | ⟨req, pending, user, verdict, rfl, hv, heq⟩ | ⟨req, user, verdict, rfl, heq⟩ |
    ⟨req, user, verdict, rfl, heq⟩ := act_cases R s now t
  · exact hq.within
  · rw [heq]
    exact MfaPending.consume_within
  · rw [heq]
    exact MfaPending.within_refl
  · rw [heq]
    exact MfaPending.within_refl

variable (now) in
theorem act_tokens {t : Stage} (h : Justified R t) (hu : Unspent s t) :
    ∃ new, (sessionTokens (act R now s t).1 ++ heldToken (act R now s t).2).Perm
        (new ++ (sessionTokens s ++ heldToken t)) ∧ new.Nodup ∧
      ∀ token ∈ new, (s.pending token).isSome ∧ (act R now s t).1.pending token = none := by
  obtain hq | ⟨req, pending, user, verdict, rfl, hv, heq⟩ | ⟨req, user, verdict, rfl, heq⟩ |
    ⟨req, user, verdict, rfl, heq⟩ := act_cases R s now t
  · refine ⟨[], ?_, List.nodup_nil, by simp⟩
    rw [heldToken_free hq.before, heldToken_free hq.after, sessionTokens, hq.sessions]
    rfl
  · rw [heq]
    refine ⟨[req.pendingToken], ?_, by simp, ?_⟩
    · simp [consume, heldToken, sessionTokens]
    · intro token htok
      obtain rfl := List.mem_singleton.mp htok
      refine ⟨?_, MfaPending.consume_gone h.1⟩
      cases verdict with
      | rejected => exact absurd rfl hv
      | totp => exact hu
      | backupCode remaining => exact hu
  · rw [heq]
    exact ⟨[], .refl _, List.nodup_nil, by simp⟩
  · rw [heq]
    refine ⟨[], ?_, List.nodup_nil, by simp⟩
    simpa [heldToken, issue, sessionTokens] using (List.perm_append_singleton _ _).symm

end Steps

section Codes

theorem findUser_updateUser {id : String} {f : User → User} (hf : ∀ u, (f u).id = u.id) :
    (s.updateUser id f).findUser userId =
      (s.findUser userId).map fun u => if userId = id then f u else u := by
  simp only [State.findUser, State.updateUser, List.find?_map]
  have hpred : (fun u : User => decide (u.id = userId)) ∘ (fun u => if u.id = id then f u else u) =
      fun u => decide (u.id = userId) := by
    funext u
    by_cases h : u.id = id <;> simp [h, hf]
  rw [hpred]
  cases hu : s.users.find? (fun u => decide (u.id = userId)) with
  | none => rfl
  | some u =>
    have hid : u.id = userId := by simpa using List.find?_some hu
    simp [hid]

theorem storedCodes_updateUser {id : String} {f : User → User} (hf : ∀ u, (f u).id = u.id)
    (hne : userId ≠ id) : storedCodes userId (s.updateUser id f) = storedCodes userId s := by
  simp [storedCodes, findUser_updateUser hf, hne]

variable (userId now) in
theorem persist_codes {req : TotpRequest} {user : User} {verdict : Verdict}
    (h : Justified R (.consumed req user verdict)) (hu : Unspent s (.consumed req user verdict)) :
    (storedCodes userId (persist now s req user verdict).1 ++
        heldCode R userId (.updated req user verdict)).Perm (storedCodes userId s) ∧
      (storedCodes userId (persist now s req user verdict).1).Sublist (storedCodes userId s) := by
  by_cases hid : userId = user.id
  · subst hid
    have hfind : storedCodes user.id (persist now s req user verdict).1 =
        ((s.findUser user.id).map fun u => verdict.remaining.getD u.totpBackupCodes).getD [] := by
      dsimp only [persist, storedCodes]
      rw [findUser_updateUser]
      · simp [Function.comp_def]
      · intro u
        rfl
    rw [hfind]
    cases verdict with
    | rejected => exact absurd rfl h.1
    | totp =>
      have hb : req.isBackupCode = false := h.2
      simp [Verdict.remaining, heldCode, hb, storedCodes]
    | backupCode remaining =>
      obtain ⟨hb, hrem⟩ : req.isBackupCode = true ∧ _ := h.2
      obtain ⟨spent, hspent, hperm, hsub⟩ := consumeBackupCode_some R hrem
      have hread : storedCodes user.id s = user.totpBackupCodes := hu
      cases hf : s.findUser user.id with
      | none =>
        rw [storedCodes, hf] at hread
        rw [← hread] at hrem
        cases hrem
      | some u =>
        simp only [Verdict.remaining, heldCode, hb, hspent, hread]
        exact ⟨(List.perm_append_comm.trans hperm.symm), hsub⟩
  · have hsame : storedCodes userId (persist now s req user verdict).1 = storedCodes userId s :=
      storedCodes_updateUser (fun _ => rfl) hid
    simp [hsame, heldCode, Ne.symm hid]

theorem issue_spentCodes {req : TotpRequest} {user : User} (verdict : Verdict) :
    spentCodes userId (issue R now s req user).1 =
      heldCode R userId (.updated req user verdict) ++ spentCodes userId s := by
  by_cases hid : user.id = userId
  · by_cases hb : req.isBackupCode
    · cases hc : spentBackupCode R user.totpBackupCodes req.code <;>
        simp [issue, spentCodes, heldCode, sessionFor, hid, hb, hc]
    · simp [issue, spentCodes, heldCode, sessionFor, hid, hb]
  · simp [issue, spentCodes, heldCode, sessionFor, hid]

variable (userId now) in
/-- Stored, held and spent codes are together what they were. -/
theorem act_codes {t : Stage} (h : Justified R t) (hu : Unspent s t) :
    ((spentCodes userId (act R now s t).1 ++ storedCodes userId (act R now s t).1) ++
        heldCode R userId (act R now s t).2).Perm
        ((spentCodes userId s ++ storedCodes userId s) ++ heldCode R userId t) ∧
      (storedCodes userId (act R now s t).1).Sublist (storedCodes userId s) := by
  obtain hq | ⟨req, pending, user, verdict, rfl, hv, heq⟩ | ⟨req, user, verdict, rfl, heq⟩ |
    ⟨req, user, verdict, rfl, heq⟩ := act_cases R s now t
  · have hstored : storedCodes userId (act R now s t).1 = storedCodes userId s := by
      simp only [storedCodes, State.findUser, hq.users]
    have hspent : spentCodes userId (act R now s t).1 = spentCodes userId s := by
      simp only [spentCodes, hq.sessions]
    rw [heldCode_free hq.before, heldCode_free hq.after, hstored, hspent]
    exact ⟨.refl _, .refl _⟩
  · rw [heq]
    exact ⟨.refl _, .refl _⟩
  · rw [heq]
    obtain ⟨hperm, hsub⟩ := persist_codes userId now h hu
    refine ⟨?_, hsub⟩
    rw [List.append_assoc, List.append_assoc]
    refine List.Perm.append_left _ (hperm.trans ?_)
    rw [show heldCode R userId (.consumed req user verdict) = [] from rfl, List.append_nil]
  · rw [heq]
    refine ⟨?_, .refl _⟩
    rw [issue_spentCodes verdict, List.append_assoc]
    refine List.Perm.trans ?_ List.perm_append_comm
    simp [issue, storedCodes, State.findUser, heldCode]

end Codes

section Runs

variable {initial : List String} {p : Pool State Stage}

/-- The books of a pool: every spent token is gone from the store and counted
once, and no backup code is lost or counted twice. -/
structure Balanced (R : Runtime) (userId : String) (initial : List String) (p : Pool State Stage) :
    Prop where
  justified : ∀ t ∈ p.calls, Justified R t
  once : (sessionTokens p.shared ++ p.total heldToken).Nodup
  gone : ∀ token ∈ sessionTokens p.shared ++ p.total heldToken, p.shared.pending token = none
  codes : ((spentCodes userId p.shared ++ storedCodes userId p.shared) ++
    p.total (heldCode R userId)).Perm initial
  stored : (storedCodes userId p.shared).Sublist initial

theorem Balanced.advance {i : Nat} {t : Stage} (hp : Balanced R userId initial p)
    (hi : p.calls[i]? = some t) (hu : Unspent p.shared t) :
    Balanced R userId initial (p.step (act R) (.advance i now)) := by
  have ht := hp.justified t (List.mem_of_getElem? hi)
  have hshared : (p.step (act R) (.advance i now)).shared = (act R now p.shared t).1 := by
    simp only [Pool.step, hi]
  obtain ⟨new, hnew, hnodup, hspent⟩ := act_tokens now ht hu
  obtain ⟨hcodes, hsub⟩ := act_codes userId now ht hu
  have htokens := balance_advance (act R) sessionTokens new hi hnew
  have hledger := balance_advance (act R)
    (fun s => spentCodes userId s ++ storedCodes userId s) [] hi hcodes
  refine ⟨?_, ?_, ?_, ?_, ?_⟩
  · intro u hmem
    simp only [Pool.step, hi] at hmem
    obtain hmem | rfl := List.mem_or_eq_of_mem_set hmem
    · exact hp.justified u hmem
    · exact act_justified ht
  · rw [hshared, htokens.nodup_iff]
    refine List.nodup_append.mpr ⟨hnodup, hp.once, ?_⟩
    rintro token hin _ hold rfl
    have hsome := (hspent token hin).1
    rw [hp.gone token hold] at hsome
    cases hsome
  · intro token hmem
    rw [hshared] at hmem ⊢
    obtain hin | hold := List.mem_append.mp (htokens.mem_iff.mp hmem)
    · exact (hspent token hin).2
    · obtain hnone | hsame := act_within R p.shared now t token
      · exact hnone
      · exact hsame.trans (hp.gone token hold)
  · rw [hshared]
    exact hledger.trans hp.codes
  · rw [hshared]
    exact hsub.trans hp.stored

theorem Balanced.step (p : Pool State Stage) (m : Move Stage Int) (hp : Balanced R userId initial p)
    (hm : p.Guarded Starts (fun _ => Unspent) m) : Balanced R userId initial (p.step (act R) m) := by
  cases m with
  | spawn t =>
    have hstart : ∀ req, t = .start req → Balanced R userId initial (p.step (act R) (.spawn t)) := by
      rintro req rfl
      refine ⟨?_, ?_, ?_, ?_, hp.stored⟩
      · intro u hu
        obtain hu | hu := List.mem_append.mp hu
        · exact hp.justified u hu
        · exact List.mem_singleton.mp hu ▸ trivial
      · rw [total_spawn (by rfl)]
        exact hp.once
      · rw [total_spawn (by rfl)]
        exact hp.gone
      · rw [total_spawn (by rfl)]
        exact hp.codes
    cases t with
    | start req => exact hstart req rfl
    | _ => cases hm
  | advance i now =>
    cases hi : p.calls[i]? with
    | none => simpa only [Pool.step, hi] using hp
    | some t => exact hp.advance hi (hm t hi)

end Runs

/-- A token and a stored backup code each yield at most one session, and once
no request is under way exactly the spent codes are missing. -/
def SingleUse (userId : String) (initial : List String) (p : Pool State Stage) : Prop :=
  (sessionTokens p.shared).Nodup ∧ (spentCodes userId p.shared).Subperm initial ∧
    ((∀ t ∈ p.calls, ∃ result, t = .done result) →
      (spentCodes userId p.shared ++ storedCodes userId p.shared).Perm initial ∧
        (storedCodes userId p.shared).Sublist initial)

/-- Every interleaving whose requests find their token and the codes they
write back unspent is single use. -/
theorem tokens_and_codes_single_use (R : Runtime) (s : State) (userId : String)
    (hnone : s.sessions = []) (moves : List (Move Stage Int))
    (hm : Along (Pool.step (act R)) (Pool.Guarded Starts (fun _ => Unspent)) ⟨s, []⟩ moves) :
    SingleUse userId (storedCodes userId s) (moves.foldl (Pool.step (act R)) ⟨s, []⟩) := by
  have hstart : Balanced R userId (storedCodes userId s) ⟨s, []⟩ := by
    refine ⟨by simp, ?_, ?_, ?_, .refl _⟩ <;>
      simp [sessionTokens, spentCodes, hnone, Pool.total]
  have hp := foldl_invariant Balanced.step hstart hm
  refine ⟨(List.nodup_append.mp hp.once).1, ?_, fun hdone => ?_⟩
  · have hcodes := hp.codes
    rw [List.append_assoc] at hcodes
    exact (List.sublist_append_left _ _).subperm.trans hcodes.subperm
  · have hheld : Pool.total (heldCode R userId) (moves.foldl (Pool.step (act R)) ⟨s, []⟩) = [] := by
      refine List.flatMap_eq_nil_iff.mpr fun t ht => ?_
      obtain ⟨result, rfl⟩ := hdone t ht
      rfl
    have hcodes := hp.codes
    rw [hheld, List.append_nil] at hcodes
    exact ⟨hcodes, hp.stored⟩

section Site

def alice : User where
  id := "u1"
  username := "alice"
  passwordHash := "$argon2pw"
  totpSecret := some "JBSWY3DP"
  totpEnabledAt := some 0
  totpBackupCodes := ["$argon2A", "$argon2B"]

def challenge : MfaPending.Entry := ⟨"u1", "alice", 300000⟩

def site : State :=
  ⟨[alice], fun _ => none, fun t => if t = "t1" ∨ t = "t2" then some challenge else none, []⟩

def spend (token code : String) : Move Stage Int := .spawn (.start ⟨token, code, true⟩)

def finish (i : Nat) : List (Move Stage Int) := List.replicate 6 (.advance i 0)

def oneByOne : List (Move Stage Int) := spend "t1" "A" :: finish 0 ++ spend "t2" "B" :: finish 1

/-- Both requests read the user before either is done. -/
def abreast (second : Move Stage Int) : List (Move Stage Int) :=
  spend "t1" "A" :: second :: (List.replicate 6 [.advance 0 0, .advance 1 0]).flatten

theorem tokens_and_codes_single_use_site :
    Along (Pool.step (act plain)) (Pool.Guarded Starts (fun _ => Unspent)) ⟨site, []⟩ oneByOne ∧
      sessionTokens (oneByOne.foldl (Pool.step (act plain)) ⟨site, []⟩).shared = ["t2", "t1"] ∧
      SingleUse "u1" ["$argon2A", "$argon2B"] (oneByOne.foldl (Pool.step (act plain)) ⟨site, []⟩) := by
  have hm : Along (Pool.step (act plain)) (Pool.Guarded Starts (fun _ => Unspent)) ⟨site, []⟩
      oneByOne := by decide
  exact ⟨hm, by decide, tokens_and_codes_single_use plain site "u1" rfl oneByOne hm⟩

/-- One token and one code give two sessions; with two codes the removal of
one of them is lost. -/
theorem abreast_requests_replay :
    sessionTokens ((abreast (spend "t1" "A")).foldl (Pool.step (act plain)) ⟨site, []⟩).shared =
        ["t1", "t1"] ∧
      storedCodes "u1" ((abreast (spend "t2" "B")).foldl (Pool.step (act plain)) ⟨site, []⟩).shared =
        ["$argon2A"] ∧
      spentCodes "u1" ((abreast (spend "t2" "B")).foldl (Pool.step (act plain)) ⟨site, []⟩).shared =
        ["$argon2B", "$argon2A"] ∧
      ¬ SingleUse "u1" ["$argon2A", "$argon2B"]
        ((abreast (spend "t1" "A")).foldl (Pool.step (act plain)) ⟨site, []⟩) := by
  have htokens : sessionTokens ((abreast (spend "t1" "A")).foldl (Pool.step (act plain))
      ⟨site, []⟩).shared = ["t1", "t1"] := by decide
  refine ⟨htokens, by decide, by decide, fun h => ?_⟩
  have hnodup := h.1
  rw [htokens] at hnodup
  simp at hnodup

end Site

end Polaris.LoginTotpRaces
