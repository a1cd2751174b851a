import Mathlib.Data.List.Nodup
import Polaris.Lib.Runs

namespace Polaris.AgentTokens

open Polaris.Lib.Runs

def enrollmentTtlMs : Nat := 10 * 60 * 1000

structure Hash where
  token : String
  deriving DecidableEq

def hashPassword (raw : String) : Hash := ⟨raw⟩

def verifyPassword (raw : String) (hash : Hash) : Bool := hash.token = raw

def generateRawToken (tail : String) : String := "polaris_" ++ tail

def wellFormed (raw : String) : Bool := "polaris_".toList.isPrefixOf raw.toList

def tokenPrefix (raw : String) : String := String.ofList (raw.toList.take 16)

/-- The row of the agent. Times are in milliseconds. -/
structure ManagedAgent where
  enrollmentTokenHash : Option Hash := none
  enrollmentTokenPrefix : Option String := none
  enrollmentExpiresAt : Option Nat := none
  bearerHash : Option Hash := none
  bearerPrefix : Option String := none
  bearerIssuedAt : Option Nat := none
  bearerRevokedAt : Option Nat := none
  installStatus : String := "pending"
  installError : Option String := none
  deriving DecidableEq

section Statements

variable (row : ManagedAgent)

def enrollmentCandidate (raw : String) (now : Nat) : Option Hash :=
  if row.enrollmentTokenPrefix = some (tokenPrefix raw) ∧ row.enrollmentExpiresAt.any (now < ·) then
    row.enrollmentTokenHash
  else none

def bearerCandidate (raw : String) : Option Hash :=
  if row.bearerPrefix = some (tokenPrefix raw) ∧ row.bearerRevokedAt = none then row.bearerHash else none

def writeEnrollment (raw : String) (expiresAt : Nat) : ManagedAgent :=
  { row with
    enrollmentTokenHash := some (hashPassword raw), enrollmentTokenPrefix := some (tokenPrefix raw)
    enrollmentExpiresAt := some expiresAt }

/-- The enrollment columns are cleared and the bearer written, whatever the
row held. -/
def swapForBearer (bearer : String) (now : Nat) : ManagedAgent :=
  { enrollmentTokenHash := none, enrollmentTokenPrefix := none, enrollmentExpiresAt := none
    bearerHash := some (hashPassword bearer), bearerPrefix := some (tokenPrefix bearer)
    bearerIssuedAt := some now, bearerRevokedAt := none, installStatus := "active"
    installError := none }

/-- What `verifyBearer` answers when nothing comes in between. -/
def verifyBearer (raw : String) : Bool :=
  wellFormed raw && (bearerCandidate row raw).any (verifyPassword raw)

end Statements

/-- A call at one of its awaits, or with its result. A mint keeps the number
of revocations that had completed when it was called. -/
inductive Call
  | mint
  | mintHashing (raw : String) (era : Nat)
  | mintWriting (raw : String) (era : Nat) (expiresAt : Nat)
  | minted (raw : String)
  | consume (raw : String)
  | consumeVerifying (raw : String) (hash : Hash)
  | consumeSwapping (raw : String) (hash : Hash) (bearer : String)
  | enrolled (raw bearer : String)
  | refused (message : String)
  | revoke
  | revokeRead (revokedAt : Option Nat)
  | revokeWritten
  | revoked (flipped : Bool)
  | verify (raw : String)
  | verifyRead (raw : String) (hash : Hash) (barred : Bool)
  | verified (raw : String) (found barred : Bool)
  deriving DecidableEq

/-- The row, with a record of the tokens handed out, of the last enrollment,
and of whether the agent is to be kept out: a revocation has completed, and no
token of a later mint has been consumed since. -/
structure Shared where
  row : ManagedAgent := {}
  issued : List String := []
  bearers : List String := []
  lost : List String := []
  eras : List (String × Nat) := []
  revocations : Nat := 0
  barred : Bool := false
  last : Option (String × String) := none
  revokedSince : Bool := false
  deriving DecidableEq

/-- The clock and the random bytes a step meets. -/
structure Chance where
  now : Nat
  tail : String := ""

def tokenOf (row : ManagedAgent) : List String := (row.enrollmentTokenHash.map Hash.token).toList

section Steps

variable (k : Chance) (s : Shared)

def mintEnrollmentToken : Shared × Call :=
  let raw := generateRawToken k.tail
  ({ s with issued := s.issued ++ [raw], eras := s.eras ++ [(raw, s.revocations)] },
    .mintHashing raw s.revocations)

def writeMint (raw : String) (expiresAt : Nat) : Shared × Call :=
  ({ s with row := writeEnrollment s.row raw expiresAt, lost := tokenOf s.row ++ s.lost }, .minted raw)

def readEnrollment (raw : String) : Call :=
  if ! wellFormed raw then .refused "Invalid enrollment token"
  else match enrollmentCandidate s.row raw k.now with
    | none => .refused "Enrollment token rejected — expired or already consumed"
    | some hash => .consumeVerifying raw hash

def verifyEnrollment (raw : String) (hash : Hash) : Shared × Call :=
  if verifyPassword raw hash then
    ({ s with bearers := s.bearers ++ [generateRawToken k.tail] },
      .consumeSwapping raw hash (generateRawToken k.tail))
  else (s, .refused "Enrollment token rejected — expired or already consumed")

/-- The transaction, which finds the row by its id alone. -/
def swapEnrollment (raw : String) (hash : Hash) (bearer : String) : Shared × Call :=
  ({ s with
      row := swapForBearer bearer k.now
      lost := (tokenOf s.row).filter (· ≠ hash.token) ++ s.lost
      barred := if (raw, s.revocations) ∈ s.eras then false else s.barred
      last := some (raw, bearer), revokedSince := false }, .enrolled raw bearer)

def writeRevocation : Shared × Call :=
  ({ s with row := { s.row with bearerRevokedAt := some k.now }, revokedSince := true }, .revokeWritten)

def completeRevocation (flipped : Bool) : Shared × Call :=
  ({ s with revocations := s.revocations + 1, barred := true }, .revoked flipped)

def readBearer (raw : String) : Call :=
  if ! wellFormed raw then .verified raw false s.barred
  else match bearerCandidate s.row raw with
    | none => .verified raw false s.barred
    | some hash => .verifyRead raw hash s.barred

/-- One step of a call, from one await to the next. -/
def act : Call → Shared × Call
  | .mint => mintEnrollmentToken k s
  | .mintHashing raw era => (s, .mintWriting raw era (k.now + enrollmentTtlMs))
  | .mintWriting raw _ expiresAt => writeMint s raw expiresAt
  | .consume raw => (s, readEnrollment k s raw)
  | .consumeVerifying raw hash => verifyEnrollment k s raw hash
  | .consumeSwapping raw hash bearer => swapEnrollment k s raw hash bearer
  | .revoke => (s, .revokeRead s.row.bearerRevokedAt)
  | .revokeRead none => writeRevocation k s
  | .revokeRead (some _) => completeRevocation s false
  | .revokeWritten => completeRevocation s true
  | .verify raw => (s, readBearer s raw)
  | .verifyRead raw hash barred => (s, .verified raw (verifyPassword raw hash) barred)
  | c => (s, c)

end Steps

inductive Event
  | mintEnrollmentToken
  | consumeEnrollmentToken (raw : String)
  | revokeBearer
  | verifyBearer (raw : String)
  | advance (i : Nat) (k : Chance)

def Event.move : Event → Move Call Chance
  | .mintEnrollmentToken => .spawn .mint
  | .consumeEnrollmentToken raw => .spawn (.consume raw)
  | .revokeBearer => .spawn .revoke
  | .verifyBearer raw => .spawn (.verify raw)
  | .advance i k => .advance i k

def step (p : Pool Shared Call) (e : Event) : Pool Shared Call := p.step act e.move

def start : Pool Shared Call := ⟨{}, []⟩

def run (events : List Event) : Pool Shared Call := events.foldl step start

section Conditions

def generates : Call → Bool
  | .mint => true
  | .consumeVerifying raw hash => verifyPassword raw hash
  | _ => false

/-- The tokens that are generated are distinct. -/
def Distinct (p : Pool Shared Call) : Event → Prop
  | .advance i k => ∀ t ∈ p.calls[i]?, generates t →
      generateRawToken k.tail ∉ p.shared.issued ++ p.shared.bearers
  | _ => True

def enrolling : Call → Bool
  | .mintHashing _ _ | .mintWriting _ _ _ | .consumeVerifying _ _ | .consumeSwapping _ _ _ => true
  | _ => false

/-- A swap finds the token it has verified, and a revocation completes on a
row that is revoked and that no enrollment is under way for. -/
def ClearFor (p : Pool Shared Call) : Call → Prop
  | .consumeSwapping _ hash _ => p.shared.row.enrollmentTokenHash = some hash
  | .revokeRead (some _) | .revokeWritten =>
    p.shared.row.bearerRevokedAt ≠ none ∧ p.shared.row.enrollmentTokenHash = none ∧
      ∀ u ∈ p.calls, enrolling u = false
  | _ => True

def Clear (p : Pool Shared Call) : Event → Prop
  | .advance i _ => ∀ t ∈ p.calls[i]?, ClearFor p t
  | _ => True

instance (p : Pool Shared Call) : ∀ e, Decidable (Distinct p e)
  | .advance i k => inferInstanceAs (Decidable (∀ t ∈ p.calls[i]?, generates t →
      generateRawToken k.tail ∉ p.shared.issued ++ p.shared.bearers))
  | .mintEnrollmentToken | .consumeEnrollmentToken _ | .revokeBearer | .verifyBearer _ => isTrue trivial

instance (p : Pool Shared Call) : ∀ t, Decidable (ClearFor p t)
  | .consumeSwapping _ hash _ => inferInstanceAs (Decidable (p.shared.row.enrollmentTokenHash = some hash))
  | .revokeRead (some _) | .revokeWritten =>
    inferInstanceAs (Decidable (p.shared.row.bearerRevokedAt ≠ none ∧
      p.shared.row.enrollmentTokenHash = none ∧ ∀ u ∈ p.calls, enrolling u = false))
  | .revokeRead none | .mint | .mintHashing _ _ | .mintWriting _ _ _ | .minted _ | .consume _
  | .consumeVerifying _ _ | .enrolled _ _ | .refused _ | .revoke | .revoked _ | .verify _
  | .verifyRead _ _ _ | .verified _ _ _ => isTrue trivial

instance (p : Pool Shared Call) : ∀ e, Decidable (Clear p e)
  | .advance i _ => inferInstanceAs (Decidable (∀ t ∈ p.calls[i]?, ClearFor p t))
  | .mintEnrollmentToken | .consumeEnrollmentToken _ | .revokeBearer | .verifyBearer _ => isTrue trivial

end Conditions

section Tokens

variable {p : Pool Shared Call} {s : Shared} {k : Chance} {t u : Call}

def book (s : Shared) : List String := tokenOf s.row ++ s.lost

/-- The enrollment tokens a call has: one that is being minted, or the one it
has consumed. -/
def held : Call → List String
  | .mintHashing raw _ | .mintWriting raw _ _ => [raw]
  | .enrolled raw _ => [raw]
  | _ => []

def consumed : Call → List String
  | .enrolled raw _ => [raw]
  | _ => []

theorem consumed_sublist (calls : List Call) : (calls.flatMap consumed).Sublist (calls.flatMap held) := by
  induction calls with
  | nil => exact List.Sublist.refl _
  | cons t calls ih =>
    rw [List.flatMap_cons, List.flatMap_cons]
    refine List.Sublist.append ?_ ih
    cases t <;> simp [consumed, held]

/-- What a call may rely on: its token is of the time since the last
revocation. -/
def Sound (s : Shared) : Call → Prop
  | .mintHashing raw era | .mintWriting raw era _ => era = s.revocations ∧ (raw, era) ∈ s.eras
  | .consumeVerifying _ hash => (hash.token, s.revocations) ∈ s.eras
  | .consumeSwapping raw hash bearer =>
    hash.token = raw ∧ (raw, s.revocations) ∈ s.eras ∧ wellFormed bearer
  | .enrolled raw bearer => ∀ e ∈ s.last, e.1 = raw → e.2 = bearer
  | .verifyRead _ _ barred => barred = false
  | .verified _ found barred => found → barred = false
  | _ => True

structure Kept (p : Pool Shared Call) : Prop where
  fresh : ∀ hash ∈ p.shared.row.enrollmentTokenHash, (hash.token, p.shared.revocations) ∈ p.shared.eras
  barred : p.shared.barred → p.shared.row.bearerRevokedAt ≠ none
  last : ∀ e ∈ p.shared.last, verifyBearer p.shared.row e.2 ∨ p.shared.revokedSince
  tokens : (book p.shared ++ p.total held).Perm p.shared.issued
  issued : p.shared.issued.Nodup
  calls : ∀ t ∈ p.calls, Sound p.shared t

theorem Sound.frame {s' : Shared} (hrev : s'.revocations = s.revocations)
    (heras : ∀ x ∈ s.eras, x ∈ s'.eras) (hlast : s'.last = s.last) (h : Sound s u) : Sound s' u := by
  cases u with
  | mintHashing raw era | mintWriting raw era _ =>
    obtain ⟨hera, hmem⟩ := h
    exact ⟨hera.trans hrev.symm, heras _ hmem⟩
  | consumeVerifying raw hash =>
    simp only [Sound, hrev]
    exact heras _ h
  | consumeSwapping raw hash bearer =>
    obtain ⟨htoken, hmem, hform⟩ := h
    simp only [Sound, hrev]
    exact ⟨htoken, heras _ hmem, hform⟩
  | enrolled raw bearer =>
    simp only [Sound, hlast]
    exact h
  | verifyRead _ _ _ => exact h
  | verified _ _ _ => exact h
  | _ => trivial

/-- A step of one call, from what it does to the shared state, to the tokens
and to the other calls. -/
theorem Kept.move {i : Nat} (hi : p.calls[i]? = some t) (h : Kept p) (new : List String)
    (hfresh : ∀ hash ∈ (act k p.shared t).1.row.enrollmentTokenHash,
      (hash.token, (act k p.shared t).1.revocations) ∈ (act k p.shared t).1.eras)
    (hbarred : (act k p.shared t).1.barred → (act k p.shared t).1.row.bearerRevokedAt ≠ none)
    (hlast : ∀ e ∈ (act k p.shared t).1.last,
      verifyBearer (act k p.shared t).1.row e.2 ∨ (act k p.shared t).1.revokedSince)
    (hbook : (book (act k p.shared t).1 ++ held (act k p.shared t).2).Perm
      (new ++ (book p.shared ++ held t)))
    (hissued : (act k p.shared t).1.issued = p.shared.issued ++ new) (hnodup : (p.shared.issued ++ new).Nodup)
    (hself : Sound (act k p.shared t).1 (act k p.shared t).2)
    (hothers : ∀ j ≠ i, ∀ u, p.calls[j]? = some u → Sound (act k p.shared t).1 u) :
    Kept (p.step act (.advance i k)) := by
  have hstep : p.step act (.advance i k) =
      ⟨(act k p.shared t).1, p.calls.set i (act k p.shared t).2⟩ := by
    simp only [Pool.step, hi]
  have hperm := balance_advance act book new hi hbook
  rw [hstep] at hperm ⊢
  refine ⟨hfresh, hbarred, hlast, ?_, ?_, fun u hu => ?_⟩
  · refine (hperm.trans (h.tokens.append_left new)).trans ?_
    simp only [hissued]
    exact List.perm_append_comm
  · simp only [hissued]
    exact hnodup
  · obtain rfl | ⟨j, hj, hu⟩ := mem_set_cases hu
    · exact hself
    · exact hothers j hj u hu

theorem Kept.stay {i : Nat} (hi : p.calls[i]? = some t) (h : Kept p) (hs : (act k p.shared t).1 = p.shared)
    (hheld : held (act k p.shared t).2 = held t) (hself : Sound p.shared (act k p.shared t).2) :
    Kept (p.step act (.advance i k)) := by
  refine h.move hi [] ?_ ?_ ?_ ?_ ?_ ?_ ?_ fun j _ u hu => ?_
  · rw [hs]
    exact h.fresh
  · rw [hs]
    exact h.barred
  · rw [hs]
    exact h.last
  · rw [hs, hheld]
    rfl
  · rw [hs, List.append_nil]
  · rw [List.append_nil]
    exact h.issued
  · rw [hs]
    exact hself
  · rw [hs]
    exact h.calls u (List.mem_of_getElem? hu)

theorem kept_mint {i : Nat} (hi : p.calls[i]? = some .mint) (h : Kept p)
    (hnew : generateRawToken k.tail ∉ p.shared.issued) : Kept (p.step act (.advance i k)) := by
  have heras : ∀ x ∈ p.shared.eras,
      x ∈ p.shared.eras ++ [(generateRawToken k.tail, p.shared.revocations)] :=
    fun x hx => List.mem_append_left _ hx
  refine h.move hi [generateRawToken k.tail] ?_ h.barred h.last ?_ rfl ?_ ?_ fun j _ u hu => ?_
  · exact fun hash hh => heras _ (h.fresh hash hh)
  · change (book p.shared ++ [generateRawToken k.tail]).Perm
      ([generateRawToken k.tail] ++ (book p.shared ++ []))
    rw [List.append_nil]
    exact List.perm_append_comm
  · rw [List.nodup_append]
    refine ⟨h.issued, by simp, fun a ha b hb he => hnew ?_⟩
    rw [List.mem_singleton] at hb
    have ha' : a = generateRawToken k.tail := he.trans hb
    exact ha' ▸ ha
  · exact ⟨rfl, List.mem_append_right _ (List.mem_singleton.mpr rfl)⟩
  · exact Sound.frame (s := p.shared) rfl heras rfl (h.calls u (List.mem_of_getElem? hu))

theorem kept_write {i : Nat} {raw : String} {era expiresAt : Nat}
    (hi : p.calls[i]? = some (.mintWriting raw era expiresAt)) (h : Kept p) :
    Kept (p.step act (.advance i k)) := by
  obtain ⟨hera, hmem⟩ := h.calls _ (List.mem_of_getElem? hi)
  refine h.move hi [] ?_ h.barred ?_ ?_ ?_ ?_ trivial fun j _ u hu => ?_
  · rintro hash ⟨⟩
    exact hera ▸ hmem
  · exact h.last
  · change (([raw] ++ (tokenOf p.shared.row ++ p.shared.lost)) ++ []).Perm
      ([] ++ ((tokenOf p.shared.row ++ p.shared.lost) ++ [raw]))
    rw [List.append_nil, List.nil_append]
    exact List.perm_append_comm
  · exact (List.append_nil _).symm
  · rw [List.append_nil]
    exact h.issued
  · exact (h.calls u (List.mem_of_getElem? hu)).frame rfl (fun _ hx => hx) rfl

/-- The consumed token was still open, so no other call has consumed it. -/
theorem kept_swap {i : Nat} {raw bearer : String} {hash : Hash}
    (hi : p.calls[i]? = some (.consumeSwapping raw hash bearer)) (h : Kept p)
    (hc : p.shared.row.enrollmentTokenHash = some hash) : Kept (p.step act (.advance i k)) := by
  obtain ⟨rfl, hmem, hform⟩ := h.calls _ (List.mem_of_getElem? hi)
  have htoken : tokenOf p.shared.row = [hash.token] := by
    rw [tokenOf, hc]
    rfl
  refine h.move hi [] nofun ?_ ?_ ?_ ?_ ?_ ?_ fun j _ u hu => ?_
  · simp [act, swapEnrollment, hmem]
  · rintro e ⟨⟩
    exact .inl (by simp [act, swapEnrollment, verifyBearer, bearerCandidate, swapForBearer, hform,
      verifyPassword, hashPassword])
  · change ((([] : List String) ++ ((tokenOf p.shared.row).filter (· ≠ hash.token) ++ p.shared.lost)) ++
      [hash.token]).Perm ([] ++ ((tokenOf p.shared.row ++ p.shared.lost) ++ []))
    rw [htoken]
    simp
  · exact (List.append_nil _).symm
  · rw [List.append_nil]
    exact h.issued
  · rintro e ⟨⟩ -
    rfl
  · have hu' := h.calls u (List.mem_of_getElem? hu)
    cases u with
    | enrolled raw' bearer' =>
      rintro e ⟨⟩ he
      have hnodup : (book p.shared ++ p.total held).Nodup := h.tokens.nodup_iff.mpr h.issued
      have hbook : hash.token ∈ book p.shared := by
        rw [book, htoken]
        exact List.mem_append_left _ (List.mem_singleton.mpr rfl)
      have htotal : hash.token ∈ p.total held :=
        List.mem_flatMap.mpr ⟨_, List.mem_of_getElem? hu, List.mem_singleton.mpr he⟩
      exact absurd rfl ((List.nodup_append.mp hnodup).2.2 _ hbook _ htotal)
    | mintHashing raw' era | mintWriting raw' era _ => exact hu'
    | consumeVerifying raw' hash' => exact hu'
    | consumeSwapping raw' hash' bearer' => exact hu'
    | verifyRead _ _ _ => exact hu'
    | verified _ _ _ => exact hu'
    | _ => trivial

theorem kept_revocation {i : Nat} {flipped : Bool} (hi : p.calls[i]? = some t) (h : Kept p)
    (hact : act k p.shared t = completeRevocation p.shared flipped) (hheld : held t = [])
    (hrow : p.shared.row.bearerRevokedAt ≠ none) (hnone : p.shared.row.enrollmentTokenHash = none)
    (hcalls : ∀ u ∈ p.calls, enrolling u = false) : Kept (p.step act (.advance i k)) := by
  refine h.move hi [] ?_ ?_ ?_ ?_ ?_ ?_ ?_ fun j _ u hu => ?_
  · rw [hact]
    intro hash hh
    rw [Option.mem_def, completeRevocation, hnone] at hh
    cases hh
  · rw [hact]
    exact fun _ => hrow
  · rw [hact]
    exact h.last
  · rw [hact, hheld]
    rfl
  · rw [hact]
    exact (List.append_nil _).symm
  · rw [List.append_nil]
    exact h.issued
  · rw [hact]
    trivial
  · rw [hact]
    have hu' := h.calls u (List.mem_of_getElem? hu)
    have hnot := hcalls u (List.mem_of_getElem? hu)
    cases u with
    | mintHashing raw' era | mintWriting raw' era _ => cases hnot
    | consumeVerifying raw' hash' => cases hnot
    | consumeSwapping raw' hash' bearer' => cases hnot
    | enrolled _ _ => exact hu'
    | verifyRead _ _ _ => exact hu'
    | verified _ _ _ => exact hu'
    | _ => trivial

theorem kept_writeRevocation {i : Nat} (hi : p.calls[i]? = some (.revokeRead none)) (h : Kept p) :
    Kept (p.step act (.advance i k)) := by
  refine h.move hi [] h.fresh (fun _ => nofun) (fun _ _ => .inr rfl) ?_ ?_ ?_ trivial fun j _ u hu => ?_
  · rfl
  · exact (List.append_nil _).symm
  · rw [List.append_nil]
    exact h.issued
  · exact Sound.frame (s := p.shared) rfl (fun _ hx => hx) rfl (h.calls u (List.mem_of_getElem? hu))

theorem wellFormed_generateRawToken (tail : String) : wellFormed (generateRawToken tail) = true := by
  rw [wellFormed, generateRawToken, String.toList_append, List.isPrefixOf_iff_prefix]
  exact List.prefix_append _ _

theorem kept_verifyEnrollment {i : Nat} {raw : String} {hash : Hash}
    (hi : p.calls[i]? = some (.consumeVerifying raw hash)) (h : Kept p) :
    Kept (p.step act (.advance i k)) := by
  have hera := h.calls _ (List.mem_of_getElem? hi)
  by_cases hv : verifyPassword raw hash = true
  · have hraw : hash.token = raw := by simpa [verifyPassword] using hv
    have hact : act k p.shared (.consumeVerifying raw hash) =
        ({ p.shared with bearers := p.shared.bearers ++ [generateRawToken k.tail] },
          .consumeSwapping raw hash (generateRawToken k.tail)) := by
      rw [act, verifyEnrollment, if_pos hv]
    refine h.move hi [] ?_ ?_ ?_ ?_ ?_ ?_ ?_ fun j _ u hu => ?_
    · rw [hact]
      exact h.fresh
    · rw [hact]
      exact h.barred
    · rw [hact]
      exact h.last
    · rw [hact]
      rfl
    · rw [hact]
      exact (List.append_nil _).symm
    · rw [List.append_nil]
      exact h.issued
    · rw [hact]
      exact ⟨hraw, hraw ▸ hera, wellFormed_generateRawToken k.tail⟩
    · rw [hact]
      exact Sound.frame (s := p.shared) rfl (fun _ hx => hx) rfl (h.calls u (List.mem_of_getElem? hu))
  · have hact : act k p.shared (.consumeVerifying raw hash) =
        (p.shared, .refused "Enrollment token rejected — expired or already consumed") := by
      rw [act, verifyEnrollment, if_neg hv]
    refine h.stay hi ?_ ?_ ?_
    · rw [hact]
    · rw [hact]
      rfl
    · rw [hact]
      trivial

theorem readEnrollment_sound (h : Kept p) (raw : String) :
    held (readEnrollment k p.shared raw) = [] ∧ Sound p.shared (readEnrollment k p.shared raw) := by
  rw [readEnrollment]
  split
  · exact ⟨rfl, trivial⟩
  · split
    · exact ⟨rfl, trivial⟩
    · next hash hc =>
      refine ⟨rfl, h.fresh hash ?_⟩
      rw [enrollmentCandidate] at hc
      split at hc
      · exact hc
      · cases hc

theorem bearerCandidate_live {row : ManagedAgent} {raw : String} {hash : Hash}
    (h : bearerCandidate row raw = some hash) : row.bearerRevokedAt = none := by
  rw [bearerCandidate] at h
  split at h
  · next hc => exact hc.2
  · cases h

theorem Kept.unbarred (h : Kept p) (hlive : p.shared.row.bearerRevokedAt = none) :
    p.shared.barred = false := by
  cases hb : p.shared.barred with
  | false => rfl
  | true => exact absurd hlive (h.barred hb)

theorem readBearer_sound (h : Kept p) (raw : String) :
    held (readBearer p.shared raw) = [] ∧ Sound p.shared (readBearer p.shared raw) := by
  rw [readBearer]
  split
  · exact ⟨rfl, nofun⟩
  · split
    · exact ⟨rfl, nofun⟩
    · next hash hc => exact ⟨rfl, h.unbarred (bearerCandidate_live hc)⟩

theorem kept_spawn (h : Kept p) (hheld : held t = []) (hsound : ∀ s, Sound s t) :
    Kept (p.step act (.spawn t : Move Call Chance)) := by
  refine ⟨h.fresh, h.barred, h.last, ?_, h.issued, fun u hu => ?_⟩
  · rw [total_spawn hheld]
    exact h.tokens
  · obtain hu | hu := List.mem_append.mp hu
    · exact h.calls u hu
    · rw [List.mem_singleton] at hu
      subst hu
      exact hsound _

theorem kept_advance {i : Nat} (hi : p.calls[i]? = some t) (h : Kept p)
    (hd : generates t → generateRawToken k.tail ∉ p.shared.issued ++ p.shared.bearers) (hc : ClearFor p t) :
    Kept (p.step act (.advance i k)) := by
  have hsound := h.calls t (List.mem_of_getElem? hi)
  cases t with
  | mint => exact kept_mint hi h fun hmem => hd rfl (List.mem_append_left _ hmem)
  | mintHashing raw era => exact h.stay hi rfl rfl hsound
  | mintWriting raw era expiresAt => exact kept_write hi h
  | minted raw => exact h.stay hi rfl rfl trivial
  | consume raw => exact h.stay hi rfl (readEnrollment_sound h raw).1 (readEnrollment_sound h raw).2
  | consumeVerifying raw hash => exact kept_verifyEnrollment hi h
  | consumeSwapping raw hash bearer => exact kept_swap hi h hc
  | enrolled raw bearer => exact h.stay hi rfl rfl hsound
  | refused message => exact h.stay hi rfl rfl trivial
  | revoke => exact h.stay hi rfl rfl trivial
  | revokeRead revokedAt =>
    cases revokedAt with
    | none => exact kept_writeRevocation hi h
    | some at' => exact kept_revocation hi h rfl rfl hc.1 hc.2.1 hc.2.2
  | revokeWritten => exact kept_revocation hi h rfl rfl hc.1 hc.2.1 hc.2.2
  | revoked flipped => exact h.stay hi rfl rfl trivial
  | verify raw => exact h.stay hi rfl (readBearer_sound h raw).1 (readBearer_sound h raw).2
  | verifyRead raw hash barred => exact h.stay hi rfl rfl fun _ => hsound
  | verified raw found barred => exact h.stay hi rfl rfl hsound

theorem kept_step (p : Pool Shared Call) (e : Event) (h : Kept p) (hc : Distinct p e ∧ Clear p e) :
    Kept (step p e) := by
  cases e with
  | mintEnrollmentToken => exact kept_spawn h rfl fun _ => trivial
  | consumeEnrollmentToken raw => exact kept_spawn h rfl fun _ => trivial
  | revokeBearer => exact kept_spawn h rfl fun _ => trivial
  | verifyBearer raw => exact kept_spawn h rfl fun _ => trivial
  | advance i k =>
    cases hi : p.calls[i]? with
    | none => simpa only [step, Event.move, Pool.step, hi] using h
    | some t => exact kept_advance hi h (hc.1 t hi) (hc.2 t hi)

theorem kept_start : Kept start := ⟨nofun, nofun, nofun, List.Perm.refl _, List.nodup_nil, nofun⟩

end Tokens

section Main

/-- Every token is consumed once, the last enrollment's bearer is good until
it is revoked and is the one every caller of its token has, and a revocation
lasts. -/
structure OneShot (p : Pool Shared Call) : Prop where
  once : (p.total consumed).Nodup
  minted : ∀ raw ∈ p.total consumed, raw ∈ p.shared.issued
  live : ∀ e ∈ p.shared.last, verifyBearer p.shared.row e.2 ∨ p.shared.revokedSince
  shared : ∀ e ∈ p.shared.last, ∀ bearer, .enrolled e.1 bearer ∈ p.calls → bearer = e.2
  durable : p.shared.barred → ∀ raw, verifyBearer p.shared.row raw = false
  refused : ∀ raw found, .verified raw found true ∈ p.calls → found = false

theorem Kept.oneShot {p : Pool Shared Call} (h : Kept p) : OneShot p := by
  have hnodup : (book p.shared ++ p.total held).Nodup := h.tokens.nodup_iff.mpr h.issued
  have hsub : (p.total consumed).Sublist (p.total held) := consumed_sublist p.calls
  refine ⟨?_, ?_, h.last, ?_, ?_, ?_⟩
  · exact (List.nodup_append.mp hnodup).2.1.sublist hsub
  · intro raw hraw
    exact h.tokens.subset (List.mem_append_right _ (hsub.subset hraw))
  · intro e he bearer hmem
    exact (h.calls _ hmem e he rfl).symm
  · intro hb raw
    have hrow := h.barred hb
    have hnone : bearerCandidate p.shared.row raw = none := by
      rw [bearerCandidate, if_neg fun hc => hrow hc.2]
    rw [verifyBearer, hnone]
    exact Bool.and_false _
  · intro raw found hmem
    have hsound := h.calls _ hmem
    cases found with
    | false => rfl
    | true => exact absurd (hsound rfl) nofun

theorem enrollment_one_shot (events : List Event) (hd : Along step Distinct start events)
    (hc : Along step Clear start events) : OneShot (run events) := by
  refine (foldl_invariant (C := fun p e => Distinct p e ∧ Clear p e) kept_step kept_start ?_).oneShot
  exact hd.and hc

def reinstall : List Event :=
  [.mintEnrollmentToken, .advance 0 ⟨0, "a1"⟩, .advance 0 ⟨1, ""⟩, .advance 0 ⟨2, ""⟩,
    .consumeEnrollmentToken "polaris_a1", .advance 1 ⟨3, ""⟩, .advance 1 ⟨4, "b1"⟩, .advance 1 ⟨5, ""⟩,
    .revokeBearer, .advance 2 ⟨6, ""⟩, .advance 2 ⟨7, ""⟩, .advance 2 ⟨8, ""⟩,
    .verifyBearer "polaris_b1", .advance 3 ⟨9, ""⟩,
    .mintEnrollmentToken, .advance 4 ⟨10, "a2"⟩, .advance 4 ⟨11, ""⟩, .advance 4 ⟨12, ""⟩,
    .consumeEnrollmentToken "polaris_a2", .advance 5 ⟨13, ""⟩, .advance 5 ⟨14, "b2"⟩, .advance 5 ⟨15, ""⟩]

theorem enrollment_one_shot_reinstall : OneShot (run reinstall) ∧
    (run reinstall).total consumed = ["polaris_a1", "polaris_a2"] :=
  ⟨enrollment_one_shot reinstall (by decide +kernel) (by decide +kernel), by decide +kernel⟩

/-- Both requests find the token on the row and verify it before either has
swapped it. -/
def doubleEnrollment : List Event :=
  [.mintEnrollmentToken, .advance 0 ⟨0, "a1"⟩, .advance 0 ⟨1, ""⟩, .advance 0 ⟨2, ""⟩,
    .consumeEnrollmentToken "polaris_a1", .consumeEnrollmentToken "polaris_a1",
    .advance 1 ⟨3, ""⟩, .advance 2 ⟨3, ""⟩, .advance 1 ⟨4, "b1"⟩, .advance 2 ⟨4, "b2"⟩,
    .advance 1 ⟨5, ""⟩, .advance 2 ⟨6, ""⟩]

theorem token_enrolls_twice : Along step Distinct start doubleEnrollment ∧
    ¬ OneShot (run doubleEnrollment) := by
  refine ⟨by decide +kernel, fun h => ?_⟩
  have hconsumed : (run doubleEnrollment).total consumed = ["polaris_a1", "polaris_a1"] := by
    decide +kernel
  have honce := h.once
  rw [hconsumed] at honce
  exact absurd honce (by decide)

end Main

end Polaris.AgentTokens
