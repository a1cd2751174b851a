import Mathlib.Data.List.Infix
import Polaris.Lib.Runs
import Polaris.RoleService

namespace Polaris.RoleFreshness

open Polaris.Lib.Runs Polaris.Cidr Polaris.Permissions Polaris.RoleService

structure SessionRoleSnapshot where
  id : String
  name : String
  isProtected : Bool
  permissions : Matrix
  updatedAt : Nat

/-- The projection of a row that `loadRoleSnapshot` and `snapshotFromRole`
make. -/
def snapshotOf (role : Role) : SessionRoleSnapshot :=
  { id := role.id, name := role.name, isProtected := role.isProtected, permissions := role.matrix
    updatedAt := role.updatedAt }

structure Session where
  userId : String
  roleId : Option String := none
  roleSnapshot : Option SessionRoleSnapshot := none
  role : String := ""

def Session.refreshed (session : Session) (role : Role) : Session :=
  { session with roleId := some role.id, roleSnapshot := some (snapshotOf role), role := role.name }

inductive EntityType
  | reservation | asset
  deriving DecidableEq

section Conflicts

variable (session : Session)

def sessionHas (key : FunctionKey) (required : AccessLevel) : Bool :=
  hasPermission (session.roleSnapshot.map (·.permissions)) key required

def visibleEntityTypes : List EntityType :=
  if ! sessionHas session .discoveryConflicts .read then []
  else if session.role = "networkadmin" then [.reservation]
  else if session.role = "assetsadmin" then [.asset]
  else [.reservation, .asset]

def canResolve (entityType : EntityType) : Bool :=
  if ! sessionHas session .discoveryConflicts .write then false
  else if session.role = "networkadmin" then entityType = .reservation
  else if session.role = "assetsadmin" then entityType = .asset
  else true

end Conflicts

inductive Route
  | guarded (key : FunctionKey) (required : AccessLevel)
  | conflicts
  | resolve (entityType : EntityType)

def granted (session : Session) : Route → Bool
  | .guarded key required => sessionHas session key required
  | .conflicts => ! (visibleEntityTypes session).isEmpty
  | .resolve entityType => canResolve session entityType

/-- A decision, with the snapshot it was made from and, for each role, the
place in its history of the last update that had completed before. -/
structure Decision where
  roleId : String
  floor : String → Nat
  basis : Option SessionRoleSnapshot
  granted : Bool

inductive Call
  | login (userId : String) (sid : Nat)
  | loginRead (userId : String) (sid : Nat) (role : Role)
  | loginSaving (sid : Nat) (session : Session)
  | request (sid : Nat) (route : Route)
  | loaded (sid : Nat) (route : Route) (floor : String → Nat) (session : Session)
  | healing (sid : Nat) (route : Route) (floor : String → Nat) (session : Session)
  | reading (sid : Nat) (route : Route) (floor : String → Nat) (session : Session) (roleId : String)
  | read (sid : Nat) (route : Route) (floor : String → Nat) (session : Session) (role : Role)
  | saving (sid : Nat) (route : Route) (floor : String → Nat) (session : Session)
  | ending (sid : Nat) (session : Session)
  | edit (id : String) (input : UpdateRoleInput)
  | editRead (id : String) (before : Role) (input : UpdateRoleInput)
  | editWriting (id : String) (data : RoleData)
  | editWritten (id : String) (index : Nat) (role : Role)
  | editLogging (id : String) (index : Nat) (role : Role)
  | done

/-- The tables and the version map, with a record of the rows each role has
had, of the last completed update of each, and of the decisions. -/
structure Shared where
  db : Db
  versions : String → Option Nat
  sessions : Nat → Option Session
  history : String → List Role
  completed : String → Nat
  decisions : List Decision

namespace Shared

variable (s : Shared)

def stamp (id : String) (updatedAt : Nat) : Shared :=
  { s with versions := Function.update s.versions id (some updatedAt) }

def save (sid : Nat) (session : Session) : Shared :=
  { s with sessions := Function.update s.sessions sid (some session) }

def roleOf (session : Session) : String :=
  session.roleId.getD (((s.db.findUser session.userId).map (·.roleId)).getD "")

def decided (route : Route) (floor : String → Nat) (session : Session) : Shared :=
  { s with decisions := s.decisions ++
      [⟨s.roleOf session, floor, session.roleSnapshot, granted session route⟩] }

end Shared

section Steps

variable (toLowerCase : String → String) (now : Nat) (s : Shared)

def readUserRole (userId : String) : Option Role :=
  (s.db.findUser userId).bind fun u => s.db.findRole u.roleId

/-- The part of `resolveSnapshot` up to its first await. -/
def check (sid : Nat) (route : Route) (floor : String → Nat) (session : Session) : Shared × Call :=
  match session.roleId with
  | none => (s, .healing sid route floor session)
  | some roleId =>
    match session.roleSnapshot with
    | none => (s, .reading sid route floor session roleId)
    | some snap =>
      if snap.id ≠ roleId then (s, .reading sid route floor session roleId)
      else
        match s.versions snap.id with
        | none => ((s.stamp snap.id snap.updatedAt).decided route floor session, .ending sid session)
        | some cached =>
          if cached = snap.updatedAt then (s.decided route floor session, .ending sid session)
          else (s, .reading sid route floor session roleId)

def writeEdit (id : String) (data : RoleData) : Shared × Call :=
  match s.db.findRole id with
  | none => (s, .done)
  | some r =>
    ({ s with
        db := s.db.writeRole id data now
        history := Function.update s.history id (s.history id ++ [data.write now r]) },
      .editWritten id (s.history id).length (data.write now r))

def completeEdit (id : String) (index : Nat) : Shared :=
  { s with completed := Function.update s.completed id (max (s.completed id) index) }

/-- One step of a call, from one await to the next. Every response writes the
session back, as each request has touched it. -/
def act : Call → Shared × Call
  | .login userId sid =>
    match readUserRole s userId with
    | none => (s, .done)
    | some role => (s, .loginRead userId sid role)
  | .loginRead userId sid role =>
    (s.stamp role.id role.updatedAt, .loginSaving sid (Session.refreshed { userId := userId } role))
  | .loginSaving sid session => (s.save sid session, .done)
  | .request sid route =>
    match s.sessions sid with
    | none => (s, .done)
    | some session => (s, .loaded sid route s.completed session)
  | .loaded sid (.guarded key required) floor session => check s sid (.guarded key required) floor session
  | .loaded sid route floor session => (s.decided route floor session, .ending sid session)
  | .healing sid route floor session =>
    match readUserRole s session.userId with
    | none => (s, .done)
    | some role => (s, .read sid route floor session role)
  | .reading sid route floor session roleId =>
    match s.db.findRole roleId with
    | none => (s, .done)
    | some role => (s, .read sid route floor session role)
  | .read sid route floor session role =>
    (s.stamp role.id role.updatedAt, .saving sid route floor (session.refreshed role))
  | .saving sid route floor session => ((s.save sid session).decided route floor session, .ending sid session)
  | .ending sid session => (s.save sid session, .done)
  | .edit id input =>
    match s.db.findRole id with
    | none => (s, .done)
    | some before => if before.isProtected then (s, .done) else (s, .editRead id before input)
  | .editRead id before input =>
    match roleData toLowerCase s.db before input with
    | .error _ => (s, .done)
    | .ok data => if data.isEmpty then (s, .done) else (s, .editWriting id data)
  | .editWriting id data => writeEdit now s id data
  | .editWritten id index role => (s.stamp role.id role.updatedAt, .editLogging id index role)
  | .editLogging id index _ => (completeEdit s id index, .done)
  | .done => (s, .done)

end Steps

/-- A restart empties the version map and drops the calls in flight. -/
inductive Event
  | login (userId : String) (sid : Nat)
  | request (sid : Nat) (route : Route)
  | updateRole (id : String) (input : UpdateRoleInput)
  | advance (i : Nat) (now : Nat)
  | restart

section Runs

variable (toLowerCase : String → String)

def step (p : Pool Shared Call) : Event → Pool Shared Call
  | .login userId sid => p.step (act toLowerCase) (.spawn (.login userId sid))
  | .request sid route => p.step (act toLowerCase) (.spawn (.request sid route))
  | .updateRole id input => p.step (act toLowerCase) (.spawn (.edit id input))
  | .advance i now => p.step (act toLowerCase) (.advance i now)
  | .restart => ⟨{ p.shared with versions := fun _ => none }, []⟩

/-- The tables at the beginning, with the sessions from before the roles
table, by their user. -/
def start (db : Db) (legacy : Nat → Option String) : Pool Shared Call :=
  ⟨{ db := db, versions := fun _ => none
     sessions := fun sid => (legacy sid).map fun userId => { userId := userId }
     history := fun id => (db.findRole id).toList, completed := fun _ => 0, decisions := [] }, []⟩

def run (db : Db) (legacy : Nat → Option String) (events : List Event) : Pool Shared Call :=
  events.foldl (step toLowerCase) (start db legacy)

end Runs

section Conditions

variable (s : Shared)

/-- A row of this time is not older than the last completed update. -/
def Current (id : String) (updatedAt : Nat) : Prop :=
  ∀ r ∈ (s.history id)[s.completed id]?, r.updatedAt ≤ updatedAt

instance (id : String) (updatedAt : Nat) : Decidable (Current s id updatedAt) :=
  inferInstanceAs (Decidable (∀ r ∈ (s.history id)[s.completed id]?, r.updatedAt ≤ updatedAt))

/-- The stamp does not replace a later one. -/
def InOrder (role : Role) : Prop := ∀ t ∈ s.versions role.id, t ≤ role.updatedAt

instance (role : Role) : Decidable (InOrder s role) :=
  inferInstanceAs (Decidable (∀ t ∈ s.versions role.id, t ≤ role.updatedAt))

/-- Stamps come in the order of the rows, every write is later than the one
before, and a snapshot that is taken on trust is current. -/
def ClearFor (now : Nat) (s : Shared) : Call → Prop
  | .loginRead _ _ role | .read _ _ _ _ role | .editWritten _ _ role => InOrder s role
  | .editWriting id _ => ∀ r ∈ s.db.findRole id, r.updatedAt < now
  | .loaded _ (.guarded _ _) _ session =>
    ∀ snap ∈ session.roleSnapshot, s.versions snap.id = none → Current s snap.id snap.updatedAt
  | .loaded _ .conflicts _ session | .loaded _ (.resolve _) _ session =>
    ∃ snap ∈ session.roleSnapshot, Current s snap.id snap.updatedAt
  | _ => True

instance : ∀ now s t, Decidable (ClearFor now s t)
  | _, s, .loginRead _ _ role => inferInstanceAs (Decidable (InOrder s role))
  | _, s, .read _ _ _ _ role => inferInstanceAs (Decidable (InOrder s role))
  | _, s, .editWritten _ _ role => inferInstanceAs (Decidable (InOrder s role))
  | now, s, .editWriting id _ => inferInstanceAs (Decidable (∀ r ∈ s.db.findRole id, r.updatedAt < now))
  | _, s, .loaded _ (.guarded _ _) _ session => inferInstanceAs (Decidable
      (∀ snap ∈ session.roleSnapshot, s.versions snap.id = none → Current s snap.id snap.updatedAt))
  | _, s, .loaded _ .conflicts _ session | _, s, .loaded _ (.resolve _) _ session =>
    inferInstanceAs (Decidable (∃ snap ∈ session.roleSnapshot, Current s snap.id snap.updatedAt))
  | _, _, .login _ _ | _, _, .loginSaving _ _ | _, _, .request _ _ | _, _, .healing _ _ _ _
  | _, _, .reading _ _ _ _ _ | _, _, .saving _ _ _ _ | _, _, .ending _ _ | _, _, .edit _ _
  | _, _, .editRead _ _ _ | _, _, .editLogging _ _ _ | _, _, .done => isTrue trivial

def Clear (p : Pool Shared Call) : Event → Prop
  | .advance i now => ∀ t ∈ p.calls[i]?, ClearFor now p.shared t
  | _ => True

instance (p : Pool Shared Call) : ∀ e, Decidable (Clear p e)
  | .advance i now => inferInstanceAs (Decidable (∀ t ∈ p.calls[i]?, ClearFor now p.shared t))
  | .login _ _ | .request _ _ | .updateRole _ _ | .restart => isTrue trivial

end Conditions

section Invariant

variable {s s' : Shared} {id : String} {role : Role} {session : Session} {floor : String → Nat}

/-- The decision was made from a row not older than the last update that had
completed when its request began. -/
def Fresh (s : Shared) (d : Decision) : Prop :=
  ∃ r ∈ (s.history d.roleId).drop (d.floor d.roleId), d.basis = some (snapshotOf r)

def Tied (s : Shared) (session : Session) : Prop :=
  ∀ snap ∈ session.roleSnapshot, session.roleId = some snap.id ∧ ∃ r ∈ s.history snap.id, snap = snapshotOf r

structure Good (s : Shared) : Prop where
  row : ∀ id, (s.history id).getLast? = s.db.findRole id
  sorted : ∀ id, (s.history id).Pairwise fun a b => a.updatedAt < b.updatedAt
  completed : ∀ id, s.history id ≠ [] → s.completed id < (s.history id).length
  versions : ∀ id t, s.versions id = some t → Current s id t
  sessions : ∀ sid session, s.sessions sid = some session → Tied s session
  decisions : ∀ d ∈ s.decisions, Fresh s d

/-- What a step does to the record and the map. -/
structure Grows (s s' : Shared) : Prop where
  history : ∀ id, s.history id <+: s'.history id
  absent : ∀ id, s.history id = [] → s'.history id = []
  completed : ∀ id, s.completed id ≤ s'.completed id
  stamped : ∀ id, ∀ t ∈ s.versions id, ∃ t' ∈ s'.versions id, t ≤ t'
  unstamped : ∀ id, s'.versions id = none → s'.completed id = s.completed id

/-- A row that is about to be stamped. -/
def Stampable (s : Shared) (role : Role) : Prop :=
  s.versions role.id = none → Current s role.id role.updatedAt

/-- What a call may rely on. -/
def Known (s : Shared) : Call → Prop
  | .loginRead _ _ role => role ∈ s.history role.id ∧ Stampable s role
  | .loginSaving _ session | .ending _ session => Tied s session
  | .loaded _ _ floor session => (∀ id, floor id ≤ s.completed id) ∧ Tied s session
  | .healing _ _ floor _ | .reading _ _ floor _ _ => ∀ id, floor id ≤ s.completed id
  | .read _ _ floor _ role => role ∈ (s.history role.id).drop (floor role.id) ∧ Stampable s role
  | .saving _ _ floor session =>
    ∃ role ∈ (s.history (s.roleOf session)).drop (floor (s.roleOf session)),
      session.roleId = some role.id ∧ session.roleSnapshot = some (snapshotOf role)
  | .editWritten id index role => role.id = id ∧ (s.history id)[index]? = some role ∧ Stampable s role
  | .editLogging id index role => (s.history id)[index]? = some role ∧ ∃ t ∈ s.versions id, role.updatedAt ≤ t
  | _ => True

theorem roleOf_some {id : String} (s : Shared) (h : session.roleId = some id) : s.roleOf session = id := by
  rw [Shared.roleOf, h, Option.getD_some]

theorem mem_drop_grows {α : Type} {l l' : List α} {n : Nat} {a : α} (h : l <+: l') (ha : a ∈ l.drop n) :
    a ∈ l'.drop n := by
  obtain ⟨rest, rfl⟩ := h
  rw [List.drop_append]
  exact List.mem_append_left _ ha

theorem getElem?_grows {α : Type} {l l' : List α} {i : Nat} {a : α} (h : l <+: l') (ha : l[i]? = some a) :
    l'[i]? = some a := by
  obtain ⟨rest, rfl⟩ := h
  rw [List.getElem?_append_left (List.getElem?_eq_some_iff.mp ha).1]
  exact ha

theorem Current.grows {t : Nat} (h : Current s id t) (hs : Good s) (hg : Grows s s')
    (hc : s'.completed id = s.completed id) : Current s' id t := by
  intro r hr
  rw [hc] at hr
  by_cases hnil : s.history id = []
  · rw [hg.absent id hnil] at hr
    cases hr
  · obtain ⟨rest, hrest⟩ := hg.history id
    rw [← hrest, Option.mem_def, List.getElem?_append_left (hs.completed id hnil)] at hr
    exact h r hr

theorem Tied.grows (h : Tied s session) (hg : Grows s s') : Tied s' session := by
  intro snap hsnap
  obtain ⟨hid, r, hr, he⟩ := h snap hsnap
  exact ⟨hid, r, (hg.history _).subset hr, he⟩

theorem Fresh.grows {d : Decision} (h : Fresh s d) (hg : Grows s s') : Fresh s' d := by
  obtain ⟨r, hr, hb⟩ := h
  exact ⟨r, mem_drop_grows (hg.history _) hr, hb⟩

theorem Stampable.grows (h : Stampable s role) (hs : Good s) (hg : Grows s s') : Stampable s' role := by
  intro hnone
  have hnone' : s.versions role.id = none := by
    cases hv : s.versions role.id with
    | none => rfl
    | some t =>
      obtain ⟨t', ht', -⟩ := hg.stamped role.id t hv
      rw [Option.mem_def, hnone] at ht'
      cases ht'
  exact (h hnone').grows hs hg (hg.unstamped role.id hnone)

theorem Known.grows {u : Call} (h : Known s u) (hs : Good s) (hg : Grows s s') : Known s' u := by
  cases u with
  | loginRead userId sid role => exact ⟨(hg.history _).subset h.1, h.2.grows hs hg⟩
  | loginSaving sid session => exact Tied.grows h hg
  | ending sid session => exact Tied.grows h hg
  | loaded sid route floor session => exact ⟨fun id => (h.1 id).trans (hg.completed id), h.2.grows hg⟩
  | healing sid route floor session => exact fun id => (h id).trans (hg.completed id)
  | reading sid route floor session roleId => exact fun id => (h id).trans (hg.completed id)
  | read sid route floor session role => exact ⟨mem_drop_grows (hg.history _) h.1, h.2.grows hs hg⟩
  | saving sid route floor session =>
    obtain ⟨role, hr, hid, hsnap⟩ := h
    rw [roleOf_some s hid] at hr
    refine ⟨role, ?_, hid, hsnap⟩
    rw [roleOf_some s' hid]
    exact mem_drop_grows (hg.history _) hr
  | editWritten id index role => exact ⟨h.1, getElem?_grows (hg.history _) h.2.1, h.2.2.grows hs hg⟩
  | editLogging id index role =>
    obtain ⟨hrow, t, ht, hle⟩ := h
    obtain ⟨t', ht', hle'⟩ := hg.stamped id t ht
    exact ⟨getElem?_grows (hg.history _) hrow, t', ht', hle.trans hle'⟩
  | _ => trivial

theorem grows_same (hh : s'.history = s.history) (hc : s'.completed = s.completed)
    (hv : s'.versions = s.versions) : Grows s s' := by
  refine ⟨fun id => ?_, fun id h => ?_, fun id => ?_, fun id t ht => ?_, fun id _ => ?_⟩
  · rw [hh]
  · rw [hh]
    exact h
  · rw [hc]
  · rw [hv]
    exact ⟨t, ht, Nat.le_refl t⟩
  · rw [hc]

theorem grows_stamp {t : Nat} (h : ∀ t₀ ∈ s.versions id, t₀ ≤ t) : Grows s (s.stamp id t) := by
  refine ⟨fun _ => List.prefix_rfl, fun _ h => h, fun _ => Nat.le_refl _, fun id' t' ht' => ?_,
    fun _ _ => rfl⟩
  by_cases hid : id' = id
  · subst hid
    exact ⟨t, Function.update_self _ _ _, h t' ht'⟩
  · exact ⟨t', (Function.update_of_ne hid _ _).trans ht', Nat.le_refl t'⟩

theorem Good.mem_drop {r : Role} (hs : Good s) (hr : r ∈ s.history id) (hc : Current s id r.updatedAt) :
    r ∈ (s.history id).drop (s.completed id) := by
  have hlt := hs.completed id (List.ne_nil_of_mem hr)
  obtain ⟨i, hi, rfl⟩ := List.mem_iff_getElem.mp hr
  have hle := hc _ (List.getElem?_eq_getElem hlt)
  have hile : s.completed id ≤ i := by
    by_contra hnot
    have hsorted := List.pairwise_iff_getElem.mp (hs.sorted id) i (s.completed id) hi hlt (by omega)
    omega
  rw [List.mem_iff_getElem?]
  refine ⟨i - s.completed id, ?_⟩
  rw [List.getElem?_drop, Nat.add_sub_cancel' hile]
  exact List.getElem?_eq_getElem hi

theorem Good.found (hs : Good s) (h : s.db.findRole id = some role) :
    role ∈ (s.history id).drop (s.completed id) ∧ Current s id role.updatedAt ∧ role.id = id := by
  have hid : role.id = id := by simpa using List.find?_some h
  have hlast := (hs.row id).trans h
  have hmem := List.mem_of_getLast? hlast
  have hcur : Current s id role.updatedAt := by
    intro r hr
    obtain ⟨hlt, rfl⟩ := List.getElem?_eq_some_iff.mp hr
    rw [List.getLast?_eq_getElem?] at hlast
    obtain ⟨hlen, rfl⟩ := List.getElem?_eq_some_iff.mp hlast
    by_cases heq : s.completed id = (s.history id).length - 1
    · simp only [heq]
      exact Nat.le_refl _
    · have := List.pairwise_iff_getElem.mp (hs.sorted id) (s.completed id) _ hlt hlen (by omega)
      omega
  exact ⟨hs.mem_drop hmem hcur, hcur, hid⟩

theorem good_stamp {t : Nat} (hs : Good s) (hc : Current s id t) : Good (s.stamp id t) := by
  refine ⟨hs.row, hs.sorted, hs.completed, fun id' t' ht' => ?_, hs.sessions, hs.decisions⟩
  by_cases hid : id' = id
  · subst hid
    cases (Function.update_self _ _ _).symm.trans ht'
    exact hc
  · exact hs.versions id' t' ((Function.update_of_ne hid _ _).symm.trans ht')

theorem good_save {sid : Nat} (hs : Good s) (ht : Tied s session) : Good (s.save sid session) := by
  refine ⟨hs.row, hs.sorted, hs.completed, hs.versions, fun sid' session' h => ?_, hs.decisions⟩
  by_cases hid : sid' = sid
  · subst hid
    cases (Function.update_self _ _ _).symm.trans h
    exact ht
  · exact hs.sessions sid' session' ((Function.update_of_ne hid _ _).symm.trans h)

theorem good_decided {route : Route} (hs : Good s)
    (hd : ∃ r ∈ (s.history (s.roleOf session)).drop (floor (s.roleOf session)),
      session.roleSnapshot = some (snapshotOf r)) : Good (s.decided route floor session) := by
  refine ⟨hs.row, hs.sorted, hs.completed, hs.versions, hs.sessions, fun d hd' => ?_⟩
  obtain hd' | hd' := List.mem_append.mp hd'
  · exact hs.decisions d hd'
  · rw [List.mem_singleton] at hd'
    subst hd'
    exact hd

theorem Tied.basis {snap : SessionRoleSnapshot} (ht : Tied s session) (hs : Good s)
    (hfloor : ∀ id, floor id ≤ s.completed id) (hsnap : session.roleSnapshot = some snap)
    (hc : Current s snap.id snap.updatedAt) :
    ∃ r ∈ (s.history (s.roleOf session)).drop (floor (s.roleOf session)),
      session.roleSnapshot = some (snapshotOf r) := by
  obtain ⟨hid, r, hr, rfl⟩ := ht snap hsnap
  rw [roleOf_some s hid]
  exact ⟨r, List.drop_subset_drop_left _ (hfloor _) (hs.mem_drop hr hc), hsnap⟩

theorem Stampable.current (hst : Stampable s role) (hs : Good s) (ho : InOrder s role) :
    Current s role.id role.updatedAt := by
  cases hv : s.versions role.id with
  | none => exact hst hv
  | some t => exact fun r hr => (hs.versions role.id t hv r hr).trans (ho t hv)

/-- What a step keeps: the invariant, and what its call and the others rely
on. -/
structure Kept (s : Shared) (next : Shared × Call) : Prop where
  good : Good next.1
  known : Known next.1 next.2
  grows : Grows s next.1

theorem kept_idle {t : Call} (hs : Good s) (ht : Known s t) :
    Kept s (s, t) := ⟨hs, ht, grows_same rfl rfl rfl⟩

theorem kept_stamp {t : Call} (hs : Good s) (hst : Stampable s role) (ho : InOrder s role)
    (ht : Known (s.stamp role.id role.updatedAt) t) : Kept s (s.stamp role.id role.updatedAt, t) :=
  ⟨good_stamp hs (hst.current hs ho), ht, grows_stamp ho⟩

theorem tied_refreshed (h : role ∈ s.history role.id) : Tied s (session.refreshed role) := by
  rintro snap ⟨⟩
  exact ⟨rfl, role, h, rfl⟩

theorem kept_check {sid : Nat} {route : Route} (hs : Good s) (hfloor : ∀ id, floor id ≤ s.completed id)
    (ht : Tied s session)
    (hc : ∀ snap ∈ session.roleSnapshot, s.versions snap.id = none → Current s snap.id snap.updatedAt) :
    Kept s (check s sid route floor session) := by
  rw [check]
  split
  · exact kept_idle hs hfloor
  · split
    · exact kept_idle hs hfloor
    · next snap hsnap =>
      split
      · exact kept_idle hs hfloor
      · split
        · next hnone =>
          have hcur := hc snap hsnap hnone
          have hstamp := good_stamp hs hcur
          refine ⟨good_decided hstamp (ht.basis hs hfloor hsnap hcur), ht, ?_⟩
          have hg : Grows s (s.stamp snap.id snap.updatedAt) :=
            grows_stamp fun t₀ ht₀ => nomatch hnone.symm.trans ht₀
          exact ⟨hg.history, hg.absent, hg.completed, hg.stamped, hg.unstamped⟩
        · next cached hcached =>
          split
          · next heq =>
            subst heq
            have hcur := hs.versions snap.id _ hcached
            exact ⟨good_decided hs (ht.basis hs hfloor hsnap hcur), ht, grows_same rfl rfl rfl⟩
          · exact kept_idle hs hfloor

theorem readUserRole_found {userId : String} (h : readUserRole s userId = some role) :
    ∃ id, s.db.findRole id = some role := by
  obtain ⟨u, -, hu⟩ := Option.bind_eq_some_iff.mp h
  exact ⟨u.roleId, hu⟩

theorem Good.known_read {sid : Nat} {route : Route} (hs : Good s) (hfloor : ∀ id, floor id ≤ s.completed id)
    (h : s.db.findRole id = some role) : Known s (.read sid route floor session role) := by
  obtain ⟨hmem, hcur, rfl⟩ := hs.found h
  exact ⟨List.drop_subset_drop_left _ (hfloor _) hmem, fun _ => hcur⟩

theorem findRole_writeRole (db : Db) {data : RoleData} {now : Nat} (id' : String) :
    (db.writeRole id data now).findRole id' =
      (db.findRole id').map fun r => if r.id = id then data.write now r else r := by
  have hid : (fun r : Role => decide (r.id = id')) ∘ (fun r => if r.id = id then data.write now r else r) =
      fun r => decide (r.id = id') := by
    funext r
    dsimp only [Function.comp_apply]
    split <;> rfl
  rw [Db.findRole, Db.findRole, Db.writeRole, List.find?_map, hid]

theorem findRole_id {db : Db} {r : Role} (h : db.findRole id = some r) : r.id = id := by
  simpa using List.find?_some h

theorem writeEdit_grows (data : RoleData) (now : Nat) {r : Role} (hs : Good s)
    (hr : s.db.findRole id = some r) : Grows s (writeEdit now s id data).1 := by
  rw [writeEdit, hr]
  refine ⟨fun id' => ?_, fun id' hnil => ?_, fun _ => Nat.le_refl _, fun _ t ht => ⟨t, ht, Nat.le_refl t⟩,
    fun _ _ => rfl⟩
  · by_cases hid : id' = id
    · subst hid
      simp only [Function.update_self]
      exact List.prefix_append _ _
    · simp only [Function.update_of_ne hid]
      exact List.prefix_rfl
  · by_cases hid : id' = id
    · subst hid
      have hlast := hs.row id'
      rw [hnil, hr] at hlast
      cases hlast
    · simp only [Function.update_of_ne hid]
      exact hnil

theorem kept_writeEdit {data : RoleData} {now : Nat} (hs : Good s)
    (hnow : ∀ r ∈ s.db.findRole id, r.updatedAt < now) : Kept s (writeEdit now s id data) := by
  cases hr : s.db.findRole id with
  | none =>
    rw [writeEdit, hr]
    exact kept_idle hs trivial
  | some r =>
    have hgrows := writeEdit_grows data now hs hr
    have hrid := findRole_id hr
    have hlast := (hs.row id).trans hr
    have hlater : ∀ a ∈ s.history id, a.updatedAt < now := by
      obtain ⟨older, holder⟩ := List.getLast?_eq_some_iff.mp hlast
      have hsorted := hs.sorted id
      rw [holder] at hsorted ⊢
      intro a ha
      obtain ha | ha := List.mem_append.mp ha
      · exact ((List.pairwise_append.mp hsorted).2.2 a ha r List.mem_cons_self).trans (hnow r hr)
      · exact List.mem_singleton.mp ha ▸ hnow r hr
    rw [writeEdit, hr] at hgrows ⊢
    refine ⟨⟨fun id' => ?_, fun id' => ?_, fun id' hne => ?_, fun id' t ht => ?_, fun sid session h => ?_,
      fun d hd => ?_⟩, ⟨hrid, ?_, fun _ => ?_⟩, hgrows⟩
    · by_cases hid : id' = id
      · subst hid
        simp only [Function.update_self, findRole_writeRole, hr, Option.map_some, hrid, if_true,
          List.getLast?_concat]
      · simp only [Function.update_of_ne hid, findRole_writeRole]
        rw [hs.row id']
        cases hf : s.db.findRole id' with
        | none => rfl
        | some r' =>
          have hne : r'.id ≠ id := fun h => hid ((findRole_id hf).symm.trans h)
          rw [Option.map_some, if_neg hne]
    · by_cases hid : id' = id
      · subst hid
        simp only [Function.update_self]
        refine List.pairwise_append.mpr ⟨hs.sorted id', List.pairwise_singleton _ _, fun a ha b hb => ?_⟩
        rw [List.mem_singleton] at hb
        subst hb
        exact hlater a ha
      · simp only [Function.update_of_ne hid]
        exact hs.sorted id'
    · by_cases hid : id' = id
      · subst hid
        simp only [Function.update_self, List.length_append, List.length_singleton]
        have hnil : s.history id' ≠ [] := fun hnil => by simp [hnil] at hlast
        have := hs.completed id' hnil
        omega
      · simp only [Function.update_of_ne hid] at hne ⊢
        exact hs.completed id' hne
    · exact (hs.versions id' t ht).grows hs hgrows rfl
    · exact (hs.sessions sid session h).grows hgrows
    · exact (hs.decisions d hd).grows hgrows
    · simp only [Function.update_self]
      exact List.getElem?_concat_length
    · intro a ha
      have hmem := List.mem_of_getElem? ha
      have hid : (data.write now r).id = id := hrid
      simp only [hid, Function.update_self] at hmem
      obtain hmem | hmem := List.mem_append.mp hmem
      · exact Nat.le_of_lt (hlater a hmem)
      · rw [List.mem_singleton] at hmem
        subst hmem
        exact Nat.le_refl _

theorem completeEdit_current {index : Nat} (h : (s.history id)[index]? = some role)
    {t : Nat} (ht : Current s id t) (hle : role.updatedAt ≤ t) : Current (completeEdit s id index) id t := by
  intro r hr
  have hr' : (s.history id)[max (s.completed id) index]? = some r := by
    simpa only [completeEdit, Function.update_self, Option.mem_def] using hr
  by_cases hmax : s.completed id ≤ index
  · rw [Nat.max_eq_right hmax, h] at hr'
    cases hr'
    exact hle
  · rw [Nat.max_eq_left (by omega)] at hr'
    exact ht r hr'

theorem kept_completeEdit {index : Nat} (hs : Good s) (h : (s.history id)[index]? = some role)
    (hv : ∃ t ∈ s.versions id, role.updatedAt ≤ t) : Kept s (completeEdit s id index, .done) := by
  obtain ⟨t, ht, hle⟩ := hv
  refine ⟨⟨hs.row, hs.sorted, fun id' hne => ?_, fun id' t' ht' => ?_, hs.sessions, hs.decisions⟩, trivial,
    ⟨fun _ => List.prefix_rfl, fun _ h => h, fun id' => ?_, fun _ t' ht' => ⟨t', ht', Nat.le_refl t'⟩,
      fun id' hnone => ?_⟩⟩
  · by_cases hid : id' = id
    · subst hid
      have hlt := hs.completed id' hne
      have hindex := (List.getElem?_eq_some_iff.mp h).1
      simp only [completeEdit, Function.update_self]
      omega
    · simp only [completeEdit, Function.update_of_ne hid]
      exact hs.completed id' hne
  · by_cases hid : id' = id
    · subst hid
      cases ht.symm.trans ht'
      exact completeEdit_current h (hs.versions id' t ht) hle
    · intro r hr
      simp only [completeEdit, Function.update_of_ne hid] at hr
      exact hs.versions id' t' ht' r hr
  · by_cases hid : id' = id
    · subst hid
      simp only [completeEdit, Function.update_self]
      exact Nat.le_max_left _ _
    · simp only [completeEdit, Function.update_of_ne hid]
      exact Nat.le_refl _
  · have hid : id' ≠ id := by
      rintro rfl
      exact nomatch ht.symm.trans hnone
    simp only [completeEdit, Function.update_of_ne hid]

theorem kept_act (toLowerCase : String → String) {now : Nat} {t : Call} (hs : Good s) (ht : Known s t)
    (hc : ClearFor now s t) : Kept s (act toLowerCase now s t) := by
  cases t with
  | login userId sid =>
    rw [act]
    split
    · exact kept_idle hs trivial
    · next role hrole =>
      obtain ⟨id, hid⟩ := readUserRole_found hrole
      obtain ⟨hmem, hcur, rfl⟩ := hs.found hid
      exact kept_idle hs ⟨List.mem_of_mem_drop hmem, fun _ => hcur⟩
  | loginRead userId sid role => exact kept_stamp hs ht.2 hc (tied_refreshed ht.1)
  | loginSaving sid session => exact ⟨good_save hs ht, trivial, grows_same rfl rfl rfl⟩
  | request sid route =>
    rw [act]
    split
    · exact kept_idle hs trivial
    · next session hsession => exact kept_idle hs ⟨fun _ => Nat.le_refl _, hs.sessions sid session hsession⟩
  | loaded sid route floor session =>
    obtain ⟨hfloor, htied⟩ := ht
    cases route with
    | guarded key required => exact kept_check hs hfloor htied hc
    | conflicts =>
      obtain ⟨snap, hsnap, hcur⟩ := hc
      exact ⟨good_decided hs (htied.basis hs hfloor hsnap hcur), htied, grows_same rfl rfl rfl⟩
    | resolve entityType =>
      obtain ⟨snap, hsnap, hcur⟩ := hc
      exact ⟨good_decided hs (htied.basis hs hfloor hsnap hcur), htied, grows_same rfl rfl rfl⟩
  | healing sid route floor session =>
    rw [act]
    split
    · exact kept_idle hs trivial
    · next role hrole =>
      obtain ⟨id, hid⟩ := readUserRole_found hrole
      exact kept_idle hs (hs.known_read ht hid)
  | reading sid route floor session roleId =>
    rw [act]
    split
    · exact kept_idle hs trivial
    · next role hrole => exact kept_idle hs (hs.known_read ht hrole)
  | read sid route floor session role => exact kept_stamp hs ht.2 hc ⟨role, ht.1, rfl, rfl⟩
  | saving sid route floor session =>
    obtain ⟨role, hmem, hid, hsnap⟩ := ht
    have htied : Tied s session := by
      intro snap hsnap'
      cases hsnap.symm.trans hsnap'
      rw [roleOf_some s hid] at hmem
      exact ⟨hid, role, List.mem_of_mem_drop hmem, rfl⟩
    exact ⟨good_decided (good_save hs htied) ⟨role, hmem, hsnap⟩, htied, grows_same rfl rfl rfl⟩
  | ending sid session => exact ⟨good_save hs ht, trivial, grows_same rfl rfl rfl⟩
  | edit id input =>
    rw [act]
    split
    · exact kept_idle hs trivial
    · split
      · exact kept_idle hs trivial
      · exact kept_idle hs trivial
  | editRead id before input =>
    rw [act]
    split
    · exact kept_idle hs trivial
    · split
      · exact kept_idle hs trivial
      · exact kept_idle hs trivial
  | editWriting id data => exact kept_writeEdit hs hc
  | editWritten id index role =>
    obtain ⟨rfl, hrow, hst⟩ := ht
    exact kept_stamp hs hst hc ⟨hrow, role.updatedAt, Function.update_self _ _ _, Nat.le_refl _⟩
  | editLogging id index role => exact kept_completeEdit hs ht.1 ht.2
  | done => exact kept_idle hs trivial

end Invariant

section Main

variable (toLowerCase : String → String)

theorem good_start (db : Db) (legacy : Nat → Option String) : (start db legacy).Holds Good Known := by
  refine ⟨⟨fun id => ?_, fun id => ?_, fun id hne => ?_, fun id t ht => ?_, fun sid session h => ?_,
    fun d hd => ?_⟩, fun t ht => ?_⟩
  · change ((db.findRole id).toList).getLast? = db.findRole id
    cases db.findRole id <;> rfl
  · change ((db.findRole id).toList).Pairwise _
    cases db.findRole id with
    | none => exact List.Pairwise.nil
    | some r => exact List.pairwise_singleton _ _
  · exact List.length_pos_iff.mpr hne
  · cases ht
  · obtain ⟨userId, -, rfl⟩ := Option.map_eq_some_iff.mp h
    rintro snap ⟨⟩
  · cases hd
  · cases ht

theorem good_spawn {p : Pool Shared Call} {t : Call} (h : p.Holds Good Known) (ht : ∀ s, Known s t) :
    (p.step (act toLowerCase) (.spawn t)).Holds Good Known := by
  refine ⟨h.1, fun u hu => ?_⟩
  obtain hu | hu := List.mem_append.mp hu
  · exact h.2 u hu
  · rw [List.mem_singleton] at hu
    subst hu
    exact ht _

theorem good_step (p : Pool Shared Call) (e : Event) (h : p.Holds Good Known) (hc : Clear p e) :
    (step toLowerCase p e).Holds Good Known := by
  cases e with
  | login userId sid => exact good_spawn toLowerCase h fun _ => trivial
  | request sid route => exact good_spawn toLowerCase h fun _ => trivial
  | updateRole id input => exact good_spawn toLowerCase h fun _ => trivial
  | advance i now =>
    refine holds_step (act toLowerCase) (fun _ => False) ClearFor (fun _ _ h => h.elim) ?_ ?_ p
      (.advance i now) h hc
    · exact fun now s t hc hs ht =>
        ⟨(kept_act toLowerCase hs ht hc).good, (kept_act toLowerCase hs ht hc).known⟩
    · exact fun now s t u hc hs ht hu => hu.grows hs (kept_act toLowerCase hs ht hc).grows
  | restart =>
    refine ⟨⟨h.1.row, h.1.sorted, h.1.completed, fun id t ht => ?_, h.1.sessions, h.1.decisions⟩,
      fun t ht => ?_⟩
    · cases ht
    · cases ht

/-- Every decision is made from the role as of the updates completed before
its request, or as of a later one. -/
theorem role_edit_takes_effect (db : Db) (legacy : Nat → Option String) (events : List Event)
    (hc : Along (step toLowerCase) Clear (start db legacy) events) :
    ∀ d ∈ (run toLowerCase db legacy events).shared.decisions,
      Fresh (run toLowerCase db legacy events).shared d :=
  (foldl_invariant (good_step toLowerCase) (good_start db legacy) hc).1.decisions

def opsRole : Role := { id := "ops", name := "operators", permissions := [("users", "fullwrite")] }

def opsDb : Db where
  roles := [opsRole]
  users := [{ id := "alice", username := "alice", roleId := "ops" }]
  roleIds := by decide
  userIds := by decide

def advances (i n now : Nat) : List Event := List.replicate n (.advance i now)

def demotion : UpdateRoleInput := { permissions := some [("users", "read")] }

def demoted : List Event :=
  .login "alice" 1 :: advances 0 3 1 ++ .updateRole "ops" demotion :: advances 1 5 2 ++
    .request 1 (.guarded .users .write) :: advances 2 6 3

theorem role_edit_takes_effect_demoted :
    (∀ d ∈ (run String.toLower opsDb (fun _ => none) demoted).shared.decisions,
      Fresh (run String.toLower opsDb (fun _ => none) demoted).shared d) ∧
    (run String.toLower opsDb (fun _ => none) demoted).shared.decisions.map (·.granted) = [false] :=
  ⟨role_edit_takes_effect String.toLower opsDb (fun _ => none) demoted (by decide +kernel), by decide +kernel⟩

def restarted : List Event :=
  .login "alice" 1 :: advances 0 3 1 ++ .updateRole "ops" demotion :: advances 1 5 2 ++
    .restart :: .request 1 (.guarded .users .write) :: advances 0 3 3

theorem restart_revives_rights :
    (run String.toLower opsDb (fun _ => none) restarted).shared.decisions.map (·.granted) = [true] ∧
      ¬ ∀ d ∈ (run String.toLower opsDb (fun _ => none) restarted).shared.decisions,
        Fresh (run String.toLower opsDb (fun _ => none) restarted).shared d := by
  refine ⟨by decide +kernel, fun h => ?_⟩
  have hstale : ∃ d ∈ (run String.toLower opsDb (fun _ => none) restarted).shared.decisions,
      ∀ r ∈ ((run String.toLower opsDb (fun _ => none) restarted).shared.history d.roleId).drop
        (d.floor d.roleId),
        d.basis.map (·.updatedAt) ≠ some r.updatedAt := by
    decide +kernel
  obtain ⟨d, hd, hne⟩ := hstale
  obtain ⟨r, hr, hbasis⟩ := h d hd
  exact hne r hr (congrArg (Option.map (·.updatedAt)) hbasis)

end Main

end Polaris.RoleFreshness
