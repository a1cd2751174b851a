import Polaris.Lib.Checks
import Polaris.Lib.Runs
import Polaris.RoleService

namespace Polaris.LastAdmin

open Polaris.Lib.Runs Polaris.Lib.Checks Polaris.Cidr Polaris.Permissions Polaris.RoleService

/-- The operations on users and roles. Ids and times are those the database
gives to what they create and write. -/
inductive Op
  | postUser (actor : Actor) (body : CreateUserBody) (id : String)
  | putUserRole (actor : Actor) (id roleId : String)
  | deleteUser (actor : Actor) (id : String)
  | createRole (input : CreateRoleInput) (id : String) (now : Nat)
  | updateRole (id : String) (input : UpdateRoleInput) (now : Nat)
  | deleteRole (id : String)

section Runs

variable (toLowerCase hashPassword : String → String) (db : Db)

def outcome {α : Type} (result : Db × Except Failure α) : Db × Except Failure Unit :=
  (result.1, result.2.map fun _ => ())

def perform : Op → Db × Except Failure Unit
  | .postUser actor body id => outcome (postUser hashPassword db actor body id)
  | .putUserRole actor id roleId => putUserRole db actor id roleId
  | .deleteUser actor id => deleteUser db actor id
  | .createRole input id now => outcome (createRole toLowerCase db input id now)
  | .updateRole id input now => outcome (updateRole toLowerCase db id input now)
  | .deleteRole id => deleteRole db id

def step (db : Db) (op : Op) : Db := (perform toLowerCase hashPassword db op).1

def run (ops : List Op) : Db := ops.foldl (step toLowerCase hashPassword) db

end Runs

section Admins

variable {db : Db}

def HasAdmin (db : Db) : Prop := ∃ u ∈ db.users, isAdminEquivalentRole db u.roleId

instance : Decidable (HasAdmin db) := inferInstanceAs (Decidable (∃ u ∈ db.users, _))

/-- An edit that takes the rights from a role leaves someone with another
role that has them. -/
def Clear (db : Db) : Op → Prop
  | .updateRole id input _ =>
    ∀ r ∈ db.findRole id, r.isProtected = false → ∀ p ∈ input.permissions,
      adminEquivalent (normalizePermissions p) = false →
      ∃ u ∈ db.users, u.roleId ≠ id ∧ isAdminEquivalentRole db u.roleId
  | _ => True

theorem find_unique {α : Type} {f : α → String} {l : List α} {a b : α} (h : (l.map f).Nodup)
    (hfind : l.find? (fun x => f x = f b) = some a) (hb : b ∈ l) : a = b := by
  have hid : f a = f b := by simpa using List.find?_some hfind
  exact List.inj_on_of_nodup_map h (List.mem_of_find?_eq_some hfind) hb hid

theorem isAdminEquivalentRole_iff {id : String} :
    isAdminEquivalentRole db id ↔ ∃ r ∈ db.roles, r.id = id ∧ adminEquivalent r.matrix := by
  rw [isAdminEquivalentRole, Db.findRole]
  constructor
  · intro h
    obtain ⟨r, hr, ha⟩ := (Option.any_eq_true _ _).mp h
    exact ⟨r, List.mem_of_find?_eq_some hr, by simpa using List.find?_some hr, ha⟩
  · rintro ⟨r, hr, rfl, ha⟩
    cases hf : db.roles.find? (fun x => x.id = r.id) with
    | none => simpa using List.find?_eq_none.mp hf r hr
    | some r' =>
      rw [find_unique db.roleIds hf hr]
      exact ha

theorem countAdminEquivalentUsers_pos {id : String} (h : countAdminEquivalentUsers db id ≠ 0) :
    ∃ u ∈ db.users, u.id ≠ id ∧ isAdminEquivalentRole db u.roleId := by
  rw [countAdminEquivalentUsers, ← Nat.pos_iff_ne_zero, List.countP_pos_iff] at h
  obtain ⟨u, hu, hp⟩ := h
  rw [Bool.and_eq_true, decide_eq_true_eq, List.mem_map] at hp
  obtain ⟨⟨r, hr, hid⟩, hne⟩ := hp
  obtain ⟨hr, ha⟩ := List.mem_filter.mp hr
  exact ⟨u, hu, by simpa using hne, isAdminEquivalentRole_iff.mpr ⟨r, hr, hid, ha⟩⟩

theorem hasAdmin_iff : HasAdmin db ↔
    ∃ u ∈ db.users, ∃ r ∈ db.roles, r.id = u.roleId ∧ adminEquivalent r.matrix :=
  exists_congr fun _ => and_congr_right fun _ => isAdminEquivalentRole_iff

end Admins

section Steps

variable {toLowerCase hashPassword : String → String} {db db' : Db} {actor : Actor} {id roleId : String}

theorem hasAdmin_insertUser {u : User} (h : HasAdmin db) (hi : db.insertUser u = some db') :
    HasAdmin db' := by
  rw [Db.insertUser] at hi
  split at hi
  · cases hi
  · cases hi
    obtain ⟨v, hv, hadmin⟩ := h
    exact ⟨v, List.mem_append_left _ hv, hadmin⟩

theorem hasAdmin_insertRole {r : Role} (h : HasAdmin db) (hi : db.insertRole r = some db') :
    HasAdmin db' := by
  rw [Db.insertRole] at hi
  split at hi
  · cases hi
  · cases hi
    rw [hasAdmin_iff] at h ⊢
    obtain ⟨u, hu, a, ha, hadmin⟩ := h
    exact ⟨u, hu, a, List.mem_append_left _ ha, hadmin⟩

theorem assignable_ok (h : assignable db actor id roleId = .ok ()) :
    ∃ user, db.findUser id = some user ∧
      (isAdminEquivalentRole db user.roleId → isAdminEquivalentRole db roleId ∨
        countAdminEquivalentUsers db user.id ≠ 0) := by
  rw [assignable] at h
  obtain ⟨_, -, h⟩ := bind_ok h
  obtain ⟨_, -, h⟩ := bind_ok h
  split at h
  · cases h
  · cases h
  · next user role huser hrole =>
    have hid : role.id = roleId := by simpa using List.find?_some hrole
    refine ⟨user, huser, fun hadmin => ?_⟩
    by_contra hnone
    rw [not_or, not_not] at hnone
    rw [hid] at h
    split at h
    · cases h
    · rw [if_pos ⟨hadmin, hnone.1, hnone.2⟩] at h
      cases h

theorem hasAdmin_assignRole (h : HasAdmin db) (ha : assignable db actor id roleId = .ok ()) :
    HasAdmin (db.assignRole id roleId) := by
  obtain ⟨user, huser, hrest⟩ := assignable_ok ha
  have hother : ∀ u ∈ db.users, u.id ≠ id → isAdminEquivalentRole db u.roleId →
      HasAdmin (db.assignRole id roleId) :=
    fun u hu hne hadmin => ⟨u, List.mem_map.mpr ⟨u, hu, if_neg hne⟩, hadmin⟩
  obtain ⟨u, hu, hadmin⟩ := h
  by_cases hid : u.id = id
  · subst hid
    cases find_unique db.userIds huser hu
    obtain hrole | hcount := hrest hadmin
    · exact ⟨{ user with roleId := roleId, needsRoleReview := false },
        List.mem_map.mpr ⟨user, hu, if_pos rfl⟩, hrole⟩
    · obtain ⟨v, hv, hne, hv'⟩ := countAdminEquivalentUsers_pos hcount
      exact hother v hv hne hv'
  · exact hother u hu hid hadmin

theorem deletable_ok (h : deletable db actor id = .ok ()) :
    ∃ user, db.findUser id = some user ∧
      (isAdminEquivalentRole db user.roleId → countAdminEquivalentUsers db user.id ≠ 0) := by
  rw [deletable] at h
  obtain ⟨_, -, h⟩ := bind_ok h
  split at h
  · cases h
  · next user huser =>
    refine ⟨user, huser, fun hadmin hzero => ?_⟩
    split at h
    · cases h
    · rw [if_pos ⟨hadmin, hzero⟩] at h
      cases h

theorem hasAdmin_removeUser (h : HasAdmin db) (hd : deletable db actor id = .ok ()) :
    HasAdmin (db.removeUser id) := by
  obtain ⟨user, huser, hrest⟩ := deletable_ok hd
  have hother : ∀ u ∈ db.users, u.id ≠ id → isAdminEquivalentRole db u.roleId → HasAdmin (db.removeUser id) :=
    fun u hu hne hadmin => ⟨u, List.mem_filter.mpr ⟨hu, decide_eq_true hne⟩, hadmin⟩
  obtain ⟨u, hu, hadmin⟩ := h
  by_cases hid : u.id = id
  · subst hid
    cases find_unique db.userIds huser hu
    obtain ⟨v, hv, hne, hv'⟩ := countAdminEquivalentUsers_pos (hrest hadmin)
    exact hother v hv hne hv'
  · exact hother u hu hid hadmin

theorem hasAdmin_removeRole (h : HasAdmin db) (hcount : ¬ 0 < db.userCount id) :
    HasAdmin (db.removeRole id) := by
  rw [hasAdmin_iff] at h ⊢
  obtain ⟨u, hu, r, hr, hrid, hadmin⟩ := h
  refine ⟨u, hu, r, List.mem_filter.mpr ⟨hr, decide_eq_true fun hid => hcount ?_⟩, hrid, hadmin⟩
  exact List.countP_pos_iff.mpr ⟨u, hu, decide_eq_true (hrid.symm.trans hid)⟩

theorem write_matrix {d : RoleData} {now : Nat} {r : Role} :
    (d.write now r).matrix = d.permissions.getD r.matrix := by
  rw [Role.matrix, RoleData.write]
  cases d.permissions with
  | none => rfl
  | some m => exact normalize_storedMatrix m

theorem hasAdmin_writeRole {d : RoleData} {now : Nat} (h : HasAdmin db)
    (hd : ∀ m ∈ d.permissions, adminEquivalent m = false →
      ∃ u ∈ db.users, u.roleId ≠ id ∧ isAdminEquivalentRole db u.roleId) :
    HasAdmin (db.writeRole id d now) := by
  rw [hasAdmin_iff]
  by_cases hkeeps : ∀ m ∈ d.permissions, adminEquivalent m = true
  · obtain ⟨u, hu, r, hr, hrid, hadmin⟩ := hasAdmin_iff.mp h
    refine ⟨u, hu, _, List.mem_map_of_mem hr, ?_, ?_⟩
    · split <;> exact hrid
    · split
      · rw [write_matrix]
        cases hm : d.permissions with
        | none => exact hadmin
        | some m => exact hkeeps m hm
      · exact hadmin
  · obtain ⟨m, hm⟩ := not_forall.mp hkeeps
    rw [Classical.not_imp, Bool.not_eq_true] at hm
    obtain ⟨u, hu, hne, hadmin⟩ := hd m hm.1 hm.2
    obtain ⟨r, hr, hrid, hadmin⟩ := isAdminEquivalentRole_iff.mp hadmin
    exact ⟨u, hu, r, List.mem_map.mpr ⟨r, hr, if_neg (hrid ▸ hne)⟩, hrid, hadmin⟩

theorem roleData_permissions {before : Role} {input : UpdateRoleInput} {d : RoleData}
    (h : roleData toLowerCase db before input = .ok d) :
    ∀ m ∈ d.permissions, ∃ p ∈ input.permissions, normalizePermissions p = m := by
  rw [roleData] at h
  obtain ⟨_, -, h⟩ := bind_ok h
  obtain ⟨_, -, h⟩ := bind_ok h
  obtain ⟨_, -, h⟩ := bind_ok h
  cases h
  intro m hm
  cases hp : input.permissions with
  | none =>
    rw [hp] at hm
    cases hm
  | some p =>
    rw [hp, changedPermissions] at hm
    split at hm
    · cases hm
    · exact ⟨p, rfl, Option.some.inj hm⟩

/-- A call is refused and changes nothing, or it is carried out and leaves an
administrator. -/
def Kept (db : Db) (result : Db × Except Failure Unit) : Prop :=
  (result.1 = db ∧ ∃ e, result.2 = .error e) ∨ (result.2 = .ok () ∧ HasAdmin result.1)

theorem kept_postUser {body : CreateUserBody} (h : HasAdmin db) :
    Kept db (outcome (postUser hashPassword db actor body id)) := by
  rw [postUser]
  split
  · exact .inl ⟨rfl, _, rfl⟩
  · split
    · exact .inl ⟨rfl, _, rfl⟩
    · next hi => exact .inr ⟨rfl, hasAdmin_insertUser h hi⟩

theorem kept_putUserRole (h : HasAdmin db) : Kept db (putUserRole db actor id roleId) := by
  rw [putUserRole]
  split
  · exact .inl ⟨rfl, _, rfl⟩
  · next ha => exact .inr ⟨rfl, hasAdmin_assignRole h ha⟩

theorem kept_deleteUser (h : HasAdmin db) : Kept db (deleteUser db actor id) := by
  rw [deleteUser]
  split
  · exact .inl ⟨rfl, _, rfl⟩
  · next hd => exact .inr ⟨rfl, hasAdmin_removeUser h hd⟩

theorem kept_createRole {input : CreateRoleInput} {now : Nat} (h : HasAdmin db) :
    Kept db (outcome (createRole toLowerCase db input id now)) := by
  rw [createRole]
  split
  · exact .inl ⟨rfl, _, rfl⟩
  · split
    · exact .inl ⟨rfl, _, rfl⟩
    · next hi => exact .inr ⟨rfl, hasAdmin_insertRole h hi⟩

theorem kept_updateRole {input : UpdateRoleInput} {now : Nat} (h : HasAdmin db)
    (hc : Clear db (.updateRole id input now)) :
    Kept db (outcome (updateRole toLowerCase db id input now)) := by
  rw [updateRole]
  split
  · exact .inl ⟨rfl, _, rfl⟩
  · next before hbefore =>
    split
    · exact .inl ⟨rfl, _, rfl⟩
    · next hp =>
      split
      · exact .inl ⟨rfl, _, rfl⟩
      · next d hd =>
        split
        · exact .inr ⟨rfl, h⟩
        · refine .inr ⟨rfl, hasAdmin_writeRole h fun m hm hadmin => ?_⟩
          obtain ⟨p, hp', rfl⟩ := roleData_permissions hd m hm
          exact hc before hbefore (Bool.not_eq_true _ ▸ hp) p hp' hadmin

theorem kept_deleteRole (h : HasAdmin db) : Kept db (deleteRole db id) := by
  rw [deleteRole]
  split
  · exact .inl ⟨rfl, _, rfl⟩
  · split
    · exact .inl ⟨rfl, _, rfl⟩
    · split
      · exact .inl ⟨rfl, _, rfl⟩
      · next hcount => exact .inr ⟨rfl, hasAdmin_removeRole h hcount⟩

theorem kept_perform (op : Op) (h : HasAdmin db) (hc : Clear db op) :
    Kept db (perform toLowerCase hashPassword db op) := by
  cases op with
  | postUser actor body id => exact kept_postUser h
  | putUserRole actor id roleId => exact kept_putUserRole h
  | deleteUser actor id => exact kept_deleteUser h
  | createRole input id now => exact kept_createRole h
  | updateRole id input now => exact kept_updateRole h hc
  | deleteRole id => exact kept_deleteRole h

theorem Kept.hasAdmin {result : Db × Except Failure Unit} (hk : Kept db result) (h : HasAdmin db) :
    HasAdmin result.1 := by
  obtain ⟨he, -⟩ | ⟨-, ha⟩ := hk
  · exact he ▸ h
  · exact ha

end Steps

section Main

variable (toLowerCase hashPassword : String → String)

/-- There is an administrator at the end, and on the way every call that would
leave none is refused and changes nothing. -/
structure LastAdminEquivalent (db : Db) (ops : List Op) : Prop where
  held : HasAdmin (run toLowerCase hashPassword db ops)
  calls : ∀ pre op post, ops = pre ++ op :: post →
    Kept (run toLowerCase hashPassword db pre)
      (perform toLowerCase hashPassword (run toLowerCase hashPassword db pre) op)

theorem last_admin_kept (db : Db) (ops : List Op) (h : HasAdmin db)
    (hc : Along (step toLowerCase hashPassword) Clear db ops) :
    LastAdminEquivalent toLowerCase hashPassword db ops := by
  have hstep : ∀ db op, HasAdmin db → Clear db op → HasAdmin (step toLowerCase hashPassword db op) :=
    fun db op h hc => (kept_perform op h hc).hasAdmin h
  refine ⟨foldl_invariant hstep h hc, ?_⟩
  rintro pre op post rfl
  obtain ⟨hpre, hop, -⟩ := along_append.mp hc
  exact kept_perform op (foldl_invariant hstep h hpre) hop

def fullMatrix : RawPermissions := storedMatrix fun _ => .fullwrite

def adminRole : Role := { id := "00000000-0000-0000-0000-00000000000a", name := "admin", isBuiltIn := true
                          isProtected := true, permissions := fullMatrix }

def opsRole : Role := { id := "00000000-0000-0000-0000-00000000000b", name := "ops", permissions := fullMatrix }

/-- An account with the protected role and one with a role of the operator's
own, both with every right. -/
def office : Db where
  roles := [adminRole, opsRole]
  users := [{ id := "alice", username := "alice", roleId := adminRole.id },
            { id := "bob", username := "bob", roleId := opsRole.id }]
  roleIds := by decide
  userIds := by decide

def bob : Actor := ⟨"bob", some fun _ => .fullwrite⟩

/-- The custom role is cut down while another account has the rights, and the
last of them is not moved away. -/
def cutDown : List Op :=
  [.updateRole opsRole.id { permissions := some [("users", "read")] } 1, .putUserRole bob "alice" opsRole.id,
    .deleteUser bob "alice"]

instance (db : Db) : ∀ op, Decidable (Clear db op)
  | .updateRole id input _ => inferInstanceAs (Decidable (∀ r ∈ db.findRole id, r.isProtected = false →
      ∀ p ∈ input.permissions, adminEquivalent (normalizePermissions p) = false →
      ∃ u ∈ db.users, u.roleId ≠ id ∧ isAdminEquivalentRole db u.roleId))
  | .postUser _ _ _ | .putUserRole _ _ _ | .deleteUser _ _ | .createRole _ _ _ | .deleteRole _ =>
    isTrue trivial

theorem last_admin_kept_office : HasAdmin office ∧ LastAdminEquivalent String.toLower id office cutDown :=
  ⟨by decide +kernel, last_admin_kept String.toLower id office cutDown (by decide +kernel)
    (by decide +kernel)⟩

/-- The protected account is removed, and then the custom role loses its
rights. -/
def lockedOut : List Op :=
  [.deleteUser bob "alice", .updateRole opsRole.id { permissions := some [("users", "read")] } 1]

theorem edit_removes_last_admin :
    HasAdmin office ∧ ¬ LastAdminEquivalent String.toLower id office lockedOut := by
  refine ⟨by decide +kernel, fun h => ?_⟩
  have hnone : ¬ HasAdmin (run String.toLower id office lockedOut) := by decide +kernel
  exact hnone h.held

end Main

end Polaris.LastAdmin
