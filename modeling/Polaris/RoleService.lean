import Mathlib.Data.List.Nodup
import Polaris.Lib.Text
import Polaris.Permissions
import Polaris.ReservationPush

namespace Polaris.RoleService

open Polaris.Lib.Text Polaris.Cidr Polaris.ReservationPush Polaris.Permissions

structure Role where
  id : String
  name : String
  description : Option String := none
  permissions : RawPermissions := []
  regionTags : List String := []
  isBuiltIn : Bool := false
  isProtected : Bool := false
  updatedAt : Nat := 0
  deriving DecidableEq

structure User where
  id : String
  username : String
  passwordHash : String := ""
  roleId : String
  authProvider : String := "local"
  regionTags : List String := []
  needsRoleReview : Bool := false
  deriving DecidableEq

def Role.matrix (r : Role) : Matrix := normalizePermissions r.permissions

/-- Both tables with their primary keys. -/
structure Db where
  roles : List Role
  users : List User
  roleIds : (roles.map (·.id)).Nodup
  userIds : (users.map (·.id)).Nodup

/-- What an update of a role writes. A missing column is left alone. -/
structure RoleData where
  name : Option String := none
  description : Option (Option String) := none
  permissions : Option Matrix := none
  regionTags : Option (List String) := none

def RoleData.isEmpty (d : RoleData) : Bool :=
  d.name.isNone && d.description.isNone && d.permissions.isNone && d.regionTags.isNone

def RoleData.write (d : RoleData) (now : Nat) (r : Role) : Role :=
  { r with
    name := d.name.getD r.name, description := d.description.getD r.description
    permissions := (d.permissions.map storedMatrix).getD r.permissions
    regionTags := d.regionTags.getD r.regionTags, updatedAt := now }

namespace Db

variable (db : Db)

def findRole (id : String) : Option Role := db.roles.find? (·.id = id)

def findUser (id : String) : Option User := db.users.find? (·.id = id)

def userCount (roleId : String) : Nat := db.users.countP (·.roleId = roleId)

def duplicateId : Failure := .thrown "Unique constraint failed on the fields: (`id`)"

theorem nodup_append_id {α : Type} {f : α → String} {l : List α} {a : α} (h : (l.map f).Nodup)
    (hnew : f a ∉ l.map f) : ((l ++ [a]).map f).Nodup := by
  rw [List.map_append, List.nodup_append]
  refine ⟨h, by simp, fun x hx y hy he => hnew ?_⟩
  rw [List.map_singleton, List.mem_singleton] at hy
  exact hy ▸ he ▸ hx

theorem nodup_rewrite {α : Type} {f : α → String} {g : α → α} (hg : ∀ a, f (g a) = f a) {l : List α}
    (h : (l.map f).Nodup) : ((l.map g).map f).Nodup := by
  rw [List.map_map]
  exact (List.map_congr_left fun a _ => hg a) ▸ h

def insertRole (r : Role) : Option Db :=
  if h : r.id ∈ db.roles.map (·.id) then none
  else some { db with roles := db.roles ++ [r], roleIds := nodup_append_id db.roleIds h }

def insertUser (u : User) : Option Db :=
  if h : u.id ∈ db.users.map (·.id) then none
  else some { db with users := db.users ++ [u], userIds := nodup_append_id db.userIds h }

def writeRole (id : String) (d : RoleData) (now : Nat) : Db :=
  { db with
    roles := db.roles.map fun r => if r.id = id then d.write now r else r
    roleIds := nodup_rewrite (fun r => by split <;> rfl) db.roleIds }

def assignRole (id roleId : String) : Db :=
  { db with
    users := db.users.map fun u =>
      if u.id = id then { u with roleId := roleId, needsRoleReview := false } else u
    userIds := nodup_rewrite (fun u => by split <;> rfl) db.userIds }

def removeRole (id : String) : Db :=
  { db with
    roles := db.roles.filter (·.id ≠ id), roleIds := db.roleIds.sublist (List.filter_sublist.map _) }

def removeUser (id : String) : Db :=
  { db with
    users := db.users.filter (·.id ≠ id), userIds := db.userIds.sublist (List.filter_sublist.map _) }

end Db

section Checks

def textLength (s : String) : Nat := (s.toList.map utf16Length).sum

def nameChar (c : Char) : Bool := c.isAlphanum || c = '_' || c = '-'

def validateName (name : String) : Except Failure String :=
  let trimmed := trim name
  if trimmed.toList.all nameChar ∧ 2 ≤ trimmed.toList.length ∧ trimmed.toList.length ≤ 32 then .ok trimmed
  else .error (.app 400 "Role name must be 2-32 characters, letters / digits / dash / underscore only")

def normalizeDescription : Option String → Except Failure (Option String)
  | none => .ok none
  | some input =>
    let trimmed := trim input
    if trimmed = "" then .ok none
    else if textLength trimmed > 200 then .error (.app 400 "Description must be ≤ 200 characters")
    else .ok (some trimmed)

variable (toLowerCase : String → String)

def collectTags (seen out : List String) : List String → Except Failure (List String)
  | [] => if out.length > 64 then .error (.app 400 "At most 64 region tags per role") else .ok out
  | raw :: rest =>
    let trimmed := trim raw
    if trimmed = "" then collectTags seen out rest
    else if textLength trimmed > 64 then
      .error (.app 400 ("Region tag \"" ++ String.ofList (sliceUnits 32 trimmed.toList) ++
        "...\" exceeds 64 characters"))
    else if toLowerCase trimmed ∈ seen then collectTags seen out rest
    else collectTags (seen ++ [toLowerCase trimmed]) (out ++ [trimmed]) rest

def normalizeRegionTags (input : List String) : Except Failure (List String) :=
  collectTags toLowerCase [] [] input

def reservedNames : List String := ["admin", "readonly"]

def nameCollides (db : Db) (name : String) (excludeId : Option String) : Bool :=
  reservedNames.contains (toLowerCase name) ||
    (db.roles.filter fun r => some r.id ≠ excludeId).any fun r => toLowerCase r.name = toLowerCase name

end Checks

structure RoleSummary where
  role : Role
  permissions : Matrix
  userCount : Nat

def summarize (db : Db) (r : Role) : RoleSummary := ⟨r, r.matrix, db.userCount r.id⟩

structure CreateRoleInput where
  name : String
  description : Option String := none
  permissions : RawPermissions := []
  regionTags : List String := []

structure UpdateRoleInput where
  name : Option String := none
  description : Option (Option String) := none
  permissions : Option RawPermissions := none
  regionTags : Option (List String) := none

section Roles

variable (toLowerCase : String → String) (db : Db)

def roleNotFound (id : String) : Failure := .app 404 ("Role " ++ id ++ " not found")

def newRole (input : CreateRoleInput) (id : String) (now : Nat) : Except Failure Role := do
  let name ← validateName input.name
  if nameCollides toLowerCase db name none then
    throw (.app 409 ("A role named \"" ++ name ++ "\" already exists"))
  let description ← normalizeDescription input.description
  let regionTags ← normalizeRegionTags toLowerCase input.regionTags
  return { id, name, description, regionTags, updatedAt := now
           permissions := storedMatrix (normalizePermissions input.permissions) }

/-- The id and the time are those the database gives. -/
def createRole (input : CreateRoleInput) (id : String) (now : Nat) : Db × Except Failure RoleSummary :=
  match newRole toLowerCase db input id now with
  | .error e => (db, .error e)
  | .ok r =>
    match db.insertRole r with
    | none => (db, .error Db.duplicateId)
    | some db' => (db', .ok (summarize db' r))

def changedName (before : Role) : Option String → Except Failure (Option String)
  | none => .ok none
  | some name => do
    let next ← validateName name
    if next = before.name then return none
    if nameCollides toLowerCase db next (some before.id) then
      throw (.app 409 ("A role named \"" ++ next ++ "\" already exists"))
    return some next

def changedDescription (before : Role) : Option (Option String) → Except Failure (Option (Option String))
  | none => .ok none
  | some description => do
    let next ← normalizeDescription description
    return if next = before.description then none else some next

def changedPermissions (before : Role) : Option RawPermissions → Option Matrix
  | none => none
  | some permissions =>
    let next := normalizePermissions permissions
    if FunctionKey.all.all fun k => before.matrix k = next k then none else some next

def changedTags (before : Role) : Option (List String) → Except Failure (Option (List String))
  | none => .ok none
  | some regionTags => do
    let next ← normalizeRegionTags toLowerCase regionTags
    return if next = before.regionTags then none else some next

def roleData (before : Role) (input : UpdateRoleInput) : Except Failure RoleData := do
  let name ← changedName toLowerCase db before input.name
  let description ← changedDescription before input.description
  let regionTags ← changedTags toLowerCase before input.regionTags
  return { name, description, permissions := changedPermissions before input.permissions, regionTags }

def updateRole (id : String) (input : UpdateRoleInput) (now : Nat) : Db × Except Failure RoleSummary :=
  match db.findRole id with
  | none => (db, .error (roleNotFound id))
  | some before =>
    if before.isProtected then
      (db, .error (.app 403 ("Role \"" ++ before.name ++ "\" is protected and cannot be edited")))
    else
      match roleData toLowerCase db before input with
      | .error e => (db, .error e)
      | .ok data =>
        if data.isEmpty then (db, .ok (summarize db before))
        else (db.writeRole id data now, .ok (summarize db (data.write now before)))

def deleteRole (id : String) : Db × Except Failure Unit :=
  match db.findRole id with
  | none => (db, .error (roleNotFound id))
  | some before =>
    if before.isBuiltIn then
      (db, .error (.app 409 ("Role \"" ++ before.name ++ "\" is built-in and cannot be deleted")))
    else if 0 < db.userCount id then
      (db, .error (.app 409 ("Role \"" ++ before.name ++ "\" is assigned to " ++ toString (db.userCount id) ++
        " user(s). Reassign them first.")))
    else (db.removeRole id, .ok ())

def countAdminEquivalentUsers (excludeUserId : String) : Nat :=
  let adminEquivRoleIds := (db.roles.filter fun r => adminEquivalent r.matrix).map (·.id)
  db.users.countP fun u => u.roleId ∈ adminEquivRoleIds && u.id ≠ excludeUserId

def isAdminEquivalentRole (roleId : String) : Bool :=
  (db.findRole roleId).any fun r => adminEquivalent r.matrix

end Roles

section Users

structure Actor where
  userId : String
  snapshot : Option Matrix

structure CreateUserBody where
  username : String
  password : String
  roleId : String
  regionTags : List String := []

def isHex (c : Char) : Bool := c.isDigit || ('a' ≤ c && c ≤ 'f') || ('A' ≤ c && c ≤ 'F')

def isUuid (s : String) : Bool :=
  let groups := split '-' s
  groups.map List.length = [8, 4, 4, 4, 12] && groups.all (·.all isHex)

def issues (field : String) (checks : List (Bool × String)) : List String :=
  (checks.filter fun c => ! c.1).map fun c => field ++ ": " ++ c.2

def passwordIssues (password : String) : List String :=
  issues "password"
    [(8 ≤ textLength password, "Password must be at least 8 characters"),
     (password.toList.any Char.isLower, "Password must contain a lowercase letter"),
     (password.toList.any Char.isUpper, "Password must contain an uppercase letter"),
     (password.toList.any Char.isDigit, "Password must contain a number"),
     (password.toList.any fun c => ! c.isAlphanum, "Password must contain a special character")]

def uuidIssues (roleId : String) : List String := issues "roleId" [(isUuid roleId, "roleId must be a UUID")]

def tagIssues (regionTags : List String) : List String :=
  issues "regionTags" [(regionTags.length ≤ 64, "Array must contain at most 64 element(s)")] ++
    (regionTags.zipIdx.flatMap fun (t, i) =>
      issues ("regionTags." ++ toString i)
        [(textLength t ≤ 64, "String must contain at most 64 character(s)")])

def createIssues (body : CreateUserBody) : List String :=
  issues "username"
    [(1 ≤ textLength body.username, "String must contain at least 1 character(s)"),
     (textLength body.username ≤ 64, "String must contain at most 64 character(s)")] ++
    passwordIssues body.password ++ uuidIssues body.roleId ++ tagIssues body.regionTags

def parse (found : List String) : Except Failure Unit :=
  if found = [] then .ok () else .error (.app 400 ("; ".intercalate found))

/-- The router asks for `read` and the route for `write`. -/
def mayWriteUsers (actor : Actor) : Except Failure Unit := do
  requirePermission actor.snapshot .users .read
  requirePermission actor.snapshot .users .write

variable (hashPassword : String → String) (db : Db)

def newUser (actor : Actor) (body : CreateUserBody) (id : String) : Except Failure User := do
  mayWriteUsers actor
  parse (createIssues body)
  if db.users.any (·.username = body.username) then
    throw (.app 409 ("User \"" ++ body.username ++ "\" already exists"))
  match db.findRole body.roleId with
  | none => throw (.app 400 ("Role " ++ body.roleId ++ " not found"))
  | some role =>
    return { id, username := body.username, passwordHash := hashPassword body.password, roleId := role.id
             regionTags := body.regionTags }

def postUser (actor : Actor) (body : CreateUserBody) (id : String) : Db × Except Failure User :=
  match newUser hashPassword db actor body id with
  | .error e => (db, .error e)
  | .ok u =>
    match db.insertUser u with
    | none => (db, .error Db.duplicateId)
    | some db' => (db', .ok u)

def assignable (actor : Actor) (id roleId : String) : Except Failure Unit := do
  mayWriteUsers actor
  parse (uuidIssues roleId)
  match db.findUser id, db.findRole roleId with
  | none, _ => throw (.app 404 "User not found")
  | some _, none => throw (.app 400 ("Role " ++ roleId ++ " not found"))
  | some user, some role =>
    if actor.userId = user.id then throw (.app 400 "You cannot change your own role")
    else if isAdminEquivalentRole db user.roleId ∧ ¬ isAdminEquivalentRole db role.id ∧
        countAdminEquivalentUsers db user.id = 0 then
      throw (.app 409
        "Cannot reassign — this is the last admin-equivalent account. Promote another user first.")

def putUserRole (actor : Actor) (id roleId : String) : Db × Except Failure Unit :=
  match assignable db actor id roleId with
  | .error e => (db, .error e)
  | .ok () => (db.assignRole id roleId, .ok ())

def deletable (actor : Actor) (id : String) : Except Failure Unit := do
  mayWriteUsers actor
  match db.findUser id with
  | none => throw (.app 404 "User not found")
  | some user =>
    if actor.userId = user.id then throw (.app 400 "You cannot delete your own account")
    else if isAdminEquivalentRole db user.roleId ∧ countAdminEquivalentUsers db user.id = 0 then
      throw (.app 409 "Cannot delete — this is the last admin-equivalent account. Promote another user first.")

def deleteUser (actor : Actor) (id : String) : Db × Except Failure Unit :=
  match deletable db actor id with
  | .error e => (db, .error e)
  | .ok () => (db.removeUser id, .ok ())

end Users

end Polaris.RoleService
