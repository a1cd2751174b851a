import Mathlib.Data.List.Nodup
import Mathlib.Data.List.Sort
import Polaris.Cidr
import Polaris.Lib.Text
import Polaris.Lib.TwoRuns
import Polaris.ManufacturerBackfill
import Polaris.SettingsMigration

namespace Polaris.Credentials

open Polaris.Cidr (Failure)
open Polaris.Lib.Text
open Polaris.Lib.TwoRuns
open Polaris.ManufacturerBackfill (trim_trim)
open Polaris.SettingsMigration (Json)

section Data

inductive CredentialType
  | snmp | winrm | ssh | restapi
  deriving DecidableEq

abbrev Config := String → Option Json

structure CredentialRecord where
  id : Nat
  name : String
  type : CredentialType
  config : Config

structure Db where
  credentials : List CredentialRecord := []
  assets : List (List Nat) := []
  nextId : Nat := 0

def MASK : String := "••••••••"

def secretFieldsFor : CredentialType → List String
  | .snmp => ["community", "authKey", "privKey"]
  | .winrm => ["password"]
  | .ssh => ["password", "privateKey"]
  | .restapi => ["apiToken"]

def isText : Option Json → Bool
  | some (.str s) => s ≠ ""
  | _ => false

def maskConfig (type : CredentialType) (config : Config) : Config := fun k =>
  if k ∈ secretFieldsFor type ∧ isText (config k) then some (.str MASK) else config k

def stripSecrets (cred : CredentialRecord) : CredentialRecord :=
  { cred with config := maskConfig cred.type cred.config }

def isMaskedValue : Option Json → Bool
  | some (.str s) => s = MASK || trim s = ""
  | _ => false

def mergeConfigPreservingSecrets (type : CredentialType) (existing incoming : Config) : Config := fun k =>
  if k ∈ secretFieldsFor type ∧ isMaskedValue (incoming k) then existing k else (incoming k).or (existing k)

end Data

section Validate

structure Url where
  protocol : String
  text : String

variable (Number : Json → Option Rat) (URL : String → Option Url)

def require (ok : Bool) (message : String) : Except Failure Unit :=
  if ok then .ok () else .error (.app 400 message)

def isOneOf (texts : List String) : Option Json → Bool
  | some (.str s) => s ∈ texts
  | _ => false

def isPort : Option Json → Bool
  | none | some .null => true
  | some v => (Number v).any fun p => p.den = 1 && 1 ≤ p && p ≤ 65535

def SNMP_V3_AUTH_PROTOCOLS : List String := ["MD5", "SHA", "SHA224", "SHA256", "SHA384", "SHA512"]

def SNMP_V3_PRIV_PROTOCOLS : List String := ["DES", "AES", "AES256B", "AES256R"]

def validateSnmpConfig (config : Config) : Except Failure Unit := do
  require (isOneOf ["v2c", "v3"] (config "version")) "SNMP config requires version 'v2c' or 'v3'"
  if isOneOf ["v2c"] (config "version") then
    require (isText (config "community")) "SNMP v2c requires a community string"
  else
    require (isText (config "username")) "SNMP v3 requires a username"
    require (isOneOf ["noAuthNoPriv", "authNoPriv", "authPriv"] (config "securityLevel"))
      "SNMP v3 requires securityLevel noAuthNoPriv, authNoPriv, or authPriv"
    if isOneOf ["authNoPriv", "authPriv"] (config "securityLevel") then
      require (isOneOf SNMP_V3_AUTH_PROTOCOLS (config "authProtocol"))
        ("SNMP v3 authProtocol must be one of " ++ ", ".intercalate SNMP_V3_AUTH_PROTOCOLS ++
          " when auth is enabled")
      require (isText (config "authKey")) "SNMP v3 authKey is required when auth is enabled"
    if isOneOf ["authPriv"] (config "securityLevel") then
      require (isOneOf SNMP_V3_PRIV_PROTOCOLS (config "privProtocol"))
        ("SNMP v3 privProtocol must be one of " ++ ", ".intercalate SNMP_V3_PRIV_PROTOCOLS ++
          " when authPriv is selected")
      require (isText (config "privKey")) "SNMP v3 privKey is required when authPriv is selected"
  require (isPort Number (config "port")) "SNMP port must be between 1 and 65535"

def validateWinRmConfig (config : Config) : Except Failure Unit := do
  require (isText (config "username")) "WinRM requires a username"
  require (isText (config "password")) "WinRM requires a password"
  require (isPort Number (config "port")) "WinRM port must be between 1 and 65535"

def validateSshConfig (config : Config) : Except Failure Unit := do
  require (isText (config "username")) "SSH requires a username"
  require (isText (config "password") || isText (config "privateKey"))
    "SSH requires either a password or a private key"
  require (isPort Number (config "port")) "SSH port must be between 1 and 65535"

def withoutTrailingSlashes (s : String) : String :=
  String.ofList ((s.toList.reverse.dropWhile (· = '/')).reverse)

def canonicalBaseUrl : Option Json → Except Failure String
  | some (.str s) =>
    if s = "" then .error (.app 400 "REST API credential requires a baseUrl")
    else
      match URL (trim s) with
      | none => .error (.app 400 "REST API baseUrl must be a valid URL (e.g. https://device.example/)")
      | some u =>
        if u.protocol = "http:" ∨ u.protocol = "https:" then .ok (withoutTrailingSlashes u.text)
        else .error (.app 400 "REST API baseUrl must use http:// or https://")
  | _ => .error (.app 400 "REST API credential requires a baseUrl")

def validateRestApiConfig (config : Config) : Except Failure String := do
  let baseUrl ← canonicalBaseUrl URL (config "baseUrl")
  require (isText (config "apiToken")) "REST API credential requires an apiToken"
  require (match config "verifyTls" with | none | some (.bool _) => true | _ => false)
    "REST API verifyTls must be a boolean"
  return baseUrl

def validateConfig (type : CredentialType) (config : Config) : Except Failure Config :=
  match type with
  | .snmp => (validateSnmpConfig Number config).map fun _ => config
  | .winrm => (validateWinRmConfig Number config).map fun _ => config
  | .ssh => (validateSshConfig Number config).map fun _ => config
  | .restapi =>
    (validateRestApiConfig URL config).map fun baseUrl =>
      Function.update config "baseUrl" (some (.str baseUrl))

end Validate

section Service

variable (Number : Json → Option Rat) (URL : String → Option Url) (db : Db)

def findById (id : Nat) : Option CredentialRecord := db.credentials.find? (·.id = id)

def findByName (name : String) (excludeId : Option Nat := none) : Option CredentialRecord :=
  (db.credentials.find? (·.name = name)).filter fun found => some found.id ≠ excludeId

def listCredentials : List CredentialRecord :=
  (db.credentials.insertionSort fun a b => a.name ≤ b.name).map stripSecrets

def getCredential (id : Nat) : Except Failure CredentialRecord :=
  match findById db id with
  | none => .error (.app 404 "Credential not found")
  | some cred => .ok (stripSecrets cred)

def taken (name : String) : Failure := .app 409 ("A credential named \"" ++ name ++ "\" already exists")

def createCredential (name : String) (type : CredentialType) (config : Config) :
    Except Failure (CredentialRecord × Db) :=
  if trim name = "" then .error (.app 400 "Credential name is required")
  else
    match validateConfig Number URL type config with
    | .error e => .error e
    | .ok config =>
      if (findByName db (trim name)).isSome then .error (taken (trim name))
      else
        let created : CredentialRecord := ⟨db.nextId, trim name, type, config⟩
        .ok (created, { db with credentials := db.credentials ++ [created], nextId := db.nextId + 1 })

def newName (existing : CredentialRecord) : Option String → Except Failure String
  | none => .ok existing.name
  | some name =>
    if trim name = "" then .error (.app 400 "Credential name cannot be empty")
    else if (findByName db (trim name) (some existing.id)).isSome then .error (taken (trim name))
    else .ok (trim name)

def newConfig (existing : CredentialRecord) : Option Config → Except Failure Config
  | none => .ok existing.config
  | some config => validateConfig Number URL existing.type
    (mergeConfigPreservingSecrets existing.type existing.config config)

def updateCredential (id : Nat) (name : Option String) (config : Option Config) :
    Except Failure (CredentialRecord × Db) :=
  match findById db id with
  | none => .error (.app 404 "Credential not found")
  | some existing =>
    match newName db existing name with
    | .error e => .error e
    | .ok name =>
      match newConfig Number URL existing config with
      | .error e => .error e
      | .ok config =>
        let updated : CredentialRecord := { existing with name, config }
        .ok (updated, { db with credentials := db.credentials.map fun c => if c.id = id then updated else c })

def deleteCredential (id : Nat) : Except Failure Db :=
  let inUse := db.assets.countP (id ∈ ·)
  if 0 < inUse then
    .error (.app 409 ("Credential is in use by " ++ toString inUse ++ " asset" ++
      (if inUse = 1 then "" else "s") ++
      "; clear monitoring there first"))
  else if (findById db id).isNone then .error (.app 404 "Credential not found")
  else .ok { db with credentials := db.credentials.filter (·.id ≠ id) }

inductive Request
  | list
  | get (id : Nat)
  | create (name : String) (type : CredentialType) (config : Config)
  | update (id : Nat) (name : Option String) (config : Option Config)
  | delete (id : Nat)

inductive Response
  | records (creds : List CredentialRecord)
  | record (cred : CredentialRecord)
  | deleted
  | failed (e : Failure)

def saved : Except Failure (CredentialRecord × Db) → Db × Response
  | .error e => (db, .failed e)
  | .ok (cred, db') => (db', .record (stripSecrets cred))

/-- The routes. -/
def handle : Request → Db × Response
  | .list => (db, .records (listCredentials db))
  | .get id =>
    match getCredential db id with
    | .error e => (db, .failed e)
    | .ok cred => (db, .record cred)
  | .create name type config => saved db (createCredential Number URL db name type config)
  | .update id name config => saved db (updateCredential Number URL db id name config)
  | .delete id =>
    match getCredential db id with
    | .error e => (db, .failed e)
    | .ok _ =>
      match deleteCredential db id with
      | .error e => (db, .failed e)
      | .ok db' => (db', .deleted)

end Service

section Masked

variable {Number : Json → Option Rat} {URL : String → Option Url} {type : CredentialType}
  {config existing incoming : Config}
  {k : String}

theorem maskConfig_of_notMem (h : k ∉ secretFieldsFor type) : maskConfig type config k = config k :=
    if_neg fun hx => h hx.1

theorem isText_maskConfig : isText (maskConfig type config k) = isText (config k) := by
  rw [maskConfig]
  split
  next h => rw [h.2]; decide
  next => rfl

theorem maskConfig_maskConfig : maskConfig type (maskConfig type config) = maskConfig type config := by
  funext k
  rw [maskConfig, isText_maskConfig]
  split
  next h => exact (if_pos h).symm
  next => rfl

theorem maskConfig_update (h : k ∉ secretFieldsFor type) (v : Option Json) :
    maskConfig type (Function.update config k v) = Function.update (maskConfig type config) k v := by
  funext k'
  by_cases hk : k' = k
  · subst hk
    rw [maskConfig_of_notMem h, Function.update_self, Function.update_self]
  · rw [maskConfig, Function.update_of_ne hk, Function.update_of_ne hk, maskConfig]

/-- Whether a config is valid does not depend on its secrets. -/
theorem validateConfig_maskConfig : validateConfig Number URL type (maskConfig type config) =
    (validateConfig Number URL type config).map (maskConfig type) := by
  have hkept : ∀ {x y : Except Failure Unit}, x = y →
      x.map (fun _ => maskConfig type config) = (y.map fun _ => config).map (maskConfig type) := by
    rintro x _ rfl
    cases x <;> rfl
  have hplain : ∀ k, k ∉ secretFieldsFor type → maskConfig type config k = config k := fun _ =>
    maskConfig_of_notMem
  cases type with
  | snmp =>
    have hget : ∀ k ∈ ["version", "username", "securityLevel", "authProtocol", "privProtocol", "port"],
        maskConfig .snmp config k = config k :=
      fun k hk => hplain k ((by decide +kernel :
        ∀ k ∈ ["version", "username", "securityLevel", "authProtocol", "privProtocol", "port"],
          k ∉ secretFieldsFor .snmp) k hk)
    simp only [List.forall_mem_cons] at hget
    obtain ⟨hversion, husername, hlevel, hauth, hpriv, hport, -⟩ := hget
    exact hkept (by
      simp only [validateSnmpConfig, isText_maskConfig, hversion, husername, hlevel, hauth, hpriv, hport])
  | winrm =>
    exact hkept (by simp only [validateWinRmConfig, isText_maskConfig, hplain "port" (by decide +kernel)])
  | ssh =>
    exact hkept (by simp only [validateSshConfig, isText_maskConfig, hplain "port" (by decide +kernel)])
  | restapi =>
    have hsame : validateRestApiConfig URL (maskConfig .restapi config) =
      validateRestApiConfig URL config := by
      simp only [validateRestApiConfig, isText_maskConfig, hplain "baseUrl" (by decide +kernel),
        hplain "verifyTls" (by decide +kernel)]
    rw [validateConfig, hsame, validateConfig]
    cases validateRestApiConfig URL config with
    | error e => rfl
    | ok baseUrl => exact congrArg Except.ok (maskConfig_update (by decide +kernel) _).symm

/-- A merge keeps a mask in the place of a secret. -/
theorem maskConfig_merge : maskConfig type
    (mergeConfigPreservingSecrets type (maskConfig type existing) incoming) =
    maskConfig type (mergeConfigPreservingSecrets type existing incoming) := by
  funext k
  have hmerged : ∀ e : Config, mergeConfigPreservingSecrets type e incoming k =
      if k ∈ secretFieldsFor type ∧ isMaskedValue (incoming k) then e k else (incoming k).or (e k) :=
        fun _ => rfl
  by_cases hk : k ∈ secretFieldsFor type
  · have hcongr : ∀ a b : Option Json, isText a = isText b → (isText a = false → a = b) →
        (if isText a then some (.str MASK) else a) = if isText b then some (.str MASK) else b := by
      intro a b hab hsame
      cases ha : isText a with
      | true => rw [if_pos rfl, if_pos (hab ▸ ha)]
      | false => rw [if_neg Bool.false_ne_true, if_neg (hab ▸ ha ▸ Bool.false_ne_true), hsame ha]
    have hmask : isText (maskConfig type existing k) = false → maskConfig type existing k = existing k := by
      intro ht
      rw [isText_maskConfig] at ht
      exact if_neg fun hx => Bool.false_ne_true (ht.symm.trans hx.2)
    rw [maskConfig, maskConfig, if_congr (and_iff_right hk) rfl rfl, if_congr (and_iff_right hk) rfl rfl,
      hmerged,
      hmerged]
    apply hcongr
    · split
      · exact isText_maskConfig
      · cases incoming k
        · exact isText_maskConfig
        · rfl
    · split
      · exact hmask
      · cases incoming k
        · exact hmask
        · exact fun _ => rfl
  · rw [maskConfig_of_notMem hk, maskConfig_of_notMem hk, hmerged, hmerged, maskConfig_of_notMem hk]

end Masked

section Views

variable {Number : Json → Option Rat} {URL : String → Option Url} {db : Db} {existing : CredentialRecord}

/-- The store as the responses show it. -/
def Db.masked (db : Db) : Db := { db with credentials := db.credentials.map stripSecrets }

theorem stripSecrets_stripSecrets (cred : CredentialRecord) :
    stripSecrets (stripSecrets cred) = stripSecrets cred := by
  rw [stripSecrets, stripSecrets]
  dsimp only
  rw [maskConfig_maskConfig]

theorem map_stripSecrets (creds : List CredentialRecord) :
    (creds.map stripSecrets).map stripSecrets = creds.map
    stripSecrets := by
  rw [List.map_map]
  exact List.map_congr_left fun cred _ => stripSecrets_stripSecrets cred

theorem find?_masked (p : CredentialRecord → Bool) (hp : ∀ cred, p (stripSecrets cred) = p cred) :
    db.masked.credentials.find? p = (db.credentials.find? p).map stripSecrets := by
  rw [Db.masked, List.find?_map]
  congr 2
  funext cred
  exact hp cred

theorem findById_masked (id : Nat) : findById db.masked id = (findById db id).map stripSecrets :=
    find?_masked _ fun _ => rfl

theorem findByName_masked (name : String) (excludeId : Option Nat) :
    (findByName db.masked name excludeId).isSome = (findByName db name excludeId).isSome := by
  rw [findByName, findByName, find?_masked _ fun _ => rfl]
  cases db.credentials.find? (·.name = name) with
  | none => rfl
  | some found =>
    rw [Option.map_some, Option.filter_some, Option.filter_some]
    have hid : (stripSecrets found).id = found.id := rfl
    rw [hid]
    cases decide (some found.id ≠ excludeId) <;> rfl

theorem listCredentials_masked : listCredentials db.masked = listCredentials db := by
  have hsort : (db.credentials.map stripSecrets).insertionSort (fun a b => a.name ≤ b.name) =
      (db.credentials.insertionSort fun a b => a.name ≤ b.name).map stripSecrets :=
    (List.map_insertionSort _ _ stripSecrets db.credentials fun _ _ _ _ => Iff.rfl).symm
  rw [listCredentials, listCredentials, Db.masked, hsort, map_stripSecrets]

theorem newName_stripSecrets (name : Option String) :
    newName db.masked (stripSecrets existing) name = newName db
    existing name := by
  cases name with
  | none => rfl
  | some name => rw [newName, newName, findByName_masked, stripSecrets]

theorem newConfig_stripSecrets (config : Option Config) :
    (newConfig Number URL (stripSecrets existing) config).map (maskConfig existing.type) =
      (newConfig Number URL existing config).map (maskConfig existing.type) := by
  cases config with
  | none => exact congrArg Except.ok maskConfig_maskConfig
  | some config =>
    have hmasked : newConfig Number URL (stripSecrets existing) (some config) =
      validateConfig Number URL existing.type
        (mergeConfigPreservingSecrets existing.type (maskConfig existing.type existing.config) config) := rfl
    rw [hmasked, newConfig, ← validateConfig_maskConfig, ← validateConfig_maskConfig, maskConfig_merge]

theorem masked_masked : db.masked.masked = db.masked := by
  rw [Db.masked, Db.masked]
  dsimp only
  rw [map_stripSecrets]

theorem getCredential_masked (id : Nat) : getCredential db.masked id = getCredential db id := by
  rw [getCredential, getCredential, findById_masked]
  cases findById db id with
  | none => rfl
  | some cred => exact congrArg Except.ok (stripSecrets_stripSecrets cred)

/-- Two states and answers that look alike. -/
def Alike (a b : Db × Response) : Prop := a.2 = b.2 ∧ a.1.masked = b.1.masked

theorem saved_failed (e : Failure) : Alike (saved db (.error e)) (saved db.masked (.error e)) :=
    ⟨rfl, masked_masked.symm⟩

theorem create_masked (name : String) (type : CredentialType) (config : Config) :
    Alike (saved db (createCredential Number URL db name type config))
      (saved db.masked (createCredential Number URL db.masked name type config)) := by
  rw [createCredential, createCredential, findByName_masked]
  by_cases hname : trim name = ""
  · rw [if_pos hname, if_pos hname]
    exact saved_failed _
  · rw [if_neg hname, if_neg hname]
    cases validateConfig Number URL type config with
    | error e => exact saved_failed e
    | ok config =>
      dsimp only
      by_cases htaken : (findByName db (trim name)).isSome = true
      · rw [if_pos htaken, if_pos htaken]
        exact saved_failed _
      · rw [if_neg htaken, if_neg htaken]
        refine ⟨rfl, ?_⟩
        simp only [saved, Db.masked, List.map_append, map_stripSecrets]

theorem stripSecrets_replace {u u' cred : CredentialRecord} {id : Nat}
    (hu : stripSecrets u = stripSecrets u') :
    stripSecrets (if cred.id = id then u else cred) =
      stripSecrets (if (stripSecrets cred).id = id then u' else stripSecrets cred) := by
  have hid : (stripSecrets cred).id = cred.id := rfl
  rw [hid]
  by_cases h : cred.id = id
  · rw [if_pos h, if_pos h, hu]
  · rw [if_neg h, if_neg h, stripSecrets_stripSecrets]

theorem map_eq_map {f : Config → Config} {x y : Except Failure Config} (h : x.map f = y.map f) :
    (∃ e, x = .error e ∧ y = .error e) ∨ ∃ c c', x = .ok c ∧ y = .ok c' ∧ f c = f c' := by
  cases x <;> cases y
  · exact .inl ⟨_, rfl, congrArg _ (Except.error.inj h).symm⟩
  · cases h
  · cases h
  · exact .inr ⟨_, _, rfl, rfl, Except.ok.inj h⟩

theorem update_masked (id : Nat) (name : Option String) (config : Option Config) :
    Alike (saved db (updateCredential Number URL db id name config))
      (saved db.masked (updateCredential Number URL db.masked id name config)) := by
  rw [updateCredential, updateCredential, findById_masked]
  cases findById db id with
  | none => exact saved_failed _
  | some existing =>
    dsimp only [Option.map_some]
    rw [newName_stripSecrets]
    cases newName db existing name with
    | error e => exact saved_failed e
    | ok name =>
      dsimp only
      have hconfig : (newConfig Number URL existing config).map (maskConfig existing.type) =
          (newConfig Number URL (stripSecrets existing) config).map (maskConfig existing.type) :=
        (newConfig_stripSecrets config).symm
      obtain ⟨e, hnew, hmasked⟩ | ⟨c, c', hnew, hmasked, hc⟩ := map_eq_map hconfig
      · rw [hnew, hmasked]
        exact saved_failed e
      · rw [hnew, hmasked]
        have hupdated : stripSecrets { existing with name, config := c } =
            stripSecrets { stripSecrets existing with name, config := c' } :=
          congrArg (CredentialRecord.mk existing.id name existing.type) hc
        refine ⟨congrArg Response.record hupdated, ?_⟩
        simp only [saved, Db.masked, List.map_map]
        congr 1
        exact List.map_congr_left fun cred _ => stripSecrets_replace hupdated

theorem handle_masked (r : Request) : Alike (handle Number URL db r) (handle Number URL db.masked r) := by
  cases r with
  | list => exact ⟨congrArg Response.records listCredentials_masked.symm, masked_masked.symm⟩
  | get id =>
    rw [handle, handle, getCredential_masked]
    cases getCredential db id <;> exact ⟨rfl, masked_masked.symm⟩
  | create name type config => exact create_masked name type config
  | update id name config => exact update_masked id name config
  | delete id =>
    rw [handle, handle, getCredential_masked]
    cases getCredential db id with
    | error e => exact ⟨rfl, masked_masked.symm⟩
    | ok cred =>
      dsimp only
      have hassets : db.masked.assets = db.assets := rfl
      rw [deleteCredential, deleteCredential, findById_masked, Option.isNone_map, hassets]
      by_cases hused : 0 < db.assets.countP (id ∈ ·)
      · rw [if_pos hused, if_pos hused]
        exact ⟨rfl, masked_masked.symm⟩
      · rw [if_neg hused, if_neg hused]
        by_cases hnone : (findById db id).isNone = true
        · rw [if_pos hnone, if_pos hnone]
          exact ⟨rfl, masked_masked.symm⟩
        · rw [if_neg hnone, if_neg hnone]
          refine ⟨rfl, ?_⟩
          simp only [Db.masked, List.filter_map, map_stripSecrets]
          rfl

/-- The secrets that are stored decide nothing that is answered: every run is
answered as if the mask were stored in their place, so two stores that look
alike stay alike and are not told apart. -/
theorem answers_alike {db db' : Db} (h : db.masked = db'.masked) (requests : List Request) :
    answers (handle Number URL) db requests = answers (handle Number URL) db' requests ∧
      (final (handle Number URL) db requests).masked = (final (handle Number URL) db' requests).masked :=
  answers_eq (fun _ r => (handle_masked r).1) (fun _ r => (handle_masked r).2) h requests

def withPassword (password : String) : Db where
  credentials := [⟨0, "host", .ssh, fun k =>
    if k = "username" then some (.str "admin") else if k = "password" then some (.str password) else none⟩]
  nextId := 1

theorem masked_withPassword {password : String}
    (h : password ≠ "") : (withPassword password).masked = withPassword MASK := by
  have hconfig : maskConfig .ssh (fun k => if k = "username" then some (.str "admin")
      else if k = "password" then some (.str password) else none) =
      fun k => if k = "username" then some (.str "admin") else if k = "password" then some (.str MASK)
        else none := by
    funext k
    by_cases hpass : k = "password"
    · subst hpass
      exact if_pos ⟨by decide +kernel, decide_eq_true h⟩
    · by_cases huser : k = "username" <;> simp [maskConfig, secretFieldsFor, isText, hpass, huser]
  simp only [Db.masked, withPassword, List.map_cons, List.map_nil, stripSecrets, hconfig]

def renamed : List Request := [.update 0 (some "old host") none, .list, .get 0]

theorem passwords_alike : answers (handle (fun _ => none) fun _ => none) (withPassword "one") renamed =
    answers (handle (fun _ => none) fun _ => none) (withPassword "two") renamed :=
  (answers_alike ((masked_withPassword (by decide +kernel)).trans
    (masked_withPassword (by decide +kernel)).symm)
    renamed).1

end Views

section Edits

variable {Number : Json → Option Rat} {URL : String → Option Url} {db : Db} {type : CredentialType}
  {config config' : Config}

/-- A base URL that has been stored is stored again as it is. -/
def Canonical (URL : String → Option Url) : Prop :=
  ∀ s u, URL s = some u → u.protocol = "http:" ∨ u.protocol = "https:" → withoutTrailingSlashes u.text ≠ "" ∧
    ∃ u', URL (trim (withoutTrailingSlashes u.text)) = some u' ∧ u'.protocol = u.protocol ∧
      withoutTrailingSlashes u'.text = withoutTrailingSlashes u.text

theorem canonicalBaseUrl_ok (hURL : Canonical URL) {v : Option Json} {baseUrl : String}
    (h : canonicalBaseUrl URL v = .ok baseUrl) :
    canonicalBaseUrl URL (some (.str baseUrl)) = .ok baseUrl := by
  rw [canonicalBaseUrl.eq_def] at h
  split at h
  next s =>
    split at h
    · cases h
    · split at h
      · cases h
      next u hu =>
        split at h
        next hscheme =>
          cases h
          obtain ⟨hne, u', hu', hprotocol, htext⟩ := hURL _ u hu hscheme
          rw [canonicalBaseUrl, if_neg hne, hu']
          dsimp only
          rw [if_pos (hprotocol.symm ▸ hscheme), htext]
        · cases h
  · cases h

theorem canonicalBaseUrl_of_valid {baseUrl : String} (h : validateRestApiConfig URL config = .ok baseUrl) :
    canonicalBaseUrl URL (config "baseUrl") = .ok baseUrl := by
  rw [validateRestApiConfig] at h
  cases hurl : canonicalBaseUrl URL (config "baseUrl") with
  | error e =>
    rw [hurl] at h
    cases h
  | ok b =>
    have hreturn : ∀ x y : Except Failure Unit, (do x; y; return b : Except Failure String) = .ok baseUrl →
      b = baseUrl := by
      intro x y hxy
      cases x with
      | error e => cases hxy
      | ok _ =>
        cases y with
        | error e => cases hxy
        | ok _ => exact Except.ok.inj hxy
    rw [hurl] at h
    rw [hreturn _ _ h]

theorem validateConfig_ok (hURL : Canonical URL) (h : validateConfig Number URL type config = .ok config') :
    validateConfig Number URL type config' = .ok config' := by
  have hkept : ∀ {x : Except Failure Unit}, x.map (fun _ => config) = .ok config' → config = config' := by
    intro x hx
    cases x with
    | error e => cases hx
    | ok _ => exact Except.ok.inj hx
  cases type with
  | snmp => exact hkept h ▸ h
  | winrm => exact hkept h ▸ h
  | ssh => exact hkept h ▸ h
  | restapi =>
    rw [validateConfig] at h
    cases hv : validateRestApiConfig URL config with
    | error e =>
      rw [hv] at h
      cases h
    | ok baseUrl =>
      rw [hv] at h
      cases h
      have hurl : canonicalBaseUrl URL (config "baseUrl") = .ok baseUrl := canonicalBaseUrl_of_valid hv
      have hsame : validateRestApiConfig URL (Function.update config "baseUrl" (some (.str baseUrl))) =
          validateRestApiConfig URL config := by
        have htoken : ("apiToken" : String) ≠ "baseUrl" := by decide +kernel
        have htls : ("verifyTls" : String) ≠ "baseUrl" := by decide +kernel
        simp only [validateRestApiConfig, Function.update_self, Function.update_of_ne htoken,
          Function.update_of_ne htls,
          canonicalBaseUrl_ok hURL hurl, hurl]
      rw [validateConfig, hsame, hv]
      exact congrArg Except.ok (Function.update_idem _ _ _)

/-- What the form sends back is merged to what is stored. -/
theorem merge_maskConfig : mergeConfigPreservingSecrets type config (maskConfig type config) = config := by
  funext k
  rw [mergeConfigPreservingSecrets, maskConfig]
  by_cases hsecret : k ∈ secretFieldsFor type ∧ isText (config k) = true
  · rw [if_pos hsecret, if_pos ⟨hsecret.1, rfl⟩]
  · rw [if_neg hsecret, Option.or_self, ite_self]

/-- What holds of every store: ids and names are unique, names are trimmed,
and configs are valid as they are. -/
structure Tidy (Number : Json → Option Rat) (URL : String → Option Url) (db : Db) : Prop where
  ids : ∀ c ∈ db.credentials, ∀ d ∈ db.credentials, c.id = d.id → c = d
  fresh : ∀ c ∈ db.credentials, c.id < db.nextId
  names : ∀ c ∈ db.credentials, ∀ d ∈ db.credentials, c.name = d.name → c.id = d.id
  trimmed : ∀ c ∈ db.credentials, trim c.name = c.name ∧ c.name ≠ ""
  valid : ∀ c ∈ db.credentials, validateConfig Number URL c.type c.config = .ok c.config

variable {c : CredentialRecord} {id : Nat} {name : String}

theorem findById_some (h : findById db id = some c) : c ∈ db.credentials ∧ c.id = id :=
  ⟨List.mem_of_find?_eq_some h, by simpa using List.find?_some h⟩

theorem findByName_isSome (ht : Tidy Number URL db) (hc : c ∈ db.credentials) (excludeId : Option Nat) :
    (findByName db c.name excludeId).isSome = decide (some c.id ≠ excludeId) := by
  rw [findByName]
  cases hfound : db.credentials.find? (·.name = c.name) with
  | none => exact absurd (decide_eq_true rfl) (List.find?_eq_none.mp hfound c hc)
  | some d =>
    have hname : d.name = c.name := by simpa using List.find?_some hfound
    rw [Option.filter_some, ht.names d (List.mem_of_find?_eq_some hfound) c hc hname]
    cases decide (some c.id ≠ excludeId) <;> rfl

theorem newName_ok (ht : Tidy Number URL db) (hc : c ∈ db.credentials) {asked : Option String}
    (h : newName db c asked = .ok name) : trim name = name ∧ name ≠ "" ∧ ∀ d ∈ db.credentials, d.name = name →
    d.id = c.id := by
  cases asked with
  | none =>
    cases h
    obtain ⟨htrim, hne⟩ := ht.trimmed c hc
    exact ⟨htrim, hne, fun d hd hname => ht.names d hd c hc hname⟩
  | some asked =>
    rw [newName] at h
    split at h
    · cases h
    next hne =>
      split at h
      · cases h
      next hfree =>
        cases h
        refine ⟨trim_trim asked, hne, fun d hd hname => ?_⟩
        by_contra hid
        exact hfree (hname ▸ (findByName_isSome ht hd _).trans
          (decide_eq_true fun hx => hid (Option.some.inj hx)))

theorem newConfig_ok (hURL : Canonical URL) (ht : Tidy Number URL db) (hc : c ∈ db.credentials)
    {asked : Option Config}
    (h : newConfig Number URL c asked = .ok config) :
    validateConfig Number URL c.type config = .ok config := by
  cases asked with
  | none =>
    cases h
    exact ht.valid c hc
  | some asked => exact validateConfig_ok hURL h

theorem createCredential_tidy (hURL : Canonical URL) (ht : Tidy Number URL db)
    {created : CredentialRecord} {db' : Db}
    (h : createCredential Number URL db name type config = .ok (created, db')) : Tidy Number URL db' := by
  rw [createCredential] at h
  split at h
  · cases h
  next hname =>
    split at h
    · cases h
    next config' hvalid =>
      split at h
      · cases h
      next hfree =>
        cases h
        have hnew : ∀ d ∈ db.credentials, d.id ≠ db.nextId := fun d hd hid => (ht.fresh d hd).ne hid
        have hunused : ∀ d ∈ db.credentials, d.name ≠ trim name :=
          fun d hd hx => hfree (hx ▸ findByName_isSome ht hd none)
        constructor <;> simp only [List.forall_mem_append, List.forall_mem_singleton]
        · exact ⟨fun c hc => ⟨ht.ids c hc, fun hid => absurd hid (hnew c hc)⟩,
            fun d hd hid => absurd hid.symm (hnew d hd), fun _ => trivial⟩
        · exact ⟨fun c hc => Nat.lt_succ_of_lt (ht.fresh c hc), Nat.lt_succ_self _⟩
        · exact ⟨fun c hc => ⟨ht.names c hc, fun hx => absurd hx (hunused c hc)⟩,
            fun d hd hx => absurd hx.symm (hunused d hd),
            fun _ => trivial⟩
        · exact ⟨ht.trimmed, trim_trim name, hname⟩
        · exact ⟨ht.valid, validateConfig_ok hURL hvalid⟩

theorem updateCredential_tidy (hURL : Canonical URL) (ht : Tidy Number URL db) {askedName : Option String}
    {askedConfig : Option Config} {updated : CredentialRecord} {db' : Db}
    (h : updateCredential Number URL db id askedName askedConfig = .ok (updated, db')) :
    Tidy Number URL db' := by
  rw [updateCredential] at h
  split at h
  · cases h
  next existing hfound =>
    obtain ⟨hmem, hid⟩ := findById_some hfound
    split at h
    · cases h
    next name hname =>
      split at h
      · cases h
      next config hconfig =>
        cases h
        obtain ⟨htrim, hne, hunique⟩ := newName_ok ht hmem hname
        have hvalid := newConfig_ok hURL ht hmem hconfig
        subst hid
        have hcases : ∀ {P : CredentialRecord → Prop}, P { existing with name, config } →
            (∀ c ∈ db.credentials, c.id ≠ existing.id → P c) →
            ∀ c ∈ db.credentials.map (fun c => if c.id = existing.id then { existing with name, config }
              else c),
              P c := by
          intro P hupdated hothers c hc
          obtain ⟨d, hd, rfl⟩ := List.mem_map.mp hc
          split
          · exact hupdated
          next hne => exact hothers d hd hne
        constructor
        · exact hcases (hcases (fun _ => rfl) fun d _ hd hx => absurd hx.symm hd)
            fun c hc hcid => hcases (fun hx => absurd hx hcid) fun d hd _ => ht.ids c hc d hd
        · exact hcases (ht.fresh existing hmem) fun c hc _ => ht.fresh c hc
        · exact hcases (hcases (fun _ => rfl) fun d hd hdid hx => absurd (hunique d hd hx.symm) hdid)
            fun c hc hcid => hcases (fun hx => absurd (hunique c hc hx) hcid) fun d hd _ => ht.names c hc d hd
        · exact hcases ⟨htrim, hne⟩ fun c hc _ => ht.trimmed c hc
        · exact hcases hvalid fun c hc _ => ht.valid c hc

theorem deleteCredential_tidy (ht : Tidy Number URL db) {db' : Db} (h : deleteCredential db id = .ok db') :
    Tidy Number URL db' := by
  rw [deleteCredential] at h
  split at h
  · cases h
  · split at h
    · cases h
    · cases h
      have hmem : ∀ c ∈ db.credentials.filter (·.id ≠ id), c ∈ db.credentials := fun c hc =>
        (List.mem_filter.mp hc).1
      exact ⟨fun c hc d hd => ht.ids c (hmem c hc) d (hmem d hd), fun c hc => ht.fresh c (hmem c hc),
        fun c hc d hd => ht.names c (hmem c hc) d (hmem d hd), fun c hc => ht.trimmed c (hmem c hc),
        fun c hc => ht.valid c (hmem c hc)⟩

theorem handle_tidy (hURL : Canonical URL) (db : Db) (r : Request) (ht : Tidy Number URL db) :
    Tidy Number URL (handle Number URL db r).1 := by
  cases r with
  | list => exact ht
  | get id =>
    rw [handle]
    split <;> exact ht
  | create name type config =>
    rw [handle, saved.eq_def]
    split
    · exact ht
    next created db' h => exact createCredential_tidy hURL ht h
  | update id name config =>
    rw [handle, saved.eq_def]
    split
    · exact ht
    next updated db' h => exact updateCredential_tidy hURL ht h
  | delete id =>
    rw [handle]
    split
    · exact ht
    · split
      · exact ht
      next db' h => exact deleteCredential_tidy ht h

/-- A form that is saved as it was loaded changes nothing, after any requests. -/
theorem edit_round_trip (hURL : Canonical URL) (assets : List (List Nat)) (requests : List Request)
    {shown : CredentialRecord}
    (h : getCredential (final (handle Number URL) { assets } requests) id = .ok shown) :
    handle Number URL (final (handle Number URL) { assets } requests)
      (.update id (some shown.name) (some shown.config)) =
      (final (handle Number URL) { assets } requests, .record shown) := by
  have ht : Tidy Number URL (final (handle Number URL) { assets } requests) :=
    final_invariant (handle_tidy hURL) (by constructor <;> exact List.forall_mem_nil _) requests
  generalize final (handle Number URL) { assets } requests = db at h ht ⊢
  rw [getCredential] at h
  split at h
  · cases h
  next c hfound =>
    cases h
    obtain ⟨hmem, rfl⟩ := findById_some hfound
    obtain ⟨htrim, hne⟩ := ht.trimmed c hmem
    have hname : newName db c (some c.name) = .ok c.name := by
      rw [newName, htrim, if_neg hne, findByName_isSome ht hmem, decide_eq_false fun hx => hx rfl]
      rfl
    have hconfig : newConfig Number URL c (some (maskConfig c.type c.config)) = .ok c.config := by
      rw [newConfig, merge_maskConfig, ht.valid c hmem]
    have hsame : db.credentials.map (fun d => if d.id = c.id then c else d) = db.credentials := by
      refine (List.map_congr_left fun d hd => ?_).trans (List.map_id _)
      by_cases hid : d.id = c.id
      · rw [if_pos hid]
        exact (ht.ids d hd c hmem hid).symm
      · rw [if_neg hid]
        rfl
    rw [handle, updateCredential, hfound, stripSecrets]
    dsimp only
    rw [hname]
    dsimp only
    rw [hconfig, saved, hsame]
    rfl

/-- The parser, for one address. -/
def oneUrl (s : String) : Option Url :=
  if s = "https://device" then some ⟨"https:", "https://device/"⟩ else none

theorem oneUrl_canonical : Canonical oneUrl := by
  rintro s u hu -
  rw [oneUrl] at hu
  split at hu
  · cases hu
    exact ⟨by decide +kernel, _, rfl, rfl, rfl⟩
  · cases hu

def addDevice : List Request :=
  [.create "device" .restapi fun k =>
    if k = "baseUrl" then some (.str "https://device") else if k = "apiToken" then some (.str "token")
      else none]

theorem device_round_trip : ∃ shown : CredentialRecord,
    handle (fun _ => none) oneUrl (final (handle (fun _ => none) oneUrl) {} addDevice)
      (.update 0 (some shown.name) (some shown.config)) =
    (final (handle (fun _ => none) oneUrl) {} addDevice, .record shown) :=
  ⟨_, edit_round_trip oneUrl_canonical [] addDevice rfl⟩

end Edits

end Polaris.Credentials
