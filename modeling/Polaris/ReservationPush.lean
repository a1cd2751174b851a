import Polaris.Transport
import Polaris.Mac
import Polaris.Lib.Faults
import Polaris.Lib.Checks
import Mathlib.Data.List.Nodup

namespace Polaris.ReservationPush

open Polaris.Lib.Text Polaris.Lib.Faults Polaris.Lib.Checks Polaris.Netmask Polaris.Cidr Polaris.Mac
  Polaris.Transport

/-- A DHCP server of the FortiGate; `startIp` is that of its first range. -/
structure DhcpServer where
  id : Nat
  serverInterface : Option String := none
  defaultGateway : Option String := none
  netmask : Option String := none
  startIp : Option String := none
  deriving DecidableEq

/-- A reserved-address entry, with the reservation it was written for when
Polaris wrote it. -/
structure ReservedAddress where
  id : Nat
  ip : Option String
  mac : Option String
  description : String := ""
  writtenFor : Option Nat := none
  deriving DecidableEq

inductive EchoedKey
  | number (n : Nat)
  | text (s : String)
  deriving DecidableEq

structure WriteResponse where
  mkey : Option EchoedKey := none
  id : Option EchoedKey := none
  deriving DecidableEq

structure PushReservationResult where
  scopeId : Nat
  entryId : Nat
  serverInterface : Option String
  description : String
  deriving DecidableEq

section Texts

def utf16Length (c : Char) : Nat := if c.toNat < 65536 then 1 else 2

def sliceUnits : Nat → List Char → List Char
  | _, [] => []
  | n, c :: cs => if utf16Length c ≤ n then c :: sliceUnits (n - utf16Length c) cs else []

def buildDescription (hostname createdBy : Option String) (fallback : String) (notes : Option String) :
    String :=
  let trimmedNotes := trim (notes.getD "")
  let trimmedHost := trim (hostname.getD "")
  let fallbackBody :=
    if trimmedHost ≠ "" then trimmedHost else if fallback ≠ "" then fallback else "(unnamed)"
  let body :=
    if trimmedNotes = "" then fallbackBody
    else if trimmedHost = "" then trimmedNotes
    else trimmedNotes ++ " [" ++ trimmedHost ++ "]"
  let author := trim (createdBy.getD "")
  let origin := if author = "" then "Polaris: " else "Polaris/" ++ author ++ ": "
  String.ofList (sliceUnits 64 (origin ++ body).toList)

def describeEntry (r : ReservedAddress) : String :=
  ", ".intercalate (["entry id " ++ toString r.id] ++
    (if r.mac.getD "" = "" then [] else ["MAC " ++ r.mac.getD ""]) ++
    (if r.description = "" then [] else ["description \"" ++ r.description ++ "\""]))

end Texts

section Scope

variable (N : Package)

def matchesNetwork (block : Netmask.Cidr) (s : DhcpServer) : Bool :=
  match s.defaultGateway.filter (· ≠ ""), s.netmask.filter (· ≠ "") with
  | some gateway, some netmask =>
    match N.parse (gateway ++ "/" ++ netmask) with
    | some blk => blk.base = block.base && blk.bitmask = block.bitmask
    | none => false
  | _, _ => false

def matchesRange (block : Netmask.Cidr) (s : DhcpServer) : Bool :=
  match s.startIp.filter (· ≠ "") with
  | some startIp => (contains N block startIp).getD false
  | none => false

def findScopeIdForCidr (servers : List DhcpServer) (cidr : String) :
    Except Failure (Nat × Option String) :=
  match N.parse cidr with
  | none => .error (.app 400 ("Invalid subnet CIDR: " ++ cidr))
  | some block =>
    match servers.find? fun s => matchesNetwork N block s || matchesRange N block s with
    | some s => .ok (s.id, s.serverInterface)
    | none => .error (.app 409 ("FortiGate has no DHCP scope matching subnet " ++ cidr))

end Scope

section Client

def sameMac (mac : String) (r : ReservedAddress) : Bool :=
  r.mac.any fun m => m ≠ "" && normalizeMac m = mac

def checkCollision (existing : List ReservedAddress) (ip mac : String) : Except Failure Unit :=
  match existing.find? fun r => (r.ip = some ip && ip ≠ "") || sameMac mac r with
  | none => .ok ()
  | some r =>
    let (what, name) := if r.ip = some ip ∧ ip ≠ "" then (ip, "IP") else ("MAC " ++ mac, "MAC")
    .error (.app 409 ("FortiGate already has a reservation for " ++ what ++ " on this scope (" ++
      describeEntry r ++ "). If this entry is not in Polaris, run discovery for the " ++
      "FortiManager/FortiGate integration to ingest it, or remove it from the FortiGate to free the " ++
      name ++ "."))

def echoedId (res : WriteResponse) : Option Nat :=
  match res.mkey.or res.id with
  | some (.number n) => some n
  | some (.text s) =>
    if s ≠ "" ∧ s.toList.all Char.isDigit then some (Nat.ofDigitChars 10 s.toList 0) else none
  | none => none

/-- The entry a write is verified against: the one with the echoed id, else
the one with the address and the MAC. -/
def readBackEntry (after : List ReservedAddress) (entryId : Option Nat) (ip mac : String) :
    Option ReservedAddress :=
  let byId := entryId.bind fun id => after.find? (·.id = id)
  byId.or (after.find? fun r => r.ip = some ip && sameMac mac r)

def verifyWrite (res : WriteResponse) (after : List ReservedAddress) (ip mac : String) :
    Except Failure Nat :=
  match readBackEntry after (echoedId res) ip mac with
  | none =>
    .error (.app 502 ("FortiGate accepted the create but the entry was not visible on read-back for " ++
      ip ++ " (" ++ mac ++ ")"))
  | some verified =>
    if verified.ip = some ip ∧ normalizeMac (verified.mac.getD "") = mac then
      .ok ((echoedId res).getD verified.id)
    else
      .error (.app 502 ("FortiGate verify mismatch — read back " ++ verified.ip.getD "?" ++ " / " ++
        verified.mac.getD "?" ++ ", wrote " ++ ip ++ " / " ++ mac))

end Client

section Errors

inductive PushErrorKind
  | permanent | transient
  deriving DecidableEq

def permanentFragments : List String :=
  ["verify mismatch", "not visible on read-back", "Authentication failed"]

def includesText (text fragment : String) : Bool :=
  text.toList.tails.any fun rest => fragment.toList.isPrefixOf rest

def classifyPushError : Failure → PushErrorKind
  | .app httpStatus message =>
    if httpStatus = 400 ∨ httpStatus = 404 ∨ httpStatus = 409 then .permanent
    else if httpStatus = 502 then
      if permanentFragments.any (includesText message) then .permanent else .transient
    else .transient
  | .thrown _ => .transient

end Errors

/-- The DHCP configuration of a FortiGate: its servers and, for each of them,
the reserved addresses. New entries get unused ids, which some versions echo. -/
structure Gateway where
  servers : List DhcpServer
  reserved : Nat → List ReservedAddress
  nextEntryId : Nat
  echoesId : Bool
  ids_lt : ∀ scopeId, ∀ r ∈ reserved scopeId, r.id < nextEntryId
  ids_nodup : ∀ scopeId, ((reserved scopeId).map (·.id)).Nodup

namespace Gateway

def empty (servers : List DhcpServer) : Gateway :=
  ⟨servers, fun _ => [], 1, true, by simp, by simp⟩

variable (g : Gateway)

def rewrite (scopeId : Nat) (entries : List ReservedAddress) (n : Nat) (hn : g.nextEntryId ≤ n)
    (h : ∀ r ∈ entries, r.id < n) (hd : (entries.map (·.id)).Nodup) : Gateway :=
  { g with
    reserved := Function.update g.reserved scopeId entries
    nextEntryId := n
    ids_lt := by
      intro s r hr
      by_cases hs : s = scopeId
      · subst hs
        exact h r (by simpa using hr)
      · rw [Function.update_of_ne hs] at hr
        exact Nat.lt_of_lt_of_le (g.ids_lt s r hr) hn
    ids_nodup := by
      intro s
      by_cases hs : s = scopeId
      · subst hs
        simpa using hd
      · rw [Function.update_of_ne hs]
        exact g.ids_nodup s }

def create (scopeId : Nat) (entry : ReservedAddress) : Gateway × WriteResponse :=
  (g.rewrite scopeId (g.reserved scopeId ++ [{ entry with id := g.nextEntryId }]) (g.nextEntryId + 1)
      (Nat.le_succ _)
      (by
        intro r hr
        obtain hr | hr := List.mem_append.mp hr
        · exact Nat.lt_succ_of_lt (g.ids_lt scopeId r hr)
        · simp [List.mem_singleton.mp hr])
      (by
        rw [List.map_append, List.nodup_append]
        refine ⟨g.ids_nodup scopeId, by simp, fun a ha b hb => ?_⟩
        obtain ⟨r, hr, rfl⟩ := List.mem_map.mp ha
        have hlt := g.ids_lt scopeId r hr
        have hb : b = g.nextEntryId := by simpa using hb
        omega),
    ⟨if g.echoesId then some (.number g.nextEntryId) else none, none⟩)

def amendEntry (entryId : Nat) (f : ReservedAddress → ReservedAddress) (r : ReservedAddress) :
    ReservedAddress :=
  if r.id = entryId then { f r with id := r.id } else r

@[simp]
theorem amendEntry_id (entryId : Nat) (f : ReservedAddress → ReservedAddress) (r : ReservedAddress) :
    (amendEntry entryId f r).id = r.id := by
  unfold amendEntry
  split_ifs <;> rfl

def modify (scopeId entryId : Nat) (f : ReservedAddress → ReservedAddress) : Gateway :=
  g.rewrite scopeId ((g.reserved scopeId).map (amendEntry entryId f)) g.nextEntryId (Nat.le_refl _)
    (by
      intro r hr
      obtain ⟨a, ha, rfl⟩ := List.mem_map.mp hr
      exact amendEntry_id entryId f a ▸ g.ids_lt scopeId a ha)
    (by
      have hids : (fun r : ReservedAddress => r.id) ∘ amendEntry entryId f = fun r => r.id :=
        funext (amendEntry_id entryId f)
      rw [List.map_map, hids]
      exact g.ids_nodup scopeId)

def delete (scopeId entryId : Nat) : Gateway :=
  g.rewrite scopeId ((g.reserved scopeId).filter (·.id ≠ entryId)) g.nextEntryId (Nat.le_refl _)
    (fun r hr => g.ids_lt scopeId r (List.mem_filter.mp hr).1)
    ((g.ids_nodup scopeId).sublist (List.filter_sublist.map _))

variable {g}

theorem forall_update {P : ReservedAddress → Prop} {scopeId : Nat} {entries : List ReservedAddress}
    (hg : ∀ s, ∀ r ∈ g.reserved s, P r) (he : ∀ r ∈ entries, P r) :
    ∀ s, ∀ r ∈ Function.update g.reserved scopeId entries s, P r := by
  intro s r hr
  by_cases hs : s = scopeId
  · subst hs
    exact he r (by simpa using hr)
  · rw [Function.update_of_ne hs] at hr
    exact hg s r hr

theorem forall_create {P : ReservedAddress → Prop} {scopeId : Nat} {entry : ReservedAddress}
    (hg : ∀ s, ∀ r ∈ g.reserved s, P r) (he : P { entry with id := g.nextEntryId }) :
    ∀ s, ∀ r ∈ (g.create scopeId entry).1.reserved s, P r := by
  refine forall_update hg (fun r hr => ?_)
  obtain hr | hr := List.mem_append.mp hr
  · exact hg scopeId r hr
  · exact List.mem_singleton.mp hr ▸ he

theorem forall_modify {P : ReservedAddress → Prop} {scopeId entryId : Nat}
    {f : ReservedAddress → ReservedAddress} (hg : ∀ s, ∀ r ∈ g.reserved s, P r)
    (hf : ∀ r, P { f r with id := r.id }) :
    ∀ s, ∀ r ∈ (g.modify scopeId entryId f).reserved s, P r := by
  refine forall_update hg (fun r hr => ?_)
  obtain ⟨a, ha, rfl⟩ := List.mem_map.mp hr
  unfold amendEntry
  split_ifs
  · exact hf a
  · exact hg scopeId a ha

theorem forall_delete {P : ReservedAddress → Prop} {scopeId entryId : Nat}
    (hg : ∀ s, ∀ r ∈ g.reserved s, P r) : ∀ s, ∀ r ∈ (g.delete scopeId entryId).reserved s, P r :=
  forall_update hg (fun r hr => hg scopeId r (List.mem_filter.mp hr).1)

theorem eq_of_id {scopeId : Nat} {a b : ReservedAddress} (ha : a ∈ g.reserved scopeId)
    (hb : b ∈ g.reserved scopeId) (h : a.id = b.id) : a = b :=
  List.inj_on_of_nodup_map (g.ids_nodup scopeId) ha hb h

theorem find_of_id {scopeId : Nat} {r : ReservedAddress} (hr : r ∈ g.reserved scopeId) :
    (g.reserved scopeId).find? (·.id = r.id) = some r := by
  cases hf : (g.reserved scopeId).find? (·.id = r.id) with
  | none => simpa using List.find?_eq_none.mp hf r hr
  | some a =>
    have ha : a.id = r.id := by simpa using List.find?_some hf
    rw [eq_of_id (List.mem_of_find?_eq_some hf) hr ha]

theorem mem_create {s scopeId : Nat} {entry r : ReservedAddress} :
    r ∈ (g.create scopeId entry).1.reserved s ↔
      r ∈ g.reserved s ∨ s = scopeId ∧ r = { entry with id := g.nextEntryId } := by
  by_cases hs : s = scopeId
  · subst hs
    simp [create, rewrite]
  · simp [create, rewrite, hs]

theorem mem_delete {s scopeId entryId : Nat} {r : ReservedAddress} :
    r ∈ (g.delete scopeId entryId).reserved s ↔
      r ∈ g.reserved s ∧ ¬ (s = scopeId ∧ r.id = entryId) := by
  by_cases hs : s = scopeId
  · subst hs
    simp [delete, rewrite]
  · simp [delete, rewrite, hs]

theorem mem_modify {s scopeId entryId : Nat} {f : ReservedAddress → ReservedAddress}
    {r : ReservedAddress} :
    r ∈ (g.modify scopeId entryId f).reserved s ↔
      ∃ a ∈ g.reserved s, r = if s = scopeId then amendEntry entryId f a else a := by
  by_cases hs : s = scopeId
  · subst hs
    simp [modify, rewrite, eq_comm]
  · simp [modify, rewrite, hs]

end Gateway

structure PushParams where
  reservationId : Nat
  subnetCidr : String
  ip : String
  mac : String
  hostname : Option String := none
  notes : Option String := none
  createdBy : Option String := none
  integration : Integration
  deviceName : String

structure PushFaults where
  mgmtIp : MgmtIp := .ok (some "192.0.2.1")
  servers : Outcome Failure := .answered
  list : Outcome Failure := .answered
  post : Outcome Failure := .answered
  readBack : Outcome Failure := .answered

def buildTransportForIntegration (integration : Integration) (deviceName : String) (mgmtIp : MgmtIp) :
    Except Failure Unit :=
  buildTransportFor "DHCP write" integration deviceName mgmtIp

section Push

variable (N : Package)

def preparePush (g : Gateway) (p : PushParams) (faults : PushFaults) :
    Except Failure (Nat × Option String) :=
  if p.deviceName = "" then
    .error (.app 400
      "Subnet has no fortigateDevice — push requires a discovered FortiGate device name")
  else if ! isMac (normalizeMac p.mac) then
    .error (.app 400 ("Invalid MAC address: " ++ p.mac ++ " — push requires a 48-bit MAC"))
  else do
    buildTransportForIntegration p.integration p.deviceName faults.mgmtIp
    let servers ← fetch faults.servers g.servers
    let scope ← findScopeIdForCidr N servers p.subnetCidr
    let existing ← fetch faults.list (g.reserved scope.1)
    checkCollision existing p.ip (normalizeMac p.mac)
    return scope

def pushDescription (p : PushParams) : String := buildDescription p.hostname p.createdBy p.ip p.notes

def newEntry (p : PushParams) : ReservedAddress :=
  { id := 0, ip := some p.ip, mac := some (normalizeMac p.mac), description := pushDescription p,
    writtenFor := some p.reservationId }

/-- Write and verify. A write whose answer is lost, or whose read-back
fails, stays on the device. -/
def pushReservation (g : Gateway) (p : PushParams) (faults : PushFaults) :
    Gateway × Except Failure PushReservationResult :=
  match preparePush N g p faults with
  | .error e => (g, .error e)
  | .ok (scopeId, serverInterface) =>
    let write := fun g : Gateway =>
      let (g, res) := g.create scopeId (newEntry p)
      (g, Except.ok res)
    match call faults.post write g with
    | (g, .error e) => (g, .error e)
    | (g, .ok res) => (g, do
        let after ← fetch faults.readBack (g.reserved scopeId)
        let entryId ← verifyWrite res after p.ip (normalizeMac p.mac)
        return ⟨scopeId, entryId, serverInterface, pushDescription p⟩)

variable {N} {g : Gateway} {p : PushParams} {faults : PushFaults}

theorem preparePush_ok {scope : Nat × Option String} (h : preparePush N g p faults = .ok scope) :
    isMac (normalizeMac p.mac) = true ∧
      buildTransportForIntegration p.integration p.deviceName faults.mgmtIp = .ok () ∧
      checkCollision (g.reserved scope.1) p.ip (normalizeMac p.mac) = .ok () := by
  unfold preparePush at h
  split_ifs at h with hdev hmac
  obtain ⟨⟨⟩, ht, h⟩ := bind_ok h
  obtain ⟨servers, -, h⟩ := bind_ok h
  obtain ⟨found, -, h⟩ := bind_ok h
  obtain ⟨existing, he, h⟩ := bind_ok h
  obtain ⟨⟨⟩, hc, h⟩ := bind_ok h
  cases h
  refine ⟨by simpa using hmac, ht, ?_⟩
  cases fetch_ok he
  exact hc

theorem checkCollision_ok {existing : List ReservedAddress} {ip mac : String}
    (h : checkCollision existing ip mac = .ok ()) :
    ∀ r ∈ existing, ¬ (r.ip = some ip ∧ ip ≠ "") ∧ sameMac mac r = false := by
  intro r hr
  unfold checkCollision at h
  split at h
  · rename_i hn
    have := List.find?_eq_none.mp hn r hr
    simpa [not_or] using this
  · cases h

theorem checkCollision_of_none {existing : List ReservedAddress} {ip mac : String}
    (h : ∀ r ∈ existing, r.ip ≠ some ip ∧ sameMac mac r = false) :
    checkCollision existing ip mac = .ok () := by
  have hn : existing.find? (fun r => (r.ip = some ip && ip ≠ "") || sameMac mac r) = none :=
    List.find?_eq_none.mpr (fun r hr => by simp [h r hr])
  simp only [checkCollision, hn]

theorem normalizeMac_ne_empty {mac : String} (h : isMac (normalizeMac mac) = true) :
    normalizeMac mac ≠ "" := by
  intro he
  rw [he] at h
  revert h
  decide

theorem sameMac_iff {mac : String} {r : ReservedAddress} (h : mac ≠ "") :
    sameMac mac r = true ↔ normalizeMac (r.mac.getD "") = mac := by
  have he : normalizeMac "" = "" := by decide
  cases hm : r.mac with
  | none => simp [sameMac, hm, he, Ne.symm h]
  | some m =>
    by_cases hne : m = ""
    · simp [sameMac, hm, hne, he, Ne.symm h]
    · simp [sameMac, hm, hne]

theorem verifyWrite_own {res : WriteResponse} {scopeId : Nat} {ip mac : String} {r : ReservedAddress}
    (hmac : mac ≠ "") (hr : r ∈ g.reserved scopeId) (hip : r.ip = some ip)
    (hone : ∀ a ∈ g.reserved scopeId, a.ip = some ip → sameMac mac a = true → a.id = r.id)
    (hecho : ∀ n ∈ echoedId res, n = r.id) :
    (normalizeMac (r.mac.getD "") = mac ∧
      verifyWrite res (g.reserved scopeId) ip mac = .ok r.id) ∨
    (normalizeMac (r.mac.getD "") ≠ mac ∧
      ∃ e, verifyWrite res (g.reserved scopeId) ip mac = .error e) := by
  have hbyMac : ∀ a, (g.reserved scopeId).find? (fun a => a.ip = some ip && sameMac mac a) = some a →
      a = r := by
    intro a ha
    have hsame : a.ip = some ip ∧ sameMac mac a = true := by simpa using List.find?_some ha
    have hmem := List.mem_of_find?_eq_some ha
    exact Gateway.eq_of_id hmem hr (hone a hmem hsame.1 hsame.2)
  by_cases hm : normalizeMac (r.mac.getD "") = mac
  · refine .inl ⟨hm, ?_⟩
    have hfound : readBackEntry (g.reserved scopeId) (echoedId res) ip mac = some r := by
      cases hres : echoedId res with
      | some n =>
        rw [hecho n hres]
        simp [readBackEntry, Gateway.find_of_id hr]
      | none =>
        cases hf : (g.reserved scopeId).find? (fun a => a.ip = some ip && sameMac mac a) with
        | none =>
          have := List.find?_eq_none.mp hf r hr
          simp [hip, (sameMac_iff hmac).mpr hm] at this
        | some a => simp [readBackEntry, hf, hbyMac a hf]
    have hid : (echoedId res).getD r.id = r.id := by
      cases hres : echoedId res with
      | some n => exact hecho n hres
      | none => rfl
    simp [verifyWrite, hfound, hip, hm, hid]
  · refine .inr ⟨hm, ?_⟩
    have hfound : ∀ a ∈ readBackEntry (g.reserved scopeId) (echoedId res) ip mac, a = r := by
      intro a ha
      obtain ha | ⟨-, ha⟩ := Option.or_eq_some_iff.mp ha
      · obtain ⟨n, hn, ha⟩ := Option.bind_eq_some_iff.mp ha
        rw [hecho n hn, Gateway.find_of_id hr] at ha
        exact (Option.some.inj ha).symm
      · exact hbyMac a ha
    cases hb : readBackEntry (g.reserved scopeId) (echoedId res) ip mac with
    | none => exact ⟨_, by simp only [verifyWrite, hb]; rfl⟩
    | some a =>
      cases hfound a hb
      exact ⟨_, by simp only [verifyWrite, hb, hm, and_false, if_false]; rfl⟩

theorem echoedId_create (scopeId : Nat) (entry : ReservedAddress) :
    ∀ n ∈ echoedId (g.create scopeId entry).2, n = g.nextEntryId := by
  intro n hn
  cases he : g.echoesId with
  | true => simpa [echoedId, Gateway.create, he, eq_comm] using hn
  | false => simp [echoedId, Gateway.create, he] at hn

theorem verifyWrite_create {scopeId : Nat} (hmac : isMac (normalizeMac p.mac) = true)
    (hc : checkCollision (g.reserved scopeId) p.ip (normalizeMac p.mac) = .ok ()) :
    verifyWrite (g.create scopeId (newEntry p)).2 ((g.create scopeId (newEntry p)).1.reserved scopeId)
      p.ip (normalizeMac p.mac) = .ok g.nextEntryId := by
  have hnew : ({ newEntry p with id := g.nextEntryId } : ReservedAddress) ∈
      (g.create scopeId (newEntry p)).1.reserved scopeId := Gateway.mem_create.mpr (.inr ⟨rfl, rfl⟩)
  have hone : ∀ a ∈ (g.create scopeId (newEntry p)).1.reserved scopeId, a.ip = some p.ip →
      sameMac (normalizeMac p.mac) a = true → a.id = g.nextEntryId := by
    intro a ha _ hsame
    obtain ha | ⟨-, rfl⟩ := Gateway.mem_create.mp ha
    · simp [(checkCollision_ok hc a ha).2] at hsame
    · rfl
  obtain ⟨-, h⟩ | ⟨hne, -⟩ := verifyWrite_own (normalizeMac_ne_empty hmac) hnew rfl hone
    (echoedId_create _ _)
  · exact h
  · exact absurd (normalizeMac_normalizeMac p.mac) hne

theorem pushReservation_answered {scope : Nat × Option String}
    (hp : preparePush N g p faults = .ok scope) (hpost : faults.post = .answered)
    (hread : faults.readBack = .answered) :
    pushReservation N g p faults = ((g.create scope.1 (newEntry p)).1,
      .ok ⟨scope.1, g.nextEntryId, scope.2, pushDescription p⟩) := by
  obtain ⟨hmac, -, hc⟩ := preparePush_ok hp
  have hv := verifyWrite_create hmac hc
  unfold pushReservation
  simp only [hp, hpost, call, hread, fetch]
  simp [bind, Except.bind, pure, Except.pure, hv]

theorem pushReservation_cases
    (h : faults.post.applies = true → faults.post = .answered ∧ faults.readBack = .answered) :
    (∃ e, pushReservation N g p faults = (g, .error e)) ∨
      ∃ scope, preparePush N g p faults = .ok scope ∧
        pushReservation N g p faults = ((g.create scope.1 (newEntry p)).1,
          .ok ⟨scope.1, g.nextEntryId, scope.2, pushDescription p⟩) := by
  cases hp : preparePush N g p faults with
  | error e => exact .inl ⟨e, by simp only [pushReservation, hp]⟩
  | ok scope =>
    cases hpost : faults.post with
    | failed e => exact .inl ⟨e, by simp only [pushReservation, hp, hpost, call]⟩
    | lost e =>
      have := (h (by simp [hpost, Outcome.applies])).1
      rw [hpost] at this
      cases this
    | answered =>
      have hread := (h (by simp [hpost, Outcome.applies])).2
      exact .inr ⟨scope, rfl, pushReservation_answered hp hpost hread⟩

structure UpdateParams where
  reservationId : Nat
  subnetCidr : String
  ip : String
  newMac : String
  hostname : Option String := none
  notes : Option String := none
  createdBy : Option String := none
  scopeId : Option Nat := none
  entryId : Option Nat := none
  integration : Integration
  deviceName : String

structure UpdateFaults where
  mgmtIp : MgmtIp := .ok (some "192.0.2.1")
  servers : Outcome Failure := .answered
  list : Outcome Failure := .answered
  put : Outcome Failure := .answered
  readBack : Outcome Failure := .answered

variable (N) in
def resolveScope (g : Gateway) (p : UpdateParams) (faults : UpdateFaults) :
    Except Failure (Nat × Option String) :=
  match p.scopeId with
  | some scopeId => .ok (scopeId, none)
  | none => do findScopeIdForCidr N (← fetch faults.servers g.servers) p.subnetCidr

def findEntry (existing : List ReservedAddress) (p : UpdateParams) : Option ReservedAddress :=
  (p.entryId.bind fun id => existing.find? (·.id = id)).or (existing.find? (·.ip = some p.ip))

theorem findEntry_mem {existing : List ReservedAddress} {p : UpdateParams} {entry : ReservedAddress}
    (h : findEntry existing p = some entry) : entry ∈ existing := by
  obtain h | ⟨-, h⟩ := Option.or_eq_some_iff.mp h
  · obtain ⟨id, -, h⟩ := Option.bind_eq_some_iff.mp h
    exact List.mem_of_find?_eq_some h
  · exact List.mem_of_find?_eq_some h

variable (N) in
def prepareUpdate (g : Gateway) (p : UpdateParams) (faults : UpdateFaults) :
    Except Failure ((Nat × Option String) × Nat) :=
  if p.deviceName = "" then
    .error (.app 400
      "Subnet has no fortigateDevice — update requires a discovered FortiGate device name")
  else if ! isMac (normalizeMac p.newMac) then
    .error (.app 400 ("Invalid MAC address: " ++ p.newMac ++ " — update requires a 48-bit MAC"))
  else do
    buildTransportForIntegration p.integration p.deviceName faults.mgmtIp
    let scope ← resolveScope N g p faults
    let existing ← fetch faults.list (g.reserved scope.1)
    match findEntry existing p with
    | none =>
      throw (.app 404 ("FortiGate has no reservation matching " ++ p.ip ++ " on scope " ++
        toString scope.1 ++ " — was it deleted on the device?"))
    | some entry =>
      match existing.find? fun r => r.id ≠ entry.id && sameMac (normalizeMac p.newMac) r with
      | some r =>
        throw (.app 409 ("FortiGate already has another reservation for MAC " ++
          normalizeMac p.newMac ++ " on this scope (" ++ describeEntry r ++
          "). Remove the colliding entry or pick a different MAC."))
      | none => return (scope, entry.id)

theorem prepareUpdate_ok {p : UpdateParams} {faults : UpdateFaults} {scope : Nat × Option String}
    {entryId : Nat} (h : prepareUpdate N g p faults = .ok (scope, entryId)) :
    isMac (normalizeMac p.newMac) = true ∧
      buildTransportForIntegration p.integration p.deviceName faults.mgmtIp = .ok () ∧
      (∀ scopeId, p.scopeId = some scopeId → scope.1 = scopeId) ∧
      ∃ entry, findEntry (g.reserved scope.1) p = some entry ∧ entry.id = entryId := by
  unfold prepareUpdate at h
  split_ifs at h with hdev hmac
  obtain ⟨⟨⟩, ht, h⟩ := bind_ok h
  obtain ⟨found, hs, h⟩ := bind_ok h
  obtain ⟨existing, he, h⟩ := bind_ok h
  cases fetch_ok he
  cases hf : findEntry (g.reserved found.1) p with
  | none =>
    rw [hf] at h
    cases h
  | some entry =>
    rw [hf] at h
    dsimp only at h
    split at h
    · cases h
    · cases h
      refine ⟨by simpa using hmac, ht, fun scopeId hscope => ?_, entry, hf, rfl⟩
      rw [resolveScope, hscope] at hs
      cases hs
      rfl

def updateDescription (p : UpdateParams) : String :=
  buildDescription p.hostname p.createdBy p.ip p.notes

def verifyUpdate (after : List ReservedAddress) (entryId : Nat) (mac : String) : Except Failure Unit :=
  match after.find? (·.id = entryId) with
  | none =>
    .error (.app 502 ("FortiGate accepted the update but entry id " ++ toString entryId ++
      " is no longer visible on read-back"))
  | some verified =>
    if normalizeMac (verified.mac.getD "") = mac then .ok ()
    else
      .error (.app 502 ("FortiGate verify mismatch — read back MAC " ++ verified.mac.getD "?" ++
        ", wrote " ++ mac))

theorem verifyUpdate_iff {scopeId : Nat} {mac : String} {r : ReservedAddress}
    (hr : r ∈ g.reserved scopeId) :
    verifyUpdate (g.reserved scopeId) r.id mac = .ok () ↔ normalizeMac (r.mac.getD "") = mac := by
  simp only [verifyUpdate, Gateway.find_of_id hr]
  split_ifs with h <;> simp [h]

theorem verifyUpdate_ok {after : List ReservedAddress} {entryId : Nat} {mac : String}
    (h : verifyUpdate after entryId mac = .ok ()) :
    ∃ r ∈ after, r.id = entryId ∧ normalizeMac (r.mac.getD "") = mac := by
  cases hf : after.find? (·.id = entryId) with
  | none => simp [verifyUpdate, hf] at h
  | some r =>
    simp only [verifyUpdate, hf] at h
    split_ifs at h with hm
    exact ⟨r, List.mem_of_find?_eq_some hf, by simpa using List.find?_some hf, hm⟩

def updateEntry (p : UpdateParams) (r : ReservedAddress) : ReservedAddress :=
  { r with
    mac := some (normalizeMac p.newMac), description := updateDescription p,
    writtenFor := some p.reservationId }

variable (N) in
def updatePushedReservation (g : Gateway) (p : UpdateParams) (faults : UpdateFaults) :
    Gateway × Except Failure PushReservationResult :=
  match prepareUpdate N g p faults with
  | .error e => (g, .error e)
  | .ok ((scopeId, serverInterface), entryId) =>
    let write := fun g : Gateway => (g.modify scopeId entryId (updateEntry p), Except.ok ())
    match call faults.put write g with
    | (g, .error e) => (g, .error e)
    | (g, .ok _) => (g, do
        let after ← fetch faults.readBack (g.reserved scopeId)
        verifyUpdate after entryId (normalizeMac p.newMac)
        return ⟨scopeId, entryId, serverInterface, updateDescription p⟩)

theorem updatePushedReservation_answered {p : UpdateParams} {faults : UpdateFaults}
    {scope : Nat × Option String} {entryId : Nat} (hp : prepareUpdate N g p faults = .ok (scope, entryId))
    (hput : faults.put = .answered) (hread : faults.readBack = .answered) :
    updatePushedReservation N g p faults = (g.modify scope.1 entryId (updateEntry p),
      .ok ⟨scope.1, entryId, scope.2, updateDescription p⟩) := by
  obtain ⟨-, -, -, entry, hentry, rfl⟩ := prepareUpdate_ok hp
  have hmem : entry ∈ g.reserved scope.1 := findEntry_mem hentry
  have hself : Gateway.amendEntry entry.id (updateEntry p) entry = updateEntry p entry := if_pos rfl
  have hafter : updateEntry p entry ∈ (g.modify scope.1 entry.id (updateEntry p)).reserved scope.1 :=
    Gateway.mem_modify.mpr ⟨entry, hmem, by rw [if_pos rfl, hself]⟩
  have hverify : verifyUpdate ((g.modify scope.1 entry.id (updateEntry p)).reserved scope.1) entry.id
      (normalizeMac p.newMac) = .ok () :=
    (verifyUpdate_iff hafter).mpr (normalizeMac_normalizeMac p.newMac)
  unfold updatePushedReservation
  simp only [hp, hput, hread, call, fetch]
  simp [bind, Except.bind, pure, Except.pure, hverify]

theorem updatePushedReservation_cases {p : UpdateParams} {faults : UpdateFaults}
    (hput : faults.put = .answered)
    (hread : faults.readBack = .answered) :
    (∃ e, updatePushedReservation N g p faults = (g, .error e)) ∨
      ∃ res, (updatePushedReservation N g p faults).2 = .ok res := by
  cases hp : prepareUpdate N g p faults with
  | error e => exact .inl ⟨e, by simp only [updatePushedReservation, hp]⟩
  | ok found =>
    obtain ⟨scope, entryId⟩ := found
    exact .inr ⟨_, by rw [updatePushedReservation_answered hp hput hread]⟩

theorem updatePushedReservation_ok {p : UpdateParams} {faults : UpdateFaults} {res : PushReservationResult}
    (h : (updatePushedReservation N g p faults).2 = .ok res) :
    buildTransportForIntegration p.integration p.deviceName faults.mgmtIp = .ok () ∧
      (∀ scopeId, p.scopeId = some scopeId → res.scopeId = scopeId) ∧
      ∃ entry, findEntry (g.reserved res.scopeId) p = some entry ∧ res.entryId = entry.id ∧
        (updatePushedReservation N g p faults).1 = g.modify res.scopeId entry.id (updateEntry p) := by
  unfold updatePushedReservation at h ⊢
  cases hp : prepareUpdate N g p faults with
  | error e => simp [hp] at h
  | ok found =>
    obtain ⟨⟨scopeId, serverInterface⟩, entryId⟩ := found
    obtain ⟨-, htransport, hscope, entry, hentry, rfl⟩ := prepareUpdate_ok hp
    rw [hp] at h
    cases hput : faults.put with
    | failed e => simp [hput, call] at h
    | lost e => simp [hput, call] at h
    | answered =>
      simp only [hput, call] at h
      obtain ⟨after, -, h⟩ := bind_ok h
      obtain ⟨⟨⟩, -, h⟩ := bind_ok h
      cases h
      exact ⟨htransport, hscope, entry, hentry, rfl, rfl⟩

theorem forall_updatePushedReservation {P : ReservedAddress → Prop} {p : UpdateParams}
    {faults : UpdateFaults} (hg : ∀ s, ∀ r ∈ g.reserved s, P r)
    (hf : ∀ r, P (updateEntry p r)) :
    ∀ s, ∀ r ∈ (updatePushedReservation N g p faults).1.reserved s, P r := by
  unfold updatePushedReservation
  cases prepareUpdate N g p faults with
  | error e => exact hg
  | ok found =>
    obtain ⟨⟨scopeId, serverInterface⟩, entryId⟩ := found
    cases faults.put with
    | failed e => exact hg
    | lost e => exact Gateway.forall_modify hg hf
    | answered => exact Gateway.forall_modify hg hf

end Push

section Unpush

structure UnpushFaults where
  mgmtIp : MgmtIp := .ok (some "192.0.2.1")
  list : Outcome Failure := .answered
  delete : Outcome Failure := .answered

structure UnpushResult where
  removed : Bool
  alreadyAbsent : Bool
  deriving DecidableEq

def unpushReservation (g : Gateway) (scopeId entryId : Nat) (integration : Integration)
    (deviceName : String) (faults : UnpushFaults) : Gateway × Except Failure UnpushResult :=
  match buildTransportForIntegration integration deviceName faults.mgmtIp with
  | .error e => (g, .error e)
  | .ok _ =>
    let stillThere :=
      match fetch faults.list (g.reserved scopeId) with
      | .ok entries => entries.any (·.id = entryId)
      | .error _ => false
    if stillThere then
      match call faults.delete (fun g => (g.delete scopeId entryId, Except.ok ())) g with
      | (g, .error e) => (g, .error e)
      | (g, .ok _) => (g, .ok ⟨true, false⟩)
    else (g, .ok ⟨false, true⟩)

theorem forall_unpushReservation {P : ReservedAddress → Prop} {g : Gateway} {scopeId entryId : Nat}
    {integration : Integration} {deviceName : String} {faults : UnpushFaults}
    (hg : ∀ s, ∀ r ∈ g.reserved s, P r) :
    ∀ s, ∀ r ∈ (unpushReservation g scopeId entryId integration deviceName faults).1.reserved s, P r := by
  unfold unpushReservation
  split
  · exact hg
  · dsimp only
    split_ifs
    · cases faults.delete with
      | failed e => exact hg
      | lost e => exact Gateway.forall_delete hg
      | answered => exact Gateway.forall_delete hg
    · exact hg

/-- The lease is dropped from the lease table, which is not part of the
configuration. -/
def releaseDhcpLease (integration : Integration) (deviceName ip : String) (mgmtIp : MgmtIp)
    (post : Outcome Failure) : Except Failure Unit :=
  if deviceName = "" then
    .error (.app 400 "Lease release requires a discovered FortiGate device name")
  else if ! isValidIpAddress ip then .error (.app 400 ("Invalid IP for lease release: " ++ ip))
  else do
    buildTransportForIntegration integration deviceName mgmtIp
    fetch post ()

end Unpush

end Polaris.ReservationPush
