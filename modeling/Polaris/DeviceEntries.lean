import Polaris.ReservationLifecycle

namespace Polaris.DeviceEntries

open Polaris.Lib.Faults Polaris.Lib.Checks Polaris.Lib.Store Polaris.Netmask Polaris.Cidr Polaris.Mac
  Polaris.Transport Polaris.ReservationPush Polaris.Reservations Polaris.ReservationService
  Polaris.ReservationLifecycle

section Unpush

variable {g : Gateway} {scopeId entryId : Nat} {integration : Integration} {deviceName : String}
  {faults : UnpushFaults}

def Absent (g : Gateway) (scopeId entryId : Nat) : Prop := ∀ r ∈ g.reserved scopeId, r.id ≠ entryId

instance (g : Gateway) (scopeId entryId : Nat) : Decidable (Absent g scopeId entryId) :=
  inferInstanceAs (Decidable (∀ r ∈ _, _))

/-- An entry that is called absent was looked for, and one that is called
removed was deleted. -/
def Backed (g : Gateway) (scopeId entryId : Nat) (faults : UnpushFaults)
    (result : Except Failure UnpushResult) : Prop :=
  ∀ res, result = .ok res →
    (res = ⟨false, true⟩ ∧ faults.list = .answered ∧ Absent g scopeId entryId) ∨
      (res = ⟨true, false⟩ ∧ faults.delete = .answered)

/-- The list of entries is read once the transport is there. -/
def ListRead (integration : Integration) (deviceName : String) (faults : UnpushFaults) : Prop :=
  buildTransportForIntegration integration deviceName faults.mgmtIp = .ok () → faults.list = .answered

theorem unpush_stopped {e : Failure}
    (ht : buildTransportForIntegration integration deviceName faults.mgmtIp = .error e) :
    unpushReservation g scopeId entryId integration deviceName faults = (g, .error e) := by
  simp only [unpushReservation, ht]

theorem unpush_unread (ht : buildTransportForIntegration integration deviceName faults.mgmtIp = .ok ())
    (hl : faults.list ≠ .answered) :
    unpushReservation g scopeId entryId integration deviceName faults = (g, .ok ⟨false, true⟩) := by
  cases hlist : faults.list with
  | answered => exact absurd hlist hl
  | failed e | lost e => simp [unpushReservation, ht, hlist, fetch]

theorem unpush_absent (ht : buildTransportForIntegration integration deviceName faults.mgmtIp = .ok ())
    (ha : Absent g scopeId entryId) :
    unpushReservation g scopeId entryId integration deviceName faults = (g, .ok ⟨false, true⟩) := by
  have hany : (g.reserved scopeId).any (·.id = entryId) = false :=
    List.any_eq_false.mpr fun r hr => by simpa using ha r hr
  cases hlist : faults.list with
  | answered => simp only [unpushReservation, ht, hlist, fetch, hany, Bool.false_eq_true, if_false]
  | failed e | lost e => simp [unpushReservation, ht, hlist, fetch]

theorem unpush_deletes (ht : buildTransportForIntegration integration deviceName faults.mgmtIp = .ok ())
    (hl : faults.list = .answered) (ha : ¬ Absent g scopeId entryId) :
    unpushReservation g scopeId entryId integration deviceName faults =
      ((call faults.delete (fun g => (g.delete scopeId entryId, Except.ok ())) g).1,
        ((call faults.delete (fun g => (g.delete scopeId entryId, Except.ok ())) g).2).map
          fun _ => ⟨true, false⟩) := by
  have hany : (g.reserved scopeId).any (·.id = entryId) = true := by
    obtain ⟨r, hr, hid⟩ : ∃ r ∈ g.reserved scopeId, r.id = entryId := by
      simpa only [Absent, not_forall, not_not, exists_prop] using ha
    exact List.any_eq_true.mpr ⟨r, hr, by simpa using hid⟩
  simp only [unpushReservation, ht, hl, fetch, hany, if_true]
  cases faults.delete <;> rfl

theorem backed_iff :
    Backed g scopeId entryId faults
        (unpushReservation g scopeId entryId integration deviceName faults).2 ↔
      ListRead integration deviceName faults := by
  cases ht : buildTransportForIntegration integration deviceName faults.mgmtIp with
  | error e =>
    refine iff_of_true (fun res h => ?_) (fun h => ?_)
    · rw [unpush_stopped ht] at h
      cases h
    · rw [ht] at h
      cases h
  | ok u =>
    by_cases hl : faults.list = .answered
    · refine iff_of_true (fun res h => ?_) (fun _ => hl)
      by_cases ha : Absent g scopeId entryId
      · rw [unpush_absent ht ha] at h
        cases h
        exact .inl ⟨rfl, hl, ha⟩
      · rw [unpush_deletes ht hl ha] at h
        cases hd : faults.delete with
        | answered =>
          rw [hd] at h
          cases h
          exact .inr ⟨rfl, rfl⟩
        | failed e | lost e =>
          rw [hd] at h
          cases h
    · refine iff_of_false (fun h => ?_) (fun h => hl (h ht))
      rw [unpush_unread ht hl] at h
      obtain ⟨-, hread, -⟩ | ⟨hres, -⟩ := h _ rfl
      · exact hl hread
      · cases hres

end Unpush

section Release

variable {w : World} {id : Nat} {row : Row Reservation} {subnet : Subnet} {integration : Integration}
  {scopeId entryId : Nat} {device : String} {faults : ReleaseFaults}

/-- The row is active, is not waiting to be pushed and points to an entry of
its device. -/
structure Synced (w : World) (id : Nat) (row : Row Reservation) (subnet : Subnet)
    (integration : Integration) (scopeId entryId : Nat) (device : String) : Prop where
  found : w.db.findReservation id = .ok (row, subnet)
  active : row.data.status = .active
  pushed : row.data.pushStatus ≠ some .pending
  integration : w.db.findIntegration row.data.pushedToId = some integration
  scope : row.data.pushedScopeId = some scopeId
  entry : row.data.pushedEntryId = some entryId
  device : truthy subnet.fortigateDevice = some device

/-- The release ends, and its log has the entry as unpushed. -/
def CleanRelease (w : World) (id : Nat) (faults : ReleaseFaults) : Prop :=
  ∃ report res, (releaseReservation w id faults).2 = .ok report ∧ report.unpush = some (.ok res)

def Reachable (faults : UnpushFaults) : Prop := faults.list = .answered ∧ faults.delete = .answered

/-- No release is clean while the device cannot be reached and keeps the
entry. -/
def HonestRelease (w : World) (id scopeId entryId : Nat) (device : String) (faults : ReleaseFaults) : Prop :=
  CleanRelease w id faults → ¬ Reachable faults.unpush →
    Absent ((releaseReservation w id faults).1.gateways device) scopeId entryId

theorem Synced.unpush (h : Synced w id row subnet integration scopeId entryId device)
    (faults : UnpushFaults) :
    unpushReleased w row.data subnet faults =
      (setGateway w device (unpushReservation (w.gateways device) scopeId entryId integration device
          faults).1,
        some (unpushReservation (w.gateways device) scopeId entryId integration device faults).2) := by
  simp only [unpushReleased, h.integration, h.scope, h.entry, h.device, h.pushed, if_false]

theorem Synced.mem (h : Synced w id row subnet integration scopeId entryId device) : row ∈ w.db.rows := by
  have hfound := h.found
  unfold Db.findReservation at hfound
  split at hfound
  · cases hfound
  · rename_i r hr
    split at hfound
    · cases hfound
    · cases hfound
      exact (Table.mem_of_find hr).1

variable (faults) in
theorem Synced.release (h : Synced w id row subnet integration scopeId entryId device) :
    (releaseReservation w id faults).1.gateways device =
        (unpushReservation (w.gateways device) scopeId entryId integration device faults.unpush).1 ∧
      ∃ report, (releaseReservation w id faults).2 = .ok report ∧ report.unpush =
        some (unpushReservation (w.gateways device) scopeId entryId integration device faults.unpush).2 := by
  unfold releaseReservation
  rw [h.found]
  dsimp only
  rw [if_neg (not_not.mpr h.active), h.unpush faults.unpush]
  obtain ⟨released, hreleased⟩ := commitRelease_ok h.mem h.active
  exact ⟨by simp [setGateway], _, congrArg (Except.map _) hreleased, rfl⟩

theorem honestRelease_iff (h : Synced w id row subnet integration scopeId entryId device) :
    HonestRelease w id scopeId entryId device faults ↔
      ListRead integration device faults.unpush ∨ Absent (w.gateways device) scopeId entryId := by
  obtain ⟨hdevice, report, hreport, hlog⟩ := h.release faults
  unfold HonestRelease
  rw [hdevice]
  constructor
  · intro hhonest
    by_cases hread : ListRead integration device faults.unpush
    · exact .inl hread
    · obtain ⟨ht, hl⟩ := Classical.not_imp.mp hread
      rw [unpush_unread ht hl] at hhonest hlog
      exact .inr (hhonest ⟨report, _, hreport, hlog⟩ fun hreach => hl hreach.1)
  · rintro hcond ⟨report', res, hreport', hclean⟩ hreach
    rw [hreport] at hreport'
    cases hreport'
    rw [hlog] at hclean
    have hok := Option.some.inj hclean
    cases ht : buildTransportForIntegration integration device faults.unpush.mgmtIp with
    | error e =>
      rw [unpush_stopped ht] at hok
      cases hok
    | ok u =>
      by_cases ha : Absent (w.gateways device) scopeId entryId
      · rw [unpush_absent ht ha]
        exact ha
      · have hl := (hcond.resolve_right ha) ht
        obtain ⟨-, -, habsent⟩ | ⟨-, hd⟩ := backed_iff.mpr (fun _ => hl) res hok
        · exact absurd habsent ha
        · exact absurd ⟨hl, hd⟩ hreach

/-- An unpush answers for what it did just when the list is read, and the
release of a synced row is honest just when it is or the entry was gone. -/
theorem unpush_honest_iff (h : Synced w id row subnet integration scopeId entryId device) :
    (∀ (g : Gateway) (scopeId entryId : Nat) (integration : Integration) (deviceName : String)
      (faults : UnpushFaults),
      Backed g scopeId entryId faults
          (unpushReservation g scopeId entryId integration deviceName faults).2 ↔
        ListRead integration deviceName faults) ∧
    ∀ faults : ReleaseFaults, HonestRelease w id scopeId entryId device faults ↔
      ListRead integration device faults.unpush ∨ Absent (w.gateways device) scopeId entryId :=
  ⟨fun _ _ _ _ _ _ => backed_iff, fun _ => honestRelease_iff h⟩

end Release

section Office

def printer : CreateReservationInput :=
  { subnetId := "lan", ipAddress := some "10.0.0.9", hostname := some "printer",
    macAddress := some "00:11:22:33:44:55" }

def reserved : World := (createReservation reference plant printer 1 {}).1

def printerRow : Reservation := stampPushed ⟨1, 1, none, ""⟩ (some "fmg") 1 (newReservation printer)

theorem synced_printer : Synced reserved 0 ⟨0, printerRow⟩ plantSubnet { id := "fmg" } 1 1 "fg1" where
  found := by decide +kernel
  active := by decide
  pushed := by decide
  integration := by decide +kernel
  scope := rfl
  entry := rfl
  device := by decide

def silent : UnpushFaults := { list := .failed (.thrown "timeout"), delete := .failed (.thrown "timeout") }

theorem unpush_honest_iff_printer :
    HonestRelease reserved 0 1 1 "fg1" { unpush := silent } ↔
      ListRead { id := "fmg" } "fg1" silent ∨ Absent (reserved.gateways "fg1") 1 1 :=
  (unpush_honest_iff synced_printer).2 { unpush := silent }

/-- With the device out of reach the entry counts as absent, and the release
of its row is clean. -/
theorem unread_entry_called_absent :
    (unpushReservation (reserved.gateways "fg1") 1 1 { id := "fmg" } "fg1" silent).2 = .ok ⟨false, true⟩ ∧
      ¬ Backed (reserved.gateways "fg1") 1 1 silent
        (unpushReservation (reserved.gateways "fg1") 1 1 { id := "fmg" } "fg1" silent).2 ∧
      ¬ HonestRelease reserved 0 1 1 "fg1" { unpush := silent } := by
  have hresult : (unpushReservation (reserved.gateways "fg1") 1 1 { id := "fmg" } "fg1" silent).2 =
      .ok ⟨false, true⟩ := rfl
  have hunread : ¬ ListRead { id := "fmg" } "fg1" silent := by
    intro h
    cases h rfl
  have hkept : ¬ Absent (reserved.gateways "fg1") 1 1 := by decide +kernel
  refine ⟨hresult, fun h => hunread (backed_iff.mp h), fun h => ?_⟩
  obtain hread | habsent := (honestRelease_iff synced_printer).mp h
  · exact hunread hread
  · exact hkept habsent

end Office

section Push

/-- What the device answers to the calls of one push, by scope where they
name one. -/
structure Replies where
  mgmtIp : MgmtIp
  servers : Except Failure (List DhcpServer)
  existing : Nat → Except Failure (List ReservedAddress)
  write : Nat → Except Failure WriteResponse
  after : Nat → Except Failure (List ReservedAddress)

variable (N : Package) (d : Replies) (p : PushParams)

/-- The push up to its write, over the answers alone. -/
def preparePushOn : Except Failure (Nat × Option String) :=
  if p.deviceName = "" then
    .error (.app 400
      "Subnet has no fortigateDevice — push requires a discovered FortiGate device name")
  else if ! isMac (normalizeMac p.mac) then
    .error (.app 400 ("Invalid MAC address: " ++ p.mac ++ " — push requires a 48-bit MAC"))
  else do
    buildTransportForIntegration p.integration p.deviceName d.mgmtIp
    let servers ← d.servers
    let scope ← findScopeIdForCidr N servers p.subnetCidr
    let existing ← d.existing scope.1
    checkCollision existing p.ip (normalizeMac p.mac)
    return scope

def pushReservationOn : Except Failure PushReservationResult := do
  let (scopeId, serverInterface) ← preparePushOn N d p
  let res ← d.write scopeId
  let after ← d.after scopeId
  let entryId ← verifyWrite res after p.ip (normalizeMac p.mac)
  return ⟨scopeId, entryId, serverInterface, pushDescription p⟩

/-- The answers of a device that follows its own configuration. -/
def replies (g : Gateway) (faults : PushFaults) : Replies :=
  let write := fun scopeId => call faults.post (fun g =>
    let (g, res) := g.create scopeId (newEntry p)
    (g, Except.ok res)) g
  { mgmtIp := faults.mgmtIp
    servers := fetch faults.servers g.servers
    existing := fun scopeId => fetch faults.list (g.reserved scopeId)
    write := fun scopeId => (write scopeId).2
    after := fun scopeId => fetch faults.readBack ((write scopeId).1.reserved scopeId) }

/-- The entry that the push answers with is in the table it read back, with
the address and the MAC. -/
def ReturnsVerified : Prop :=
  ∀ res, pushReservationOn N d p = .ok res → ∃ after, d.after res.scopeId = .ok after ∧
    ∃ r ∈ after, r.id = res.entryId ∧ r.ip = some p.ip ∧
      normalizeMac (r.mac.getD "") = normalizeMac p.mac

/-- An echoed id is that of some entry, unless none has the address and the
MAC. -/
def EchoListed (res : WriteResponse) (after : List ReservedAddress) (ip mac : String) : Prop :=
  ∀ n, echoedId res = some n →
    (∃ r ∈ after, r.id = n) ∨ ∀ r ∈ after, ¬ (r.ip = some ip ∧ sameMac mac r = true)

def EchoHolds : Prop :=
  ∀ scope res after, preparePushOn N d p = .ok scope → d.write scope.1 = .ok res →
    d.after scope.1 = .ok after → EchoListed res after p.ip (normalizeMac p.mac)

variable {N d p}

theorem preparePush_replies (g : Gateway) (faults : PushFaults) :
    preparePush N g p faults = preparePushOn N (replies p g faults) p := rfl

theorem pushReservation_replies (g : Gateway) (faults : PushFaults) :
    (pushReservation N g p faults).2 = pushReservationOn N (replies p g faults) p := by
  unfold pushReservation pushReservationOn
  rw [preparePush_replies]
  cases preparePushOn N (replies p g faults) p with
  | error e => rfl
  | ok scope =>
    obtain ⟨scopeId, serverInterface⟩ := scope
    cases hpost : faults.post with
    | answered | failed e | lost e => simp [replies, hpost, call, bind, Except.bind]

theorem preparePushOn_mac {scope : Nat × Option String} (h : preparePushOn N d p = .ok scope) :
    isMac (normalizeMac p.mac) = true := by
  unfold preparePushOn at h
  split_ifs at h with hdev hmac
  simpa using hmac

theorem verifyWrite_ok {res : WriteResponse} {after : List ReservedAddress} {ip mac : String} {n : Nat}
    (h : verifyWrite res after ip mac = .ok n) :
    ∃ r, readBackEntry after (echoedId res) ip mac = some r ∧ r.ip = some ip ∧
      normalizeMac (r.mac.getD "") = mac ∧ n = (echoedId res).getD r.id := by
  unfold verifyWrite at h
  split at h
  · cases h
  · rename_i r hr
    split_ifs at h with hv
    cases h
    exact ⟨r, hr, hv.1, hv.2, rfl⟩

theorem readBackEntry_mem {after : List ReservedAddress} {entryId : Option Nat} {ip mac : String}
    {r : ReservedAddress} (h : readBackEntry after entryId ip mac = some r) : r ∈ after := by
  obtain h | ⟨-, h⟩ := Option.or_eq_some_iff.mp h
  · obtain ⟨n, -, h⟩ := Option.bind_eq_some_iff.mp h
    exact List.mem_of_find?_eq_some h
  · exact List.mem_of_find?_eq_some h

theorem readBackEntry_unlisted {after : List ReservedAddress} {n : Nat} {ip mac : String}
    (h : ¬ ∃ r ∈ after, r.id = n) :
    readBackEntry after (some n) ip mac = after.find? fun r => r.ip = some ip && sameMac mac r := by
  have hnone : after.find? (·.id = n) = none :=
    List.find?_eq_none.mpr fun r hr hid => h ⟨r, hr, by simpa using hid⟩
  simp [readBackEntry, hnone]

theorem verifyWrite_iff {res : WriteResponse} {after : List ReservedAddress} {ip mac : String}
    (hmac : mac ≠ "") :
    (∀ n, verifyWrite res after ip mac = .ok n →
      ∃ r ∈ after, r.id = n ∧ r.ip = some ip ∧ normalizeMac (r.mac.getD "") = mac) ↔
        EchoListed res after ip mac := by
  constructor
  · intro h n hecho
    by_cases hlisted : ∃ r ∈ after, r.id = n
    · exact .inl hlisted
    refine .inr fun r hr hown => hlisted ?_
    obtain ⟨v, hv⟩ : ∃ v, after.find? (fun r => r.ip = some ip && sameMac mac r) = some v :=
      Option.isSome_iff_exists.mp (List.find?_isSome.mpr ⟨r, hr, by simp [hown.1, hown.2]⟩)
    have hsame : v.ip = some ip ∧ sameMac mac v = true := by simpa using List.find?_some hv
    have hback : readBackEntry after (echoedId res) ip mac = some v := by
      rw [hecho, readBackEntry_unlisted hlisted, hv]
    have hok : verifyWrite res after ip mac = .ok n := by
      rw [verifyWrite, hback]
      simp [hsame.1, (sameMac_iff hmac).mp hsame.2, hecho]
    obtain ⟨a, ha, hid, -⟩ := h n hok
    exact ⟨a, ha, hid⟩
  · intro h n hok
    obtain ⟨r, hback, hip, hm, rfl⟩ := verifyWrite_ok hok
    have hr := readBackEntry_mem hback
    cases hecho : echoedId res with
    | none => exact ⟨r, hr, rfl, hip, hm⟩
    | some n =>
      obtain ⟨a, ha, hid⟩ := (h n hecho).resolve_right
        fun hno => hno r hr ⟨hip, (sameMac_iff hmac).mpr hm⟩
      obtain ⟨b, hb⟩ : ∃ b, after.find? (·.id = n) = some b :=
        Option.isSome_iff_exists.mp (List.find?_isSome.mpr ⟨a, ha, by simpa using hid⟩)
      have hbr : b = r := by simpa [readBackEntry, hecho, hb] using hback
      exact ⟨r, hr, by simpa [hbr] using List.find?_some hb, hip, hm⟩

/-- A push answers with the entry it verified just when the id that was
echoed is listed, or nothing could be verified in its place. -/
theorem push_verified_iff : ReturnsVerified N d p ↔ EchoHolds N d p := by
  constructor
  · intro h scope res after hprep hwrite hafter
    refine (verifyWrite_iff (normalizeMac_ne_empty (preparePushOn_mac hprep))).mp fun n hn => ?_
    obtain ⟨scopeId, serverInterface⟩ := scope
    have hok : pushReservationOn N d p = .ok ⟨scopeId, n, serverInterface, pushDescription p⟩ := by
      simp only [pushReservationOn, hprep, bind, Except.bind, hwrite, hafter, hn]
      rfl
    obtain ⟨after', hafter', hr⟩ := h _ hok
    rw [hafter] at hafter'
    cases hafter'
    exact hr
  · intro h res hok
    unfold pushReservationOn at hok
    obtain ⟨⟨scopeId, serverInterface⟩, hprep, hok⟩ := bind_ok hok
    obtain ⟨answer, hwrite, hok⟩ := bind_ok hok
    obtain ⟨after, hafter, hok⟩ := bind_ok hok
    obtain ⟨n, hn, hok⟩ := bind_ok hok
    cases hok
    refine ⟨after, hafter, ?_⟩
    exact (verifyWrite_iff (normalizeMac_ne_empty (preparePushOn_mac hprep))).mpr
      (h _ answer after hprep hwrite hafter) n hn

def badge : PushParams :=
  { reservationId := 7, subnetCidr := "10.0.0.0/24", ip := "10.0.0.9", mac := "00:11:22:33:44:55",
    integration := { id := "fmg" }, deviceName := "fg1" }

/-- A device that echoes the index of the new row and gives it another id. -/
def offByOne : Replies where
  mgmtIp := .ok none
  servers := .ok [{ id := 1, startIp := some "10.0.0.100" }]
  existing _ := .ok []
  write _ := .ok ⟨some (.text "0"), none⟩
  after _ := .ok [⟨1, some "10.0.0.9", some "00:11:22:33:44:55", "", some 7⟩]

theorem unlisted_id_returned :
    pushReservationOn reference offByOne badge = .ok ⟨1, 0, none, pushDescription badge⟩ ∧
      ¬ ReturnsVerified reference offByOne badge := by
  have hpush : pushReservationOn reference offByOne badge = .ok ⟨1, 0, none, pushDescription badge⟩ := by
    decide +kernel
  refine ⟨hpush, fun h => ?_⟩
  obtain ⟨after, hafter, r, hr, hid, -⟩ := h _ hpush
  cases hafter
  rw [List.mem_singleton.mp hr] at hid
  cases hid

end Push

section Update

variable (N : Package) (g : Gateway) (p : UpdateParams) (faults : UpdateFaults)

/-- An update that succeeds gives the entry of the address the new MAC and
leaves the entries of other addresses alone, and one that stops before its
write leaves all of them. -/
structure OwnEntryOnly : Prop where
  own : ∀ res, (updatePushedReservation N g p faults).2 = .ok res →
    ∃ r ∈ (updatePushedReservation N g p faults).1.reserved res.scopeId,
      r.ip = some p.ip ∧ normalizeMac (r.mac.getD "") = normalizeMac p.newMac
  others : ∀ res, (updatePushedReservation N g p faults).2 = .ok res → ∀ s r, r.ip ≠ some p.ip →
    (r ∈ (updatePushedReservation N g p faults).1.reserved s ↔ r ∈ g.reserved s)
  stopped : ∀ e, prepareUpdate N g p faults = .error e →
    (updatePushedReservation N g p faults).1.reserved = g.reserved

/-- In an update that goes through the entry under the pinned id, if there is
one, has the address. -/
def PinHolds : Prop :=
  ∀ scope entryId, prepareUpdate N g p faults = .ok (scope, entryId) → faults.put = .answered →
    faults.readBack = .answered →
      ∀ r ∈ g.reserved scope.1, p.entryId = some r.id → r.ip = some p.ip

variable {N g p faults}

theorem prepareUpdate_unclaimed {scope : Nat × Option String} {entryId : Nat}
    (h : prepareUpdate N g p faults = .ok (scope, entryId)) :
    ∀ r ∈ g.reserved scope.1, r.id ≠ entryId → sameMac (normalizeMac p.newMac) r = false := by
  unfold prepareUpdate at h
  split_ifs at h
  obtain ⟨⟨⟩, -, h⟩ := bind_ok h
  obtain ⟨found, -, h⟩ := bind_ok h
  obtain ⟨existing, he, h⟩ := bind_ok h
  cases fetch_ok he
  split at h
  · cases h
  · split at h
    · cases h
    · rename_i hn
      cases h
      intro r hr hne
      simpa [hne] using List.find?_eq_none.mp hn r hr

theorem findEntry_ip {existing : List ReservedAddress} {entry : ReservedAddress}
    (hf : findEntry existing p = some entry)
    (hpin : ∀ r ∈ existing, p.entryId = some r.id → r.ip = some p.ip) : entry.ip = some p.ip := by
  have hmem := findEntry_mem hf
  obtain h | ⟨-, h⟩ := Option.or_eq_some_iff.mp hf
  · obtain ⟨id, hid, h⟩ := Option.bind_eq_some_iff.mp h
    have hentry : entry.id = id := by simpa using List.find?_some h
    exact hpin entry hmem (by rw [hid, hentry])
  · simpa using List.find?_some h

theorem findEntry_pinned {scopeId : Nat} {r : ReservedAddress} (hr : r ∈ g.reserved scopeId)
    (hid : p.entryId = some r.id) : findEntry (g.reserved scopeId) p = some r := by
  simp [findEntry, hid, Gateway.find_of_id hr]

theorem mem_modify_other {s scopeId : Nat} {f : ReservedAddress → ReservedAddress}
    {entry r : ReservedAddress} (hentry : entry ∈ g.reserved scopeId) (hf : (f entry).ip = entry.ip)
    (hne : r.ip ≠ entry.ip) :
    r ∈ (g.modify scopeId entry.id f).reserved s ↔ r ∈ g.reserved s := by
  rw [Gateway.mem_modify]
  constructor
  · rintro ⟨a, ha, rfl⟩
    split_ifs with hs
    · subst hs
      by_cases hid : a.id = entry.id
      · cases Gateway.eq_of_id ha hentry hid
        refine absurd ?_ hne
        rw [if_pos rfl, Gateway.amendEntry, if_pos rfl]
        exact hf
      · rw [Gateway.amendEntry, if_neg hid]
        exact ha
    · exact ha
  · intro hr
    refine ⟨r, hr, ?_⟩
    split_ifs with hs
    · subst hs
      rw [Gateway.amendEntry, if_neg fun hid => hne (by rw [Gateway.eq_of_id hr hentry hid])]
    · rfl

theorem update_answered {res : PushReservationResult}
    (h : (updatePushedReservation N g p faults).2 = .ok res) :
    ∃ scope entryId, prepareUpdate N g p faults = .ok (scope, entryId) ∧ faults.put = .answered ∧
      faults.readBack = .answered := by
  unfold updatePushedReservation at h
  cases hprep : prepareUpdate N g p faults with
  | error e => simp [hprep] at h
  | ok found =>
    obtain ⟨scope, entryId⟩ := found
    rw [hprep] at h
    cases hput : faults.put with
    | failed e | lost e => simp [hput, call] at h
    | answered =>
      cases hread : faults.readBack with
      | answered => exact ⟨scope, entryId, rfl, rfl, rfl⟩
      | failed e | lost e =>
        rw [hput, hread] at h
        cases h

/-- An update touches the entry of its own address alone just when the pinned
id, where it leads to an entry, leads to that one. -/
theorem update_own_iff : OwnEntryOnly N g p faults ↔ PinHolds N g p faults := by
  constructor
  · intro h scope entryId hprep hput hread r hr hpin
    by_contra hip
    have hanswer := updatePushedReservation_answered hprep hput hread
    obtain ⟨-, -, -, entry, hentry, rfl⟩ := prepareUpdate_ok hprep
    cases (findEntry_pinned hr hpin).symm.trans hentry
    obtain ⟨b, hb, hbip, hbmac⟩ := h.own _ (by rw [hanswer])
    rw [hanswer] at hb
    have hold : b ∈ g.reserved scope.1 :=
      (mem_modify_other hr rfl (by rw [hbip]; exact Ne.symm hip)).mp hb
    have hfree := prepareUpdate_unclaimed hprep b hold fun hid => hip (by
      rw [← Gateway.eq_of_id hold hr hid, hbip])
    obtain ⟨hmac, -⟩ := prepareUpdate_ok hprep
    rw [(sameMac_iff (normalizeMac_ne_empty hmac)).mpr hbmac] at hfree
    cases hfree
  · intro h
    have hwrote : ∀ res, (updatePushedReservation N g p faults).2 = .ok res →
        ∃ entry ∈ g.reserved res.scopeId, entry.ip = some p.ip ∧
          (updatePushedReservation N g p faults).1 = g.modify res.scopeId entry.id (updateEntry p) := by
      intro res hres
      obtain ⟨scope, entryId, hprep, hput, hread⟩ := update_answered hres
      obtain ⟨-, -, -, entry, hentry, rfl⟩ := prepareUpdate_ok hprep
      rw [updatePushedReservation_answered hprep hput hread] at hres ⊢
      cases hres
      exact ⟨entry, findEntry_mem hentry, findEntry_ip hentry (h scope _ hprep hput hread), rfl⟩
    refine ⟨fun res hres => ?_, fun res hres s r hip => ?_, fun e he => ?_⟩
    · obtain ⟨entry, hmem, hip, hnew⟩ := hwrote res hres
      rw [hnew]
      refine ⟨updateEntry p entry, Gateway.mem_modify.mpr ⟨entry, hmem, ?_⟩, hip,
        normalizeMac_normalizeMac p.newMac⟩
      rw [if_pos rfl, Gateway.amendEntry, if_pos rfl]
      rfl
    · obtain ⟨entry, hmem, hentry, hnew⟩ := hwrote res hres
      rw [hnew]
      exact mem_modify_other hmem rfl (by rw [hentry]; exact hip)
    · rw [updatePushedReservation, he]

def neighbour : ReservedAddress := ⟨1, some "10.0.0.20", some "aa:bb:cc:dd:ee:ff", "door", none⟩

/-- A FortiGate that has given the id of a deleted entry to another address. -/
def reused : Gateway where
  servers := [{ id := 1, startIp := some "10.0.0.100" }]
  reserved s := if s = 1 then [neighbour, ⟨2, some "10.0.0.9", some "00:11:22:33:44:55", "", some 7⟩] else []
  nextEntryId := 3
  echoesId := true
  ids_lt s r hr := by
    split_ifs at hr with hs
    · obtain rfl | rfl := List.mem_pair.mp hr <;> decide
    · cases hr
  ids_nodup s := by
    split_ifs <;> decide

def stalePin : UpdateParams :=
  { reservationId := 7, subnetCidr := "10.0.0.0/24", ip := "10.0.0.9", newMac := "00:11:22:33:44:66",
    scopeId := some 1, entryId := some 1, integration := { id := "fmg" }, deviceName := "fg1" }

/-- A stale id puts the MAC and the description on the entry of the address
next door. -/
theorem stale_pin_rewrites_neighbour :
    (updatePushedReservation reference reused stalePin {}).2 =
        .ok ⟨1, 1, none, updateDescription stalePin⟩ ∧
      ¬ OwnEntryOnly reference reused stalePin {} := by
  have hanswer : (updatePushedReservation reference reused stalePin {}).2 =
      .ok ⟨1, 1, none, updateDescription stalePin⟩ := by
    decide +kernel
  refine ⟨hanswer, fun h => ?_⟩
  have hkept := (h.others _ hanswer 1 neighbour (by decide)).mpr (by decide)
  revert hkept
  decide +kernel

end Update

end Polaris.DeviceEntries
