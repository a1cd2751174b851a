import Polaris.DnsResolved
import Polaris.CidrEnumeration
import Polaris.Lib.Checks

namespace Polaris.ReservationService

open Polaris.Lib.Text Polaris.Lib.Store Polaris.Lib.Faults Polaris.Lib.Checks Polaris.Netmask Polaris.Cidr
  Polaris.CidrEnumeration Polaris.Mac Polaris.Transport Polaris.ReservationPush
  Polaris.Reservations Polaris.DnsResolved

structure CreateReservationInput where
  subnetId : String
  ipAddress : Option String := none
  hostname : Option String := none
  owner : Option String := none
  projectRef : Option String := none
  expiresAt : Option Nat := none
  notes : Option String := none
  createdBy : Option String := none
  macAddress : Option String := none

structure UpdateReservationInput where
  hostname : Option String := none
  owner : Option String := none
  projectRef : Option String := none
  expiresAt : Option Nat := none
  notes : Option String := none
  macAddress : Option String := none

structure PushTarget where
  integration : Integration
  deviceName : String

def resolvePushEligibility (subnet : Subnet) (integration : Option Integration)
    (ipAddress : Option String) : Option PushTarget :=
  match truthy ipAddress, integration with
  | some _, some i =>
    match i.type with
    | .other _ => none
    | .fortimanager | .fortigate =>
      if i.pushReservations then some ⟨i, subnet.fortigateDevice.getD ""⟩ else none
  | _, _ => none

section Stamps

def stampPushed (entry : PushReservationResult) (pushedTo : Option String) (now : Nat) (r : Reservation) :
    Reservation :=
  { r with
    sourceType := .dhcpReservation, pushedToId := pushedTo, pushedScopeId := some entry.scopeId,
    pushedEntryId := some entry.entryId, pushStatus := some .synced, pushedAt := some now,
    pushError := none, pushQueuedAt := none, pushAttempts := 0, pushLastAttemptAt := none }

def stampQueued (pushedTo : Option String) (now attempts : Nat) (lastAttemptAt : Option Nat)
    (error : String) (r : Reservation) : Reservation :=
  { r with
    pushedToId := pushedTo, pushStatus := some .pending, pushQueuedAt := some now,
    pushAttempts := attempts, pushLastAttemptAt := lastAttemptAt, pushError := some error }

/-- The row a release leaves, without pointers to the device. -/
def stampReleased (r : Reservation) : Reservation :=
  { r with
    status := .released, pushedToId := none, pushedScopeId := none, pushedEntryId := none,
    pushStatus := none, pushedAt := none, pushQueuedAt := none, pushAttempts := 0,
    pushLastAttemptAt := none, pushError := none }

end Stamps

section Create

variable (N : Package)

def checkAddress (db : Db) (subnet : Subnet) (input : CreateReservationInput) : Except Failure Unit :=
  match truthy input.ipAddress with
  | some ip =>
    if ! isValidIpAddress ip then .error (.app 400 ("Invalid IP address: " ++ ip))
    else if ! ipInCidr N ip subnet.cidr then
      .error (.app 400 ("IP " ++ ip ++ " is not within subnet " ++ subnet.cidr))
    else
      match findActiveAuthoritativeAt db input.subnetId ip with
      | some r =>
        .error (.app 409 ("IP " ++ ip ++ " is already actively reserved (reservation: " ++
          toString r.id ++ ")"))
      | none => .ok ()
  | none =>
    match db.rows.find? fun r =>
        r.data.subnetId = input.subnetId && r.data.ipAddress = none && r.data.status = .active with
    | some r =>
      .error (.app 409 ("Subnet " ++ subnet.cidr ++ " is already fully reserved (reservation: " ++
        toString r.id ++ ")"))
    | none => .ok ()

def checkPushInput (subnet : Subnet) (input : CreateReservationInput) (push : Option PushTarget) :
    Except Failure Unit :=
  match push with
  | none => .ok ()
  | some target =>
    if trim (input.macAddress.getD "") = "" then
      .error (.app 400 ("MAC address is required — this subnet's integration is configured to push " ++
        "reservations to the FortiGate, and DHCP reservations are MAC→IP"))
    else if target.deviceName = "" then
      .error (.app 409 ("Subnet " ++ subnet.cidr ++ " has no fortigateDevice — the integration " ++
        "discovered the subnet without a device name, so push cannot resolve a target FortiGate"))
    else .ok ()

def openSubnet (db : Db) (subnetId : String) : Except Failure Subnet :=
  match db.findSubnet subnetId with
  | none => .error (.app 404 ("Subnet " ++ subnetId ++ " not found"))
  | some subnet =>
    if subnet.status = .deprecated then
      .error (.app 409 ("Subnet " ++ subnet.cidr ++
        " is deprecated and cannot accept new reservations"))
    else .ok subnet

def checkCreate (db : Db) (input : CreateReservationInput) :
    Except Failure (Subnet × Option PushTarget) := do
  let subnet ← openSubnet db input.subnetId
  checkAddress N db subnet input
  let push := resolvePushEligibility subnet (db.integrationOf subnet) input.ipAddress
  checkPushInput subnet input push
  return (subnet, push)

variable {N} in
theorem checkCreate_ok {db : Db} {input : CreateReservationInput} {c : Subnet × Option PushTarget}
    (h : checkCreate N db input = .ok c) :
    openSubnet db input.subnetId = .ok c.1 ∧ checkAddress N db c.1 input = .ok () ∧
      checkPushInput c.1 input c.2 = .ok () ∧
      c.2 = resolvePushEligibility c.1 (db.integrationOf c.1) input.ipAddress := by
  obtain ⟨subnet, hs, h⟩ := bind_ok h
  obtain ⟨⟨⟩, ha, h⟩ := bind_ok h
  obtain ⟨⟨⟩, hp, h⟩ := bind_ok h
  cases h
  exact ⟨hs, ha, hp, rfl⟩

variable {N} in
theorem checkAddress_ok {db : Db} {subnet : Subnet} {input : CreateReservationInput} {ip : String}
    (h : checkAddress N db subnet input = .ok ()) (hip : truthy input.ipAddress = some ip) :
    isValidIpAddress ip = true ∧ ipInCidr N ip subnet.cidr = true ∧
      findActiveAuthoritativeAt db input.subnetId ip = none := by
  simp only [checkAddress, hip] at h
  split_ifs at h with hv hc
  cases hf : findActiveAuthoritativeAt db input.subnetId ip with
  | some r => simp [hf] at h
  | none => exact ⟨by simpa using hv, by simpa using hc, rfl⟩

def cleanMac (input : CreateReservationInput) : Option String :=
  (truthy input.macAddress).map normalizeMac

def newReservation (input : CreateReservationInput) : Reservation :=
  { subnetId := input.subnetId, ipAddress := input.ipAddress, hostname := input.hostname,
    owner := truthy input.owner, projectRef := truthy input.projectRef,
    expiresAt := input.expiresAt, notes := input.notes, createdBy := input.createdBy,
    macAddress := cleanMac input }

/-- The fallback row at the address is released, then the row is created
together with the status of a fully reserved subnet. -/
def insertReservation (db : Db) (input : CreateReservationInput) :
    Db × Except Failure (Row Reservation) :=
  match truthy input.ipAddress with
  | some ip => (releaseDnsResolvedAt db input.subnetId ip).createRow .create (newReservation input)
  | none =>
    match db.createRow .create (newReservation input) with
    | (db, .ok r) => (db.setSubnetStatus input.subnetId .reserved, .ok r)
    | (db, .error e) => (db, .error e)

def firewallKnownDown (db : Db) (target : PushTarget) : Bool :=
  (db.findFirewall target.deviceName target.integration.id).any fun f =>
    f.monitored && f.monitorStatus = some .down

def createPushParams (input : CreateReservationInput) (subnet : Subnet) (target : PushTarget)
    (id : Nat) (ip mac : String) : PushParams :=
  { reservationId := id, subnetCidr := subnet.cidr, ip := ip, mac := mac,
    hostname := input.hostname, notes := input.notes, createdBy := input.createdBy,
    integration := target.integration, deviceName := target.deviceName }

def setGateway (w : World) (deviceName : String) (g : Gateway) : World :=
  { w with gateways := Function.update w.gateways deviceName g }

/-- What the answer of the device makes of the new row: it is stamped, kept
in the queue, or removed again. -/
def settleCreate (db : Db) (subnet : Subnet) (id now : Nat)
    (pushed : Except Failure PushReservationResult) : Db × Except Failure (Row Reservation) :=
  match pushed with
  | .ok entry => db.updateRow .push id (stampPushed entry subnet.discoveredBy now)
  | .error e =>
    match classifyPushError e with
    | .transient =>
      db.updateRow .push id (stampQueued subnet.discoveredBy now 1 (some now) e.message)
    | .permanent => (db.deleteRows (·.id = id), .error e)

def pushCreated (w : World) (input : CreateReservationInput) (subnet : Subnet) (target : PushTarget)
    (id : Nat) (ip mac : String) (now : Nat) (faults : PushFaults) :
    World × Except Failure (Row Reservation) :=
  if firewallKnownDown w.db target then
    let (db, row) := w.db.updateRow .push id (stampQueued subnet.discoveredBy now 0 none
      ("FortiGate \"" ++ target.deviceName ++
        "\" is currently down — queued without attempting transport"))
    ({ w with db := db }, row)
  else
    let (g, pushed) := pushReservation N (w.gateways target.deviceName)
      (createPushParams input subnet target id ip mac) faults
    let (db, row) := settleCreate w.db subnet id now pushed
    (setGateway { w with db := db } target.deviceName g, row)

def createReservation (w : World) (input : CreateReservationInput) (now : Nat) (faults : PushFaults) :
    World × Except Failure (Row Reservation) :=
  match checkCreate N w.db input with
  | .error e => (w, .error e)
  | .ok (subnet, push) =>
    match insertReservation w.db input with
    | (db, .error e) => ({ w with db := db }, .error e)
    | (db, .ok row) =>
      match push, truthy input.ipAddress, truthy (cleanMac input) with
      | some target, some ip, some mac =>
        pushCreated N { w with db := db } input subnet target row.id ip mac now faults
      | _, _, _ => ({ w with db := db }, .ok row)

end Create

section Update

variable (N : Package)

def parseNewMac (input : UpdateReservationInput) : Except Failure (Option (Option String)) :=
  match input.macAddress with
  | none => .ok none
  | some mac =>
    if trim mac = "" then .ok (some none)
    else if isMac (normalizeMac (trim mac)) then .ok (some (some (normalizeMac (trim mac))))
    else .error (.app 400 ("Invalid MAC address: " ++ mac))

def currentMac (r : Reservation) : Option String := (truthy r.macAddress).map normalizeMac

def macChange (r : Reservation) (newMac : Option (Option String)) : Option (Option String) :=
  newMac.filter (· ≠ currentMac r)

def updatePushTarget (db : Db) (subnet : Subnet) (ipAddress : Option String) :
    Option (PushTarget × String) :=
  match db.integrationOf subnet, truthy subnet.fortigateDevice, truthy ipAddress with
  | some i, some deviceName, some ip =>
    match i.type with
    | .other _ => none
    | .fortimanager | .fortigate =>
      if i.pushReservations then some (⟨i, deviceName⟩, ip) else none
  | _, _, _ => none

theorem updatePushTarget_some {db : Db} {subnet : Subnet} {ipAddress : Option String}
    {target : PushTarget} {ip : String}
    (h : updatePushTarget db subnet ipAddress = some (target, ip)) :
    db.findIntegration (some target.integration.id) = some target.integration ∧
      truthy subnet.fortigateDevice = some target.deviceName ∧ truthy ipAddress = some ip := by
  unfold updatePushTarget at h
  split at h
  · rename_i integration deviceName ip' hint hdev hip
    have hfind : db.findIntegration (some integration.id) = some integration := by
      obtain ⟨id, -, hid⟩ := Option.bind_eq_some_iff.mp hint
      have : integration.id = id := by simpa using List.find?_some hid
      subst this
      exact hid
    split at h
    · cases h
    · split_ifs at h
      cases h
      exact ⟨hfind, hdev, hip⟩
    · split_ifs at h
      cases h
      exact ⟨hfind, hdev, hip⟩
  · cases h

def updateParams (input : UpdateReservationInput) (row : Row Reservation) (subnet : Subnet)
    (target : PushTarget) (ip newMac : String) : UpdateParams :=
  { reservationId := row.id, subnetCidr := subnet.cidr, ip := ip, newMac := newMac,
    hostname := input.hostname.or row.data.hostname, notes := input.notes.or row.data.notes,
    createdBy := row.data.createdBy, scopeId := row.data.pushedScopeId,
    entryId := row.data.pushedEntryId, integration := target.integration,
    deviceName := target.deviceName }

def stampUpdated (entry : PushReservationResult) (pushedTo : String) (now : Nat) (r : Reservation) :
    Reservation :=
  { r with
    pushedToId := some pushedTo, pushedScopeId := some entry.scopeId,
    pushedEntryId := some entry.entryId, pushedAt := some now, pushStatus := some .synced,
    pushError := none }

def resolvedOwner (input : UpdateReservationInput) (actor : Option String) : Option String :=
  input.owner.or (truthy (some (trim (actor.getD ""))))

/-- The columns of the input; one that is not given stays as it is, and so
does an unchanged MAC. -/
def applyInput (input : UpdateReservationInput) (actor : Option String)
    (changedMac : Option (Option String)) (r : Reservation) : Reservation :=
  { r with
    hostname := input.hostname.or r.hostname
    owner := (resolvedOwner input actor).or r.owner
    projectRef := input.projectRef.or r.projectRef
    expiresAt := input.expiresAt.or r.expiresAt
    notes := input.notes.or r.notes
    macAddress := changedMac.getD r.macAddress }

def clearQueuedMac : Failure :=
  .app 400 ("Cannot clear MAC on a queued push-eligible reservation — the FortiGate write will " ++
    "require it. Release the reservation instead.")

def clearPushedMac : Failure :=
  .app 400 ("Cannot clear MAC on a reservation whose subnet pushes DHCP reservations to a " ++
    "FortiGate — DHCP reservations are MAC→IP and require a MAC. Release the reservation instead.")

/-- The device is written before the row when the MAC of a pushed row
changes. A queued row is only rewritten. -/
def pushUpdate (w : World) (input : UpdateReservationInput) (row : Row Reservation) (subnet : Subnet)
    (changedMac : Option (Option String)) (now : Nat) (faults : UpdateFaults) :
    World × Except Failure (Reservation → Reservation) :=
  match updatePushTarget w.db subnet row.data.ipAddress, changedMac with
  | some (target, ip), some newMac =>
    if row.data.pushStatus = some .pending then
      match newMac with
      | none => (w, .error clearQueuedMac)
      | some _ => (w, .ok id)
    else
      match newMac with
      | none => (w, .error clearPushedMac)
      | some mac =>
        let (g, updated) := updatePushedReservation N (w.gateways target.deviceName)
          (updateParams input row subnet target ip mac) faults
        (setGateway w target.deviceName g,
          updated.map fun entry => stampUpdated entry target.integration.id now)
  | _, _ => (w, .ok id)

def updateReservation (w : World) (id : Nat) (input : UpdateReservationInput) (actor : Option String)
    (now : Nat) (faults : UpdateFaults) : World × Except Failure (Row Reservation) :=
  match w.db.findReservation id with
  | .error e => (w, .error e)
  | .ok (row, subnet) =>
    if row.data.status ≠ .active then
      (w, .error (.app 409 ("Cannot update a " ++ row.data.status.text ++ " reservation")))
    else
      match parseNewMac input with
      | .error e => (w, .error e)
      | .ok newMac =>
        let changedMac := macChange row.data newMac
        match pushUpdate N w input row subnet changedMac now faults with
        | (w, .error e) => (w, .error e)
        | (w, .ok stamp) =>
          let (db, updated) := w.db.updateRow .update id (stamp ∘ applyInput input actor changedMac)
          ({ w with db := db }, updated)

variable {N} {w w' : World} {input : UpdateReservationInput} {now : Nat} {faults : UpdateFaults}

theorem pushUpdate_ok {row : Row Reservation} {subnet : Subnet} {changedMac : Option (Option String)}
    {stamp : Reservation → Reservation}
    (h : pushUpdate N w input row subnet changedMac now faults = (w', .ok stamp)) :
    ((updatePushTarget w.db subnet row.data.ipAddress = none ∨ changedMac = none ∨
        row.data.pushStatus = some .pending) ∧ w' = w ∧ stamp = id) ∨
      ∃ target ip mac res, updatePushTarget w.db subnet row.data.ipAddress = some (target, ip) ∧
        changedMac = some (some mac) ∧
        (updatePushedReservation N (w.gateways target.deviceName)
          (updateParams input row subnet target ip mac)
          faults).2 = .ok res ∧
        w' = setGateway w target.deviceName (updatePushedReservation N (w.gateways target.deviceName)
          (updateParams input row subnet target ip mac) faults).1 ∧
        stamp = stampUpdated res target.integration.id now := by
  unfold pushUpdate at h
  cases htarget : updatePushTarget w.db subnet row.data.ipAddress with
  | none =>
    rw [htarget] at h
    cases h
    exact .inl ⟨.inl rfl, rfl, rfl⟩
  | some found =>
    obtain ⟨target, ip⟩ := found
    rw [htarget] at h
    cases changedMac with
    | none =>
      cases h
      exact .inl ⟨.inr (.inl rfl), rfl, rfl⟩
    | some newMac =>
      dsimp only at h
      split_ifs at h with hq
      · cases newMac with
        | none => cases h
        | some mac =>
          cases h
          exact .inl ⟨.inr (.inr hq), rfl, rfl⟩
      · cases newMac with
        | none => cases h
        | some mac =>
          obtain ⟨hw, hstamp⟩ := Prod.mk.inj h
          cases hres : (updatePushedReservation N (w.gateways target.deviceName)
              (updateParams input row subnet target ip mac) faults).2 with
          | error e =>
            rw [hres] at hstamp
            cases hstamp
          | ok res =>
            rw [hres] at hstamp
            cases hstamp
            exact .inr ⟨target, ip, mac, res, rfl, rfl, hres, hw.symm, rfl⟩

theorem updateReservation_ok {id : Nat} {actor : Option String} {updated : Row Reservation}
    (h : (updateReservation N w id input actor now faults).2 = .ok updated) :
    ∃ row subnet newMac w' stamp, w.db.findReservation id = .ok (row, subnet) ∧
      row.data.status = .active ∧ parseNewMac input = .ok newMac ∧
      pushUpdate N w input row subnet (macChange row.data newMac) now faults = (w', .ok stamp) ∧
      (updateReservation N w id input actor now faults).1 = { w' with
        db := (w'.db.updateRow .update id (stamp ∘ applyInput input actor (macChange row.data newMac))).1 } ∧
      (w'.db.updateRow .update id (stamp ∘ applyInput input actor (macChange row.data newMac))).2 =
        .ok updated := by
  unfold updateReservation at h ⊢
  cases hfound : w.db.findReservation id with
  | error e => simp [hfound] at h
  | ok found =>
    obtain ⟨row, subnet⟩ := found
    rw [hfound] at h
    dsimp only at h ⊢
    split_ifs at h ⊢ with hst
    cases hmac : parseNewMac input with
    | error e => simp [hmac] at h
    | ok newMac =>
      rw [hmac] at h
      dsimp only at h ⊢
      rcases hp : pushUpdate N w input row subnet (macChange row.data newMac) now faults with ⟨w', e | stamp⟩
      · simp [hp] at h
      · rw [hp] at h
        exact ⟨row, subnet, newMac, w', stamp, rfl, not_not.mp hst, rfl, hp, rfl, h⟩

end Update

section Release

structure ReleaseFaults where
  unpush : UnpushFaults := {}
  leaseMgmtIp : MgmtIp := .ok (some "192.0.2.1")
  leasePost : Outcome Failure := .answered

/-- What the log says of the calls to the device; nothing where there was
none. -/
structure ReleaseReport where
  released : Row Reservation
  unpush : Option (Except Failure UnpushResult)
  leaseRelease : Option (Except Failure Unit)

def unpushReleased (w : World) (row : Reservation) (subnet : Subnet) (faults : UnpushFaults) :
    World × Option (Except Failure UnpushResult) :=
  match w.db.findIntegration row.pushedToId, row.pushedScopeId, row.pushedEntryId,
    truthy subnet.fortigateDevice with
  | some integration, some scopeId, some entryId, some deviceName =>
    if row.pushStatus = some .pending then (w, none)
    else
      let (g, result) :=
        unpushReservation (w.gateways deviceName) scopeId entryId integration deviceName faults
      (setGateway w deviceName g, some result)
  | _, _, _, _ => (w, none)

theorem unpushReleased_db (w : World) (row : Reservation) (subnet : Subnet) (faults : UnpushFaults) :
    (unpushReleased w row subnet faults).1.db = w.db := by
  unfold unpushReleased
  split
  · split_ifs <;> rfl
  · rfl

def releaseLease (db : Db) (row : Reservation) (subnet : Subnet) (faults : ReleaseFaults) :
    Option (Except Failure Unit) :=
  match db.integrationOf subnet, truthy subnet.fortigateDevice, truthy row.ipAddress with
  | some integration, some deviceName, some ip =>
    if row.pushStatus ≠ some .pending ∧ row.sourceType = .dhcpLease ∧ integration.pushReservations then
      some (releaseDhcpLease integration deviceName ip faults.leaseMgmtIp faults.leasePost)
    else none
  | _, _, _ => none

def releasedTwin (row : Row Reservation) (r : Row Reservation) : Bool :=
  r.id ≠ row.id && r.data.subnetId = row.data.subnetId && r.data.ipAddress = row.data.ipAddress &&
    r.data.status = .released

def commitRelease (db : Db) (row : Row Reservation) : Db × Except Failure (Row Reservation) :=
  match (db.deleteRows (releasedTwin row)).updateRow .release row.id stampReleased with
  | (db', .ok released) =>
    if (truthy row.data.ipAddress).isSome then (db', .ok released)
    else (db'.setSubnetStatus row.data.subnetId .available, .ok released)
  | (db', .error e) => ({ db with violations := db'.violations }, .error e)

def releaseReservation (w : World) (id : Nat) (faults : ReleaseFaults) :
    World × Except Failure ReleaseReport :=
  match w.db.findReservation id with
  | .error e => (w, .error e)
  | .ok (row, subnet) =>
    if row.data.status ≠ .active then
      (w, .error (.app 409 ("Reservation is already " ++ row.data.status.text)))
    else
      let (w, unpush) := unpushReleased w row.data subnet faults.unpush
      let lease := releaseLease w.db row.data subnet faults
      let (db, released) := commitRelease w.db row
      ({ w with db := db }, released.map fun row => ⟨row, unpush, lease⟩)

end Release

section NextAvailable

variable (N : Package)

def pageSize : Nat := 256

/-- The paging loop. It ends with the page that reaches the total, so the
pages of the largest subnet are fuel enough. -/
def findFree (cidr : String) (reserved : List String) : Nat → Nat → Except Failure (Option String)
  | 0, _ => .ok none
  | fuel + 1, page => do
    let (addresses, total) ← enumerateSubnetIps N cidr page pageSize
    match addresses.find? fun a => a.type = .host && a.address ∉ reserved with
    | some a => return some a.address
    | none => if total ≤ page * pageSize then return none else findFree cidr reserved fuel (page + 1)

def reservedIps (db : Db) (subnetId : String) : List String :=
  (db.rows.filter fun r => r.data.subnetId = subnetId && r.data.status = .active).filterMap
    fun r => truthy r.data.ipAddress

def selectAddress (db : Db) (subnetId : String) : Except Failure String := do
  let subnet ← openSubnet db subnetId
  if detectIpVersion subnet.cidr ≠ .v4 then
    throw (.app 400 "Auto-allocate is only supported for IPv4 subnets")
  match ← findFree N subnet.cidr (reservedIps db subnetId) (2 ^ 32 / pageSize + 1) 1 with
  | some ip => return ip
  | none => throw (.app 409 ("No available IP addresses in subnet " ++ subnet.cidr))

def nextAvailableReservation (w : World) (input : CreateReservationInput) (now : Nat)
    (faults : PushFaults) : World × Except Failure (Row Reservation) :=
  match selectAddress N w.db input.subnetId with
  | .error e => (w, .error e)
  | .ok ip => createReservation N w { input with ipAddress := some ip } now faults

end NextAvailable

section Expire

def stale (now : Nat) (r : Row Reservation) : Bool :=
  r.data.status = .active && r.data.expiresAt.any (· < now)

def markExpired (r : Reservation) : Reservation := { r with status := .expired }

def expireStaleReservations (db : Db) (now : Nat) : Db × Except Failure Nat :=
  db.updateRows .expire (stale now) markExpired

end Expire

section Rows

/-- A property of rows that no stamp of the service breaks. -/
structure Kept (P : Row Reservation → Prop) : Prop where
  markReleased : ∀ id a, P ⟨id, a⟩ → P ⟨id, markReleased a⟩
  stampPushed : ∀ id a entry pushedTo now, P ⟨id, a⟩ → P ⟨id, stampPushed entry pushedTo now a⟩
  stampQueued : ∀ id a pushedTo now attempts lastAttemptAt error, P ⟨id, a⟩ →
    P ⟨id, stampQueued pushedTo now attempts lastAttemptAt error a⟩
  stampReleased : ∀ id a, P ⟨id, a⟩ → P ⟨id, stampReleased a⟩

variable {N : Package} {P : Row Reservation → Prop} (hP : Kept P) {w : World}

include hP

omit hP in
theorem forall_insertReservation {db : Db} {input : CreateReservationInput}
    (hm : ∀ id a, P ⟨id, a⟩ → P ⟨id, markReleased a⟩) (h : ∀ r ∈ db.rows, P r)
    (hnew : ∀ id, P ⟨id, newReservation input⟩) :
    ∀ r ∈ (insertReservation db input).1.rows, P r := by
  unfold insertReservation
  cases truthy input.ipAddress with
  | some ip =>
    refine Db.forall_createRow _ ?_ (hnew _)
    exact Db.forall_updateRows _ h (fun r hr _ => hm r.id r.data (h r hr))
  | none =>
    have hc := Db.forall_createRow (w := .create) db h (hnew db.reservations.nextId)
    revert hc
    rcases db.createRow .create (newReservation input) with ⟨db', res⟩
    cases res with
    | error e => exact id
    | ok r => exact id

omit hP in
theorem insertReservation_ok {db : Db} {input : CreateReservationInput} {row : Row Reservation}
    (h : (insertReservation db input).2 = .ok row) :
    row = ⟨db.reservations.nextId, newReservation input⟩ ∧
      (insertReservation db input).1.reservations.find row.id = some row := by
  unfold insertReservation at h ⊢
  cases hip : truthy input.ipAddress with
  | some ip =>
    simp only [hip] at h ⊢
    obtain ⟨hrow, hmem⟩ := Db.createRow_ok h
    rw [show (releaseDnsResolvedAt db input.subnetId ip).reservations.nextId =
      db.reservations.nextId from Db.nextId_updateRows _ _] at hrow
    exact ⟨hrow, Table.find_of_mem hmem⟩
  | none =>
    simp only [hip] at h ⊢
    have hok : _ → _ := @Db.createRow_ok db .create (newReservation input) row
    revert h hok
    rcases db.createRow .create (newReservation input) with ⟨db', res⟩
    cases res with
    | error e => simp
    | ok r =>
      intro h hok
      cases h
      obtain ⟨hrow, hmem⟩ := hok rfl
      exact ⟨hrow, Table.find_of_mem hmem⟩

omit hP in
theorem nextId_insertReservation_le {db : Db} {input : CreateReservationInput} :
    db.reservations.nextId ≤ (insertReservation db input).1.reservations.nextId := by
  unfold insertReservation
  split
  · refine Nat.le_trans (Nat.le_of_eq ?_) (Db.nextId_createRow_le _)
    exact (Db.nextId_updateRows _ _).symm
  · have hc := @Db.nextId_createRow_le db .create (newReservation input)
    revert hc
    rcases db.createRow .create (newReservation input) with ⟨db', res⟩
    cases res <;> exact id

theorem forall_settleCreate {db : Db} {subnet : Subnet} {id now : Nat}
    {pushed : Except Failure PushReservationResult} (h : ∀ r ∈ db.rows, P r) :
    ∀ r ∈ (settleCreate db subnet id now pushed).1.rows, P r := by
  unfold settleCreate
  cases pushed with
  | ok entry =>
    exact Db.forall_updateRow db h (fun r hr hid => hP.stampPushed _ _ _ _ _ (hid ▸ h r hr))
  | error e =>
    dsimp only
    cases classifyPushError e with
    | transient =>
      exact Db.forall_updateRow db h (fun r hr hid => hP.stampQueued _ _ _ _ _ _ _ (hid ▸ h r hr))
    | permanent => exact Db.forall_deleteRows db h _

theorem pushCreated_ok {input : CreateReservationInput} {subnet : Subnet} {target : PushTarget}
    {id now : Nat} {ip mac : String} {faults : PushFaults} {r row : Row Reservation}
    (hr : w.db.reservations.find id = some r) (hPr : P r)
    (h : (pushCreated N w input subnet target id ip mac now faults).2 = .ok row) : P row := by
  have hid := (Table.mem_of_find hr).2
  have hstamped : ∀ {f : Reservation → Reservation}, P ⟨r.id, f r.data⟩ →
      (w.db.updateRow .push id f).2 = .ok row → P row := by
    intro f hf hu
    obtain ⟨r', hr', rfl⟩ := Db.updateRow_ok hu
    cases hr.symm.trans hr'
    exact hid ▸ hf
  unfold pushCreated at h
  split_ifs at h
  · exact hstamped (hP.stampQueued _ _ _ _ _ _ _ hPr) h
  · dsimp only at h
    unfold settleCreate at h
    split at h
    · exact hstamped (hP.stampPushed _ _ _ _ _ hPr) h
    · split at h
      · exact hstamped (hP.stampQueued _ _ _ _ _ _ _ hPr) h
      · cases h

theorem forall_pushCreated {input : CreateReservationInput} {subnet : Subnet} {target : PushTarget}
    {id now : Nat} {ip mac : String} {faults : PushFaults} (h : ∀ r ∈ w.db.rows, P r) :
    ∀ r ∈ (pushCreated N w input subnet target id ip mac now faults).1.db.rows, P r := by
  unfold pushCreated
  split_ifs
  · exact Db.forall_updateRow _ h (fun r hr hid => hP.stampQueued _ _ _ _ _ _ _ (hid ▸ h r hr))
  · exact forall_settleCreate hP h

theorem createReservation_ok {input : CreateReservationInput} {now : Nat} {faults : PushFaults}
    {row : Row Reservation} (hnew : ∀ id, P ⟨id, newReservation input⟩)
    (h : (createReservation N w input now faults).2 = .ok row) : P row := by
  unfold createReservation at h
  cases hc : checkCreate N w.db input with
  | error e => simp [hc] at h
  | ok c =>
    have hok := @insertReservation_ok w.db input
    simp only [hc] at h
    revert h hok
    rcases insertReservation w.db input with ⟨db, res⟩
    cases res with
    | error e => simp
    | ok r =>
      intro hok h
      obtain ⟨hnewRow, hfind⟩ := hok rfl
      have hr : P r := hnewRow ▸ hnew _
      dsimp only at h
      split at h
      · exact pushCreated_ok hP hfind hr h
      · cases h
        exact hr

theorem forall_createReservation {input : CreateReservationInput} {now : Nat} {faults : PushFaults}
    (h : ∀ r ∈ w.db.rows, P r)
    (hnew : ∀ c, checkCreate N w.db input = .ok c → ∀ id, P ⟨id, newReservation input⟩) :
    ∀ r ∈ (createReservation N w input now faults).1.db.rows, P r := by
  unfold createReservation
  cases hc : checkCreate N w.db input with
  | error e => exact h
  | ok c =>
    have hi := forall_insertReservation hP.markReleased h (hnew c hc)
    revert hi
    rcases insertReservation w.db input with ⟨db, res⟩
    intro hi
    cases res with
    | error e => exact hi
    | ok row =>
      dsimp only
      split
      · exact forall_pushCreated hP hi
      · exact hi

theorem forall_commitRelease {db : Db} {row : Row Reservation} (h : ∀ r ∈ db.rows, P r) :
    ∀ r ∈ (commitRelease db row).1.rows, P r := by
  have hd := Db.forall_deleteRows db h (releasedTwin row)
  have hu : ∀ r ∈ ((db.deleteRows (releasedTwin row)).updateRow .release row.id
      stampReleased).1.rows, P r :=
    Db.forall_updateRow _ hd (fun r hr hid => hP.stampReleased _ _ (hid ▸ hd r hr))
  revert hu
  unfold commitRelease
  rcases (db.deleteRows (releasedTwin row)).updateRow .release row.id stampReleased with ⟨db', res⟩
  intro hu
  cases res with
  | error e => exact h
  | ok released =>
    dsimp only
    split_ifs
    · exact hu
    · exact hu

theorem forall_releaseReservation {id : Nat} {faults : ReleaseFaults} (h : ∀ r ∈ w.db.rows, P r) :
    ∀ r ∈ (releaseReservation w id faults).1.db.rows, P r := by
  unfold releaseReservation
  cases w.db.findReservation id with
  | error e => exact h
  | ok found =>
    obtain ⟨row, subnet⟩ := found
    dsimp only
    split_ifs
    · exact h
    · rw [← unpushReleased_db w row.data subnet faults.unpush] at h
      exact forall_commitRelease hP h

end Rows

def camera : CreateReservationInput :=
  { subnetId := "lan", ipAddress := some "10.0.0.5", macAddress := some "aa:bb:cc:dd:ee:ff" }

end Polaris.ReservationService
