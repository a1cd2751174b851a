import Polaris.ReservationService
import Polaris.Lib.Runs

namespace Polaris.OrphanEntries

open Polaris.Lib.Store Polaris.Lib.Runs Polaris.Lib.Faults Polaris.Netmask Polaris.Cidr Polaris.Transport
  Polaris.ReservationPush Polaris.Reservations Polaris.DnsResolved Polaris.ReservationService
open Polaris.SubnetService (SubnetStatus)

section Subnets

structure UpdateSubnetInput where
  status : Option SubnetStatus := none
  convertToManual : Bool := false

def applySubnetInput (input : UpdateSubnetInput) (s : Subnet) : Subnet :=
  { s with
    status := input.status.getD s.status
    discoveredBy := if input.convertToManual then none else s.discoveredBy
    fortigateDevice := if input.convertToManual then none else s.fortigateDevice }

def updateSubnet (db : Db) (id : String) (input : UpdateSubnetInput) : Db × Except Failure Subnet :=
  match db.findSubnet id with
  | none => (db, .error (.app 404 ("Subnet " ++ id ++ " not found")))
  | some subnet =>
    ({ db with subnets := db.subnets.map fun s => if s.id = id then applySubnetInput input s else s },
      .ok (applySubnetInput input subnet))

/-- A subnet is deleted together with its reservations, none of which is
active. -/
def deleteSubnet (db : Db) (id : String) : Db × Except Failure (Subnet × List (Row Reservation)) :=
  match db.findSubnet id with
  | none => (db, .error (.app 404 ("Subnet " ++ id ++ " not found")))
  | some subnet =>
    let activeCount := db.rows.countP fun r => r.data.subnetId = id && r.data.status = .active
    if activeCount > 0 then
      (db, .error (.app 409 ("Cannot delete subnet " ++ subnet.cidr ++ " — it has " ++ toString activeCount ++
        " active reservation(s)")))
    else
      ({ db.deleteRows (·.data.subnetId = id) with subnets := db.subnets.filter (·.id ≠ id) },
        .ok (subnet, db.rows.filter (·.data.subnetId = id)))

end Subnets

section Runs

inductive Call
  | createReservation (input : CreateReservationInput) (now : Nat)
  | updateReservation (id : Nat) (input : UpdateReservationInput) (actor : Option String) (now : Nat)
  | releaseReservation (id : Nat)
  | expireStaleReservations (now : Nat)
  | updateSubnet (id : String) (input : UpdateSubnetInput)
  | deleteSubnet (id : String)

variable (N : Package)

/-- A call whose requests to the device are all answered. -/
def run (w : World) : Call → World
  | .createReservation input now => (ReservationService.createReservation N w input now {}).1
  | .updateReservation id input actor now =>
    (ReservationService.updateReservation N w id input actor now {}).1
  | .releaseReservation id => (ReservationService.releaseReservation w id {}).1
  | .expireStaleReservations now =>
    { w with db := (ReservationService.expireStaleReservations w.db now).1 }
  | .updateSubnet id input => { w with db := (OrphanEntries.updateSubnet w.db id input).1 }
  | .deleteSubnet id => { w with db := (OrphanEntries.deleteSubnet w.db id).1 }

/-- Every entry that was written for a reservation is referenced by that
reservation, which is active. -/
def NoOrphans (w : World) : Prop :=
  ∀ device scopeId, ∀ e ∈ (w.gateways device).reserved scopeId, ∀ id, e.writtenFor = some id →
    ∃ r, w.db.reservations.find id = some r ∧ r.data.status = .active ∧
      r.data.pushedScopeId = some scopeId ∧ r.data.pushedEntryId = some e.id

end Runs

section Links

/-- A row by which its entry on the device can be found and removed. -/
structure LinkedRow (db : Db) (device : String) (scopeId entryId : Nat) (r : Reservation) : Prop where
  active : r.status = .active
  settled : r.pushStatus ≠ some .pending
  scope : r.pushedScopeId = some scopeId
  entry : r.pushedEntryId = some entryId
  transport : ∃ i, db.findIntegration r.pushedToId = some i ∧
    buildTransportForIntegration i device (.ok (some "192.0.2.1")) = .ok ()
  subnet : ∃ s, db.findSubnet r.subnetId = some s ∧ ∀ d ∈ truthy s.fortigateDevice, d = device

def Link (db : Db) (device : String) (scopeId entryId id : Nat) : Prop :=
  ∃ r, db.reservations.find id = some ⟨id, r⟩ ∧ LinkedRow db device scopeId entryId r

/-- Every entry that was written for a reservation is linked to it. -/
def Linked (w : World) : Prop :=
  ∀ device scopeId, ∀ e ∈ (w.gateways device).reserved scopeId, ∀ id, e.writtenFor = some id →
    Link w.db device scopeId e.id id

def Carries (w : World) (id : Nat) : Prop :=
  ∃ device scopeId, ∃ e ∈ (w.gateways device).reserved scopeId, e.writtenFor = some id

variable {w : World} {db db' : Db} {device : String} {scopeId entryId id : Nat} {r : Reservation}

theorem Linked.noOrphans (h : Linked w) : NoOrphans w := by
  intro device scopeId e he id hid
  obtain ⟨r, hr, hrow⟩ := h device scopeId e he id hid
  exact ⟨⟨id, r⟩, hr, hrow.active, hrow.scope, hrow.entry⟩

theorem linked_of_links {w' : World} (h : Linked w)
    (hentries : ∀ device scopeId, ∀ e ∈ (w'.gateways device).reserved scopeId,
      e ∈ (w.gateways device).reserved scopeId)
    (hlinks : ∀ device scopeId entryId id, Link w.db device scopeId entryId id → Carries w' id →
      Link w'.db device scopeId entryId id) : Linked w' := by
  intro device scopeId e he id hid
  exact hlinks device scopeId e.id id (h device scopeId e (hentries device scopeId e he) id hid)
    ⟨device, scopeId, e, he, hid⟩

theorem LinkedRow.of_tables (h : LinkedRow db device scopeId entryId r)
    (htables : db'.subnets = db.subnets ∧ db'.integrations = db.integrations) :
    LinkedRow db' device scopeId entryId r := by
  have hint : db'.findIntegration = db.findIntegration := by
    unfold Db.findIntegration
    rw [htables.2]
  have hsub : db'.findSubnet = db.findSubnet := by
    unfold Db.findSubnet
    rw [htables.1]
  exact ⟨h.active, h.settled, h.scope, h.entry, hint ▸ h.transport, hsub ▸ h.subnet⟩

theorem Link.of_find (h : Link db device scopeId entryId id)
    (hfind : ∀ r, db.reservations.find id = some ⟨id, r⟩ → r.status = .active →
      db'.reservations.find id = some ⟨id, r⟩)
    (htables : db'.subnets = db.subnets ∧ db'.integrations = db.integrations) :
    Link db' device scopeId entryId id := by
  obtain ⟨r, hr, hrow⟩ := h
  exact ⟨r, hfind r hr hrow.active, hrow.of_tables htables⟩

variable {writer : Writer} {f : Reservation → Reservation}

theorem link_createRow (data : Reservation) (h : Link db device scopeId entryId id) :
    Link (db.createRow writer data).1 device scopeId entryId id :=
  h.of_find (fun _ hr _ => Db.find_createRow hr) (Db.tables_createRow db writer data)

theorem link_updateRow_ne {id' : Nat} (hne : id' ≠ id) (h : Link db device scopeId entryId id) :
    Link (db.updateRow writer id' f).1 device scopeId entryId id :=
  h.of_find (fun _ hr _ => Db.find_updateRow_ne hne hr) (Db.tables_updateRow db writer id' f)

theorem link_updateRows {p : Row Reservation → Bool} (hp : ∀ r ∈ db.rows, r.id = id → p r = false)
    (h : Link db device scopeId entryId id) : Link (db.updateRows writer p f).1 device scopeId entryId id :=
  h.of_find (fun _ hr _ => Db.find_updateRows_of_not (hp _ (Table.mem_of_find hr).1 rfl) hr)
    (Db.tables_updateRows db writer p f)

theorem link_deleteRows {p : Row Reservation → Bool}
    (hp : ∀ r ∈ db.rows, r.id = id → r.data.status = .active → p r = false)
    (h : Link db device scopeId entryId id) : Link (db.deleteRows p) device scopeId entryId id :=
  h.of_find (fun _ hr hst => Db.find_deleteRows_of_not (hp _ (Table.mem_of_find hr).1 rfl hst) hr) ⟨rfl, rfl⟩

theorem link_subnets {g : Subnet → Subnet} (hid : ∀ s, (g s).id = s.id)
    (hdev : ∀ s, (g s).fortigateDevice = s.fortigateDevice ∨ (g s).fortigateDevice = none)
    (h : Link db device scopeId entryId id) :
    Link { db with subnets := db.subnets.map g } device scopeId entryId id := by
  obtain ⟨r, hr, hrow⟩ := h
  obtain ⟨s, hs, hdevice⟩ := hrow.subnet
  refine ⟨r, hr, hrow.active, hrow.settled, hrow.scope, hrow.entry, hrow.transport, g s, ?_, ?_⟩
  · rw [Db.findSubnet_map hid, hs, Option.map_some]
  · intro d hd
    obtain hsame | hnone := hdev s
    · exact hdevice d (hsame ▸ hd)
    · rw [hnone] at hd
      cases hd

theorem link_setSubnetStatus (subnetId : String) (status : SubnetStatus)
    (h : Link db device scopeId entryId id) :
    Link (db.setSubnetStatus subnetId status) device scopeId entryId id := by
  refine link_subnets (fun s => ?_) (fun s => ?_) h
  · by_cases hs : s.id = subnetId <;> simp [hs]
  · by_cases hs : s.id = subnetId <;> simp [hs]

end Links

section Conditions

/-- A reservation that has an entry does not expire, does not make way as a
fallback row, and is released only while its subnet has a device. -/
def Clear (w : World) : Call → Prop
  | .createReservation input _ => ∀ ip, truthy input.ipAddress = some ip →
    ∀ r ∈ w.db.rows, dnsResolvedAt input.subnetId ip r → ¬ Carries w r.id
  | .releaseReservation id => Carries w id →
    ∀ r s, w.db.findReservation id = .ok (r, s) → truthy s.fortigateDevice ≠ none
  | .expireStaleReservations now => ∀ r ∈ w.db.rows, stale now r → ¬ Carries w r.id
  | .updateReservation _ _ _ _ | .updateSubnet _ _ | .deleteSubnet _ => True

variable {N : Package} {w : World} {now : Nat}

theorem linked_expire (h : Linked w) (hc : Clear w (.expireStaleReservations now)) :
    Linked (run N w (.expireStaleReservations now)) := by
  refine linked_of_links h (fun _ _ _ he => he) fun device scopeId entryId id hlink hcarries => ?_
  refine link_updateRows (fun r hr hid => ?_) hlink
  by_contra hstale
  exact hc r hr (by simpa using hstale) (hid ▸ hcarries)

theorem linked_updateSubnet {id : String} {input : UpdateSubnetInput} (h : Linked w) :
    Linked (run N w (.updateSubnet id input)) := by
  refine linked_of_links h (fun _ _ _ he => he) fun device scopeId entryId id' hlink _ => ?_
  change Link (updateSubnet w.db id input).1 _ _ _ _
  rw [updateSubnet]
  split
  · exact hlink
  · refine link_subnets (fun s => ?_) (fun s => ?_) hlink
    · by_cases hs : s.id = id <;> simp [hs, applySubnetInput]
    · by_cases hs : s.id = id
      · cases hm : input.convertToManual <;> simp [hs, applySubnetInput, hm]
      · simp [hs]

theorem linked_deleteSubnet {id : String} (h : Linked w) : Linked (run N w (.deleteSubnet id)) := by
  refine linked_of_links h (fun _ _ _ he => he) fun device scopeId entryId id' hlink _ => ?_
  change Link (deleteSubnet w.db id).1 _ _ _ _
  rw [deleteSubnet]
  split
  · exact hlink
  · dsimp only
    split
    · exact hlink
    · next hcount =>
      obtain ⟨r, hr, hrow⟩ := hlink
      have hne : r.subnetId ≠ id := by
        intro heq
        refine hcount (List.countP_pos_iff.mpr ⟨⟨id', r⟩, (Table.mem_of_find hr).1, ?_⟩)
        simp [heq, hrow.active]
      obtain ⟨s, hs, hdevice⟩ := hrow.subnet
      refine ⟨r, Db.find_deleteRows_of_not (decide_eq_false hne) hr, hrow.active, hrow.settled, hrow.scope,
        hrow.entry, hrow.transport, s, ?_, hdevice⟩
      have hfilter : (w.db.subnets.filter (·.id ≠ id)).find? (·.id = r.subnetId) =
          w.db.subnets.find? (·.id = r.subnetId) := by
        rw [List.find?_filter]
        congr 1
        ext s
        by_cases hsid : s.id = r.subnetId
        · simp [hsid, hne]
        · simp [hsid]
      exact hfilter.trans hs

end Conditions

section Release

variable {N : Package} {w : World} {g : Gateway} {scopeId entryId : Nat} {integration : Integration}
  {deviceName : String}

theorem unpushReservation_subset {s : Nat} {e : ReservedAddress}
    (he : e ∈ (unpushReservation g scopeId entryId integration deviceName {}).1.reserved s) :
    e ∈ g.reserved s := by
  unfold unpushReservation at he
  split at he
  · exact he
  · dsimp only at he
    split_ifs at he
    · exact (Gateway.mem_delete.mp he).1
    · exact he

theorem unpushReservation_gone {e : ReservedAddress}
    (ht : buildTransportForIntegration integration deviceName (.ok (some "192.0.2.1")) = .ok ())
    (he : e ∈ (unpushReservation g scopeId entryId integration deviceName {}).1.reserved scopeId) :
    e.id ≠ entryId := by
  have hg : (unpushReservation g scopeId entryId integration deviceName {}).1 =
      if (g.reserved scopeId).any (·.id = entryId) then g.delete scopeId entryId else g := by
    by_cases hthere : (g.reserved scopeId).any (·.id = entryId) = true
    · simp only [unpushReservation, ht, fetch, call, hthere, if_true]
    · simp only [unpushReservation, ht, fetch, call, hthere, Bool.false_eq_true, if_false]
  intro hid
  rw [hg] at he
  split_ifs at he with hthere
  · exact (Gateway.mem_delete.mp he).2 ⟨rfl, hid⟩
  · exact hthere (List.any_eq_true.mpr ⟨e, he, decide_eq_true hid⟩)

variable {row : Row Reservation} {subnet : Subnet}

theorem unpushReleased_subset {device : String} {s : Nat} {e : ReservedAddress}
    (he : e ∈ ((unpushReleased w row.data subnet {}).1.gateways device).reserved s) :
    e ∈ (w.gateways device).reserved s := by
  unfold unpushReleased at he
  split at he
  · split_ifs at he
    · exact he
    · rename_i deviceName _ _ _ _ _
      by_cases hd : device = deviceName
      · subst hd
        simp only [setGateway, Function.update_self] at he
        exact unpushReservation_subset he
      · simp only [setGateway, Function.update_of_ne hd] at he
        exact he
  · exact he

theorem unpushReleased_gone (h : Linked w) (hfound : w.db.findReservation row.id = .ok (row, subnet))
    (hdev : Carries w row.id → truthy subnet.fortigateDevice ≠ none) :
    ¬ Carries (unpushReleased w row.data subnet {}).1 row.id := by
  rintro ⟨device, scopeId, e, he, hid⟩
  have hold := unpushReleased_subset he
  obtain ⟨r, hr, hrow⟩ := h device scopeId e hold row.id hid
  obtain ⟨hrow', hsub⟩ := Db.findReservation_ok hfound
  obtain ⟨id, data⟩ := row
  cases hrow'.symm.trans hr
  obtain ⟨i, hi, ht⟩ := hrow.transport
  obtain ⟨s, hs, hdevice⟩ := hrow.subnet
  cases hs.symm.trans hsub
  obtain ⟨d, hd⟩ := Option.ne_none_iff_exists'.mp (hdev ⟨device, scopeId, e, hold, hid⟩)
  obtain rfl := hdevice d hd
  rw [unpushReleased, hi, hrow.scope, hrow.entry, hd] at he
  simp only [if_neg hrow.settled, setGateway, Function.update_self] at he
  exact unpushReservation_gone ht he rfl

theorem link_commitRelease {db : Db} {device : String} {id : Nat} (hne : row.id ≠ id)
    (h : Link db device scopeId entryId id) : Link (commitRelease db row).1 device scopeId entryId id := by
  have hdeleted : Link (db.deleteRows (releasedTwin row)) device scopeId entryId id := by
    refine link_deleteRows (fun r _ _ hst => ?_) h
    simp [releasedTwin, hst]
  have hupdated : Link ((db.deleteRows (releasedTwin row)).updateRow .release row.id stampReleased).1 device
      scopeId entryId id := link_updateRow_ne hne hdeleted
  revert hupdated
  rw [commitRelease]
  rcases (db.deleteRows (releasedTwin row)).updateRow .release row.id stampReleased with ⟨db', e | released⟩
  · intro _
    exact h.of_find (fun _ hr _ => hr) ⟨rfl, rfl⟩
  · intro hupdated
    dsimp only
    split_ifs
    · exact hupdated
    · exact link_setSubnetStatus _ _ hupdated

theorem linked_release {id : Nat} (h : Linked w) (hc : Clear w (.releaseReservation id)) :
    Linked (run N w (.releaseReservation id)) := by
  change Linked (releaseReservation w id {}).1
  rw [releaseReservation]
  cases hfound : w.db.findReservation id with
  | error e => exact h
  | ok found =>
    obtain ⟨row, subnet⟩ := found
    obtain rfl : row.id = id := (Table.mem_of_find (Db.findReservation_ok hfound).1).2
    dsimp only
    split_ifs
    · exact h
    · have hgone := unpushReleased_gone h hfound fun hcarries => hc hcarries row subnet hfound
      refine linked_of_links h (fun _ _ _ he => unpushReleased_subset he)
        fun device scopeId entryId id' hlink hcarries => ?_
      change Link (commitRelease (unpushReleased w row.data subnet {}).1.db row).1 _ _ _ _
      rw [unpushReleased_db]
      refine link_commitRelease (fun heq => hgone ?_) hlink
      rw [heq]
      exact hcarries

end Release

section Create

variable {N : Package} {w : World} {db : Db} {input : CreateReservationInput} {device : String}
  {scopeId entryId id : Nat}

theorem link_insert (h : Link db device scopeId entryId id)
    (hkeep : ∀ ip, truthy input.ipAddress = some ip → ∀ r ∈ db.rows, r.id = id →
      dnsResolvedAt input.subnetId ip r = false) :
    Link (insertReservation db input).1 device scopeId entryId id := by
  rw [insertReservation]
  split
  · next ip hip => exact link_createRow _ (link_updateRows (hkeep ip hip) h)
  · have hc : Link (db.createRow .create (newReservation input)).1 device scopeId entryId id :=
      link_createRow _ h
    revert hc
    rcases db.createRow .create (newReservation input) with ⟨db', e | r⟩
    · exact fun hc => hc
    · exact fun hc => link_setSubnetStatus _ _ hc

theorem linked_insert {now : Nat} (h : Linked w) (hc : Clear w (.createReservation input now)) :
    Linked { w with db := (insertReservation w.db input).1 } := by
  refine linked_of_links h (fun _ _ _ he => he) fun device scopeId entryId id hlink hcarries => ?_
  refine link_insert hlink fun ip hip r hr hid => ?_
  by_contra hdns
  exact hc ip hip r hr (by simpa using hdns) (hid ▸ hcarries)

theorem not_carries_of_none {row : Row Reservation} (h : Linked w)
    (hfind : w.db.reservations.find id = some row) (hnone : row.data.pushedEntryId = none) :
    ¬ Carries w id := by
  rintro ⟨device, scopeId, e, he, hid⟩
  obtain ⟨r, hr, hrow⟩ := h device scopeId e he id hid
  cases hfind.symm.trans hr
  cases hnone.symm.trans hrow.entry

theorem linked_updateRow_of_not {writer : Writer} {f : Reservation → Reservation} (h : Linked w)
    (hnot : ¬ Carries w id) : Linked { w with db := (w.db.updateRow writer id f).1 } :=
  linked_of_links h (fun _ _ _ he => he) fun _ _ _ _ hlink hcarries =>
    link_updateRow_ne (fun heq => hnot (heq ▸ hcarries)) hlink

theorem linked_settleCreate {subnet : Subnet} {now : Nat} {e : Failure} (h : Linked w)
    (hnot : ¬ Carries w id) :
    Linked { w with db := (settleCreate w.db subnet id now (.error e)).1 } := by
  rw [settleCreate]
  cases classifyPushError e with
  | transient => exact linked_updateRow_of_not h hnot
  | permanent =>
    refine linked_of_links h (fun _ _ _ he => he) fun _ _ _ id' hlink hcarries => ?_
    refine link_deleteRows (fun r _ hid _ => decide_eq_false fun heq => hnot ?_) hlink
    rw [← heq, hid]
    exact hcarries

theorem resolvePushEligibility_some {subnet : Subnet} {integration : Option Integration} {ip : Option String}
    {target : PushTarget} (h : resolvePushEligibility subnet integration ip = some target) :
    integration = some target.integration ∧ target.deviceName = subnet.fortigateDevice.getD "" := by
  unfold resolvePushEligibility at h
  split at h
  · split at h
    · cases h
    all_goals
      split_ifs at h
      cases h
      exact ⟨rfl, rfl⟩
  · cases h

theorem linked_pushed {p : PushParams} {scope : Nat × Option String} {row : Reservation} {now : Nat}
    {pushedTo : Option String} (h : Linked w) (hnot : ¬ Carries w id)
    (hfind : w.db.reservations.find id = some ⟨id, row⟩) (hid : p.reservationId = id)
    (hactive : row.status = .active)
    (htransport : ∃ i, w.db.findIntegration pushedTo = some i ∧
      buildTransportForIntegration i device (.ok (some "192.0.2.1")) = .ok ())
    (hsubnet : ∃ s, w.db.findSubnet row.subnetId = some s ∧ ∀ d ∈ truthy s.fortigateDevice, d = device) :
    Linked (setGateway { w with db := (w.db.updateRow .push id (stampPushed
      ⟨scope.1, (w.gateways device).nextEntryId, scope.2, pushDescription p⟩ pushedTo now)).1 } device
      ((w.gateways device).create scope.1 (newEntry p)).1) := by
  have hkey : ∀ a,
    uniqueKey (stampPushed ⟨scope.1, (w.gateways device).nextEntryId, scope.2, pushDescription p⟩
      pushedTo now a) = uniqueKey a := fun _ => rfl
  obtain ⟨t, -, hc⟩ := Db.updateRow_of_key (w := .push) hfind hkey
  have hstamped := Db.find_of_updateRow_ok (congrArg Prod.snd hc)
  have htables := Db.tables_updateRow w.db .push id (stampPushed
    ⟨scope.1, (w.gateways device).nextEntryId, scope.2, pushDescription p⟩ pushedTo now)
  have hold : ∀ d s, ∀ e ∈ (w.gateways d).reserved s, ∀ id', e.writtenFor = some id' →
      Link (w.db.updateRow .push id (stampPushed ⟨scope.1, (w.gateways device).nextEntryId, scope.2,
        pushDescription p⟩ pushedTo now)).1 d s e.id id' := by
    intro d s e he id' hid'
    refine link_updateRow_ne (fun heq => hnot ?_) (h d s e he id' hid')
    exact ⟨d, s, e, he, heq ▸ hid'⟩
  intro d s e he id' hid'
  by_cases hd : d = device
  · subst hd
    simp only [setGateway, Function.update_self] at he
    obtain he | ⟨hs, rfl⟩ := Gateway.mem_create.mp he
    · exact hold d s e he id' hid'
    · subst hs
      obtain rfl : id = id' := hid.symm.trans (Option.some.inj hid')
      have hrow : LinkedRow w.db d scope.1 (w.gateways d).nextEntryId (stampPushed
          ⟨scope.1, (w.gateways d).nextEntryId, scope.2, pushDescription p⟩ pushedTo now row) :=
        ⟨hactive, by simp [stampPushed], rfl, rfl, htransport, hsubnet⟩
      exact ⟨_, hstamped, hrow.of_tables htables⟩
  · simp only [setGateway, Function.update_of_ne hd] at he
    exact hold d s e he id' hid'

theorem tables_insert {ip : String} (hip : truthy input.ipAddress = some ip) :
    (insertReservation db input).1.subnets = db.subnets ∧
      (insertReservation db input).1.integrations = db.integrations := by
  rw [insertReservation, hip]
  have hrelease := Db.tables_updateRows db .dnsReleaseAt (dnsResolvedAt input.subnetId ip) markReleased
  have hcreate := Db.tables_createRow (releaseDnsResolvedAt db input.subnetId ip) .create
    (newReservation input)
  exact ⟨hcreate.1.trans hrelease.1, hcreate.2.trans hrelease.2⟩

theorem openSubnet_ok {subnetId : String} {subnet : Subnet} (h : openSubnet db subnetId = .ok subnet) :
    db.findSubnet subnetId = some subnet := by
  unfold openSubnet at h
  split at h
  · cases h
  · next s hs =>
    split_ifs at h
    cases h
    exact hs

theorem setGateway_self (w : World) (device : String) : setGateway w device (w.gateways device) = w := by
  rw [setGateway, Function.update_eq_self]

theorem setGateway_db (w : World) (device : String) (g : Gateway) : (setGateway w device g).db = w.db := rfl

theorem linked_pushCreated {subnet : Subnet} {target : PushTarget} {row : Reservation} {ip mac : String}
    {now : Nat} (h : Linked w) (hnot : ¬ Carries w id) (hfind : w.db.reservations.find id = some ⟨id, row⟩)
    (hactive : row.status = .active) (hint : w.db.integrationOf subnet = some target.integration)
    (hsub : w.db.findSubnet row.subnetId = some subnet)
    (hdev : target.deviceName = subnet.fortigateDevice.getD "") :
    Linked (pushCreated N w input subnet target id ip mac now {}).1 := by
  rw [pushCreated]
  split_ifs
  · exact linked_updateRow_of_not h hnot
  · dsimp only
    obtain ⟨e, hpush⟩ | ⟨scope, hprepare, hpush⟩ := @pushReservation_cases N (w.gateways target.deviceName)
      (createPushParams input subnet target id ip mac) {} fun _ => ⟨rfl, rfl⟩
    · rw [hpush]
      have hsame : setGateway
        { w with db := (settleCreate w.db subnet id now (.error e)).1 } target.deviceName
          (w.gateways target.deviceName) = { w with db := (settleCreate w.db subnet id now (.error e)).1 } :=
        setGateway_self _ _
      exact hsame.symm ▸ linked_settleCreate h hnot
    · rw [hpush]
      obtain ⟨-, htransport, -⟩ := preparePush_ok hprepare
      refine linked_pushed h hnot hfind rfl hactive ⟨target.integration, hint, htransport⟩ ⟨subnet, hsub, ?_⟩
      intro d hd
      rw [hdev, (truthy_some hd).1]
      rfl

theorem linked_create {now : Nat} (h : Linked w) (hc : Clear w (.createReservation input now)) :
    Linked (run N w (.createReservation input now)) := by
  change Linked (createReservation N w input now {}).1
  rw [createReservation]
  cases hcheck : checkCreate N w.db input with
  | error e => exact h
  | ok c =>
    obtain ⟨subnet, push⟩ := c
    obtain ⟨hopen, -, -, hpush⟩ := checkCreate_ok hcheck
    have hinsert := linked_insert h hc
    have hok := @insertReservation_ok w.db input
    have htables := @tables_insert w.db input
    revert hinsert hok htables
    rcases insertReservation w.db input with ⟨db, e | row⟩
    · exact fun hinsert _ _ => hinsert
    · intro hinsert hok htables
      obtain ⟨hrow, hfind⟩ := hok rfl
      dsimp only
      split
      · next target ip mac htarget hip hmac =>
        obtain ⟨hint, hdev⟩ := resolvePushEligibility_some hpush.symm
        obtain ⟨hsubnets, hints⟩ := htables hip
        subst hrow
        refine linked_pushCreated hinsert (not_carries_of_none hinsert hfind rfl) hfind rfl ?_ ?_ hdev
        · rw [Db.integrationOf, Db.findIntegration, hints]
          exact hint
        · rw [Db.findSubnet, hsubnets]
          exact openSubnet_ok hopen
      · exact hinsert

end Create

section Update

variable {N : Package} {w : World} {input : UpdateReservationInput} {actor : Option String} {now id : Nat}

theorem linked_applyInput (changedMac : Option (Option String)) (h : Linked w) :
    Linked { w with db := (w.db.updateRow .update id (applyInput input actor changedMac)).1 } := by
  refine linked_of_links h (fun _ _ _ he => he) fun device scopeId entryId id' hlink _ => ?_
  by_cases hid : id = id'
  · subst hid
    obtain ⟨r, hr, hrow⟩ := hlink
    have htables := Db.tables_updateRow w.db .update id (applyInput input actor changedMac)
    obtain hfind | hfind := Db.find_updateRow_self (w := .update) (f := applyInput input actor changedMac) hr
    · have hrow' : LinkedRow w.db device scopeId entryId (applyInput input actor changedMac r) :=
        ⟨hrow.active, hrow.settled, hrow.scope, hrow.entry, hrow.transport, hrow.subnet⟩
      exact ⟨_, hfind, hrow'.of_tables htables⟩
    · exact ⟨r, hfind, hrow.of_tables htables⟩
  · exact link_updateRow_ne hid hlink

/-- The entry written for a row is the one a PUT for the row finds. -/
theorem findEntry_linked {row : Reservation} {subnet : Subnet} {target : PushTarget} {ip mac : String}
    {scopeId : Nat} {entry e : ReservedAddress} (h : Linked w)
    (hfind : w.db.reservations.find id = some ⟨id, row⟩)
    (hscope : ∀ s, row.pushedScopeId = some s → scopeId = s)
    (hentry : findEntry ((w.gateways target.deviceName).reserved scopeId)
      (updateParams input ⟨id, row⟩ subnet target ip mac) = some entry) {s : Nat}
    (he : e ∈ (w.gateways target.deviceName).reserved s) (hid : e.writtenFor = some id) :
    s = scopeId ∧ e = entry := by
  obtain ⟨r, hr, hrow⟩ := h target.deviceName s e he id hid
  cases hfind.symm.trans hr
  obtain rfl : scopeId = s := hscope s hrow.scope
  refine ⟨rfl, ?_⟩
  have hpinned : (updateParams input ⟨id, row⟩ subnet target ip mac).entryId = some e.id := hrow.entry
  rw [findEntry, hpinned, Option.bind_some, Gateway.find_of_id he, Option.some_or] at hentry
  exact Option.some.inj hentry

theorem linked_pushUpdate {row : Reservation} {subnet : Subnet} {target : PushTarget} {ip mac : String}
    {res : PushReservationResult} {changedMac : Option (Option String)} (h : Linked w)
    (hfind : w.db.reservations.find id = some ⟨id, row⟩) (hactive : row.status = .active)
    (hsub : w.db.findSubnet row.subnetId = some subnet)
    (htarget : updatePushTarget w.db subnet row.ipAddress = some (target, ip))
    (hres : (updatePushedReservation N (w.gateways target.deviceName)
      (updateParams input ⟨id, row⟩ subnet target ip mac) {}).2 = .ok res) :
    Linked { setGateway w target.deviceName (updatePushedReservation N (w.gateways target.deviceName)
        (updateParams input ⟨id, row⟩ subnet target ip mac) {}).1 with
      db := (w.db.updateRow .update id
        (stampUpdated res target.integration.id now ∘ applyInput input actor changedMac)).1 } := by
  obtain ⟨htransport, hscope, entry, hentry, hentryId, hg⟩ := updatePushedReservation_ok hres
  obtain ⟨hint, hdev, -⟩ := updatePushTarget_some htarget
  obtain ⟨t, -, hc⟩ := Db.updateRow_of_key (w := .update) (f := stampUpdated res target.integration.id now ∘
    applyInput input actor changedMac) hfind fun _ => rfl
  have hstamped := Db.find_of_updateRow_ok (congrArg Prod.snd hc)
  have htables := Db.tables_updateRow w.db .update id (stampUpdated res target.integration.id now ∘
    applyInput input actor changedMac)
  have hother : ∀ d s, ∀ e ∈ (w.gateways d).reserved s, ∀ id', e.writtenFor = some id' → id' ≠ id →
      Link (w.db.updateRow .update id (stampUpdated res target.integration.id now ∘
        applyInput input actor changedMac)).1 d s e.id id' := fun d s e he id' hid' hne =>
    link_updateRow_ne (Ne.symm hne) (h d s e he id' hid')
  intro d s e he id' hid'
  by_cases hd : d = target.deviceName
  · subst hd
    simp only [setGateway, Function.update_self, hg] at he
    obtain ⟨a, ha, rfl⟩ := Gateway.mem_modify.mp he
    by_cases hown : s = res.scopeId ∧ a.id = entry.id
    · obtain ⟨rfl, haid⟩ := hown
      have hamend : Gateway.amendEntry entry.id
        (updateEntry (updateParams input ⟨id, row⟩ subnet target ip mac)) a =
          updateEntry (updateParams input ⟨id, row⟩ subnet target ip mac) a := if_pos haid
      rw [if_pos rfl, hamend] at hid' ⊢
      obtain rfl : id = id' := Option.some.inj hid'
      have hrow : LinkedRow w.db target.deviceName res.scopeId a.id
        ((stampUpdated res target.integration.id now ∘
          applyInput input actor changedMac) row) :=
        ⟨hactive, by simp [stampUpdated], rfl, congrArg some (hentryId.trans haid.symm),
          ⟨target.integration, hint, htransport⟩, subnet, hsub, fun d hd =>
            Option.some.inj (hd.symm.trans hdev)⟩
      exact ⟨_, hstamped, hrow.of_tables htables⟩
    · have hsame : (if s = res.scopeId then Gateway.amendEntry entry.id
        (updateEntry (updateParams input ⟨id, row⟩
          subnet target ip mac)) a else a) = a := by
        split_ifs with hs
        · exact if_neg fun haid => hown ⟨hs, haid⟩
        · rfl
      rw [hsame] at hid' ⊢
      refine hother _ s a ha id' hid' fun heq => hown ?_
      obtain ⟨rfl, rfl⟩ := findEntry_linked h hfind hscope hentry ha (heq ▸ hid')
      exact ⟨rfl, rfl⟩
  · simp only [setGateway, Function.update_of_ne hd] at he
    refine hother d s e he id' hid' fun heq => hd ?_
    obtain ⟨r, hr, hrow⟩ := h d s e he id' hid'
    subst heq
    cases hfind.symm.trans hr
    obtain ⟨s', hs', hdevice⟩ := hrow.subnet
    cases hs'.symm.trans hsub
    exact (hdevice _ hdev).symm

theorem pushUpdate_error {w' : World} {row : Row Reservation} {subnet : Subnet}
    {changedMac : Option (Option String)} {e : Failure}
    (h : pushUpdate N w input row subnet changedMac now {} = (w', .error e)) : w' = w := by
  unfold pushUpdate at h
  split at h
  · next target ip newMac htarget =>
    split_ifs at h
    · cases newMac <;> cases h
      rfl
    · cases newMac with
      | none =>
        cases h
        rfl
      | some mac =>
        dsimp only at h
        obtain ⟨e', hpush⟩ | ⟨res, hpush⟩ := @updatePushedReservation_cases N (w.gateways target.deviceName)
          (updateParams input row subnet target ip mac) {} rfl rfl
        · rw [hpush] at h
          exact (congrArg Prod.fst h).symm.trans (setGateway_self w target.deviceName)
        · rw [hpush] at h
          cases congrArg Prod.snd h
  · cases h

theorem linked_update (h : Linked w) : Linked (run N w (.updateReservation id input actor now)) := by
  change Linked (updateReservation N w id input actor now {}).1
  rw [updateReservation]
  cases hfound : w.db.findReservation id with
  | error e => exact h
  | ok found =>
    obtain ⟨⟨rid, row⟩, subnet⟩ := found
    obtain ⟨hfind, hsub⟩ := Db.findReservation_ok hfound
    obtain rfl : rid = id := (Table.mem_of_find hfind).2
    dsimp only
    split_ifs with hactive
    · exact h
    · cases parseNewMac input with
      | error e => exact h
      | ok newMac =>
        dsimp only
        rcases hpush : pushUpdate N w input ⟨rid, row⟩ subnet (macChange row newMac) now {}
          with ⟨w', e | stamp⟩
        · exact pushUpdate_error hpush ▸ h
        · obtain ⟨-, rfl, rfl⟩ | ⟨target, ip, mac, res, htarget, -, hres, rfl, rfl⟩ := pushUpdate_ok hpush
          · exact linked_applyInput (macChange row newMac) h
          · dsimp only
            rw [setGateway_db]
            exact linked_pushUpdate h hfind (not_not.mp hactive) hsub htarget hres

end Update

section Runs

variable {N : Package}

theorem linked_run (w : World) (c : Call) (h : Linked w) (hc : Clear w c) : Linked (run N w c) := by
  cases c with
  | createReservation input now => exact linked_create h hc
  | updateReservation id input actor now => exact linked_update h
  | releaseReservation id => exact linked_release h hc
  | expireStaleReservations now => exact linked_expire h hc
  | updateSubnet id input => exact linked_updateSubnet h
  | deleteSubnet id => exact linked_deleteSubnet h

/-- Calls that each give up an entry before its reservation ends leave no
entry behind. -/
theorem no_orphans (N : Package) (w : World) (calls : List Call) (h : Linked w)
    (hc : Along (run N) Clear w calls) : NoOrphans (calls.foldl (run N) w) :=
  (foldl_invariant linked_run h hc).noOrphans

end Runs

section Plant

theorem linked_plant : Linked plant := by
  intro device scopeId e he
  cases he

def guest : CreateReservationInput := { camera with expiresAt := some 5 }

def orderly : List Call :=
  [.createReservation guest 1, .updateReservation 0 { macAddress := some "aa:bb:cc:dd:ee:00" } none 2,
   .expireStaleReservations 3, .updateSubnet "lan" { status := some .reserved }, .releaseReservation 0,
   .deleteSubnet "lan"]

theorem no_orphans_orderly : NoOrphans (orderly.foldl (run reference) plant) := by
  refine no_orphans reference plant orderly linked_plant
    ⟨?_, trivial, ?_, trivial, ?_, trivial, trivial⟩
  · intro ip _ r hr
    cases hr
  · have hnone : ∀ r ∈ ((orderly.take 2).foldl (run reference) plant).db.rows,
        ReservationService.stale 3 r = false := by decide +kernel
    intro r hr hstale
    exact absurd (hnone r hr) (by simp [hstale])
  · have hdevice : ((((orderly.take 4).foldl (run reference) plant).db.findReservation 0).toOption.map
        fun found => truthy found.2.fortigateDevice) = some (some "fg1") := by decide +kernel
    intro _ r s hfound
    change ((orderly.take 4).foldl (run reference) plant).db.findReservation 0 = _ at hfound
    rw [hfound] at hdevice
    have hs : truthy s.fortigateDevice = some "fg1" := Option.some.inj hdevice
    simp [hs]

/-- The entry is on the device and no reservation is active. -/
def Abandoned (w : World) : Prop :=
  (∃ e ∈ (w.gateways "fg1").reserved 1, e.writtenFor = some 0) ∧ ∀ r ∈ w.db.rows, r.data.status ≠ .active

instance (w : World) : Decidable (Abandoned w) := inferInstanceAs (Decidable (_ ∧ _))

theorem Abandoned.orphan {w : World} (h : Abandoned w) : ¬ NoOrphans w := by
  intro hno
  obtain ⟨⟨e, he, hid⟩, hended⟩ := h
  obtain ⟨r, hr, hactive, -⟩ := hno "fg1" 1 e he 0 hid
  exact hended r (Table.mem_of_find hr).1 hactive

def expired : List Call := [.createReservation guest 1, .expireStaleReservations 6]

def converted : List Call :=
  [.createReservation guest 1, .updateSubnet "lan" { convertToManual := true }, .releaseReservation 0]

/-- An expired reservation leaves its entry behind, and so does one that is
released after its subnet has lost its device. -/
theorem ended_rows_leave_entries :
    (Abandoned (expired.foldl (run reference) plant) ∧ ¬ NoOrphans (expired.foldl (run reference) plant)) ∧
      Abandoned (converted.foldl (run reference) plant) ∧
      ¬ NoOrphans (converted.foldl (run reference) plant) := by
  have hexpired : Abandoned (expired.foldl (run reference) plant) := by decide +kernel
  have hconverted : Abandoned (converted.foldl (run reference) plant) := by decide +kernel
  exact ⟨⟨hexpired, hexpired.orphan⟩, hconverted, hconverted.orphan⟩

end Plant

end Polaris.OrphanEntries
