import Polaris.Lib.Store
import Polaris.SubnetService
import Polaris.ReservationPush

namespace Polaris.Reservations

open Polaris.Lib.Store Polaris.Cidr Polaris.SubnetService Polaris.Transport Polaris.ReservationPush

inductive ReservationStatus
  | active | expired | released
  deriving DecidableEq

def ReservationStatus.text : ReservationStatus → String
  | .active => "active"
  | .expired => "expired"
  | .released => "released"

inductive SourceType
  | manual | dhcpReservation | dhcpLease | interfaceIp | vip | fortiswitch | fortinap
  | fortimanager | fortigate | dnsResolved
  deriving DecidableEq

def SourceType.text : SourceType → String
  | .manual => "manual"
  | .dhcpReservation => "dhcp_reservation"
  | .dhcpLease => "dhcp_lease"
  | .interfaceIp => "interface_ip"
  | .vip => "vip"
  | .fortiswitch => "fortiswitch"
  | .fortinap => "fortinap"
  | .fortimanager => "fortimanager"
  | .fortigate => "fortigate"
  | .dnsResolved => "dns_resolved"

inductive PushStatus
  | synced | drift | pending | failedPermanent
  deriving DecidableEq

def PushStatus.text : PushStatus → String
  | .synced => "synced"
  | .drift => "drift"
  | .pending => "pending"
  | .failedPermanent => "failed_permanent"

structure Reservation where
  subnetId : String
  ipAddress : Option String
  hostname : Option String := none
  owner : Option String := none
  projectRef : Option String := none
  expiresAt : Option Nat := none
  notes : Option String := none
  status : ReservationStatus := .active
  sourceType : SourceType := .manual
  createdBy : Option String := none
  macAddress : Option String := none
  pushedToId : Option String := none
  pushedScopeId : Option Nat := none
  pushedEntryId : Option Nat := none
  pushStatus : Option PushStatus := none
  pushedAt : Option Nat := none
  pushError : Option String := none
  pushQueuedAt : Option Nat := none
  pushAttempts : Nat := 0
  pushLastAttemptAt : Option Nat := none
  lastSeenLeased : Option Nat := none
  deriving DecidableEq

def uniqueKey (r : Reservation) : Option (String × String × ReservationStatus) :=
  r.ipAddress.map fun ip => (r.subnetId, ip, r.status)

structure Subnet where
  id : String
  cidr : String
  status : SubnetStatus := .available
  discoveredBy : Option String := none
  fortigateDevice : Option String := none
  lastDiscoveredAt : Option Nat := none
  deriving DecidableEq

inductive MonitorStatus
  | up | warning | recovering | down | unknown
  deriving DecidableEq

structure FirewallAsset where
  hostname : String
  discoveredByIntegrationId : Option String
  monitored : Bool
  monitorStatus : Option MonitorStatus
  deriving DecidableEq

/-- The statements that write reservations, by the place that issues them. -/
inductive Writer
  | create | update | release | expire | push | dnsReleaseAt | dnsReleaseRows | dnsUpsert
  | refreshUpsert | refreshRelease
  deriving DecidableEq

/-- The tables, with a note of every statement the key has rejected. -/
structure Db where
  integrations : List Integration := []
  firewalls : List FirewallAsset := []
  subnets : List Subnet := []
  reservations : Table uniqueKey := Table.empty uniqueKey
  violations : List Writer := []

/-- The tables and the FortiGates, by device name. -/
structure World where
  db : Db
  gateways : String → Gateway

def truthy (s : Option String) : Option String := s.filter (· ≠ "")

theorem truthy_some {s : Option String} {v : String} (h : truthy s = some v) : s = some v ∧ v ≠ "" := by
  obtain ⟨hs, hv⟩ := Option.filter_eq_some_iff.mp h
  exact ⟨hs, by simpa using hv⟩

namespace Db

variable (db : Db)

def rows : List (Row Reservation) := db.reservations.rows

def findSubnet (id : String) : Option Subnet := db.subnets.find? (·.id = id)

def findIntegration (id : Option String) : Option Integration :=
  id.bind fun id => db.integrations.find? (·.id = id)

def integrationOf (s : Subnet) : Option Integration := db.findIntegration s.discoveredBy

/-- `reservation.findUnique` including the subnet. -/
def findReservation (id : Nat) : Except Failure (Row Reservation × Subnet) :=
  match db.reservations.find id with
  | none => .error (.app 404 ("Reservation " ++ toString id ++ " not found"))
  | some r =>
    match db.findSubnet r.data.subnetId with
    | none => .error (.app 404 ("Reservation " ++ toString id ++ " not found"))
    | some s => .ok (r, s)

def findFirewall (deviceName integrationId : String) : Option FirewallAsset :=
  db.firewalls.find? fun f =>
    f.hostname = deviceName && f.discoveredByIntegrationId = some integrationId

def setSubnetStatus (id : String) (status : SubnetStatus) : Db :=
  { db with subnets := db.subnets.map fun s => if s.id = id then { s with status := status } else s }

def uniqueViolation : Failure :=
  .thrown "Unique constraint failed on the fields: (`subnetId`,`ipAddress`,`status`)"

def notFound : Failure := .thrown "Record to update not found."

/-- Take the result of a statement, or note that it was rejected. -/
def submit (writer : Writer) (result : Option (Table uniqueKey)) : Db × Except Failure Unit :=
  match result with
  | some t => ({ db with reservations := t }, .ok ())
  | none => ({ db with violations := writer :: db.violations }, .error uniqueViolation)

def createRow (writer : Writer) (data : Reservation) : Db × Except Failure (Row Reservation) :=
  match db.submit writer (db.reservations.insert data) with
  | (db', .ok _) => (db', .ok ⟨db.reservations.nextId, data⟩)
  | (db', .error e) => (db', .error e)

def updateRows (writer : Writer) (p : Row Reservation → Bool) (f : Reservation → Reservation) :
    Db × Except Failure Nat :=
  match db.submit writer (db.reservations.updateWhere p f) with
  | (db', .ok _) => (db', .ok (db.rows.countP p))
  | (db', .error e) => (db', .error e)

def updateRow (writer : Writer) (id : Nat) (f : Reservation → Reservation) :
    Db × Except Failure (Row Reservation) :=
  match db.reservations.find id with
  | none => (db, .error notFound)
  | some r =>
    match db.updateRows writer (·.id = id) f with
    | (db', .ok _) => (db', .ok ⟨id, f r.data⟩)
    | (db', .error e) => (db', .error e)

def deleteRows (p : Row Reservation → Bool) : Db :=
  { db with reservations := db.reservations.deleteWhere p }

variable {db} in
theorem findSubnet_id {id : String} {s : Subnet} (h : db.findSubnet id = some s) : s.id = id := by
  simpa using List.find?_some h

variable {db} in
theorem findSubnet_map {f : Subnet → Subnet} (hf : ∀ s, (f s).id = s.id) (id : String) :
    { db with subnets := db.subnets.map f }.findSubnet id = (db.findSubnet id).map f := by
  have hid : ((fun s : Subnet => decide (s.id = id)) ∘ f) = fun s => decide (s.id = id) := by
    funext s
    simp [hf]
  change List.find? _ (List.map _ _) = _
  rw [List.find?_map, hid]
  rfl

theorem findSubnet_setSubnetStatus (id id' : String) (status : SubnetStatus) :
    (db.setSubnetStatus id status).findSubnet id' =
      (db.findSubnet id').map fun s => if s.id = id then { s with status := status } else s :=
  findSubnet_map (fun s => by by_cases h : s.id = id <;> simp [h]) id'

section Statements

variable {db} {w : Writer}

theorem findReservation_ok {id : Nat} {row : Row Reservation} {subnet : Subnet}
    (h : db.findReservation id = .ok (row, subnet)) :
    db.reservations.find id = some row ∧ db.findSubnet row.data.subnetId = some subnet := by
  unfold findReservation at h
  split at h
  · cases h
  · rename_i r hr
    split at h
    · cases h
    · rename_i s hs
      cases h
      exact ⟨hr, hs⟩

variable (db w) in
theorem createRow_cases (data : Reservation) :
    (∃ t, db.reservations.insert data = some t ∧
      db.createRow w data = ({ db with reservations := t }, .ok ⟨db.reservations.nextId, data⟩)) ∨
    (db.reservations.insert data = none ∧
      db.createRow w data =
        ({ db with violations := w :: db.violations }, .error uniqueViolation)) := by
  cases h : db.reservations.insert data with
  | none => exact .inr ⟨rfl, by simp [createRow, submit, h]⟩
  | some t => exact .inl ⟨t, rfl, by simp [createRow, submit, h]⟩

variable (db w) in
theorem updateRows_cases (p : Row Reservation → Bool) (f : Reservation → Reservation) :
    (∃ t, db.reservations.updateWhere p f = some t ∧
      db.updateRows w p f = ({ db with reservations := t }, .ok (db.rows.countP p))) ∨
    (db.reservations.updateWhere p f = none ∧
      db.updateRows w p f =
        ({ db with violations := w :: db.violations }, .error uniqueViolation)) := by
  cases h : db.reservations.updateWhere p f with
  | none => exact .inr ⟨rfl, by simp [updateRows, submit, h]⟩
  | some t => exact .inl ⟨t, rfl, by simp [updateRows, submit, h]⟩

variable (db w) in
theorem updateRow_cases (id : Nat) (f : Reservation → Reservation) :
    (∃ r t, db.reservations.find id = some r ∧
      db.reservations.updateWhere (·.id = id) f = some t ∧
      db.updateRow w id f = ({ db with reservations := t }, .ok ⟨id, f r.data⟩)) ∨
    (∃ vs e, db.updateRow w id f = ({ db with violations := vs }, .error e) ∧
      (vs = db.violations ∨ vs = w :: db.violations)) := by
  cases hr : db.reservations.find id with
  | none => exact .inr ⟨db.violations, notFound, by simp [updateRow, hr], .inl rfl⟩
  | some r =>
    obtain ⟨t, ht, h⟩ | ⟨_, h⟩ := updateRows_cases db w (·.id = id) f
    · exact .inl ⟨r, t, rfl, ht, by simp [updateRow, hr, h]⟩
    · exact .inr ⟨w :: db.violations, uniqueViolation, by simp [updateRow, hr, h], .inr rfl⟩

theorem createRow_ok {data : Reservation} {row : Row Reservation}
    (h : (db.createRow w data).2 = .ok row) :
    row = ⟨db.reservations.nextId, data⟩ ∧ row ∈ (db.createRow w data).1.rows := by
  obtain ⟨t, ht, hc⟩ | ⟨-, hc⟩ := createRow_cases db w data
  · rw [hc] at h ⊢
    cases h
    exact ⟨rfl, by simp [rows, (Table.insert_rows ht).1]⟩
  · rw [hc] at h
    cases h

theorem updateRow_ok {id : Nat} {f : Reservation → Reservation} {row : Row Reservation}
    (h : (db.updateRow w id f).2 = .ok row) :
    ∃ r, db.reservations.find id = some r ∧ row = ⟨id, f r.data⟩ := by
  obtain ⟨r, t, hr, -, hc⟩ | ⟨vs, e, hc, -⟩ := updateRow_cases db w id f <;>
    rw [hc] at h <;> cases h
  exact ⟨r, hr, rfl⟩

@[simp]
theorem nextId_updateRows (p : Row Reservation → Bool) (f : Reservation → Reservation) :
    (db.updateRows w p f).1.reservations.nextId = db.reservations.nextId := by
  obtain ⟨t, ht, hc⟩ | ⟨-, hc⟩ := updateRows_cases db w p f <;> rw [hc]
  exact (Table.updateWhere_rows ht).2

@[simp]
theorem nextId_updateRow (id : Nat) (f : Reservation → Reservation) :
    (db.updateRow w id f).1.reservations.nextId = db.reservations.nextId := by
  obtain ⟨_, t, -, ht, hc⟩ | ⟨vs, e, hc, -⟩ := updateRow_cases db w id f <;> rw [hc]
  exact (Table.updateWhere_rows ht).2

theorem nextId_createRow_le (data : Reservation) :
    db.reservations.nextId ≤ (db.createRow w data).1.reservations.nextId := by
  obtain ⟨t, ht, hc⟩ | ⟨-, hc⟩ := createRow_cases db w data <;> rw [hc]
  exact (Table.insert_rows ht).2 ▸ Nat.le_succ _

theorem find_updateRow_ne {id id' : Nat} {r : Row Reservation} {f : Reservation → Reservation}
    (hne : id' ≠ id)
    (hr : db.reservations.find id = some r) : (db.updateRow w id' f).1.reservations.find id = some r := by
  obtain ⟨_, t, -, ht, hc⟩ | ⟨vs, e, hc, -⟩ := updateRow_cases db w id' f
  · have hid : (decide (r.id = id')) = false := by
      rw [(Table.mem_of_find hr).2]
      exact decide_eq_false (Ne.symm hne)
    rw [hc]
    exact (Table.find_updateWhere ht hr).trans (congrArg some (amend_of_neg hid f))
  · rw [hc]
    exact hr

theorem find_createRow {data : Reservation} {id : Nat} {r : Row Reservation}
    (hr : db.reservations.find id = some r) :
    (db.createRow w data).1.reservations.find id = some r := by
  obtain ⟨t, ht, hc⟩ | ⟨-, hc⟩ := createRow_cases db w data
  · rw [hc]
    have hmem : r ∈ t.rows := by
      rw [(Table.insert_rows ht).1]
      exact List.mem_append_left _ (Table.mem_of_find hr).1
    exact (Table.mem_of_find hr).2 ▸ Table.find_of_mem hmem
  · rw [hc]
    exact hr

theorem find_updateRow_self {id : Nat} {f : Reservation → Reservation} {r : Row Reservation}
    (hr : db.reservations.find id = some r) :
    (db.updateRow w id f).1.reservations.find id = some ⟨id, f r.data⟩ ∨
      (db.updateRow w id f).1.reservations.find id = some r := by
  obtain ⟨_, t, -, ht, hc⟩ | ⟨vs, e, hc, -⟩ := updateRow_cases db w id f
  · obtain ⟨-, rfl⟩ := Table.mem_of_find hr
    refine .inl ?_
    rw [hc]
    exact (Table.find_updateWhere ht hr).trans (congrArg some (amend_of_pos (decide_eq_true rfl) f))
  · rw [hc]
    exact .inr hr

theorem find_updateRows_of_not {p : Row Reservation → Bool} {f : Reservation → Reservation} {id : Nat}
    {r : Row Reservation} (hp : p r = false) (hr : db.reservations.find id = some r) :
    (db.updateRows w p f).1.reservations.find id = some r := by
  obtain ⟨t, ht, hc⟩ | ⟨-, hc⟩ := updateRows_cases db w p f
  · rw [hc]
    exact (Table.find_updateWhere ht hr).trans (congrArg some (amend_of_neg hp f))
  · rw [hc]
    exact hr

theorem find_deleteRows_of_not {p : Row Reservation → Bool} {id : Nat} {r : Row Reservation}
    (hp : p r = false) (hr : db.reservations.find id = some r) :
    (db.deleteRows p).reservations.find id = some r := by
  obtain ⟨hmem, rfl⟩ := Table.mem_of_find hr
  exact Table.find_of_mem (Table.mem_deleteWhere.mpr ⟨hmem, hp⟩)

theorem find_of_updateRow_ok {id : Nat} {f : Reservation → Reservation} {row : Row Reservation}
    (h : (db.updateRow w id f).2 = .ok row) :
    (db.updateRow w id f).1.reservations.find id = some row := by
  obtain ⟨r, t, hr, ht, hc⟩ | ⟨vs, e, hc, -⟩ := updateRow_cases db w id f
  · rw [hc] at h ⊢
    cases h
    obtain ⟨-, rfl⟩ := Table.mem_of_find hr
    exact (Table.find_updateWhere ht hr).trans (congrArg some (amend_of_pos (decide_eq_true rfl) f))
  · rw [hc] at h
    cases h

variable (db w) in
theorem tables_createRow (data : Reservation) :
    (db.createRow w data).1.subnets = db.subnets ∧
      (db.createRow w data).1.integrations = db.integrations := by
  obtain ⟨t, -, hc⟩ | ⟨-, hc⟩ := createRow_cases db w data <;> rw [hc] <;> exact ⟨rfl, rfl⟩

variable (db w) in
theorem tables_updateRows (p : Row Reservation → Bool) (f : Reservation → Reservation) :
    (db.updateRows w p f).1.subnets = db.subnets ∧
      (db.updateRows w p f).1.integrations = db.integrations := by
  obtain ⟨t, -, hc⟩ | ⟨-, hc⟩ := updateRows_cases db w p f <;> rw [hc] <;> exact ⟨rfl, rfl⟩

variable (db w) in
theorem tables_updateRow (id : Nat) (f : Reservation → Reservation) :
    (db.updateRow w id f).1.subnets = db.subnets ∧
      (db.updateRow w id f).1.integrations = db.integrations := by
  obtain ⟨_, t, -, -, hc⟩ | ⟨vs, e, hc, -⟩ := updateRow_cases db w id f <;> rw [hc] <;> exact ⟨rfl, rfl⟩

theorem updateRow_of_key {id : Nat} {f : Reservation → Reservation} {r : Row Reservation}
    (hr : db.reservations.find id = some r) (hf : ∀ a, uniqueKey (f a) = uniqueKey a) :
    ∃ t, db.reservations.updateWhere (·.id = id) f = some t ∧
      db.updateRow w id f = ({ db with reservations := t }, .ok ⟨id, f r.data⟩) := by
  obtain ⟨t, ht⟩ := Table.updateWhere_of_key (t := db.reservations) (p := (·.id = id)) hf
  exact ⟨t, ht, by simp [updateRow, updateRows, submit, hr, ht]⟩

theorem forall_updateRow_of_key {P : Row Reservation → Prop} {id : Nat}
    {f : Reservation → Reservation} {r : Row Reservation} (hr : db.reservations.find id = some r)
    (hf : ∀ a, uniqueKey (f a) = uniqueKey a) (h : ∀ b ∈ db.rows, b.id ≠ id → P b)
    (hid : P ⟨id, f r.data⟩) : ∀ b ∈ (db.updateRow w id f).1.rows, P b := by
  obtain ⟨t, ht, hc⟩ := updateRow_of_key (w := w) hr hf
  rw [hc, rows, (Table.updateWhere_rows ht).1]
  intro b hb
  obtain ⟨a, ha, rfl⟩ := List.mem_map.mp hb
  by_cases hp : a.id = id
  · obtain ⟨hmem, hrid⟩ := Table.mem_of_find hr
    cases Table.eq_of_id ha hmem (hp.trans hrid.symm)
    rw [amend_of_pos (by simpa using hp), hp]
    exact hid
  · rw [amend_of_neg (by simpa using hp)]
    exact h a ha hp

end Statements

section Forall

variable {P : Row Reservation → Prop} {w : Writer} (h : ∀ r ∈ db.rows, P r)

include h

theorem forall_createRow {data : Reservation} (hnew : P ⟨db.reservations.nextId, data⟩) :
    ∀ r ∈ (db.createRow w data).1.rows, P r := by
  obtain ⟨t, ht, hc⟩ | ⟨-, hc⟩ := createRow_cases db w data <;> rw [hc]
  · exact Table.forall_insert h hnew ht
  · exact h

theorem forall_updateRows {p : Row Reservation → Bool} {f : Reservation → Reservation}
    (hf : ∀ r ∈ db.rows, p r → P ⟨r.id, f r.data⟩) :
    ∀ r ∈ (db.updateRows w p f).1.rows, P r := by
  obtain ⟨t, ht, hc⟩ | ⟨-, hc⟩ := updateRows_cases db w p f <;> rw [hc]
  · exact Table.forall_updateWhere h hf ht
  · exact h

theorem forall_updateRow {id : Nat} {f : Reservation → Reservation}
    (hf : ∀ r ∈ db.rows, r.id = id → P ⟨id, f r.data⟩) :
    ∀ r ∈ (db.updateRow w id f).1.rows, P r := by
  obtain ⟨_, t, -, ht, hc⟩ | ⟨vs, e, hc, -⟩ := updateRow_cases db w id f <;> rw [hc]
  · refine Table.forall_updateWhere h (fun r hr hp => ?_) ht
    have hid : r.id = id := by simpa using hp
    exact hid ▸ hf r hr hid
  · exact h

theorem forall_deleteRows (p : Row Reservation → Bool) : ∀ r ∈ (db.deleteRows p).rows, P r :=
  Table.forall_deleteWhere h p

end Forall

end Db

section Plant

def plantSubnet : Subnet :=
  { id := "lan", cidr := "10.0.0.0/24", discoveredBy := some "fmg", fortigateDevice := some "fg1" }

def plant : World where
  db := { integrations := [{ id := "fmg" }], subnets := [plantSubnet] }
  gateways := fun _ => .empty [{ id := 1, startIp := some "10.0.0.100" }]

/-- A subnet that pushes nothing, before its first reservation. -/
def office : World where
  db := { subnets := [{ id := "lan", cidr := "10.0.0.0/24" }] }
  gateways := fun _ => .empty []

end Plant

end Polaris.Reservations
