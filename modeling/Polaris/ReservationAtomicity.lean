import Polaris.DeviceEntries
import Polaris.SubnetRefresh

namespace Polaris.ReservationAtomicity

open Polaris.Lib.Store Polaris.Lib.Faults Polaris.Lib.Checks Polaris.Netmask Polaris.Cidr Polaris.Mac
  Polaris.ReservationPush Polaris.Reservations Polaris.DnsResolved Polaris.ReservationService
    Polaris.DeviceEntries
  Polaris.SubnetRefresh Polaris.ReservationLifecycle

section Calls

/-- How a FortiGate meets a push: what it answers, and its configuration after
a write to a scope. -/
structure Conduct where
  answers : Replies
  taken : Nat → Gateway

variable (N : Package)

def pushReservationBy (g : Gateway) (c : Conduct) (p : PushParams) :
    Gateway × Except Failure PushReservationResult :=
  match preparePushOn N c.answers p with
  | .error e => (g, .error e)
  | .ok (scopeId, serverInterface) => (c.taken scopeId, do
      let res ← c.answers.write scopeId
      let after ← c.answers.after scopeId
      let entryId ← verifyWrite res after p.ip (normalizeMac p.mac)
      return ⟨scopeId, entryId, serverInterface, pushDescription p⟩)

/-- The fallback row is released before the transaction and outside of it. -/
def freed (db : Db) (input : CreateReservationInput) : Db :=
  match truthy input.ipAddress with
  | some ip => releaseDnsResolvedAt db input.subnetId ip
  | none => db

/-- A transaction that fails leaves nothing. -/
def insertReservationBy (tx : Option Failure) (db : Db) (input : CreateReservationInput) :
    Db × Except Failure (Row Reservation) :=
  match tx with
  | some e => (freed db input, .error e)
  | none => insertReservation db input

variable (device : PushParams → Conduct)

def pushCreatedBy (w : World) (input : CreateReservationInput) (subnet : Subnet) (target : PushTarget)
    (id : Nat)
    (ip mac : String) (now : Nat) : World × Except Failure (Row Reservation) :=
  if firewallKnownDown w.db target then
    let (db, row) := w.db.updateRow .push id (stampQueued subnet.discoveredBy now 0 none
      ("FortiGate \"" ++ target.deviceName ++ "\" is currently down — queued without attempting transport"))
    ({ w with db := db }, row)
  else
    let p := createPushParams input subnet target id ip mac
    let (g, pushed) := pushReservationBy N (w.gateways target.deviceName) (device p) p
    let (db, row) := settleCreate w.db subnet id now pushed
    (setGateway { w with db := db } target.deviceName g, row)

def createReservationBy (tx : Option Failure) (w : World) (input : CreateReservationInput) (now : Nat) :
    World × Except Failure (Row Reservation) :=
  match checkCreate N w.db input with
  | .error e => (w, .error e)
  | .ok (subnet, push) =>
    match insertReservationBy tx w.db input with
    | (db, .error e) => ({ w with db := db }, .error e)
    | (db, .ok row) =>
      match push, truthy input.ipAddress, truthy (cleanMac input) with
      | some target, some ip, some mac =>
        pushCreatedBy N device { w with db := db } input subnet target row.id ip mac now
      | _, _, _ => ({ w with db := db }, .ok row)

/-- The conduct of a FortiGate that follows its own configuration. -/
def ownConduct (gateways : String → Gateway) (faults : PushFaults) (p : PushParams) : Conduct where
  answers := replies p (gateways p.deviceName) faults
  taken := fun scopeId => (call faults.post (fun g =>
    let (g, res) := g.create scopeId (newEntry p)
    (g, Except.ok res)) (gateways p.deviceName)).1

variable {N device}

theorem pushReservationBy_answer (g : Gateway) (c : Conduct) (p : PushParams) :
    (pushReservationBy N g c p).2 = pushReservationOn N c.answers p := by
  rw [pushReservationBy, pushReservationOn]
  cases preparePushOn N c.answers p <;> rfl

theorem ownConduct_answers (gateways : String → Gateway) (faults : PushFaults) (p : PushParams) :
    (ownConduct gateways faults p).answers = replies p (gateways p.deviceName) faults := rfl

theorem pushReservation_eq (gateways : String → Gateway) (faults : PushFaults) (p : PushParams) :
    pushReservation N (gateways p.deviceName) p faults =
      pushReservationBy N (gateways p.deviceName) (ownConduct gateways faults p) p := by
  refine Prod.ext ?_ ?_
  · rw [pushReservation, pushReservationBy, preparePush_replies, ownConduct_answers]
    cases preparePushOn N (replies p (gateways p.deviceName) faults) p with
    | error e => rfl
    | ok scope => cases hpost : faults.post <;> simp [ownConduct, hpost, call]
  · rw [pushReservation_replies, pushReservationBy_answer, ownConduct_answers]

theorem createReservation_eq (w : World) (input : CreateReservationInput) (now : Nat) (faults : PushFaults) :
    createReservation N w input now faults =
      createReservationBy N (ownConduct w.gateways faults) none w input now := by
  rw [createReservation, createReservationBy]
  cases checkCreate N w.db input with
  | error e => rfl
  | ok c =>
    obtain ⟨subnet, push⟩ := c
    rw [insertReservationBy]
    rcases insertReservation w.db input with ⟨db, e | row⟩
    · rfl
    · cases push with
      | none => rfl
      | some target =>
        cases truthy input.ipAddress with
        | none => rfl
        | some ip =>
          cases truthy (cleanMac input) with
          | none => rfl
          | some mac =>
            change pushCreated N _ _ _ _ _ _ _ _ _ = pushCreatedBy N _ _ _ _ _ _ _ _ _
            rw [pushCreated, pushCreatedBy]
            split
            · rfl
            · have h := pushReservation_eq (N := N) w.gateways faults
                (createPushParams input subnet target row.id ip mac)
              change pushReservation N (w.gateways target.deviceName) _ _ = _ at h
              rw [h]
              rfl

end Calls

section Release

variable {db db' : Db} {input : CreateReservationInput} {sid ip : String} {r row : Row Reservation}

/-- A fallback row is in force at the address, and no released row keeps it
there. -/
def FreesAt (db : Db) (sid ip : String) : Prop :=
  (∃ r ∈ db.rows, dnsResolvedAt sid ip r = true) ∧ HandsOff db sid ip

def Frees (db : Db) (input : CreateReservationInput) : Prop :=
  ∃ ip, truthy input.ipAddress = some ip ∧ FreesAt db input.subnetId ip

theorem dnsResolvedAt_place (h : dnsResolvedAt sid ip r = true) :
    r.data.subnetId = sid ∧ r.data.ipAddress = some ip ∧ r.data.status = .active := by
  simp only [dnsResolvedAt, activeAt, Bool.and_eq_true, decide_eq_true_eq] at h
  exact ⟨h.1.1.1, h.1.1.2, h.1.2⟩

theorem release_keeps (h : ¬ FreesAt db sid ip) : (releaseDnsResolvedAt db sid ip).rows = db.rows := by
  rw [releaseDnsResolvedAt]
  obtain ⟨t, ht, hc⟩ | ⟨-, hc⟩ := Db.updateRows_cases db .dnsReleaseAt (dnsResolvedAt sid ip) markReleased
  · rw [hc]
    change t.rows = db.rows
    rw [(Table.updateWhere_rows ht).1]
    have hnone : ∀ r ∈ db.rows, dnsResolvedAt sid ip r = false := by
      intro r hr
      by_contra hdns
      rw [Bool.not_eq_false] at hdns
      refine h ⟨⟨r, hr, hdns⟩, fun r' hr' hdns' _ b hb hplace hst => ?_⟩
      obtain ⟨hsub, hip, hact⟩ := dnsResolvedAt_place hdns'
      have hbold : dnsResolvedAt sid ip b = false := by simp [dnsResolvedAt, activeAt, hst]
      have hmoved : ⟨r'.id, markReleased r'.data⟩ ∈ t.rows := by
        rw [(Table.updateWhere_rows ht).1, ← amend_of_pos hdns' markReleased]
        exact List.mem_map_of_mem hr'
      have hstays : b ∈ t.rows := by
        rw [(Table.updateWhere_rows ht).1, ← amend_of_neg hbold markReleased]
        exact List.mem_map_of_mem hb
      have hkey : uniqueKey b.data = uniqueKey (markReleased r'.data) := by
        simp [uniqueKey, hplace.1, hplace.2, hst, markReleased]
      have heq := Table.eq_of_key hstays hmoved hkey (by simp [uniqueKey, hplace.2, hip])
      have hids : b.id = r'.id := by rw [heq]
      have hid : b = r' := Table.eq_of_id hb hr' hids
      rw [hid, hact] at hst
      cases hst
    exact (List.map_congr_left fun r hr => amend_of_neg (hnone r hr) markReleased).trans (List.map_id' _)
  · rw [hc]
    rfl

theorem release_moves (h : FreesAt db sid ip) :
    subnetRows (releaseDnsResolvedAt db sid ip) sid ≠ subnetRows db sid := by
  obtain ⟨⟨r, hr, hdns⟩, hoff⟩ := h
  obtain ⟨hsub, hip, hact⟩ := dnsResolvedAt_place hdns
  obtain ⟨t, ht, hc⟩ := releaseDnsResolvedAt_some hoff
  intro heq
  have hmem : r ∈ subnetRows (releaseDnsResolvedAt db sid ip) sid := by
    rw [heq]
    exact List.mem_filter.mpr ⟨hr, by simpa using hsub⟩
  rw [hc] at hmem
  have hstays : r ∈ t.rows := (List.mem_filter.mp hmem).1
  have hmoved : ⟨r.id, markReleased r.data⟩ ∈ t.rows := by
    rw [(Table.updateWhere_rows ht).1, ← amend_of_pos hdns markReleased]
    exact List.mem_map_of_mem hr
  have hst := congrArg (fun x : Row Reservation => x.data.status) (Table.eq_of_id hstays hmoved rfl)
  rw [hact] at hst
  cases hst

theorem freed_keeps (h : ¬ Frees db input) : (freed db input).rows = db.rows := by
  rw [freed]
  split
  · next ip hip => exact release_keeps fun hf => h ⟨ip, hip, hf⟩
  · rfl

theorem freed_moves (h : Frees db input) :
    subnetRows (freed db input) input.subnetId ≠ subnetRows db input.subnetId := by
  obtain ⟨ip, hip, hf⟩ := h
  rw [freed, hip]
  exact release_moves hf

theorem freed_tables (db : Db) (input : CreateReservationInput) :
    (freed db input).subnets = db.subnets ∧ (freed db input).firewalls = db.firewalls ∧
      (freed db input).reservations.nextId = db.reservations.nextId := by
  rw [freed]
  split
  · rw [releaseDnsResolvedAt]
    refine ⟨?_, ?_, Db.nextId_updateRows _ _⟩
    · obtain ⟨t, -, hc⟩ | ⟨-, hc⟩ :=
        Db.updateRows_cases db .dnsReleaseAt (dnsResolvedAt input.subnetId _) markReleased <;>
        rw [hc]
    · obtain ⟨t, -, hc⟩ | ⟨-, hc⟩ :=
        Db.updateRows_cases db .dnsReleaseAt (dnsResolvedAt input.subnetId _) markReleased <;>
        rw [hc]
  · exact ⟨rfl, rfl, rfl⟩

theorem insertReservation_rows (h : insertReservation db input = (db', .ok row)) :
    db'.rows = (freed db input).rows ++ [row] ∧ row.id = db.reservations.nextId ∧
      db'.firewalls = db.firewalls ∧
      (truthy input.ipAddress ≠ none → db'.subnets = db.subnets) := by
  have hrow := (insertReservation_ok (congrArg Prod.snd h)).1
  have hid : row.id = db.reservations.nextId := by rw [hrow]
  obtain ⟨hsubnets, hfirewalls, -⟩ := freed_tables db input
  rw [insertReservation] at h
  rw [freed] at hsubnets hfirewalls ⊢
  cases hip : truthy input.ipAddress with
  | some ip =>
    rw [hip] at h hsubnets hfirewalls
    dsimp only at h hsubnets hfirewalls
    obtain ⟨t, ht, hc⟩ | ⟨-, hc⟩ :=
      Db.createRow_cases (releaseDnsResolvedAt db input.subnetId ip) .create (newReservation input)
    · rw [hc] at h
      cases h
      exact ⟨(Table.insert_rows ht).1, hid, hfirewalls, fun _ => hsubnets⟩
    · rw [hc] at h
      cases h
  | none =>
    rw [hip] at h
    dsimp only at h
    obtain ⟨t, ht, hc⟩ | ⟨-, hc⟩ := Db.createRow_cases db .create (newReservation input)
    · rw [hc] at h
      cases h
      exact ⟨(Table.insert_rows ht).1, hid, rfl, fun hne => absurd rfl hne⟩
    · rw [hc] at h
      cases h

/-- No row is in force at the address when the new one comes. -/
def Room (db : Db) (input : CreateReservationInput) : Prop :=
  ∀ ip, truthy input.ipAddress = some ip → ∀ r ∈ (freed db input).rows, activeAt input.subnetId ip r = false

theorem uniqueKey_new (hip : truthy input.ipAddress = some ip) :
    uniqueKey (newReservation input) = some (input.subnetId, ip, .active) := by
  rw [uniqueKey, newReservation, (truthy_some hip).1]
  rfl

theorem activeAt_iff_key : activeAt sid ip r = true ↔ uniqueKey r.data = some (sid, ip, .active) := by
  simp only [activeAt, uniqueKey, Bool.and_eq_true, decide_eq_true_eq, Option.map_eq_some_iff, Prod.mk.injEq]
  constructor
  · rintro ⟨⟨hsub, hip⟩, hst⟩
    exact ⟨ip, hip, hsub, rfl, hst⟩
  · rintro ⟨_, hip, hsub, rfl, hst⟩
    exact ⟨⟨hsub, hip⟩, hst⟩

theorem insertReservation_ok_iff (hip : truthy input.ipAddress = some ip) :
    (∃ db' row, insertReservation db input = (db', .ok row)) ↔ Room db input := by
  have hfreed : freed db input = releaseDnsResolvedAt db input.subnetId ip := by rw [freed, hip]
  rw [insertReservation, hip]
  dsimp only
  rw [← hfreed]
  constructor
  · rintro ⟨db', row, h⟩ ip' hip' r hr
    cases hip.symm.trans hip'
    by_contra hact
    rw [Bool.not_eq_false] at hact
    obtain ⟨t, ht, -⟩ | ⟨-, hc⟩ := Db.createRow_cases (freed db input) .create (newReservation input)
    · have hrows := (Table.insert_rows ht).1
      have hold : r ∈ t.rows := hrows ▸ List.mem_append_left _ hr
      have hnew : ⟨(freed db input).reservations.nextId, newReservation input⟩ ∈ t.rows :=
        hrows ▸ List.mem_append_right _ (List.mem_singleton.mpr rfl)
      have hkey : uniqueKey r.data = some (input.subnetId, ip, .active) := activeAt_iff_key.mp hact
      have heq := Table.eq_of_key hold hnew (hkey.trans (uniqueKey_new hip).symm)
        (by rw [hkey]; exact Option.some_ne_none _)
      have hlt := (freed db input).reservations.ids_lt r hr
      rw [heq] at hlt
      exact Nat.lt_irrefl _ hlt
    · rw [hc] at h
      cases h
  · intro hroom
    obtain ⟨t, ht⟩ : ∃ t, (freed db input).reservations.insert (newReservation input) = some t :=
      Table.insert_isSome (by
      intro r hr hk
      rw [uniqueKey_new hip] at hk
      have hact := activeAt_iff_key.mpr hk
      rw [hroom ip hip r hr] at hact
      cases hact)
    obtain ⟨t', -, hc⟩ | ⟨hn, -⟩ := Db.createRow_cases (freed db input) .create (newReservation input)
    · exact ⟨_, _, hc⟩
    · rw [ht] at hn
      cases hn

theorem room_of_frees (hfree : ∀ ip, truthy input.ipAddress = some ip →
    findActiveAuthoritativeAt db input.subnetId ip = none)
    (h : Frees db input) : Room db input := by
  obtain ⟨ip', hip', -, hoff⟩ := h
  intro ip hip r hr
  have he : ip = ip' := Option.some.inj (hip.symm.trans hip')
  subst ip'
  obtain ⟨t, ht, hc⟩ := releaseDnsResolvedAt_some hoff
  rw [freed, hip] at hr
  dsimp only at hr
  rw [hc] at hr
  change r ∈ t.rows at hr
  rw [(Table.updateWhere_rows ht).1] at hr
  obtain ⟨a, ha, rfl⟩ := List.mem_map.mp hr
  cases hdns : dnsResolvedAt input.subnetId ip a with
  | true =>
    rw [amend_of_pos hdns]
    simp [activeAt, markReleased]
  | false =>
    rw [amend_of_neg hdns]
    have hnone := List.find?_eq_none.mp (hfree ip hip) a ha
    simp only [dnsResolvedAt, Bool.and_eq_false_iff] at hdns
    simp only [Bool.and_eq_true, decide_eq_true_eq, not_and, not_not] at hnone
    obtain hact | htype := hdns
    · exact hact
    · by_contra hact
      rw [Bool.not_eq_false] at hact
      exact of_decide_eq_false htype (hnone hact)

theorem insertReservation_rejected {e : Failure}
    (hfree : ∀ ip, truthy input.ipAddress = some ip → findActiveAuthoritativeAt db input.subnetId ip = none)
    (h : insertReservation db input = (db', .error e)) :
    ¬ Frees db input ∧ (truthy input.ipAddress ≠ none → ¬ Room db input) ∧ db'.rows = db.rows ∧
      db'.subnets = db.subnets := by
  have hroom : truthy input.ipAddress ≠ none → ¬ Room db input := by
    intro hne hroom
    obtain ⟨ip, hip⟩ := Option.ne_none_iff_exists'.mp hne
    obtain ⟨_, _, hok⟩ := (insertReservation_ok_iff hip).mpr hroom
    rw [hok] at h
    cases h
  have hfrees : ¬ Frees db input := by
    intro hf
    have hne : truthy input.ipAddress ≠ none := by
      obtain ⟨ip, hip, -⟩ := hf
      rw [hip]
      exact nofun
    exact hroom hne (room_of_frees hfree hf)
  refine ⟨hfrees, hroom, ?_⟩
  have hrows := freed_keeps hfrees
  obtain ⟨hsubnets, -, -⟩ := freed_tables db input
  rw [insertReservation] at h
  rw [freed] at hrows hsubnets
  cases hip : truthy input.ipAddress with
  | some ip =>
    rw [hip] at h hrows hsubnets
    dsimp only at h hrows hsubnets
    obtain ⟨t, -, hc⟩ | ⟨-, hc⟩ :=
      Db.createRow_cases (releaseDnsResolvedAt db input.subnetId ip) .create (newReservation input)
    · rw [hc] at h
      cases h
    · rw [hc] at h
      cases h
      exact ⟨hrows, hsubnets⟩
  | none =>
    rw [hip] at h
    dsimp only at h
    obtain ⟨t, -, hc⟩ | ⟨-, hc⟩ := Db.createRow_cases db .create (newReservation input)
    · rw [hc] at h
      cases h
    · rw [hc] at h
      cases h
      exact ⟨rfl, rfl⟩

end Release

section Atomicity

variable (N : Package) (device : PushParams → Conduct) (tx : Option Failure) (w : World)
  (input : CreateReservationInput)
  (now : Nat)

def attempted : Option PushParams :=
  match checkCreate N w.db input, truthy input.ipAddress, truthy (cleanMac input) with
  | .ok (subnet, some target), some ip, some mac =>
    if firewallKnownDown w.db target then none
    else some (createPushParams input subnet target w.db.reservations.nextId ip mac)
  | _, _, _ => none

/-- The push fails for good. -/
def Refused (c : Conduct) (p : PushParams) : Prop :=
  ∃ e, pushReservationOn N c.answers p = .error e ∧ classifyPushError e = .permanent

/-- The write has changed the reserved addresses of the device. -/
def Taken (g : Gateway) (c : Conduct) (p : PushParams) : Prop :=
  ∃ scope, preparePushOn N c.answers p = .ok scope ∧ (c.taken scope.1).reserved ≠ g.reserved

/-- The rows of the subnet, its status and the reserved addresses of the
devices are as before. -/
structure Untouched (sid : String) (w w' : World) : Prop where
  rows : subnetRows w'.db sid = subnetRows w.db sid
  status : (w'.db.findSubnet sid).map (·.status) = (w.db.findSubnet sid).map (·.status)
  device : ∀ deviceName, (w'.gateways deviceName).reserved = (w.gateways deviceName).reserved

def Atomic : Prop :=
  ∀ e, (createReservationBy N device tx w input now).2 = .error e →
    Untouched input.subnetId w (createReservationBy N device tx w input now).1

/-- A call that fails behind its checks has released no fallback row, and a
push refused for good has left nothing on the device. -/
structure Compensable : Prop where
  transaction : tx ≠ none → (∃ c, checkCreate N w.db input = .ok c) → ¬ Frees w.db input
  push : tx = none → Room w.db input → ∀ p ∈ attempted N w input, Refused N (device p) p →
    ¬ Frees w.db input ∧ ¬ Taken N (w.gateways p.deviceName) (device p) p

variable {N device tx w input now}

theorem untouched_db {db : Db} {sid : String} (hrows : db.rows = w.db.rows)
    (hsubnets : db.subnets = w.db.subnets) :
    Untouched sid w { w with db := db } := by
  refine ⟨?_, ?_, fun _ => rfl⟩
  · rw [subnetRows, subnetRows, hrows]
  · rw [Db.findSubnet, Db.findSubnet, hsubnets]

theorem pushReservationBy_reserved {g : Gateway} {c : Conduct} {p : PushParams} :
    (pushReservationBy N g c p).1.reserved = g.reserved ↔ ¬ Taken N g c p := by
  rw [pushReservationBy, Taken]
  cases h : preparePushOn N c.answers p with
  | error e =>
    refine ⟨?_, fun _ => rfl⟩
    rintro - ⟨_, hscope, -⟩
    cases hscope
  | ok scope =>
    constructor
    · rintro heq ⟨_, hscope, hne⟩
      cases hscope
      exact hne heq
    · intro hnot
      by_contra hne
      exact hnot ⟨scope, rfl, hne⟩

theorem deleteRows_new {db : Db} {rows : List (Row Reservation)} {row : Row Reservation}
    (hrows : db.rows = rows ++ [row]) (hlt : ∀ r ∈ rows, r.id < row.id) :
    (db.deleteRows (·.id = row.id)).rows = rows := by
  change db.rows.filter _ = rows
  rw [hrows, List.filter_append, List.filter_eq_self.mpr, List.filter_cons_of_neg (by simp), List.filter_nil,
    List.append_nil]
  intro r hr
  have hid := hlt r hr
  simp
  omega

theorem settleCreate_error_iff {db : Db} {subnet : Subnet} {row : Row Reservation}
    {pushed : Except Failure PushReservationResult}
    (hrow : row ∈ db.rows) (e : Failure) :
    (settleCreate db subnet row.id now pushed).2 = .error e ↔ pushed = .error e ∧
      classifyPushError e = .permanent := by
  have hupdate : ∀ f : Reservation → Reservation, (∀ a, uniqueKey (f a) = uniqueKey a) →
      (db.updateRow .push row.id f).2 ≠ .error e := by
    intro f hf
    obtain ⟨t, -, h⟩ := Db.updateRow_of_key (w := .push) (Table.find_of_mem hrow) hf
    rw [h]
    exact nofun
  unfold settleCreate
  cases pushed with
  | ok entry =>
    refine ⟨fun h => absurd h (hupdate _ fun _ => rfl), ?_⟩
    rintro ⟨h, -⟩
    cases h
  | error e' =>
    dsimp only
    cases hk : classifyPushError e' with
    | transient =>
      refine ⟨fun h => absurd h (hupdate _ fun _ => rfl), ?_⟩
      rintro ⟨h, hp⟩
      cases h
      rw [hk] at hp
      cases hp
    | permanent =>
      constructor
      · intro h
        cases h
        exact ⟨rfl, hk⟩
      · rintro ⟨h, -⟩
        cases h
        rfl

theorem untouched_undone {db : Db} {c : Conduct} {p : PushParams} (hrows : db.rows = (freed w.db input).rows)
    (hsubnets : db.subnets = w.db.subnets) :
    Untouched input.subnetId w (setGateway { w with db := db } p.deviceName
      (pushReservationBy N (w.gateways p.deviceName) c p).1) ↔
    ¬ Frees w.db input ∧ ¬ Taken N (w.gateways p.deviceName) c p := by
  rw [← pushReservationBy_reserved]
  constructor
  · intro h
    refine ⟨fun hf => freed_moves hf ?_, ?_⟩
    · rw [← h.rows, subnetRows, subnetRows, ← hrows]
      rfl
    · have hdev := h.device p.deviceName
      change (Function.update w.gateways p.deviceName _ p.deviceName).reserved = _ at hdev
      rw [Function.update_self] at hdev
      exact hdev
  · rintro ⟨hf, hg⟩
    have hdb : Untouched input.subnetId w { w with db := db } :=
      untouched_db (hrows.trans (freed_keeps hf)) hsubnets
    refine ⟨hdb.rows, hdb.status, fun deviceName => ?_⟩
    change (Function.update w.gateways p.deviceName _ deviceName).reserved = _
    by_cases hd : deviceName = p.deviceName
    · subst hd
      rw [Function.update_self, hg]
    · rw [Function.update_of_ne hd]

theorem pushCreatedBy_atomic_iff {db : Db} {subnet : Subnet} {target : PushTarget} {row : Row Reservation}
    {ip mac : String}
    (hrows : db.rows = (freed w.db input).rows ++ [row]) (hid : row.id = w.db.reservations.nextId)
    (hfirewalls : db.firewalls = w.db.firewalls) (hsubnets : db.subnets = w.db.subnets) :
    (∀ e, (pushCreatedBy N device { w with db := db } input subnet target row.id ip mac now).2 = .error e →
      Untouched input.subnetId w
        (pushCreatedBy N device { w with db := db } input subnet target row.id ip mac now).1) ↔
    ∀ p ∈ (if firewallKnownDown w.db target then none else
        some (createPushParams input subnet target w.db.reservations.nextId ip mac)), Refused N (device p) p →
      ¬ Frees w.db input ∧ ¬ Taken N (w.gateways p.deviceName) (device p) p := by
  have hrow : row ∈ db.rows := hrows ▸ List.mem_append_right _ (List.mem_singleton.mpr rfl)
  have hdown : firewallKnownDown db target = firewallKnownDown w.db target := by
    rw [firewallKnownDown, firewallKnownDown, Db.findFirewall, Db.findFirewall, hfirewalls]
  have hlt : ∀ r ∈ (freed w.db input).rows, r.id < row.id := by
    intro r hr
    rw [hid, ← (freed_tables w.db input).2.2]
    exact (freed w.db input).reservations.ids_lt r hr
  rw [pushCreatedBy]
  dsimp only
  rw [hdown]
  cases firewallKnownDown w.db target with
  | true =>
    rw [if_pos rfl, if_pos rfl]
    obtain ⟨t, -, h⟩ := Db.updateRow_of_key (w := .push) (f := stampQueued subnet.discoveredBy now 0 none
      ("FortiGate \"" ++ target.deviceName ++ "\" is currently down — queued without attempting transport"))
      (Table.find_of_mem hrow) fun _ => rfl
    rw [h]
    constructor
    · intro _ p hp
      cases hp
    · intro _ e he
      cases he
  | false =>
    rw [if_neg nofun, if_neg nofun, ← hid]
    simp only [Option.mem_some_iff, forall_eq']
    have hanswer : (pushReservationBy N (w.gateways target.deviceName)
        (device (createPushParams input subnet target row.id ip mac))
        (createPushParams input subnet target row.id ip mac)).2 =
      pushReservationOn N (device (createPushParams input subnet target row.id ip mac)).answers
        (createPushParams input subnet target row.id ip mac) := pushReservationBy_answer _ _ _
    generalize hp : createPushParams input subnet target row.id ip mac = p at hanswer ⊢
    have hdevice : target.deviceName = p.deviceName := by rw [← hp]; rfl
    rw [hdevice] at hanswer ⊢
    simp only [settleCreate_error_iff hrow, hanswer]
    have hundone : ∀ e, classifyPushError e = .permanent →
      pushReservationOn N (device p).answers p = .error e →
        (Untouched input.subnetId w (setGateway
          { w with
            db := (settleCreate db subnet row.id now (pushReservationOn N (device p).answers p)).1 }
          p.deviceName
          (pushReservationBy N (w.gateways p.deviceName) (device p) p).1) ↔
        ¬ Frees w.db input ∧ ¬ Taken N (w.gateways p.deviceName) (device p) p) := by
      intro e hk he
      have hsettled : (settleCreate db subnet row.id now (.error e)).1 = db.deleteRows (·.id = row.id) := by
        unfold settleCreate
        dsimp only
        rw [hk]
      rw [he, hsettled]
      exact untouched_undone (deleteRows_new hrows hlt) hsubnets
    constructor
    · rintro h ⟨e, he, hk⟩
      exact (hundone e hk he).mp (h e ⟨he, hk⟩)
    · rintro h e ⟨he, hk⟩
      exact (hundone e hk he).mpr (h ⟨e, he, hk⟩)

theorem attempted_checked {subnet : Subnet} {push : Option PushTarget} {p : PushParams}
    (hc : checkCreate N w.db input = .ok (subnet, push)) : p ∈ attempted N w input ↔
      ∃ target ip mac, push = some target ∧ truthy input.ipAddress = some ip ∧
        truthy (cleanMac input) = some mac ∧
        p ∈ (if firewallKnownDown w.db target then none else
          some (createPushParams input subnet target w.db.reservations.nextId ip mac)) := by
  rw [attempted, hc]
  cases push with
  | none => simp
  | some target =>
    cases truthy input.ipAddress with
    | none => simp
    | some ip =>
      cases truthy (cleanMac input) with
      | none => simp
      | some mac => simp

/-- The create is atomic exactly where a call that fails has nothing to undo. -/
theorem atomic_iff_compensable (N : Package) (device : PushParams → Conduct) (tx : Option Failure) (w : World)
    (input : CreateReservationInput) (now : Nat) :
    Atomic N device tx w input now ↔ Compensable N device tx w input := by
  rw [Atomic, createReservationBy]
  cases hc : checkCreate N w.db input with
  | error e =>
    refine ⟨fun _ => ⟨fun _ ⟨c, h⟩ => ?_, fun _ _ p hp => ?_⟩, fun _ e' _ => untouched_db rfl rfl⟩
    · rw [hc] at h
      cases h
    · rw [attempted, hc] at hp
      cases hp
  | ok c =>
    obtain ⟨subnet, push⟩ := c
    have hfree : ∀ ip, truthy input.ipAddress = some ip →
      findActiveAuthoritativeAt w.db input.subnetId ip = none :=
      fun ip hip => (checkAddress_ok (checkCreate_ok hc).2.1 hip).2.2
    cases tx with
    | some e =>
      obtain ⟨hsubnets, -, -⟩ := freed_tables w.db input
      constructor
      · intro h
        refine ⟨fun _ _ hf => freed_moves hf (h e rfl).rows, fun htx => ?_⟩
        cases htx
      · intro h e' _
        exact untouched_db (freed_keeps (h.transaction nofun ⟨_, hc⟩)) hsubnets
    | none =>
      rw [insertReservationBy]
      rcases hi : insertReservation w.db input with ⟨db, e | row⟩
      · obtain ⟨-, hroom, hrows, hsubnets⟩ := insertReservation_rejected hfree hi
        refine ⟨fun _ => ⟨fun htx => absurd rfl htx, fun _ hr p hp => ?_⟩,
          fun _ e' _ => untouched_db hrows hsubnets⟩
        obtain ⟨target, ip, mac, -, hip, -⟩ := (attempted_checked hc).mp hp
        exact absurd hr (hroom (by rw [hip]; exact nofun))
      · obtain ⟨hrows, hid, hfirewalls, hsubnets⟩ := insertReservation_rows hi
        have hcomp : Compensable N device none w input ↔ (Room w.db input → ∀ p ∈ attempted N w input,
            Refused N (device p) p → ¬ Frees w.db input ∧ ¬ Taken N (w.gateways p.deviceName) (device p) p) :=
          ⟨fun h => h.push rfl, fun h => ⟨fun htx => absurd rfl htx, fun _ => h⟩⟩
        rw [hcomp]
        have hidle : (∀ p ∈ attempted N w input, False) → ((∀ e, Except.ok (ε := Failure) row = .error e →
            Untouched input.subnetId w { w with db := db }) ↔ (Room w.db input → ∀ p ∈ attempted N w input,
              Refused N (device p) p → ¬ Frees w.db input ∧
                ¬ Taken N (w.gateways p.deviceName) (device p) p)) := by
          refine fun hnone => ⟨fun _ _ p hp => (hnone p hp).elim, fun _ e he => ?_⟩
          cases he
        cases push with
        | none =>
          refine hidle fun p hp => ?_
          obtain ⟨target, _, _, hpush, -⟩ := (attempted_checked hc).mp hp
          cases hpush
        | some target =>
          cases hip : truthy input.ipAddress with
          | none =>
            refine hidle fun p hp => ?_
            obtain ⟨_, _, _, _, hip', -⟩ := (attempted_checked hc).mp hp
            rw [hip] at hip'
            cases hip'
          | some ip =>
            cases hmac : truthy (cleanMac input) with
            | none =>
              refine hidle fun p hp => ?_
              obtain ⟨_, _, _, _, _, hmac', -⟩ := (attempted_checked hc).mp hp
              rw [hmac] at hmac'
              cases hmac'
            | some mac =>
              have hroom : Room w.db input := (insertReservation_ok_iff hip).mp ⟨_, _, hi⟩
              have hplan : attempted N w input = if firewallKnownDown w.db target then none else
                  some (createPushParams input subnet target w.db.reservations.nextId ip mac) := by
                rw [attempted, hc, hip, hmac]
              rw [hplan]
              refine (pushCreatedBy_atomic_iff hrows hid hfirewalls
                (hsubnets (by rw [hip]; exact nofun))).trans ?_
              exact ⟨fun h _ => h, fun h => h hroom⟩

end Atomicity

section Printer

def printerFallback : Reservation :=
  { subnetId := "lan", ipAddress := some "10.0.0.9", sourceType := .dnsResolved, createdBy := some systemActor }

def resolvedPlant : World :=
  { plant with
    db := { plant.db with
      reservations := ((Table.empty uniqueKey).insert printerFallback).getD (Table.empty uniqueKey) } }

def refusal : Failure := .app 400 "FortiOS rejected the entry"

def mangling (p : PushParams) : Conduct :=
  let stored := ((plant.gateways p.deviceName).create 1 { newEntry p with mac := some "00:11:22:33:44:66" }).1
  { answers := { replies p (plant.gateways p.deviceName) {} with
                 after := fun scopeId => .ok (stored.reserved scopeId) }
    taken := fun _ => stored }

/-- A push that the device refuses costs the fallback row, and one that fails
its verification leaves the entry on the device. -/
theorem printer_not_atomic :
    ¬ Atomic reference (ownConduct resolvedPlant.gateways { post := .failed refusal }) none
      resolvedPlant printer 1 ∧
      ¬ Atomic reference mangling none plant printer 1 := by
  constructor
  · intro h
    have hrows := (h refusal (by rfl)).rows
    revert hrows
    decide +kernel
  · intro h
    have hdevice := (h _ (by rfl)).device "fg1"
    have hscope := congrFun hdevice 1
    revert hscope
    decide +kernel

end Printer

end Polaris.ReservationAtomicity
