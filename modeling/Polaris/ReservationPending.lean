import Polaris.ReservationQueue
import Polaris.Lib.Runs

namespace Polaris.ReservationPending

open Polaris.Lib.Store Polaris.Lib.Runs Polaris.Lib.Faults Polaris.Netmask Polaris.Cidr Polaris.Mac
  Polaris.Transport Polaris.ReservationPush Polaris.Reservations Polaris.DnsResolved
  Polaris.ReservationService Polaris.ReservationQueue

/-- No device holds an entry written for the reservation. -/
def Clean (gateways : String → Gateway) (id : Nat) : Prop :=
  ∀ device scopeId, ∀ e ∈ (gateways device).reserved scopeId, e.writtenFor ≠ some id

def Queued (r : Row Reservation) : Prop := r.data.pushStatus = some .pending

instance (r : Row Reservation) : Decidable (Queued r) := inferInstanceAs (Decidable (_ = _))

/-- Queued rows have nothing on a device, and neither have ids yet to come. -/
structure Held (w : World) : Prop where
  queued : ∀ r ∈ w.db.rows, Queued r → Clean w.gateways r.id
  fresh : ∀ id, w.db.reservations.nextId ≤ id → Clean w.gateways id

section Devices

variable {gateways : String → Gateway} {id : Nat}

theorem clean_update {device : String} {g : Gateway} (h : Clean gateways id)
    (hg : ∀ s, ∀ e ∈ g.reserved s, e.writtenFor ≠ some id) :
    Clean (Function.update gateways device g) id := by
  intro d s e he
  by_cases hd : d = device
  · subst hd
    exact hg s e (by simpa using he)
  · rw [Function.update_of_ne hd] at he
    exact h d s e he

theorem update_self (device : String) :
    Function.update gateways device (gateways device) = gateways := Function.update_eq_self _ _

theorem clean_create {device : String} {scopeId : Nat} {p : PushParams} (hne : p.reservationId ≠ id)
    (h : Clean gateways id) :
    Clean (Function.update gateways device ((gateways device).create scopeId (newEntry p)).1) id :=
  clean_update h (Gateway.forall_create (h device) (by simpa [newEntry] using hne))

end Devices

section Steps

variable {N : Package} {w : World}

/-- Once a write has taken effect, its answer and the read-back arrive. -/
def Heard (faults : PushFaults) : Prop :=
  faults.post.applies = true → faults.post = .answered ∧ faults.readBack = .answered

theorem held_of_gateways {db : Db} (h : Held w) (hle : w.db.reservations.nextId ≤ db.reservations.nextId)
    (hq : ∀ r ∈ db.rows, Queued r → Clean w.gateways r.id) : Held { w with db := db } :=
  ⟨hq, fun id hid => h.fresh id (Nat.le_trans hle hid)⟩

theorem held_updateRow {writer : Writer} {id : Nat} {f : Reservation → Reservation} (h : Held w)
    (hf : ∀ r ∈ w.db.rows, r.id = id → (f r.data).pushStatus = some .pending →
      Clean w.gateways id) : Held { w with db := (w.db.updateRow writer id f).1 } := by
  refine held_of_gateways h (by simp) ?_
  exact Db.forall_updateRow _ h.queued hf

theorem held_insert (input : CreateReservationInput) (h : Held w) :
    Held { w with db := (insertReservation w.db input).1 } := by
  refine held_of_gateways h nextId_insertReservation_le ?_
  exact forall_insertReservation (P := fun r => Queued r → Clean w.gateways r.id)
    (fun _ _ h => h) h.queued (fun _ hq => by cases hq)

theorem settleCreate_cases (db : Db) (subnet : Subnet) (id now : Nat) (e : Failure) :
    (∃ f, settleCreate db subnet id now (.error e) = db.updateRow .push id f) ∨
      settleCreate db subnet id now (.error e) = (db.deleteRows (·.id = id), .error e) := by
  simp only [settleCreate]
  cases classifyPushError e with
  | transient => exact .inl ⟨_, rfl⟩
  | permanent => exact .inr rfl

theorem held_pushed {writer : Writer} {p : PushParams} {scopeId : Nat} {device : String}
    {f : Reservation → Reservation} {r : Row Reservation} (h : Held w)
    (hr : w.db.reservations.find p.reservationId = some r) (hf : ∀ a, uniqueKey (f a) = uniqueKey a)
    (hs : ∀ a, (f a).pushStatus ≠ some .pending) :
    Held (setGateway { w with db := (w.db.updateRow writer p.reservationId f).1 } device
      ((w.gateways device).create scopeId (newEntry p)).1) := by
  obtain ⟨hmem, hid⟩ := Table.mem_of_find hr
  refine ⟨?_, fun j hj => ?_⟩
  · refine Db.forall_updateRow_of_key hr hf (fun b hb hne hq => ?_) (fun hq => absurd hq (hs _))
    exact clean_create (Ne.symm hne) (h.queued b hb hq)
  · have hlt := w.db.reservations.ids_lt r hmem
    simp only [setGateway, Db.nextId_updateRow] at hj
    exact clean_create (by omega) (h.fresh j hj)

theorem held_pushCreated {input : CreateReservationInput} {subnet : Subnet} {target : PushTarget}
    {id now : Nat} {ip mac : String} {faults : PushFaults} {r : Row Reservation} (h : Held w)
    (hr : w.db.reservations.find id = some r) (hc : Clean w.gateways id) (hh : Heard faults) :
    Held (pushCreated N w input subnet target id ip mac now faults).1 := by
  unfold pushCreated
  split_ifs
  · exact held_updateRow h (fun _ _ _ _ => hc)
  · obtain ⟨e, he⟩ | ⟨scope, -, he⟩ := pushReservation_cases (N := N)
      (g := w.gateways target.deviceName) (p := createPushParams input subnet target id ip mac) hh
    · simp only [he, setGateway, update_self]
      obtain ⟨f, hs⟩ | hs := settleCreate_cases w.db subnet id now e <;> rw [hs]
      · exact held_updateRow h (fun _ _ _ _ => hc)
      · exact held_of_gateways h (Nat.le_refl _) (Db.forall_deleteRows _ h.queued _)
    · simp only [he]
      exact held_pushed (p := createPushParams input subnet target id ip mac) h hr (fun _ => rfl)
        (fun _ => by simp [stampPushed])

theorem held_create {input : CreateReservationInput} {now : Nat} {faults : PushFaults} (h : Held w)
    (hh : Heard faults) : Held (createReservation N w input now faults).1 := by
  unfold createReservation
  cases hc : checkCreate N w.db input with
  | error e => exact h
  | ok c =>
    have hi := held_insert input h
    have hok := @insertReservation_ok w.db input
    revert hi hok
    dsimp only
    rcases insertReservation w.db input with ⟨db, res⟩
    intro hi hok
    cases res with
    | error e => exact hi
    | ok row =>
      obtain ⟨rfl, hfind⟩ := hok rfl
      dsimp only
      split
      · exact held_pushCreated hi hfind (h.fresh _ (Nat.le_refl _)) hh
      · exact hi

theorem held_pushQueued {q : QueuedReservationRow} {target : PushTarget} {ip mac : String} {now : Nat}
    {faults : PushFaults} (h : Held w) (hq : q.row ∈ w.db.rows) (hp : Queued q.row)
    (hh : Heard faults) : Held (pushQueued N w q target ip mac now faults).1 := by
  have hc := h.queued q.row hq hp
  have hstamp : Held { w with db := (w.db.updateRow .push q.row.id (stampAttempt now)).1 } :=
    held_updateRow h (fun r hr hid _ => hc)
  obtain ⟨t, ht, hu⟩ := Db.updateRow_of_key (w := .push) (f := stampAttempt now)
    (Table.find_of_mem hq) (fun _ => rfl)
  have hfind := Table.find_updateWhere ht (Table.find_of_mem hq)
  unfold pushQueued
  rw [hu] at hstamp ⊢
  dsimp only
  obtain ⟨e, he⟩ | ⟨scope, -, he⟩ := pushReservation_cases (N := N)
    (g := w.gateways target.deviceName) (p := queuedPushParams q target ip mac) hh
  · simp only [he, setGateway, update_self]
    exact held_updateRow hstamp (fun _ _ _ _ => hc)
  · simp only [he]
    exact held_pushed (p := queuedPushParams q target ip mac) hstamp hfind (fun _ => rfl)
      (fun _ => by simp [settleQueued, stampPushed])

theorem held_attempt {q : QueuedReservationRow} {bypass : Bool} {now : Nat} {faults : PushFaults}
    (h : Held w) (hq : q.row ∈ w.db.rows) (hp : Queued q.row) (hh : Heard faults) :
    Held (attemptQueuedPush N w q bypass now faults).1 := by
  have hc := h.queued q.row hq hp
  unfold attemptQueuedPush
  split
  · exact held_updateRow h (fun _ _ _ _ => hc)
  · split
    · exact held_updateRow h (fun _ _ _ _ => hc)
    · split
      · exact h
      · exact held_pushQueued h hq hp hh

theorem pushUpdate_cases (N : Package) (w : World) (input : UpdateReservationInput)
    (row : Row Reservation) (subnet : Subnet) (changedMac : Option (Option String)) (now : Nat)
    (faults : UpdateFaults) :
    (∃ res, pushUpdate N w input row subnet changedMac now faults = (w, res) ∧
      ∀ f, res = .ok f → f = id) ∨
    (row.data.pushStatus ≠ some .pending ∧ ∃ device p res,
      p.reservationId = row.id ∧
      pushUpdate N w input row subnet changedMac now faults =
        (setGateway w device (updatePushedReservation N (w.gateways device) p faults).1, res) ∧
      ∀ f, res = .ok f → ∀ a, (f a).pushStatus ≠ some .pending) := by
  unfold pushUpdate
  cases updatePushTarget w.db subnet row.data.ipAddress with
  | none => exact .inl ⟨_, rfl, by simp [eq_comm]⟩
  | some found =>
    obtain ⟨target, ip⟩ := found
    cases changedMac with
    | none => exact .inl ⟨_, rfl, by simp [eq_comm]⟩
    | some newMac =>
      dsimp only
      split_ifs with hq
      · cases newMac with
        | none => exact .inl ⟨_, rfl, by simp⟩
        | some mac => exact .inl ⟨_, rfl, by simp [eq_comm]⟩
      · cases newMac with
        | none => exact .inl ⟨_, rfl, by simp⟩
        | some mac =>
          refine .inr ⟨hq, target.deviceName, updateParams input row subnet target ip mac, _, rfl, rfl,
            fun f hf a => ?_⟩
          revert hf
          cases (updatePushedReservation N (w.gateways target.deviceName)
            (updateParams input row subnet target ip mac) faults).2 with
          | error e => simp [Except.map]
          | ok entry =>
            intro hf
            cases hf
            simp [stampUpdated]

theorem held_update {id : Nat} {input : UpdateReservationInput} {actor : Option String} {now : Nat}
    {faults : UpdateFaults} (h : Held w) :
    Held (updateReservation N w id input actor now faults).1 := by
  unfold updateReservation
  cases hf : w.db.findReservation id with
  | error e => exact h
  | ok found =>
    obtain ⟨row, subnet⟩ := found
    dsimp only
    split_ifs
    · exact h
    · cases parseNewMac input with
      | error e => exact h
      | ok newMac =>
        obtain ⟨hfind, -⟩ := Db.findReservation_ok hf
        obtain ⟨hmem, rfl⟩ := Table.mem_of_find hfind
        dsimp only
        obtain ⟨res, hc, hid⟩ | ⟨hnq, device, p, res, hp, hc, hnp⟩ := pushUpdate_cases N w input row
          subnet (macChange row.data newMac) now faults <;> rw [hc]
        · cases res with
          | error e => exact h
          | ok f =>
            cases hid f rfl
            refine held_updateRow h (fun r hr hrid hq => ?_)
            exact hrid ▸ h.queued r hr hq
        · have hw : Held (setGateway w device
              (updatePushedReservation N (w.gateways device) p faults).1) := by
            have hclean : ∀ j, j ≠ row.id → Clean w.gateways j → Clean (Function.update w.gateways device
                (updatePushedReservation N (w.gateways device) p faults).1) j := fun j hj hc =>
              clean_update hc (forall_updatePushedReservation (hc device)
                (fun r => by simpa [hp, updateEntry] using Ne.symm hj))
            refine ⟨fun b hb hq => hclean _ (fun hbid => ?_) (h.queued b hb hq), fun j hj => ?_⟩
            · exact hnq (Table.eq_of_id hb hmem hbid ▸ hq)
            · have := w.db.reservations.ids_lt row hmem
              exact hclean j (fun he => by subst he; exact absurd hj (by simpa [setGateway] using this))
                (h.fresh j hj)
          cases res with
          | error e => exact hw
          | ok f => exact held_updateRow hw (fun r _ _ hq => absurd hq (hnp f rfl _))

theorem held_unpush {row : Reservation} {subnet : Subnet} {faults : UnpushFaults} (h : Held w) :
    Held (unpushReleased w row subnet faults).1 := by
  have hclean : ∀ {device scopeId entryId integration j}, Clean w.gateways j →
      Clean (Function.update w.gateways device (unpushReservation (w.gateways device) scopeId entryId
        integration device faults).1) j := fun hc =>
    clean_update hc (forall_unpushReservation (hc _))
  unfold unpushReleased
  split
  · split_ifs
    · exact h
    · exact ⟨fun b hb hq => hclean (h.queued b hb hq), fun j hj => hclean (h.fresh j hj)⟩
  · exact h

theorem held_commit {row : Row Reservation} (h : Held w) :
    Held { w with db := (commitRelease w.db row).1 } := by
  have hd : Held { w with db := w.db.deleteRows (releasedTwin row) } :=
    held_of_gateways h (Nat.le_refl _) (Db.forall_deleteRows _ h.queued _)
  have hu : Held { w with
      db := ((w.db.deleteRows (releasedTwin row)).updateRow .release row.id stampReleased).1 } :=
    held_updateRow hd (fun _ _ _ hq => by cases hq)
  revert hu
  unfold commitRelease
  rcases (w.db.deleteRows (releasedTwin row)).updateRow .release row.id stampReleased with ⟨db, res⟩
  intro hu
  cases res with
  | error e => exact ⟨h.queued, h.fresh⟩
  | ok released =>
    dsimp only
    split_ifs
    · exact hu
    · exact ⟨hu.queued, hu.fresh⟩

theorem held_release {id : Nat} {faults : ReleaseFaults} (h : Held w) :
    Held (releaseReservation w id faults).1 := by
  unfold releaseReservation
  split
  · exact h
  · rename_i row subnet _
    split_ifs
    · exact h
    · exact held_commit (held_unpush h)

end Steps

section Retry

variable {N : Package} {w : World}

/-- The device answers every call of a push, and one of its servers is the
scope of the subnet. -/
structure Reachable (N : Package) (g : Gateway) (target : PushTarget) (cidr : String)
    (faults : PushFaults) (scopeId : Nat) : Prop where
  transport : buildTransportForIntegration target.integration target.deviceName faults.mgmtIp = .ok ()
  servers : faults.servers = .answered
  list : faults.list = .answered
  post : faults.post = .answered
  readBack : faults.readBack = .answered
  scope : ∃ ifc, findScopeIdForCidr N g.servers cidr = .ok (scopeId, ifc)

theorem preparePush_reachable {g : Gateway} {target : PushTarget} {p : PushParams} {faults : PushFaults}
    {scopeId : Nat} (h : Reachable N g target p.subnetCidr faults scopeId)
    (hint : p.integration = target.integration) (hdev : p.deviceName = target.deviceName)
    (hne : target.deviceName ≠ "") (hmac : isMac (normalizeMac p.mac) = true)
    (hfree : ∀ r ∈ g.reserved scopeId, r.ip ≠ some p.ip ∧ sameMac (normalizeMac p.mac) r = false) :
    ∃ ifc, preparePush N g p faults = .ok (scopeId, ifc) := by
  obtain ⟨ifc, hs⟩ := h.scope
  refine ⟨ifc, ?_⟩
  unfold preparePush
  rw [if_neg (hdev ▸ hne), if_neg (by simp [hmac]), hint, hdev]
  simp [h.transport, h.servers, h.list, fetch, hs, checkCollision_of_none hfree, bind, Except.bind,
    pure, Except.pure]

theorem findCollider_none {row : Row Reservation} {ip : String} (hrow : row ∈ w.db.rows)
    (hact : row.data.status = .active) (hip : row.data.ipAddress = some ip) :
    findCollider w.db row = none := by
  refine List.find?_eq_none.mpr (fun r hr hp => ?_)
  simp only [Bool.and_eq_true, decide_eq_true_eq, ne_eq] at hp
  have hk : uniqueKey r.data = uniqueKey row.data := by
    simp [uniqueKey, hp.1.1.2, hp.1.2, hp.2, hact]
  have heq := Table.eq_of_key hr hrow hk (by simp [uniqueKey, hp.1.2, hip])
  exact hp.1.1.1 (by rw [heq])

variable {q : QueuedReservationRow} {target : PushTarget} {ip mac : String} {now scopeId : Nat}
  {faults : PushFaults}

theorem pushQueued_syncs {ifc : Option String} (hrow : q.row ∈ w.db.rows)
    (hp : preparePush N (w.gateways target.deviceName) (queuedPushParams q target ip mac) faults =
      .ok (scopeId, ifc)) (hpost : faults.post = .answered) (hread : faults.readBack = .answered) :
    (pushQueued N w q target ip mac now faults).2 = .ok .synced ∧
      ∃ r ∈ (pushQueued N w q target ip mac now faults).1.db.rows,
        r.id = q.row.id ∧ r.data.pushStatus = some .synced := by
  have hfind := Table.find_of_mem hrow
  obtain ⟨t, ht, hu⟩ := Db.updateRow_of_key (w := .push) (f := stampAttempt now) hfind (fun _ => rfl)
  have hpushed := pushReservation_answered hp hpost hread
  have hfind' := Table.find_updateWhere ht hfind
  obtain ⟨t', ht', hu'⟩ := @Db.updateRow_of_key { w.db with reservations := t } .push q.row.id
    (stampPushed ⟨scopeId, (w.gateways target.deviceName).nextEntryId, ifc,
      pushDescription (queuedPushParams q target ip mac)⟩ (some target.integration.id) now) _ hfind'
    (fun _ => rfl)
  have hmem := (Table.mem_of_find (Table.find_updateWhere ht' hfind')).1
  unfold pushQueued
  rw [hu]
  simp only [hpushed, settleQueued, hu']
  refine ⟨rfl, _, hmem, by simp [amend_id], ?_⟩
  rw [amend_of_pos (by simp [amend_id])]
  rfl

/-- A retry finds nothing of its own on the device, so it writes. -/
theorem retry_syncs {bypass : Bool} (h : Held w) (hrow : q.row ∈ w.db.rows)
    (hact : q.row.data.status = .active) (hq : Queued q.row)
    (hres : resolveQueued q = .ok (target, ip, mac)) (hmac : isMac (normalizeMac mac) = true)
    (hgate : bypass = true ∨ readinessGate w.db q.row.data target now = none)
    (hreach : Reachable N (w.gateways target.deviceName) target q.subnet.cidr faults scopeId)
    (hforeign : ∀ e ∈ (w.gateways target.deviceName).reserved scopeId,
      e.ip = some ip ∨ sameMac (normalizeMac mac) e = true → e.writtenFor = some q.row.id) :
    (attemptQueuedPush N w q bypass now faults).2 = .ok .synced ∧
      ∃ r ∈ (attemptQueuedPush N w q bypass now faults).1.db.rows,
        r.id = q.row.id ∧ r.data.pushStatus = some .synced := by
  obtain ⟨hdev, hqip, -⟩ := resolveQueued_ok hres
  have hne : target.deviceName ≠ "" := (truthy_some hdev).2
  have hip : q.row.data.ipAddress = some ip := (truthy_some hqip).1
  have hfree : ∀ e ∈ (w.gateways target.deviceName).reserved scopeId,
      e.ip ≠ some ip ∧ sameMac (normalizeMac mac) e = false := by
    intro e he
    have hw := h.queued q.row hrow hq target.deviceName scopeId e he
    refine ⟨fun hi => hw (hforeign e he (.inl hi)), ?_⟩
    cases hs : sameMac (normalizeMac mac) e with
    | false => rfl
    | true => exact absurd (hforeign e he (.inr hs)) hw
  obtain ⟨ifc, hp⟩ := preparePush_reachable (p := queuedPushParams q target ip mac) hreach rfl rfl hne
    hmac hfree
  have hg : (if bypass then none else readinessGate w.db q.row.data target now) = none := by
    obtain rfl | hg := hgate
    · rfl
    · simp [hg]
  unfold attemptQueuedPush
  simp only [hres, findCollider_none hrow hact hip, hg]
  exact pushQueued_syncs hrow hp hreach.post hreach.readBack

end Retry

section Runs

variable (N : Package)

inductive Call
  | create (input : CreateReservationInput) (now : Nat) (faults : PushFaults)
  | attempt (id : Nat) (bypassReadinessGates : Bool) (now : Nat) (faults : PushFaults)
  | update (id : Nat) (input : UpdateReservationInput) (actor : Option String) (now : Nat)
      (faults : UpdateFaults)
  | release (id : Nat) (faults : ReleaseFaults)

def attempt (w : World) (id : Nat) (bypass : Bool) (now : Nat) (faults : PushFaults) : World :=
  match w.db.findReservation id with
  | .error _ => w
  | .ok (row, subnet) =>
    if row.data.status = .active ∧ row.data.pushStatus = some .pending then
      (attemptQueuedPush N w ⟨row, subnet, w.db.integrationOf subnet⟩ bypass now faults).1
    else w

def run (w : World) : Call → World
  | .create input now faults => (createReservation N w input now faults).1
  | .attempt id bypass now faults => attempt N w id bypass now faults
  | .update id input actor now faults => (updateReservation N w id input actor now faults).1
  | .release id faults => (releaseReservation w id faults).1

/-- No push loses the answer to a write that took effect, or its read-back. -/
def Answered (_ : World) : Call → Prop
  | .create _ _ faults | .attempt _ _ _ faults => Heard faults
  | .update _ _ _ _ _ | .release _ _ => True

variable {N} {w : World}

theorem held_run {c : Call} (h : Held w) (hc : Answered w c) : Held (run N w c) := by
  cases c with
  | create input now faults => exact held_create h hc
  | attempt id bypass now faults =>
    simp only [run, attempt]
    cases hf : w.db.findReservation id with
    | error e => exact h
    | ok found =>
      obtain ⟨row, subnet⟩ := found
      have hrow := (Table.mem_of_find (Db.findReservation_ok hf).1).1
      dsimp only
      split_ifs with hq
      · exact held_attempt (q := ⟨row, subnet, w.db.integrationOf subnet⟩) h hrow hq.2 hc
      · exact h
  | update id input actor now faults => exact held_update h
  | release id faults => exact held_release h

theorem release_queued {row : Row Reservation} {faults : ReleaseFaults} (hrow : row ∈ w.db.rows)
    (hq : Queued row) : (releaseReservation w row.id faults).1.gateways = w.gateways := by
  unfold releaseReservation
  cases hf : w.db.findReservation row.id with
  | error e => rfl
  | ok found =>
    obtain ⟨r, subnet⟩ := found
    have hr := (Db.findReservation_ok hf).1
    rw [Table.find_of_mem hrow] at hr
    cases hr
    dsimp only
    split_ifs
    · rfl
    · have hu : unpushReleased w row.data subnet faults.unpush = (w, none) := by
        unfold unpushReleased
        split
        · exact if_pos hq
        · rfl
      rw [hu]

/-- From a world whose queue is not on the devices, as long as no push loses
the answer to a write that took effect: the queue stays off the devices, a
release of a queued row leaves nothing behind, and a retry that reaches a
device without a foreign entry for the address or the MAC writes the row. -/
theorem pending_never_written (N : Package) (w : World) (calls : List Call) (hw : Held w)
    (hcalls : Along (run N) Answered w calls) :
    ∀ r ∈ (calls.foldl (run N) w).db.rows, Queued r →
      Clean (calls.foldl (run N) w).gateways r.id ∧
      (∀ faults, Clean (releaseReservation (calls.foldl (run N) w) r.id faults).1.gateways r.id) ∧
      ∀ subnet integration target ip mac bypass now faults scopeId,
        r.data.status = .active →
        resolveQueued ⟨r, subnet, integration⟩ = .ok (target, ip, mac) →
        isMac (normalizeMac mac) = true →
        (bypass = true ∨ readinessGate (calls.foldl (run N) w).db r.data target now = none) →
        Reachable N ((calls.foldl (run N) w).gateways target.deviceName) target subnet.cidr faults
          scopeId →
        (∀ e ∈ ((calls.foldl (run N) w).gateways target.deviceName).reserved scopeId,
          e.ip = some ip ∨ sameMac (normalizeMac mac) e = true → e.writtenFor = some r.id) →
        (attemptQueuedPush N (calls.foldl (run N) w) ⟨r, subnet, integration⟩ bypass now faults).2 =
            .ok .synced ∧
          ∃ r' ∈ (attemptQueuedPush N (calls.foldl (run N) w) ⟨r, subnet, integration⟩ bypass now
              faults).1.db.rows,
            r'.id = r.id ∧ r'.data.pushStatus = some .synced := by
  have hheld := foldl_invariant (fun _ _ h hc => held_run h hc) hw hcalls
  intro r hr hq
  refine ⟨hheld.queued r hr hq, fun faults => ?_, ?_⟩
  · rw [release_queued hr hq]
    exact hheld.queued r hr hq
  · intro subnet integration target ip mac bypass now faults scopeId hact hres hmac hgate hreach hforeign
    exact retry_syncs (q := ⟨r, subnet, integration⟩) hheld hr hact hq hres hmac hgate hreach hforeign

def hangUp : Failure := .thrown "socket hang up"

theorem held_plant : Held plant :=
  ⟨fun _ hr => by simp [plant, Db.rows, Table.empty] at hr,
    fun _ _ _ _ _ he => by simp [plant, Gateway.empty] at he⟩

def queuedCamera : Row Reservation :=
  ⟨0, { subnetId := "lan", ipAddress := some "10.0.0.5", macAddress := some "aa:bb:cc:dd:ee:ff",
        pushedToId := some "fmg", pushStatus := some .pending, pushError := some "socket hang up",
        pushQueuedAt := some 1, pushAttempts := 1, pushLastAttemptAt := some 1 }⟩

theorem pending_never_written_plant :
    let w := [Call.create camera 1 { list := .failed hangUp }].foldl (run reference) plant
    queuedCamera ∈ w.db.rows ∧ Clean w.gateways queuedCamera.id ∧
      (attemptQueuedPush reference w ⟨queuedCamera, plantSubnet, some { id := "fmg" }⟩ true 2 {}).2 =
        .ok .synced := by
  intro w
  have hmem : queuedCamera ∈ w.db.rows := by decide +kernel
  obtain ⟨hclean, -, hretry⟩ := pending_never_written reference plant
    [.create camera 1 { list := .failed hangUp }] held_plant ⟨fun _ => ⟨rfl, rfl⟩, trivial⟩
    queuedCamera hmem rfl
  refine ⟨hmem, hclean, (hretry _ _ ⟨{ id := "fmg" }, "fg1"⟩ "10.0.0.5" "aa:bb:cc:dd:ee:ff" true 2 {} 1
    rfl (by rfl) (by decide +kernel) (.inl rfl) ?_ ?_).1⟩
  · exact ⟨rfl, rfl, rfl, rfl, rfl, none, by rfl⟩
  · decide +kernel

/-- A write that takes effect and loses its answer leaves a queued row with
an entry on the device, which the next retry takes for a foreign one. -/
theorem lost_answer_writes_pending :
    let w := [Call.create camera 1 { post := .lost hangUp }].foldl (run reference) plant
    queuedCamera ∈ w.db.rows ∧ Queued queuedCamera ∧ ¬ Clean w.gateways queuedCamera.id := by
  refine ⟨by decide +kernel, rfl, fun h => ?_⟩
  exact h "fg1" 1 ⟨1, some "10.0.0.5", some "aa:bb:cc:dd:ee:ff", "Polaris: 10.0.0.5", some 0⟩
    (by decide +kernel) rfl

end Runs

end Polaris.ReservationPending
