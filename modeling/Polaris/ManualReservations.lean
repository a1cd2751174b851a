import Polaris.Lib.Runs
import Polaris.ReservationSync

namespace Polaris.ManualReservations

open Polaris.AssetLookup Polaris.DhcpAssociation Polaris.Lib.Runs Polaris.Lib.Store Polaris.Netmask
  Polaris.ReservationSync
open Polaris.ConflictResolution hiding Asset Db
open Polaris.Reservations hiding Subnet Db

section Map

variable {κ ν : Type} [DecidableEq κ] {key : κ} {v : ν} {m : List (κ × ν)} {p : κ × ν}

theorem mapGet_mem (h : mapGet key m = some v) : (key, v) ∈ m := by
  obtain ⟨p, hp, rfl⟩ := Option.map_eq_some_iff.mp h
  have hkey : p.1 = key := by simpa using List.find?_some hp
  exact hkey ▸ List.mem_of_find?_eq_some hp

theorem mem_mapSet (h : p ∈ mapSet key v m) : p ∈ m ∨ p = (key, v) := by
  rw [mapSet] at h
  split at h
  · obtain ⟨q, hq, rfl⟩ := List.mem_map.mp h
    split
    · exact .inr rfl
    · exact .inl hq
  · exact (List.mem_append.mp h).imp id List.mem_singleton.mp

theorem nodup_mapSet (h : (m.map Prod.fst).Nodup) : ((mapSet key v m).map Prod.fst).Nodup := by
  rw [mapSet]
  split
  · have hkeys : (m.map fun p => if p.1 = key then (key, v) else p).map Prod.fst = m.map Prod.fst := by
      rw [List.map_map]
      refine List.map_congr_left fun p _ => ?_
      dsimp only [Function.comp]
      split
      next hk => exact hk.symm
      next => rfl
    rw [hkeys]
    exact h
  · rename_i hnew
    rw [List.map_append, List.nodup_append]
    refine ⟨h, List.nodup_singleton key, fun a ha b hb hab => hnew ?_⟩
    obtain ⟨q, hq, rfl⟩ := List.mem_map.mp ha
    obtain rfl := List.mem_singleton.mp hb
    exact List.any_eq_true.mpr ⟨q, hq, decide_eq_true hab⟩

omit [DecidableEq κ] in
theorem eq_of_key (hnodup : (m.map Prod.fst).Nodup) {q : κ × ν} (hp : p ∈ m) (hq : q ∈ m)
    (h : p.1 = q.1) : p = q :=
  List.inj_on_of_nodup_map hnodup hp hq h

end Map

section Conflicts

abbrev Conflicts := Table (Table.noKey (α := Conflict))

/-- Decided conflicts stay as they are, and no conflict is lost or accepted. -/
structure Evolves (t t' : Conflicts) : Prop where
  decided : ∀ r ∈ t.rows, r.data.status ≠ .pending → r ∈ t'.rows
  kept : ∀ r ∈ t.rows, ∃ r' ∈ t'.rows, r'.id = r.id
  accepted : ∀ r ∈ t'.rows, r.data.status = .accepted → r ∈ t.rows

variable {t t' t'' : Conflicts} {p : Row Conflict → Bool} {f : Conflict → Conflict} {data : Conflict}
  {db : Db}
  {integrationId : String} {now reservationId : Nat} {proposed : Proposed} {existing : Reservation}

theorem Evolves.refl (t : Conflicts) :
    Evolves t t := ⟨fun _ hr _ => hr, fun r hr => ⟨r, hr, rfl⟩, fun _ hr _ => hr⟩

theorem Evolves.trans (h : Evolves t t') (h' : Evolves t' t'') : Evolves t t'' := by
  refine ⟨fun r hr hd => h'.decided r (h.decided r hr hd) hd, fun r hr => ?_,
    fun r hr ha => h.accepted r (h'.accepted r hr ha) ha⟩
  obtain ⟨r', hr', hid'⟩ := h.kept r hr
  obtain ⟨r'', hr'', hid''⟩ := h'.kept r' hr'
  exact ⟨r'', hr'', hid''.trans hid'⟩

theorem evolves_append (hdata : data.status = .pending) : Evolves t (t.append data) := by
  have hrows := (t.append_rows data).1
  refine ⟨fun r hr _ => ?_, fun r hr => ⟨r, ?_, rfl⟩, fun r hr ha => ?_⟩
  · rw [hrows]
    exact List.mem_append_left _ hr
  · rw [hrows]
    exact List.mem_append_left _ hr
  · rw [hrows] at hr
    obtain hr | hr := List.mem_append.mp hr
    · exact hr
    · obtain rfl := List.mem_singleton.mp hr
      rw [hdata] at ha
      cases ha

theorem evolves_amend (hp : ∀ r ∈ t.rows, p r = true → r.data.status = .pending)
    (hf : ∀ c, c.status = .pending →
    (f c).status ≠ .accepted) :
    Evolves t (t.amendWhere p f) := by
  have hrows := (t.amendWhere_rows p f).1
  refine ⟨fun r hr hd => ?_, fun r hr => ⟨amend p f r, ?_, amend_id p f r⟩, fun r hr ha => ?_⟩
  · rw [hrows]
    refine List.mem_map.mpr ⟨r, hr, amend_of_neg ?_ f⟩
    rw [Bool.eq_false_iff]
    exact fun hpr => hd (hp r hr hpr)
  · rw [hrows]
    exact List.mem_map_of_mem hr
  · rw [hrows] at hr
    obtain ⟨x, hx, rfl⟩ := List.mem_map.mp hr
    cases hpx : p x with
    | false => exact (amend_of_neg hpx f).symm ▸ hx
    | true =>
      rw [amend_of_pos hpx] at ha
      exact absurd ha (hf x.data (hp x hx hpx))

theorem pendingFor_pending {r : Row Conflict} (h : pendingFor reservationId r = true) :
    r.data.status = .pending := by
  rw [pendingFor, Bool.and_eq_true] at h
  exact of_decide_eq_true h.2

theorem evolves_rejectPending : Evolves db.conflicts (db.rejectPending now reservationId).conflicts :=
  evolves_amend (fun _ _ h => pendingFor_pending h) fun _ _ => nofun

theorem evolves_upsertConflict :
    Evolves db.conflicts (db.upsertConflict integrationId now reservationId proposed existing).conflicts := by
  rw [Db.upsertConflict]
  split
  · exact evolves_rejectPending
  · split
    next row hrow =>
      have hpending := pendingFor_pending (List.find?_some hrow)
      refine evolves_amend (fun r hr hid => ?_) fun c hc => ?_
      · rw [Table.eq_of_id hr (List.mem_of_find?_eq_some hrow) (of_decide_eq_true hid)]
        exact hpending
      · rw [conflictData, hc]
        exact nofun
    next =>
      split
      · exact Evolves.refl _
      · exact evolves_append rfl

end Conflicts

section Kept

variable (id : Nat) (r₀ : SyncReservation)

/-- A manual row that was never pushed, with the values the operator set. -/
structure Kept (r : SyncReservation) : Prop where
  subnet : r.subnetId = r₀.subnetId
  address : r.ipAddress = r₀.ipAddress
  hostname : r.hostname = r₀.hostname
  owner : r.owner = r₀.owner
  projectRef : r.projectRef = r₀.projectRef
  notes : r.notes = r₀.notes
  mac : r.macAddress = r₀.macAddress
  active : r.status = .active
  manual : r.sourceType = .manual
  unpushed : r.pushedToId = none

def Stored (t : Table rowKey) : Prop := ∃ r, t.find id = some ⟨id, r⟩ ∧ Kept r₀ r

def homeKey : MapKey := (r₀.subnetId, truthy r₀.ipAddress)

/-- The row as a run has it in memory, with what the run needs to know of it. -/
structure Remembered (Q : SyncReservation → Prop) (active : List (MapKey × Row SyncReservation)) : Prop where
  nodup : (active.map Prod.fst).Nodup
  home : ∀ p ∈ active, p.2.id = id → p.1 = homeKey r₀ ∧ Kept r₀ p.2.data ∧ Q p.2.data

structure Tracked (t₀ : Conflicts) (Q : SyncReservation → Prop) (run : Run) : Prop where
  stored : Stored id r₀ run.db.reservations
  memory : Remembered id r₀ Q run.active
  conflicts : Evolves t₀ run.db.conflicts

variable {id : Nat} {r₀ : SyncReservation} {t : Table rowKey} {p : Row SyncReservation → Bool}
  {f : SyncReservation → SyncReservation}

theorem Stored.update (h : Stored id r₀ t) (hf : ∀ r, Kept r₀ r → p ⟨id, r⟩ = true → Kept r₀ (f r)) :
    Stored id r₀ ((t.updateWhere p f).getD t) := by
  obtain ⟨r, hr, hkept⟩ := h
  cases ht : t.updateWhere p f with
  | none => exact ⟨r, hr, hkept⟩
  | some t' =>
    have hfind := Table.find_updateWhere ht hr
    cases hp : p ⟨id, r⟩ with
    | false => exact ⟨r, hfind.trans (by rw [amend_of_neg hp]), hkept⟩
    | true => exact ⟨f r, hfind.trans (by rw [amend_of_pos hp]), hf r hkept hp⟩

theorem Stored.insert {t' : Table rowKey} {data : SyncReservation} (h : Stored id r₀ t)
    (ht : t.insert data = some t') :
    Stored id r₀ t' := by
  obtain ⟨r, hr, hkept⟩ := h
  obtain ⟨hmem, -⟩ := Table.mem_of_find hr
  have hmem' : (⟨id, r⟩ : Row SyncReservation) ∈ t'.rows := by
    rw [(Table.insert_rows ht).1]
    exact List.mem_append_left _ hmem
  exact ⟨r, Table.find_of_mem hmem', hkept⟩

variable {db : Db} {i : Nat} {subnetId ip : String}

theorem Stored.updateReservation (h : Stored id r₀ db.reservations)
    (hf : i = id → ∀ r, Kept r₀ r → Kept r₀ (f r)) :
    Stored id r₀ (db.updateReservation i f).reservations :=
  h.update fun r hr hid => hf (of_decide_eq_true hid).symm r hr

theorem Stored.releaseDnsResolvedAt (h : Stored id r₀ db.reservations) :
    Stored id r₀ (db.releaseDnsResolvedAt subnetId ip).reservations := by
  refine h.update fun r hr hp => ?_
  simp [dnsResolvedAt, hr.manual] at hp

end Kept

section Memory

variable {id : Nat} {r₀ : SyncReservation} {t₀ : Conflicts} {Q Q' : SyncReservation → Prop} {run : Run}
  {key : MapKey}
  {row : Row SyncReservation} {f : SyncReservation → SyncReservation}
    {active : List (MapKey × Row SyncReservation)}

theorem Remembered.manual (h : Remembered id r₀ Q active) (hrow : mapGet key active = some row)
    (hid : row.id = id) :
    key = homeKey r₀ ∧ Kept r₀ row.data ∧ Q row.data := h.home _ (mapGet_mem hrow) hid

theorem Remembered.other (h : Remembered id r₀ Q active) (hrow : mapGet key active = some row)
    (hsource : row.data.sourceType ≠ .manual) : row.id ≠ id :=
  fun hid => hsource (h.manual hrow hid).2.1.manual

theorem Remembered.mapSet (h : Remembered id r₀ Q active) (hid : row.id ≠ id) :
    Remembered id r₀ Q (mapSet key row active) := by
  refine ⟨nodup_mapSet h.nodup, fun p hp hpid => ?_⟩
  obtain hp | rfl := mem_mapSet hp
  · exact h.home p hp hpid
  · exact absurd hpid hid

theorem Remembered.inMemory (h : Remembered id r₀ Q run.active)
    (hf : ∀ p ∈ run.active, p.2.id = id → (p.1 = key → Kept r₀ (f p.2.data) ∧ Q' (f p.2.data)) ∧
      (p.1 ≠ key → Q' p.2.data)) :
    Remembered id r₀ Q' (run.inMemory key f).active := by
  constructor
  · have hkeys : (run.inMemory key f).active.map Prod.fst = run.active.map Prod.fst := by
      rw [Run.inMemory, List.map_map]
      refine List.map_congr_left fun p _ => ?_
      dsimp only [Function.comp]
      split <;> rfl
    rw [hkeys]
    exact h.nodup
  · intro p hp hid
    obtain ⟨q, hq, rfl⟩ := List.mem_map.mp hp
    have hqid : q.2.id = id := by
      split at hid
      · exact hid
      · exact hid
    obtain ⟨hhome, hkept, -⟩ := h.home q hq hqid
    obtain ⟨hpos, hneg⟩ := hf q hq hqid
    split
    next hk => exact ⟨hhome, (hpos hk).1, (hpos hk).2⟩
    next hk => exact ⟨hhome, hkept, hneg hk⟩

theorem Tracked.writeOther {g : SyncReservation → SyncReservation} (h : Tracked id r₀ t₀ Q run)
    (hrow : mapGet key run.active = some row) (hid : row.id ≠ id) :
    Tracked id r₀ t₀ Q ({ run with db := run.db.updateReservation row.id f }.inMemory key g) := by
  refine ⟨h.stored.updateReservation fun he => absurd he hid, ?_, h.conflicts⟩
  refine Remembered.inMemory h.memory fun p hp hpid => ⟨fun hk => ?_, fun _ => ?_⟩
  · have heq : p = (key, row) := eq_of_key h.memory.nodup hp (mapGet_mem hrow) hk
    rw [heq] at hpid
    exact absurd hpid hid
  · exact (h.memory.home p hp hpid).2.2

theorem Tracked.create {subnetId ip : String} {data : SyncReservation} (h : Tracked id r₀ t₀ Q run) :
    Tracked id r₀ t₀ Q (run.create subnetId ip data) := by
  have hstored : Stored id r₀ (run.db.releaseDnsResolvedAt subnetId ip).reservations :=
    h.stored.releaseDnsResolvedAt
  rw [Run.create]
  split
  next => exact ⟨hstored, h.memory, h.conflicts⟩
  next t' ht =>
    refine ⟨hstored.insert ht, h.memory.mapSet ?_, h.conflicts⟩
    obtain ⟨r, hr, -⟩ := hstored
    obtain ⟨hmem, -⟩ := Table.mem_of_find hr
    exact (Nat.ne_of_lt (Table.ids_lt _ _ hmem)).symm

theorem upsertConflict_reservations {db : Db} {integrationId : String} {now reservationId : Nat}
    {p : Proposed}
    {existing : Reservation} : (db.upsertConflict integrationId now reservationId p existing).reservations =
      db.reservations := by
  rw [Db.upsertConflict]
  split
  · rfl
  · split
    · rfl
    · split <;> rfl

theorem Tracked.upsertConflict {c : Call} {p : Proposed} (h : Tracked id r₀ t₀ Q run) :
    Tracked id r₀ t₀ Q (run.upsertConflict c row p) := by
  refine ⟨?_, h.memory, h.conflicts.trans evolves_upsertConflict⟩
  rw [Run.upsertConflict, upsertConflict_reservations]
  exact h.stored

theorem Tracked.rejectPending {c : Call} (h : Tracked id r₀ t₀ Q run) :
    Tracked id r₀ t₀ Q (run.rejectPending c row) :=
  ⟨h.stored, h.memory, h.conflicts.trans evolves_rejectPending⟩

end Memory

section Phases

variable {N : Package} {C : Casing} {c : Call} {id : Nat} {r₀ : SyncReservation} {t₀ : Conflicts}
  {Q Q' : SyncReservation → Prop} {run : Run}
  {key : MapKey} {row : Row SyncReservation}

theorem Tracked.foldl {α : Type} {step : Run → α → Run} (hstep : ∀ run a, Tracked id r₀ t₀ Q run →
    Tracked id r₀ t₀ Q (step run a))
    (as : List α) (h : Tracked id r₀ t₀ Q run) : Tracked id r₀ t₀ Q (as.foldl step run) :=
  List.foldlRecOn as step h fun run h a _ => hstep run a h

theorem Tracked.mono (h : Tracked id r₀ t₀ Q run)
    (hQ : ∀ p ∈ run.active, p.2.id = id → Q p.2.data → Q' p.2.data) :
    Tracked id r₀ t₀ Q' run :=
  ⟨h.stored, ⟨h.memory.nodup, fun p hp hid =>
    ⟨(h.memory.home p hp hid).1, (h.memory.home p hp hid).2.1, hQ p hp hid (h.memory.home p hp hid).2.2⟩⟩,
      h.conflicts⟩

theorem Tracked.offer {ip : String} {p : Proposed} (h : Tracked id r₀ t₀ Q run) :
    Tracked id r₀ t₀ Q (offer N c ip p run) := by
  rw [ReservationSync.offer]
  split
  · exact h
  · split
    · split
      · exact h.upsertConflict
      · exact h
    · exact h.create

theorem Tracked.syncSwitch (sw : FortiSwitch) (h : Tracked id r₀ t₀ Q run) :
    Tracked id r₀ t₀ Q (syncSwitch N c run sw) := by
  rw [ReservationSync.syncSwitch]
  split
  · exact h
  · exact h.offer

theorem Tracked.syncAp (ap : FortiAp) (h : Tracked id r₀ t₀ Q run) :
    Tracked id r₀ t₀ Q (syncAp N C c run ap) := by
  rw [ReservationSync.syncAp]
  split
  · exact h
  · exact h.offer

theorem Tracked.syncInterface (i : InterfaceIp) (h : Tracked id r₀ t₀ Q run) :
    Tracked id r₀ t₀ Q (syncInterface N c run i) := by
  rw [ReservationSync.syncInterface]
  split
  · exact h
  · exact h.offer

theorem Tracked.refreshVipInfo {info : VipInfo} (h : Tracked id r₀ t₀ Q run)
    (hrow : mapGet key run.active = some row)
    (hid : row.id ≠ id) : Tracked id r₀ t₀ Q (refreshVipInfo key row info run) := by
  rw [ReservationSync.refreshVipInfo]
  split
  · exact h
  · exact h.writeOther hrow hid

theorem Tracked.syncVip (vip : Vip) (h : Tracked id r₀ t₀ Q run) :
    Tracked id r₀ t₀ Q (syncVip N c run vip) := by
  refine h.foldl (fun run a h => ?_) (vipAddresses vip)
  rw [syncVipAddress]
  split
  next => exact h
  next subnet _ =>
    split
    next row hrow =>
      have hother : row.data.sourceType ≠ .manual → row.id ≠ id := h.memory.other hrow
      split
      next => exact h.upsertConflict
      next hsource => exact h.refreshVipInfo hrow (hother (by simp [hsource]))
      next hsource => exact (h.refreshVipInfo hrow (hother (by simp [hsource]))).upsertConflict
      next hsource => exact (h.refreshVipInfo hrow (hother (by simp [hsource]))).upsertConflict
      next => exact h
    next => exact h.create

end Phases

section Leases

variable (N : Package) (C : Casing) (c : Call)

def reaches (key : MapKey) (entry : DhcpEntry) : Bool :=
  entry.ipAddress ≠ "" &&
    (findSubnetForIp N c.subnets entry.ipAddress).any fun s => ((s.id, some entry.ipAddress) : MapKey) = key

/-- The first lease at the address of a queued row is not the entry that the
row waits for. -/
def NotAdopted (entries : List DhcpEntry) (r : SyncReservation) : Prop :=
  r.pushStatus = some .pending → ∀ entry, entries.find? (reaches N c (homeKey r)) = some entry →
    adoptable C entry r.toReservation = false

variable {N C c} {id : Nat} {r₀ r : SyncReservation} {t₀ : Conflicts} {Q : SyncReservation → Prop} {run : Run}
  {key : MapKey}
  {row : Row SyncReservation} {entry : DhcpEntry} {rest : List DhcpEntry}

theorem homeKey_eq (h : Kept r₀ r) : homeKey r = homeKey r₀ := by rw [homeKey, homeKey, h.subnet, h.address]

theorem NotAdopted.pass (h : NotAdopted N C c (entry :: rest) r)
    (hfar : reaches N c (homeKey r) entry = false) :
    NotAdopted N C c rest r := by
  intro hpending x hx
  exact h hpending x (by rw [List.find?_cons, hfar, hx])

theorem rejectPending_inMemory {f : SyncReservation → SyncReservation} :
    (run.rejectPending c row).inMemory key f = (run.inMemory key f).rejectPending c row := rfl

theorem Tracked.vipLease (h : Tracked id r₀ t₀ Q run) (hrow : mapGet key run.active = some row)
    (hid : row.id ≠ id) :
    Tracked id r₀ t₀ Q (vipLease N C c key row entry run) := by
  rw [ReservationSync.vipLease]
  split
  · rw [rejectPending_inMemory]
    exact (h.writeOther hrow hid).rejectPending
  · split
    · exact (h.writeOther hrow hid).upsertConflict
    · exact h.upsertConflict

theorem Tracked.leaseOther (h : Tracked id r₀ t₀ Q run) (hrow : mapGet key run.active = some row)
    (hid : row.id ≠ id) :
    Tracked id r₀ t₀ Q
      (match row.data.sourceType with
        | .manual =>
          if row.data.pushStatus = some .pending then queuedLease C c key row entry run
            else manualLease C c row
            entry run
        | .vip => ReservationSync.vipLease N C c key row entry run
        | .dhcpLease | .dhcpReservation =>
          { run with db := run.db.updateReservation row.id (online c entry ∘ shift C entry row.data) }
        | _ => run) := by
  have hwrite : ∀ f, Tracked id r₀ t₀ Q { run with db := run.db.updateReservation row.id f } := fun f =>
    ⟨h.stored.updateReservation fun he => absurd he hid, h.memory, h.conflicts⟩
  split
  next =>
    split
    · rw [queuedLease]
      split
      · rw [rejectPending_inMemory]
        exact (h.writeOther hrow hid).rejectPending
      · exact h.writeOther hrow hid
    · rw [manualLease]
      split
      · exact (hwrite _).rejectPending
      · exact h.upsertConflict
  next => exact h.vipLease hrow hid
  next => exact hwrite _
  next => exact hwrite _
  next => exact h

theorem Tracked.leaseOwn (h : Tracked id r₀ t₀ (NotAdopted N C c (entry :: rest)) run)
    (hrow : mapGet key run.active = some row)
    (hid : row.id = id) (hreach : reaches N c key entry = true) :
    Tracked id r₀ t₀ (NotAdopted N C c rest)
      (if row.data.pushStatus = some .pending then queuedLease C c key row entry run else manualLease C c row
        entry run) := by
  obtain ⟨hkey, hkept, hqueue⟩ := h.memory.manual hrow hid
  have honly : ∀ p ∈ run.active, p.2.id = id → p = (key, row) := fun p hp hpid =>
    eq_of_key h.memory.nodup hp (mapGet_mem hrow) ((h.memory.home p hp hpid).1.trans hkey.symm)
  by_cases hpending : row.data.pushStatus = some .pending
  · have hfind : (entry :: rest).find? (reaches N c (homeKey row.data)) = some entry := by
      rw [homeKey_eq hkept, ← hkey, List.find?_cons, hreach]
    have hnot : ¬ adoptable C entry row.data.toReservation = true := by
      rw [hqueue hpending entry hfind]
      exact Bool.false_ne_true
    rw [if_pos hpending, queuedLease, if_neg hnot]
    refine ⟨h.stored.updateReservation fun _ r hr =>
      ⟨hr.subnet, hr.address, hr.hostname, hr.owner, hr.projectRef,
      hr.notes,
      hr.mac, hr.active, hr.manual, hr.unpushed⟩, ?_, h.conflicts⟩
    refine @Remembered.inMemory id r₀ _ _
      { run with db := run.db.updateReservation row.id (collide C c entry) } _ _
      h.memory fun p hp hpid => ⟨fun _ => ?_, fun hne => ?_⟩
    · rw [honly p hp hpid]
      exact ⟨⟨hkept.subnet, hkept.address, hkept.hostname, hkept.owner, hkept.projectRef, hkept.notes,
        hkept.mac,
        hkept.active, hkept.manual, hkept.unpushed⟩, nofun⟩
    · rw [honly p hp hpid] at hne
      exact absurd rfl hne
  · have hnull : ¬ (truthy row.data.pushedToId).isSome = true := by
      rw [hkept.unpushed]
      exact Bool.false_ne_true
    rw [if_neg hpending, manualLease, if_neg hnull]
    apply Tracked.upsertConflict
    refine h.mono fun p hp hpid _ => ?_
    rw [honly p hp hpid]
    exact fun hp => absurd hp hpending

theorem Tracked.syncLease (h : Tracked id r₀ t₀ (NotAdopted N C c (entry :: rest)) run) :
    Tracked id r₀ t₀ (NotAdopted N C c rest) (syncLease N C c run entry) := by
  have hfar : reaches N c (homeKey r₀) entry = false → Tracked id r₀ t₀ (NotAdopted N C c rest) run :=
    fun hfar =>
    h.mono fun p hp hpid hq => hq.pass (by rw [homeKey_eq (h.memory.home p hp hpid).2.1, hfar])
  rw [ReservationSync.syncLease]
  split
  next hempty => exact hfar (by simp [reaches, hempty])
  next hip =>
    split
    next hnone => exact hfar (by simp [reaches, hnone])
    next subnet hsubnet =>
      have hreach : ∀ key, reaches N c key entry = true ↔ (subnet.id, some entry.ipAddress) = key := by
        intro key
        simp [reaches, hip, hsubnet]
      dsimp only
      split
      next row hrow =>
        by_cases hid : row.id = id
        · obtain ⟨-, hkept, -⟩ := h.memory.manual hrow hid
          have hown := h.leaseOwn hrow hid ((hreach _).mpr rfl)
          rw [hkept.manual]
          exact hown
        · refine Tracked.leaseOther (h.mono fun p hp hpid hq => hq.pass ?_) hrow hid
          obtain ⟨hhome, hkept, -⟩ := h.memory.home p hp hpid
          rw [homeKey_eq hkept, Bool.eq_false_iff]
          intro hr
          have heq : p = (_, row) := eq_of_key h.memory.nodup hp (mapGet_mem hrow)
            (hhome.trans ((hreach _).mp hr).symm)
          rw [heq] at hpid
          exact hid hpid
      next hrow =>
        refine Tracked.create (h.mono fun p hp hpid hq => hq.pass ?_)
        obtain ⟨hhome, hkept, -⟩ := h.memory.home p hp hpid
        rw [homeKey_eq hkept, Bool.eq_false_iff]
        intro hr
        have hfound := List.find?_eq_none.mp (Option.map_eq_none_iff.mp hrow) p hp
        exact hfound (decide_eq_true (hhome.trans ((hreach _).mp hr).symm))

theorem Tracked.leases {entries : List DhcpEntry} (h : Tracked id r₀ t₀ (NotAdopted N C c entries) run) :
    Tracked id r₀ t₀ (fun _ => True) (entries.foldl (ReservationSync.syncLease N C c) run) := by
  induction entries generalizing run with
  | nil => exact h.mono fun _ _ _ _ => trivial
  | cons entry rest ih => exact ih h.syncLease

end Leases

section Sweep

variable {N : Package} {C : Casing} {c : Call} {id : Nat} {r₀ : SyncReservation} {t₀ : Conflicts}
  {Q : SyncReservation → Prop} {run : Run}

theorem Tracked.sweepRow {p : MapKey × Row SyncReservation} (h : Tracked id r₀ t₀ Q run)
    (hp : p.2.id = id → p.2.data.sourceType = .manual) : Tracked id r₀ t₀ Q (sweepRow N c run p) := by
  rw [ReservationSync.sweepRow]
  split
  next => exact h
  next release hstale =>
    have hid : p.2.id ≠ id := by
      intro hid
      rw [stale, hp hid] at hstale
      cases hstale
    split
    next => exact h
    next t ht =>
      have hstored := h.stored.update (p := (·.id = p.2.id)) (f := release) fun r _ he =>
        absurd (of_decide_eq_true he).symm hid
      rw [ht] at hstored
      exact ⟨hstored, ⟨h.memory.nodup.sublist (List.filter_sublist.map Prod.fst),
        fun q hq => h.memory.home q (List.mem_filter.mp hq).1⟩, h.conflicts.trans evolves_rejectPending⟩

theorem Tracked.sweepStale (h : Tracked id r₀ t₀ Q run) : Tracked id r₀ t₀ Q (sweepStale N c run) := by
  have hmanual : ∀ p ∈ run.active, p.2.id = id → p.2.data.sourceType = .manual := fun p hp hid =>
    (h.memory.home p hp hid).2.1.manual
  rw [ReservationSync.sweepStale]
  generalize run.active = rows at hmanual
  induction rows generalizing run with
  | nil => exact h
  | cons p rows ih =>
    exact ih (h.sweepRow (hmanual p List.mem_cons_self)) fun q hq => hmanual q (List.mem_cons_of_mem p hq)

end Sweep

section CrossUpdate

variable (N : Package) (C : Casing) (c : Call)

/-- Every lease at the address of the row that is attributed to an asset is
attributed to one with the hostname and the MAC of the row. -/
def Agrees (r : SyncReservation) : AssetIndex → List DhcpEntry → Prop
  | _, [] => True
  | idx, entry :: rest =>
    (reaches N c (homeKey r) entry = true → ∀ a ∈ attributed C idx entry,
      (∀ h ∈ truthy a.hostname, r.hostname = some h) ∧
        macChanged C (macKey C entry.macAddress) r.toReservation = false) ∧
      Agrees r (associate C N c.subnets c.now idx entry) rest

variable {N C c} {id : Nat} {r₀ r : SyncReservation} {s : Cross} {entry : DhcpEntry}

theorem crossUpdate_isEmpty {a : AssetLookup.Asset} {mac : String} {x : Reservation}
    (hhost : ∀ h ∈ truthy a.hostname, x.hostname = some h)
    (hmac : macChanged C mac x = false) : (crossUpdate C a mac x).isEmpty = true := by
  have hname : (truthy a.hostname).filter (fun h => x.hostname ≠ some h) = none := by
    rw [Option.filter_eq_none_iff]
    intro h hh
    simp [hhost h hh]
  have howner : (truthy a.assignedTo).filter (fun o => decide (x.owner ≠ some o ∧
    macChanged C mac x = true)) = none := by
    rw [Option.filter_eq_none_iff]
    intro o _
    simp [hmac]
  rw [ResUpdate.isEmpty, crossUpdate, hname, howner, hmac]
  rfl

structure Spotless (id : Nat) (r₀ : SyncReservation) (s : Cross) : Prop where
  memory : Remembered id r₀ (fun _ => True) s.active
  updates : ∀ u ∈ s.resUpdates, u.1 ≠ id

theorem crossEntry_idx : (crossEntry N C c s entry).idx = associate C N c.subnets c.now s.idx entry := by
  rw [crossEntry, associate]
  cases hattr : attributed C s.idx entry with
  | none => rfl
  | some a =>
    dsimp only
    split
    · rfl
    · split
      · rfl
      · split <;> rfl

theorem Spotless.crossEntry (h : Spotless id r₀ s) (hr : Kept r₀ r)
    (hagree : reaches N c (homeKey r) entry = true → ∀ a ∈ attributed C s.idx entry,
      (∀ h ∈ truthy a.hostname, r.hostname = some h) ∧
        macChanged C (macKey C entry.macAddress) r.toReservation = false) :
    Spotless id r₀ (crossEntry N C c s entry) := by
  rw [ReservationSync.crossEntry]
  split
  next => exact h
  next a ha =>
    have hip : entry.ipAddress ≠ "" := by
      intro hip
      rw [attributed, if_pos (.inr hip)] at ha
      cases ha
    dsimp only
    split
    next => exact ⟨h.memory, h.updates⟩
    next subnet hsubnet =>
      split
      next => exact ⟨h.memory, h.updates⟩
      next row hrow =>
        split
        next => exact ⟨h.memory, h.updates⟩
        next hsome =>
          have hid : row.id ≠ id := by
            intro hid
            obtain ⟨hkey, hkept, -⟩ := h.memory.manual hrow hid
            have hreach : reaches N c (homeKey r) entry = true := by
              rw [homeKey_eq hr, ← hkey]
              simp [reaches, hip, hsubnet]
            obtain ⟨hhost, hmac⟩ := hagree hreach a ha
            apply hsome
            apply crossUpdate_isEmpty
            · intro n hn
              rw [hkept.hostname, ← hr.hostname]
              exact hhost n hn
            · rw [macChanged, hkept.mac, ← hr.mac]
              exact hmac
          refine ⟨@Remembered.inMemory id r₀ _ _ ⟨⟨Table.empty _, Table.empty _⟩, s.active⟩ _ _ h.memory
            fun p hp hpid => ⟨fun hk => ?_, fun _ => trivial⟩, fun u hu => ?_⟩
          · have heq : p = (_, row) := eq_of_key h.memory.nodup hp (mapGet_mem hrow) hk
            rw [heq] at hpid
            exact absurd hpid hid
          · obtain hu | hu := List.mem_append.mp hu
            · exact h.updates u hu
            · obtain rfl := List.mem_singleton.mp hu
              exact hid

theorem Spotless.crossEntries {entries : List DhcpEntry} (h : Spotless id r₀ s) (hr : Kept r₀ r)
    (hagree : Agrees N C c r s.idx entries) :
    Spotless id r₀ (entries.foldl (ReservationSync.crossEntry N C c) s) := by
  induction entries generalizing s with
  | nil => exact h
  | cons entry rest ih => exact ih (h.crossEntry hr hagree.1) (crossEntry_idx ▸ hagree.2)

theorem Stored.applyUpdates {db : Db} {updates : List (Nat × ResUpdate)} (h : Stored id r₀ db.reservations)
    (hu : ∀ u ∈ updates, u.1 ≠ id) : Stored id r₀ (db.applyUpdates updates).reservations := by
  induction updates generalizing db with
  | nil => exact h
  | cons u updates ih =>
    exact ih (h.updateReservation fun he => absurd he (hu u List.mem_cons_self)) fun v hv =>
      hu v (List.mem_cons_of_mem u hv)

end CrossUpdate

section Runs

inductive Op
  | sync (c : Call)
  | accept (conflictId : Nat) (actor : Option String) (now : Nat)
  | reject (conflictId : Nat) (actor : Option String) (now : Nat)

variable (N : Package) (C : Casing)

def step (db : Db) : Op → Db
  | .sync c => sync N C c db
  | .accept conflictId actor now => accept conflictId actor now db
  | .reject conflictId actor now => reject conflictId actor now db

/-- A sync takes the row neither for a queued entry nor over from an asset. -/
def Spares (id : Nat) (db : Db) : Op → Prop
  | .sync c => (c.mode = .full ∨ c.mode = .skipDeprecation) → ∀ r ∈ db.reservations.find id,
      NotAdopted N C c c.result.dhcpEntries r.data ∧ Agrees N C c r.data c.assets c.result.dhcpEntries
  | _ => True

/-- No conflict of the row is accepted. -/
def Undecided (id : Nat) (db : Db) : Op → Prop
  | .accept conflictId _ _ => ∀ r ∈ db.conflicts.rows, r.id = conflictId → r.data.status = .pending →
    r.data.reservationId ≠ some id
  | _ => True

variable {N C} {c : Call} {id : Nat} {r₀ r : SyncReservation} {db : Db}

theorem remembered_preload (h : db.reservations.find id = some ⟨id, r⟩) (hr : Kept r₀ r)
    {Q : SyncReservation → Prop} (hQ : Q r) :
    Remembered id r₀ Q (preload db) := by
  rw [preload]
  have hrows : ∀ x ∈ db.reservations.rows.filter (·.data.status = .active), x.id = id → x.data = r := by
    intro x hx hid
    obtain ⟨hmem, -⟩ := Table.mem_of_find h
    rw [Table.eq_of_id (List.mem_filter.mp hx).1 hmem hid]
  generalize db.reservations.rows.filter (·.data.status = .active) = rows at hrows
  have hstart : Remembered id r₀ Q [] := ⟨List.nodup_nil, fun p hp => absurd hp List.not_mem_nil⟩
  revert hstart
  generalize ([] : List (MapKey × Row SyncReservation)) = active
  intro hstart
  induction rows generalizing active with
  | nil => exact hstart
  | cons x rows ih =>
    refine ih (fun y hy => hrows y (List.mem_cons_of_mem x hy)) _ ?_
    dsimp only
    split
    · exact hstart
    · by_cases hid : x.id = id
      · refine ⟨nodup_mapSet hstart.nodup, fun p hp hpid => ?_⟩
        obtain hp | rfl := mem_mapSet hp
        · exact hstart.home p hp hpid
        · dsimp only
          rw [hrows x List.mem_cons_self hid]
          exact ⟨homeKey_eq hr, hr, hQ⟩
      · exact hstart.mapSet hid

theorem applyUpdates_conflicts {updates : List (Nat × ResUpdate)} :
    (db.applyUpdates updates).conflicts = db.conflicts := by
  induction updates generalizing db with
  | nil => rfl
  | cons u updates ih => exact ih

theorem stored_sync (h : Stored id r₀ db.reservations) (hspares : Spares N C id db (.sync c)) :
    Stored id r₀ (sync N C c db).reservations ∧ Evolves db.conflicts (sync N C c db).conflicts := by
  rw [sync]
  split
  next hmode =>
    obtain ⟨r, hr, hkept⟩ := h
    obtain ⟨hqueue, hagree⟩ := hspares hmode _ hr
    have hstart : Tracked id r₀ db.conflicts (NotAdopted N C c c.result.dhcpEntries) ⟨db, preload db⟩ :=
      ⟨⟨r, hr, hkept⟩, remembered_preload hr hkept hqueue, Evolves.refl _⟩
    have hswitch := hstart.foldl (fun _ sw h => h.syncSwitch (N := N) (c := c) sw) c.result.fortiSwitches
    have hap := hswitch.foldl (fun _ ap h => h.syncAp (N := N) (C := C) (c := c) ap) c.result.fortiAps
    have hvip := hap.foldl (fun _ vip h => h.syncVip (N := N) (c := c) vip) c.result.vips
    have hiface := hvip.foldl (fun _ i h => h.syncInterface (N := N) (c := c) i) c.result.interfaceIps
    have hswept := hiface.leases.sweepStale (N := N) (c := c)
    refine ⟨hswept.stored.applyUpdates
      (Spotless.crossEntries (r := r) ⟨hswept.memory, ?_⟩ hkept hagree).updates, ?_⟩
    · exact fun u hu => absurd hu List.not_mem_nil
    · dsimp only
      rw [applyUpdates_conflicts]
      exact hswept.conflicts
  next => exact ⟨h, Evolves.refl _⟩

theorem stored_accept {conflictId : Nat} {actor : Option String} {now : Nat}
    (h : Stored id r₀ db.reservations)
    (hundecided : Undecided id db (.accept conflictId actor now)) :
    Stored id r₀ (accept conflictId actor now db).reservations := by
  rw [accept]
  split
  next => exact h
  next conflict hfind =>
    split
    next => exact h
    next row hrow =>
      have hfound := List.find?_some hfind
      simp only [Bool.and_eq_true, decide_eq_true_eq] at hfound
      obtain ⟨rid, hrid, hmem⟩ := Option.bind_eq_some_iff.mp hrow
      refine h.updateReservation fun hid =>
        absurd ?_ (hundecided conflict (List.mem_of_find?_eq_some hfind) hfound.1 hfound.2)
      rw [hrid, ← hid, (Table.mem_of_find hmem).2]

theorem stored_step {op : Op} (h : Stored id r₀ db.reservations) (hspares : Spares N C id db op)
    (hundecided : Undecided id db op) : Stored id r₀ (step N C db op).reservations := by
  cases op with
  | sync c => exact (stored_sync h hspares).1
  | accept conflictId actor now => exact stored_accept h hundecided
  | reject conflictId actor now =>
    rw [step, reject]
    split
    · exact h
    · exact h

/-- Whatever the syncs find, a manual row keeps its values until a conflict
of it is accepted, and the syncs decide no conflict. -/
theorem manual_reservations_stay (N : Package) (C : Casing) (db : Db) (id : Nat) (r₀ : SyncReservation)
    (hrow : db.reservations.find id = some ⟨id, r₀⟩) (hactive : r₀.status = .active)
    (hmanual : r₀.sourceType = .manual)
    (hunpushed : r₀.pushedToId = none) (ops : List Op) (hspares : Along (step N C) (Spares N C id) db ops)
    (hundecided : Along (step N C) (Undecided id) db ops) :
    (∃ r, (ops.foldl (step N C) db).reservations.find id = some ⟨id, r⟩ ∧ Kept r₀ r) ∧
      ∀ before c after, ops = before ++ .sync c :: after →
        Evolves (before.foldl (step N C) db).conflicts
          (sync N C c (before.foldl (step N C) db)).conflicts := by
  have hstart : Stored id r₀ db.reservations :=
    ⟨r₀, hrow, rfl, rfl, rfl, rfl, rfl, rfl, rfl, hactive, hmanual,
    hunpushed⟩
  have hrun : ∀ ops, Along (step N C) (fun db op => Spares N C id db op ∧ Undecided id db op) db ops →
      Stored id r₀ (ops.foldl (step N C) db).reservations := fun ops hc =>
    foldl_invariant (I := fun db => Stored id r₀ db.reservations)
      (fun _ _ h hc => stored_step h hc.1 hc.2) hstart hc
  have hall := hspares.and hundecided
  refine ⟨hrun ops hall, fun before c after heq => ?_⟩
  rw [heq, along_append] at hall
  exact (stored_sync (hrun before hall.1) hall.2.1.1).2

end Runs

section Samples

instance (N : Package) (C : Casing) (c : Call) (entries : List DhcpEntry) (r : SyncReservation) :
    Decidable (NotAdopted N C c entries r) :=
  inferInstanceAs (Decidable (r.pushStatus = some .pending →
    ∀ entry ∈ entries.find? (reaches N c (homeKey r)),
    adoptable C entry r.toReservation = false))

instance Agrees.decidable (N : Package) (C : Casing) (c : Call) (r : SyncReservation) :
    ∀ idx entries, Decidable (Agrees N C c r idx entries)
  | _, [] => isTrue trivial
  | idx, entry :: rest =>
    haveI : Decidable (Agrees N C c r (associate C N c.subnets c.now idx entry) rest) :=
  Agrees.decidable N C c r _ rest
    inferInstanceAs (Decidable ((reaches N c (homeKey r) entry = true → ∀ a ∈ attributed C idx entry,
      (∀ h ∈ truthy a.hostname, r.hostname = some h) ∧
        macChanged C (macKey C entry.macAddress) r.toReservation = false) ∧ _))

instance Spares.decidable (N : Package) (C : Casing) (id : Nat) (db : Db) :
    ∀ op, Decidable (Spares N C id db op)
  | .sync c => inferInstanceAs (Decidable ((c.mode = .full ∨ c.mode = .skipDeprecation) →
    ∀ r ∈ db.reservations.find id,
      NotAdopted N C c c.result.dhcpEntries r.data ∧ Agrees N C c r.data c.assets c.result.dhcpEntries))
  | .accept _ _ _ => isTrue trivial
  | .reject _ _ _ => isTrue trivial

instance Undecided.decidable (id : Nat) (db : Db) : ∀ op, Decidable (Undecided id db op)
  | .accept conflictId _ _ => inferInstanceAs (Decidable (∀ r ∈ db.conflicts.rows, r.id = conflictId →
      r.data.status = .pending → r.data.reservationId ≠ some id))
  | .sync _ => isTrue trivial
  | .reject _ _ _ => isTrue trivial

def office : Subnet := { id := "lan", cidr := "10.0.0.0/24", name := "Office" }

def printerRow : SyncReservation :=
  { subnetId := "lan", ipAddress := some "10.0.0.5", hostname := some "printer", owner := some "facilities" }

def printerDb : Db :=
  { reservations := ((Table.empty rowKey).insert printerRow).getD (Table.empty rowKey),
    conflicts := Table.empty _ }

def laptop : AssetLookup.Asset :=
  { id := 7, hostname := some "LAPTOP-7", macAddress := some "00:11:22:33:44:55" }

def lease : DhcpEntry :=
  { device := "fg1", ipAddress := "10.0.0.5", macAddress := "00:11:22:33:44:55", type := .dhcpLease }

def leaseCall (assets : List AssetLookup.Asset) : Call where
  integrationId := "fmg"
  integrationType := .fortimanager
  mode := .full
  result := { dhcpEntries := [lease] }
  subnets := [office]
  assets := build asciiCasing assets
  now := 1000

/-- The lease is refused twice and decided against in between. -/
theorem manual_reservations_stay_printer :
    ∃ r, (List.foldl (step reference asciiCasing) printerDb [.sync (leaseCall []), .reject 0 none 2000,
      .sync (leaseCall [])]).reservations.find 0 = some ⟨0, r⟩ ∧ Kept printerRow r :=
  (manual_reservations_stay reference asciiCasing printerDb 0 printerRow (by decide +kernel) rfl rfl rfl
    [.sync (leaseCall []), .reject 0 none 2000, .sync (leaseCall [])] (by decide +kernel)
      (by decide +kernel)).1

theorem lease_renames_manual_row :
    printerDb.reservations.find 0 = some ⟨0, printerRow⟩ ∧
      Undecided 0 printerDb (.sync (leaseCall [laptop])) ∧
      ¬ ∃ r, (step reference asciiCasing printerDb (.sync (leaseCall [laptop]))).reservations.find 0 =
        some ⟨0, r⟩ ∧ Kept printerRow r := by
  refine ⟨by decide +kernel, trivial, fun ⟨r, hr, hkept⟩ => ?_⟩
  have hrenamed :
      ((step reference asciiCasing printerDb (.sync (leaseCall [laptop]))).reservations.find 0).map
        (·.data.hostname) = some (some "LAPTOP-7") := by decide +kernel
  rw [hr, Option.map_some, hkept.hostname] at hrenamed
  revert hrenamed
  decide

end Samples

end Polaris.ManualReservations
