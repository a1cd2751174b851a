import Mathlib.Logic.Relation
import Polaris.ManualReservations

namespace Polaris.StaleSweep

open Polaris.AssetLookup Polaris.DhcpAssociation Polaris.Lib.Runs Polaris.Lib.Store Polaris.ManualReservations
  Polaris.Netmask
  Polaris.ReservationSync
open Polaris.ConflictResolution hiding Asset Db
open Polaris.Reservations hiding Subnet Db

section Acts

variable (N : Package) (C : Casing) (c : Call)

def VipAt (c : Call) (ip : String) : Prop := ∃ vip ∈ c.result.vips, ∃ a ∈ vipAddresses vip, a.1 = ip

def LeaseAt (c : Call) (ip : String) : Prop := ∃ entry ∈ c.result.dhcpEntries, entry.ipAddress = ip

/-- A lease lands at the key. -/
def Reached (key : MapKey) : Prop := ∃ entry ∈ c.result.dhcpEntries, reaches N c key entry = true

def vipDevice (r : SyncReservation) : String := (r.vipInfo.map (·.device)).getD ""

/-- The gateway was asked for its VIPs and has none at the address. -/
def Succeeds (key : MapKey) (r : SyncReservation) : Prop :=
  key ∉ currentVipKeys N c ∧ vipDevice r ∈ c.result.vipInventoriedDevices

/-- An update that leaves a row where it is. -/
structure Stays (f : SyncReservation → SyncReservation) : Prop where
  subnet : ∀ r, (f r).subnetId = r.subnetId
  address : ∀ r, (f r).ipAddress = r.ipAddress
  status : ∀ r, (f r).status = r.status

/-- What a lease at the address of a row makes of the row, stored and in
memory. -/
structure Shifts (key : MapKey) (row : SyncReservation) (f g : SyncReservation → SyncReservation) : Prop where
  stays : Stays f
  born : ∀ r, ((f r).sourceType = .vip → r.sourceType = .vip) ∧
    ((g r).sourceType = .vip → r.sourceType = .vip)
  gone : row.sourceType = .vip → Succeeds N c key row → ∀ r, (f r).sourceType ≠ .vip ∧ (g r).sourceType ≠ .vip
  kept : row.sourceType = .vip → ¬Succeeds N c key row →
    ∀ r, ((f r).sourceType = r.sourceType ∧ (f r).vipInfo = r.vipInfo) ∧ (g r).sourceType = r.sourceType ∧
      (g r).vipInfo = r.vipInfo

/-- All that the phases before the sweep do to a run. -/
inductive Act (run : Run) : Run → Prop
  | note (db : Db) (h : db.reservations = run.db.reservations) : Act run { run with db := db }
  | create (subnetId ip : String) (data : SyncReservation)
    (hnone : mapGet (subnetId, some ip) run.active = none)
      (hdata : data.subnetId = subnetId ∧ data.ipAddress = some ip ∧ data.status = .active)
      (hvip : data.sourceType = .vip → VipAt c ip) (hlease : data.sourceType = .dhcpReservation →
        LeaseAt c ip) :
      Act run (run.create subnetId ip data)
  | info (subnetId ip : String) (row : Row SyncReservation) (v : Option VipInfo)
      (hrow : mapGet (subnetId, some ip) run.active = some row) (hvip : VipAt c ip) :
      Act run ({ run with db := run.db.updateReservation row.id (setVipInfo v) }.inMemory (subnetId,
        some ip) (setVipInfo v))
  | lease (subnetId ip : String) (row : Row SyncReservation) (f g : SyncReservation → SyncReservation)
      (hrow : mapGet (subnetId, some ip) run.active = some row) (hlease : Reached N c (subnetId, some ip))
      (hs : Shifts N c (subnetId, some ip) row.data f g) :
      Act run ({ run with db := run.db.updateReservation row.id f }.inMemory (subnetId, some ip) g)

abbrev Acts : Run → Run → Prop := Relation.ReflTransGen (Act N c)

variable {N C c} {run : Run} {row : Row SyncReservation} {p : Proposed} {ip subnetId : String} {key : MapKey}

theorem acts_upsertConflict : Act N c run (run.upsertConflict c row p) := .note _ upsertConflict_reservations

theorem acts_offer (hp : p.sourceType ≠ .vip ∧ p.sourceType ≠ .dhcpReservation) :
    Acts N c run (offer N c ip p run) := by
  rw [offer]
  split
  next => exact .refl
  next subnet _ =>
    split
    next row _ =>
      split
      · exact .single acts_upsertConflict
      · exact .refl
    next hnone =>
      exact .single (.create _ _ _ hnone ⟨rfl, rfl, rfl⟩ (fun h => absurd h hp.1) fun h => absurd h hp.2)

theorem acts_syncSwitch (sw : FortiSwitch) : Acts N c run (syncSwitch N c run sw) := by
  rw [syncSwitch]
  split
  · exact .refl
  · exact acts_offer ⟨by simp, by simp⟩

theorem acts_syncAp (ap : FortiAp) : Acts N c run (syncAp N C c run ap) := by
  rw [syncAp]
  split
  · exact .refl
  · exact acts_offer ⟨by simp, by simp⟩

theorem acts_syncInterface (i : InterfaceIp) : Acts N c run (syncInterface N c run i) := by
  rw [syncInterface]
  split
  · exact .refl
  · exact acts_offer ⟨by simp, by simp⟩

theorem acts_refreshVipInfo {info : VipInfo} (hrow : mapGet (subnetId, some ip) run.active = some row)
    (hvip : VipAt c ip) :
    Acts N c run (refreshVipInfo (subnetId, some ip) row info run) := by
  rw [refreshVipInfo]
  split
  · exact .refl
  · exact .single (.info _ _ _ _ hrow hvip)

theorem acts_syncVipAddress {vip : Vip} {a : String × VipRole} (hvip : vip ∈ c.result.vips)
    (ha : a ∈ vipAddresses vip) :
    Acts N c run (syncVipAddress N c vip run a) := by
  have hat : VipAt c a.1 := ⟨vip, hvip, a, ha, rfl⟩
  rw [syncVipAddress]
  split
  next => exact .refl
  next subnet _ =>
    split
    next row hrow =>
      split
      next => exact .single acts_upsertConflict
      next => exact acts_refreshVipInfo hrow hat
      next => exact .tail (acts_refreshVipInfo hrow hat) acts_upsertConflict
      next => exact .tail (acts_refreshVipInfo hrow hat) acts_upsertConflict
      next => exact .refl
    next hnone =>
      exact .single (.create _ _ _ hnone ⟨rfl, rfl, rfl⟩ (fun _ => hat) fun h => absurd h
        (by simp [discovered,
        vipProposed]))

theorem entrySource_ne (entry : DhcpEntry) : entrySource C entry ≠ .vip := by
  rw [entrySource]
  split_ifs <;> decide

theorem inMemory_id : run.inMemory key id = run := by
  have hmap : (run.active.map fun p => if p.1 = key then (p.1, { p.2 with data := id p.2.data }) else p) =
    run.active := by
    refine (List.map_congr_left fun p _ => ?_).trans (List.map_id' _)
    split <;> rfl
  rw [Run.inMemory, hmap]

theorem online_kind (entry : DhcpEntry) (r : SyncReservation) :
    (online c entry r).subnetId = r.subnetId ∧ (online c entry r).ipAddress = r.ipAddress ∧
      (online c entry r).status = r.status ∧
      (online c entry r).sourceType = r.sourceType ∧ (online c entry r).vipInfo = r.vipInfo := by
  rw [online]
  split
  · exact ⟨rfl, rfl, rfl, rfl, rfl⟩
  · exact ⟨rfl, rfl, rfl, rfl, rfl⟩

theorem Shifts.plain {r₀ : SyncReservation} {f g : SyncReservation → SyncReservation}
    (hrow : r₀.sourceType ≠ .vip) (hf : Stays f)
    (hborn : ∀ r, ((f r).sourceType = .vip → r.sourceType = .vip) ∧
      ((g r).sourceType = .vip → r.sourceType = .vip)) :
    Shifts N c key r₀ f g :=
  ⟨hf, hborn, fun h => absurd h hrow, fun h => absurd h hrow⟩

theorem adopt_kind (entry : DhcpEntry) (r : SyncReservation) :
    (adopt c entry r).subnetId = r.subnetId ∧ (adopt c entry r).ipAddress = r.ipAddress ∧
      (adopt c entry r).status = r.status ∧
      (adopt c entry r).sourceType = .dhcpReservation := by
  simp only [adopt]
  split
  · exact ⟨rfl, rfl, rfl, rfl⟩
  · exact ⟨rfl, rfl, rfl, rfl⟩

variable {entry : DhcpEntry}

theorem acts_queuedLease (hrow : mapGet (subnetId, some ip) run.active = some row)
    (hlease : Reached N c (subnetId, some ip)) (hvip : row.data.sourceType ≠ .vip) :
    Acts N c run (queuedLease C c (subnetId, some ip) row entry run) := by
  rw [queuedLease]
  split
  · rw [rejectPending_inMemory]
    have hstays : Stays (adopt c entry) :=
      ⟨fun r => (adopt_kind entry r).1, fun r => (adopt_kind entry r).2.1,
        fun r => (adopt_kind entry r).2.2.1⟩
    have hborn : ∀ r, ((adopt c entry r).sourceType = .vip → r.sourceType = .vip) ∧
        ((adopted r).sourceType = .vip → r.sourceType = .vip) := fun r =>
      ⟨fun h => absurd ((adopt_kind entry r).2.2.2.symm.trans h) (by decide),
        fun h => absurd h SourceType.noConfusion⟩
    exact .tail (.single (.lease _ _ _ _ _ hrow hlease (.plain hvip hstays hborn))) (.note _ rfl)
  · exact .single (.lease _ _ _ _ _ hrow hlease
      (.plain hvip ⟨fun _ => rfl, fun _ => rfl, fun _ => rfl⟩ fun _ => ⟨id, id⟩))

theorem acts_manualLease (hrow : mapGet (subnetId, some ip) run.active = some row)
    (hlease : Reached N c (subnetId, some ip)) (hvip : row.data.sourceType ≠ .vip) :
    Acts N c run (manualLease C c row entry run) := by
  rw [manualLease]
  split
  · have hecho : ∀ r : SyncReservation, (echo c entry r).sourceType = .dhcpReservation := fun r =>
      (online_kind entry { r with sourceType := .dhcpReservation }).2.2.2.1
    have hact := Act.lease subnetId ip row (echo c entry) id hrow hlease (.plain (N := N) hvip
      ⟨fun r => (online_kind entry _).1, fun r => (online_kind entry _).2.1,
        fun r => (online_kind entry _).2.2.1⟩
      fun r => ⟨fun h => absurd ((hecho r).symm.trans h) (by decide), id⟩)
    rw [inMemory_id] at hact
    exact .tail (.single hact) (.note _ rfl)
  · exact .single acts_upsertConflict

theorem acts_vipLease (hrow : mapGet (subnetId, some ip) run.active = some row)
    (hlease : Reached N c (subnetId, some ip)) :
    Acts N c run (vipLease N C c (subnetId, some ip) row entry run) := by
  rw [vipLease]
  split
  next hsucc =>
    have hsucc : Succeeds N c (subnetId, some ip) row.data := hsucc
    have hgone : ∀ r, (succeed C c entry row.data r).sourceType ≠ .vip := fun r => entrySource_ne entry
    have hkind := fun r => online_kind (c := c) entry (succeed C c entry row.data r)
    have hgone' : ∀ r, ((online c entry ∘ succeed C c entry row.data) r).sourceType ≠ .vip := fun r =>
      (hkind r).2.2.2.1 ▸ hgone r
    rw [rejectPending_inMemory]
    refine .tail (.single (.lease _ _ _ _ _ hrow hlease ⟨⟨?_, ?_, ?_⟩, ?_, ?_, ?_⟩)) (.note _ rfl)
    · exact fun r => (hkind r).1
    · exact fun r => (hkind r).2.1
    · exact fun r => (hkind r).2.2.1
    · exact fun r => ⟨fun h => absurd h (hgone' r), fun h => absurd h (hgone r)⟩
    · exact fun _ _ r => ⟨hgone' r, hgone r⟩
    · exact fun _ hnot => absurd hsucc hnot
  next hsucc =>
    have hsucc : ¬Succeeds N c (subnetId, some ip) row.data := hsucc
    split
    · refine .tail (.single (.lease _ _ _ _ _ hrow hlease ⟨⟨?_, ?_, ?_⟩, ?_, ?_, ?_⟩)) acts_upsertConflict
      · exact fun r => rfl
      · exact fun r => rfl
      · exact fun r => rfl
      · exact fun r => ⟨id, id⟩
      · exact fun _ h => absurd h hsucc
      · exact fun _ _ r => ⟨⟨rfl, rfl⟩, rfl, rfl⟩
    · exact .single acts_upsertConflict

theorem shift_kind (entry : DhcpEntry) (x r : SyncReservation) :
    (shift C entry x r).subnetId = r.subnetId ∧ (shift C entry x r).ipAddress = r.ipAddress ∧
      (shift C entry x r).status = r.status ∧
        ((shift C entry x r).sourceType = .vip → r.sourceType = .vip) := by
  rw [shift]
  split
  · exact ⟨rfl, rfl, rfl, fun h => absurd h (entrySource_ne entry)⟩
  · exact ⟨rfl, rfl, rfl, id⟩

theorem acts_shift (hrow : mapGet (subnetId, some ip) run.active = some row)
    (hlease : Reached N c (subnetId, some ip))
    (hvip : row.data.sourceType ≠ .vip) :
    Acts N c run
      { run with db := run.db.updateReservation row.id (online c entry ∘ shift C entry row.data) } := by
  have hkind := fun r => online_kind (c := c) entry (shift C entry row.data r)
  have hact := Act.lease subnetId ip row (online c entry ∘ shift C entry row.data) id hrow hlease
    (.plain (N := N) hvip
    ⟨fun r => (hkind r).1.trans (shift_kind entry row.data r).1,
      fun r => (hkind r).2.1.trans (shift_kind entry row.data r).2.1,
      fun r => (hkind r).2.2.1.trans (shift_kind entry row.data r).2.2.1⟩
    fun r => ⟨fun h => (shift_kind entry row.data r).2.2.2 ((hkind r).2.2.2.1.symm.trans h), id⟩)
  rw [inMemory_id] at hact
  exact .single hact

theorem acts_syncLease (he : entry ∈ c.result.dhcpEntries) : Acts N c run (syncLease N C c run entry) := by
  rw [syncLease]
  split
  · exact .refl
  next hip =>
    split
    next => exact .refl
    next subnet hsubnet =>
      have hlease : Reached N c (subnet.id, some entry.ipAddress) :=
        ⟨entry, he, by simp [reaches, hip, hsubnet]⟩
      dsimp only
      split
      next row hrow =>
        split
        next hmanual =>
          have hvip : row.data.sourceType ≠ .vip := by simp [hmanual]
          split
          · exact acts_queuedLease hrow hlease hvip
          · exact acts_manualLease hrow hlease hvip
        next => exact acts_vipLease hrow hlease
        next hdhcp => exact acts_shift hrow hlease (by simp [hdhcp])
        next hdhcp => exact acts_shift hrow hlease (by simp [hdhcp])
        next => exact .refl
      next hnone =>
        exact .single (.create _ _ _ hnone ⟨rfl, rfl, rfl⟩ (fun h => absurd h (entrySource_ne entry))
          fun _ => ⟨entry, he, rfl⟩)

theorem Reached.leaseAt (h : Reached N c (subnetId, some ip)) : LeaseAt c ip := by
  obtain ⟨entry, he, hreach⟩ := h
  simp only [reaches, Bool.and_eq_true, Option.any_eq_true, decide_eq_true_eq] at hreach
  obtain ⟨-, s, -, hkey⟩ := hreach
  exact ⟨entry, he, Option.some.inj (Prod.mk.inj hkey).2⟩

end Acts

section Tables

variable {db : Db} {t t' : Table rowKey} {id i : Nat} {f : SyncReservation → SyncReservation}
  {d data : SyncReservation}
  {r : Row SyncReservation} {subnetId ip : String}

theorem updateReservation_rows (hf : Stays f) :
    (db.updateReservation i f).reservations.rows = db.reservations.rows.map (amend (·.id = i) f) := by
  have hkey : ∀ r, rowKey (f r) = rowKey r := by
    intro r
    change ((f r).ipAddress.map fun ip => ((f r).subnetId, ip, (f r).status)) = _
    rw [hf.subnet, hf.address, hf.status]
    rfl
  obtain ⟨t, ht⟩ := Table.updateWhere_of_key (t := db.reservations) (p := (·.id = i)) hkey
  rw [ReservationSync.Db.updateReservation, ht]
  exact (Table.updateWhere_rows ht).1

theorem find_updateReservation (hf : Stays f) (h : db.reservations.find id = some ⟨id, d⟩) :
    (db.updateReservation i f).reservations.find id = some ⟨id, if id = i then f d else d⟩ := by
  have hmem := (Table.mem_of_find h).1
  have hnew : (amend (·.id = i) f ⟨id, d⟩ : Row SyncReservation) ∈
    (db.updateReservation i f).reservations.rows := by
    rw [updateReservation_rows hf]
    exact List.mem_map_of_mem hmem
  have hamend : (amend (·.id = i) f ⟨id, d⟩ : Row SyncReservation) = ⟨id, if id = i then f d else d⟩ := by
    rw [amend]
    by_cases hid : id = i <;> simp [hid]
  rw [hamend] at hnew
  exact Table.find_of_mem hnew

theorem mem_releaseDnsResolvedAt (hr : r ∈ (db.releaseDnsResolvedAt subnetId ip).reservations.rows) :
    ∃ r₀ ∈ db.reservations.rows, r = r₀ ∨ r = ⟨r₀.id, markReleased r₀.data⟩ ∧
      dnsResolvedAt subnetId ip r₀ = true := by
  rw [Db.releaseDnsResolvedAt] at hr
  cases ht : db.reservations.updateWhere (dnsResolvedAt subnetId ip) markReleased with
  | none =>
    rw [ht] at hr
    exact ⟨r, hr, .inl rfl⟩
  | some t =>
    rw [ht] at hr
    change r ∈ t.rows at hr
    rw [(Table.updateWhere_rows ht).1] at hr
    obtain ⟨r₀, hr₀, rfl⟩ := List.mem_map.mp hr
    refine ⟨r₀, hr₀, ?_⟩
    cases hp : dnsResolvedAt subnetId ip r₀ with
    | true => exact .inr ⟨amend_of_pos hp _, rfl⟩
    | false => exact .inl (amend_of_neg hp _)

theorem find_releaseDnsResolvedAt (subnetId ip : String) (h : db.reservations.find id = some ⟨id, d⟩) :
    ∃ d', (db.releaseDnsResolvedAt subnetId ip).reservations.find id = some ⟨id, d'⟩ ∧
      (d' = d ∨ d' = markReleased d ∧ dnsResolvedAt subnetId ip ⟨id, d⟩ = true) := by
  rw [Db.releaseDnsResolvedAt]
  cases ht : db.reservations.updateWhere (dnsResolvedAt subnetId ip) markReleased with
  | none => exact ⟨d, h, .inl rfl⟩
  | some t =>
    have hfind := Table.find_updateWhere ht h
    cases hp : dnsResolvedAt subnetId ip ⟨id, d⟩ with
    | true => exact ⟨markReleased d, hfind.trans (congrArg some (amend_of_pos hp _)), .inr ⟨rfl, rfl⟩⟩
    | false => exact ⟨d, hfind.trans (congrArg some (amend_of_neg hp _)), .inl rfl⟩

theorem find_insert (ht : t.insert data = some t') (h : t.find id = some r) : t'.find id = some r := by
  obtain ⟨hmem, rfl⟩ := Table.mem_of_find h
  refine Table.find_of_mem ?_
  rw [(Table.insert_rows ht).1]
  exact List.mem_append_left _ hmem

theorem find_inserted (ht : t.insert data = some t') : t'.find t.nextId = some ⟨t.nextId, data⟩ := by
  refine Table.find_of_mem (r := ⟨t.nextId, data⟩) ?_
  rw [(Table.insert_rows ht).1]
  exact List.mem_append_right _ List.mem_cons_self

end Tables

section Map

variable {κ ν : Type} [DecidableEq κ] {key k : κ} {v : ν} {m : List (κ × ν)}

theorem key_of_find {p : κ × ν} (h : m.find? (·.1 = k) = some p) : p.1 = k := by
  simpa using List.find?_some h

theorem mapGet_map {f : κ × ν → κ × ν} (hf : ∀ p, (f p).1 = p.1) :
    mapGet k (m.map f) = (m.find? (·.1 = k)).map fun p => (f p).2 := by
  rw [mapGet, List.find?_map, Option.map_map]
  have hkeys : (fun p : κ × ν => decide (p.1 = k)) ∘ f = fun p => decide (p.1 = k) := by
    funext p
    rw [Function.comp_apply, hf]
  rw [hkeys]
  rfl

theorem mapGet_mapSet : mapGet k (mapSet key v m) = if k = key then some v else mapGet k m := by
  rw [mapSet]
  split
  · next hany =>
    rw [mapGet_map fun p => by split <;> simp_all]
    cases hf : m.find? (·.1 = k) with
    | none =>
      obtain ⟨p, hp, hkey⟩ := List.any_eq_true.mp hany
      have hne : k ≠ key := by
        rintro rfl
        exact List.find?_eq_none.mp hf p hp hkey
      simp [mapGet, hf, hne]
    | some p =>
      have hpk := key_of_find hf
      simp only [mapGet, hf, Option.map_some, hpk]
      split <;> rfl
  · next hnone =>
    rw [mapGet, List.find?_append]
    by_cases hk : k = key
    · subst hk
      have hf : m.find? (·.1 = k) = none :=
        List.find?_eq_none.mpr fun p hp hpk => hnone (List.any_eq_true.mpr ⟨p, hp, hpk⟩)
      simp [hf]
    · simp [mapGet, hk, Ne.symm hk]

theorem mapGet_inMemory {run : Run} {k key : MapKey} {f : SyncReservation → SyncReservation} :
    mapGet k (run.inMemory key f).active =
      (mapGet k run.active).map fun row => if k = key then { row with data := f row.data } else row := by
  rw [Run.inMemory, mapGet_map fun p => by split <;> rfl]
  cases hf : run.active.find? (·.1 = k) with
  | none => simp [mapGet, hf]
  | some p =>
    have hpk := key_of_find hf
    simp only [mapGet, hf, Option.map_some, hpk]
    split <;> rfl

end Map

section Coherence

variable {N : Package} {c : Call} {run run' : Run} {p : MapKey × Row SyncReservation}
  {d data : SyncReservation}
  {row : Row SyncReservation} {key : MapKey} {i : Nat} {f g : SyncReservation → SyncReservation}
    {subnetId ip : String}

/-- The row is the one of the key. -/
def HomeOf (key : MapKey) (d : SyncReservation) : Prop :=
  key.1 = d.subnetId ∧ ∀ ip, ip ≠ "" → (key.2 = some ip ↔ d.ipAddress = some ip)

/-- What a run has in memory under a key is stored, as the row of the key. -/
structure Coherent (run : Run) : Prop where
  nodup : (run.active.map Prod.fst).Nodup
  homes : ∀ p ∈ run.active, ∃ d, run.db.reservations.find p.2.id = some ⟨p.2.id, d⟩ ∧ HomeOf p.1 d

theorem HomeOf.stays (h : HomeOf key d) (hf : Stays f) : HomeOf key (f d) :=
  ⟨h.1.trans (hf.subnet d).symm, fun ip hip => (hf.address d) ▸ h.2 ip hip⟩

theorem keys_inMemory : (run.inMemory key g).active.map Prod.fst = run.active.map Prod.fst := by
  rw [Run.inMemory, List.map_map]
  refine List.map_congr_left fun p _ => ?_
  dsimp only [Function.comp]
  split <;> rfl

theorem Coherent.update (h : Coherent run) (hf : Stays f) :
    Coherent ({ run with db := run.db.updateReservation i f }.inMemory key g) := by
  constructor
  · rw [keys_inMemory]
    exact h.nodup
  · intro p hp
    obtain ⟨q, hq, rfl⟩ := List.mem_map.mp hp
    obtain ⟨d, hd, hhome⟩ := h.homes q hq
    have hnew := find_updateReservation (i := i) hf hd
    have hid : (if q.1 = key then (q.1, { q.2 with data := g q.2.data }) else q).2.id =
      q.2.id := by split <;> rfl
    have hkey : (if q.1 = key then (q.1, { q.2 with data := g q.2.data }) else q).1 = q.1 := by split <;> rfl
    rw [hid, hkey]
    refine ⟨_, hnew, ?_⟩
    split
    · exact hhome.stays hf
    · exact hhome

theorem Coherent.released (subnetId ip : String)
    (h : Coherent run) : Coherent { run with db := run.db.releaseDnsResolvedAt subnetId ip } := by
  refine ⟨h.nodup, fun p hp => ?_⟩
  obtain ⟨d, hd, hhome⟩ := h.homes p hp
  obtain ⟨d', hd', rfl | ⟨rfl, -⟩⟩ := find_releaseDnsResolvedAt subnetId ip hd
  · exact ⟨_, hd', hhome⟩
  · exact ⟨_, hd', hhome⟩

theorem Coherent.create (h : Coherent run) (hdata : data.subnetId = subnetId ∧ data.ipAddress = some ip) :
    Coherent (run.create subnetId ip data) := by
  have hreleased := h.released subnetId ip
  rw [Run.create]
  split
  next => exact hreleased
  next t ht =>
    refine ⟨nodup_mapSet h.nodup, fun p hp => ?_⟩
    obtain hp | rfl := mem_mapSet hp
    · obtain ⟨d, hd, hhome⟩ := hreleased.homes p hp
      exact ⟨d, find_insert ht hd, hhome⟩
    · refine ⟨data, find_inserted ht, hdata.1.symm, fun ip' _ => ?_⟩
      rw [hdata.2]

theorem stays_setVipInfo (v : Option VipInfo) :
    Stays (setVipInfo v) := ⟨fun _ => rfl, fun _ => rfl, fun _ => rfl⟩

theorem Coherent.act (h : Coherent run) (hact : Act N c run run') : Coherent run' := by
  cases hact with
  | note db hdb => exact ⟨h.nodup, fun p hp => hdb ▸ h.homes p hp⟩
  | create subnetId ip data hnone hdata => exact h.create ⟨hdata.1, hdata.2.1⟩
  | info subnetId ip row v => exact h.update (stays_setVipInfo v)
  | lease subnetId ip row f g hrow hlease hs => exact h.update hs.stays

end Coherence

section Origins

variable {N : Package} {c : Call} {db₀ : Db} {run run' : Run} {r : Row SyncReservation} {d : SyncReservation}
  {f : SyncReservation → SyncReservation} {i : Nat} {subnetId ip : String}

/-- The gateway has reported what the row stands for. -/
def Reported (c : Call) (d : SyncReservation) : Prop :=
  ∀ ip, d.ipAddress = some ip → ip ≠ "" → (d.sourceType = .vip → VipAt c ip) ∧
    (d.sourceType = .dhcpReservation →
    LeaseAt c ip)

/-- The row was there before the sync, as active as now and from the same
source. -/
def Descends (db₀ : Db) (r : Row SyncReservation) : Prop :=
  ∃ r₀ ∈ db₀.reservations.rows, r₀.id = r.id ∧ r₀.data.subnetId = r.data.subnetId ∧
    r₀.data.ipAddress = r.data.ipAddress ∧
    (r.data.status = .active → r₀.data.status = .active) ∧ r.data.sourceType = r₀.data.sourceType

def Origin (c : Call) (db₀ : Db) (r : Row SyncReservation) : Prop := Reported c r.data ∨ Descends db₀ r

theorem Origin.update (h : Origin c db₀ r) (hf : Stays f)
    (hsource : (f r.data).sourceType = r.data.sourceType ∨ Reported c (f r.data)) :
    Origin c db₀ ⟨r.id, f r.data⟩ := by
  obtain hsource | hreported := hsource
  · refine h.imp (fun hr ip hip hne => ?_) fun ⟨r₀, hr₀, hid, hsub, haddr, hact, hsrc⟩ => ?_
    · rw [hsource]
      exact hr ip ((hf.address r.data).symm.trans hip) hne
    · exact ⟨r₀, hr₀, hid, hsub.trans (hf.subnet _).symm, haddr.trans (hf.address _).symm,
        fun h => hact ((hf.status _).symm.trans h), hsource.trans hsrc⟩
  · exact .inl hreported

theorem Origin.released (h : Origin c db₀ r) : Origin c db₀ ⟨r.id, markReleased r.data⟩ :=
  h.imp id fun ⟨r₀, hr₀, hid, hsub, haddr, _, hsrc⟩ =>
    ⟨r₀, hr₀, hid, hsub, haddr, fun h => absurd h ReservationStatus.noConfusion, hsrc⟩

theorem origin_updateReservation (h : ∀ r ∈ run.db.reservations.rows, Origin c db₀ r) (hf : Stays f)
    (hsource : ∀ d, run.db.reservations.find i = some ⟨i, d⟩ → (f d).sourceType = d.sourceType ∨
      Reported c (f d)) :
    ∀ r ∈ (run.db.updateReservation i f).reservations.rows, Origin c db₀ r := by
  intro r hr
  rw [updateReservation_rows hf] at hr
  obtain ⟨q, hq, rfl⟩ := List.mem_map.mp hr
  by_cases hid : q.id = i
  · rw [amend_of_pos (decide_eq_true hid)]
    exact (h q hq).update hf (hsource q.data (hid ▸ Table.find_of_mem hq))
  · rw [amend_of_neg (decide_eq_false hid)]
    exact h q hq

theorem reported_shift {key : MapKey} {row : SyncReservation} {g : SyncReservation → SyncReservation}
    (hs : Shifts N c key row f g)
    (hlease : LeaseAt c ip) (hhome : HomeOf (subnetId, some ip) d) : (f d).sourceType = d.sourceType ∨
      Reported c (f d) := by
  by_cases hvip : (f d).sourceType = .vip
  · exact .inl (hvip.trans ((hs.born d).1 hvip).symm)
  · refine .inr fun ip' hip' hne => ⟨fun h => absurd h hvip, fun _ => ?_⟩
    have hsame : some ip = some ip' := (hhome.2 ip' hne).mpr ((hs.stays.address d).symm.trans hip')
    exact Option.some.inj hsame ▸ hlease

theorem origin_act (hcoh : Coherent run) (h : ∀ r ∈ run.db.reservations.rows, Origin c db₀ r)
    (hact : Act N c run run') :
    ∀ r ∈ run'.db.reservations.rows, Origin c db₀ r := by
  cases hact with
  | note db hdb => exact fun r hr => h r (hdb ▸ hr)
  | create subnetId ip data hnone hdata hvip hlease =>
    have hold : ∀ r ∈ (run.db.releaseDnsResolvedAt subnetId ip).reservations.rows, Origin c db₀ r := by
      intro r hr
      obtain ⟨r₀, hr₀, rfl | ⟨rfl, -⟩⟩ := mem_releaseDnsResolvedAt hr
      · exact h r hr₀
      · exact (h r₀ hr₀).released
    intro r hr
    rw [Run.create] at hr
    split at hr
    next => exact hold r hr
    next t ht =>
      change r ∈ t.rows at hr
      rw [(Table.insert_rows ht).1] at hr
      obtain hr | hr := List.mem_append.mp hr
      · exact hold r hr
      · obtain rfl := List.mem_singleton.mp hr
        refine .inl fun ip' hip' _ => ?_
        obtain rfl := Option.some.inj (hdata.2.1.symm.trans hip')
        exact ⟨hvip, hlease⟩
  | info subnetId ip row v => exact origin_updateReservation h (stays_setVipInfo v) fun d _ => .inl rfl
  | lease subnetId ip row f g hrow hlease hs =>
    obtain ⟨d, hd, hhome⟩ := hcoh.homes _ (mapGet_mem hrow)
    refine origin_updateReservation h hs.stays fun d' hd' => ?_
    cases Option.some.inj (hd.symm.trans hd')
    exact reported_shift hs hlease.leaseAt hhome

end Origins

section Tracking

variable {N : Package} {c : Call} {db : Db} {run run' : Run} {row : Row SyncReservation}
  {d m data : SyncReservation} {id i : Nat}
  {f g : SyncReservation → SyncReservation} {subnetId ip subnetId' ip' : String} {B : Prop}
  {Q Q' : SyncReservation → SyncReservation → Prop}

/-- A released row has the place of the address among the released ones. -/
def Blocked (db : Db) (subnetId ip : String) : Prop :=
  ∃ r ∈ db.reservations.rows, r.data.subnetId = subnetId ∧ r.data.ipAddress = some ip ∧
    r.data.status = .released

/-- The row of an address, as it is stored and as the run has it. -/
structure Tracks (id : Nat) (subnetId ip : String) (B : Prop) (Q : SyncReservation → SyncReservation → Prop)
  (run : Run) : Prop where
  coherent : Coherent run
  row : ∃ d m, run.db.reservations.find id = some ⟨id, d⟩ ∧
    mapGet (subnetId, some ip) run.active = some ⟨id, m⟩ ∧
    (d.subnetId = subnetId ∧ d.ipAddress = some ip ∧ d.status = .active) ∧ Q d m
  blocked : Blocked run.db subnetId ip ↔ B

theorem blocked_updateReservation (hf : Stays f) : Blocked (db.updateReservation i f) subnetId ip ↔
    Blocked db subnetId ip := by
  have hsame : ∀ r : Row SyncReservation, (amend (·.id = i) f r).data.subnetId = r.data.subnetId ∧
      (amend (·.id = i) f r).data.ipAddress = r.data.ipAddress ∧
        (amend (·.id = i) f r).data.status = r.data.status := by
    intro r
    rw [amend]
    split
    · exact ⟨hf.subnet _, hf.address _, hf.status _⟩
    · exact ⟨rfl, rfl, rfl⟩
  rw [Blocked, Blocked, updateReservation_rows hf]
  simp only [List.mem_map, exists_exists_and_eq_and, hsame]

theorem blocked_releaseDnsResolvedAt (hne : subnetId' ≠ subnetId ∨ ip' ≠ ip) :
    Blocked (db.releaseDnsResolvedAt subnetId' ip') subnetId ip ↔ Blocked db subnetId ip := by
  constructor
  · rintro ⟨r, hr, hsub, hip, hst⟩
    obtain ⟨r₀, hr₀, rfl | ⟨rfl, hdns⟩⟩ := mem_releaseDnsResolvedAt hr
    · exact ⟨r, hr₀, hsub, hip, hst⟩
    · simp only [dnsResolvedAt, Bool.and_eq_true, decide_eq_true_eq] at hdns
      obtain hne | hne := hne
      · exact absurd (hdns.1.1.1.symm.trans hsub) hne
      · exact absurd (Option.some.inj (hdns.1.1.2.symm.trans hip)) hne
  · rintro ⟨r, hr, hsub, hip, hst⟩
    obtain ⟨d', hd', rfl | ⟨-, hdns⟩⟩ := find_releaseDnsResolvedAt subnetId' ip' (Table.find_of_mem hr)
    · exact ⟨_, (Table.mem_of_find hd').1, hsub, hip, hst⟩
    · simp [dnsResolvedAt, hst] at hdns

theorem Coherent.apart (h : Coherent run) (hne : ip ≠ "") (hd : run.db.reservations.find id = some ⟨id, d⟩)
    (hsub : d.subnetId = subnetId) (hip : d.ipAddress = some ip)
    (hrow : mapGet (subnetId', some ip') run.active = some row)
    (hkey : subnetId' ≠ subnetId ∨ ip' ≠ ip) : row.id ≠ id := by
  rintro rfl
  obtain ⟨d', hd', hhome⟩ := h.homes _ (mapGet_mem hrow)
  cases Option.some.inj (hd.symm.trans hd')
  obtain hkey | hkey := hkey
  · exact hkey (hhome.1.trans hsub)
  · exact hkey (Option.some.inj ((hhome.2 ip hne).mpr hip))

theorem Tracks.own (h : Tracks id subnetId ip B Q run) (hf : Stays f)
    (hrow : mapGet (subnetId, some ip) run.active = some row)
    (hQ : ∀ d, Q d row.data → Q' (f d) (g row.data)) :
    Tracks id subnetId ip B Q' ({ run with db := run.db.updateReservation row.id f }.inMemory (subnetId,
      some ip) g) := by
  obtain ⟨d, m, hd, hm, ⟨hsub, hip, hst⟩, hq⟩ := h.row
  refine ⟨h.coherent.update hf, ?_, (blocked_updateReservation hf).trans h.blocked⟩
  obtain rfl := Option.some.inj (hm.symm.trans hrow)
  have hfind := find_updateReservation (i := id) hf hd
  rw [if_pos rfl] at hfind
  refine ⟨f d, g m, hfind, ?_, ⟨(hf.subnet d).trans hsub, (hf.address d).trans hip,
    (hf.status d).trans hst⟩, hQ d hq⟩
  rw [mapGet_inMemory]
  change Option.map _ (mapGet _ run.active) = _
  rw [hm]
  simp

theorem key_ne (hkey : subnetId' ≠ subnetId ∨ ip' ≠ ip) :
    ((subnetId, some ip) : MapKey) ≠ (subnetId', some ip') := by
  intro he
  obtain ⟨hsub, hip⟩ := Prod.mk.inj he
  exact hkey.elim (fun h => h hsub.symm) fun h => h (Option.some.inj hip).symm

theorem Tracks.other (h : Tracks id subnetId ip B Q run) (hne : ip ≠ "") (hf : Stays f)
    (hrow : mapGet (subnetId', some ip') run.active = some row) (hkey : subnetId' ≠ subnetId ∨ ip' ≠ ip) :
    Tracks id subnetId ip B Q ({ run with db := run.db.updateReservation row.id f }.inMemory (subnetId',
      some ip') g) := by
  obtain ⟨d, m, hd, hm, ⟨hsub, hip, hst⟩, hq⟩ := h.row
  refine ⟨h.coherent.update hf, ?_, (blocked_updateReservation hf).trans h.blocked⟩
  have hfind := find_updateReservation (i := row.id) hf hd
  rw [if_neg (h.coherent.apart hne hd hsub hip hrow hkey).symm] at hfind
  refine ⟨d, m, hfind, ?_, ⟨hsub, hip, hst⟩, hq⟩
  rw [mapGet_inMemory]
  change Option.map _ (mapGet _ run.active) = _
  rw [hm]
  simp [key_ne hkey]

theorem Tracks.update (h : Tracks id subnetId ip B Q run) (hne : ip ≠ "") (hf : Stays f)
    (hrow : mapGet (subnetId', some ip') run.active = some row)
    (hQ : subnetId' = subnetId → ip' = ip → ∀ d, Q d row.data → Q (f d) (g row.data)) :
    Tracks id subnetId ip B Q ({ run with db := run.db.updateReservation row.id f }.inMemory (subnetId',
      some ip') g) := by
  by_cases hkey : subnetId' = subnetId ∧ ip' = ip
  · obtain ⟨rfl, rfl⟩ := hkey
    exact h.own hf hrow (hQ rfl rfl)
  · exact h.other hne hf hrow (not_and_or.mp hkey)

theorem Tracks.create (h : Tracks id subnetId ip B Q run)
    (hnone : mapGet (subnetId', some ip') run.active = none)
    (hdata : data.subnetId = subnetId' ∧ data.ipAddress = some ip' ∧ data.status = .active) :
    Tracks id subnetId ip B Q (run.create subnetId' ip' data) := by
  obtain ⟨d, m, hd, hm, ⟨hsub, hip, hst⟩, hq⟩ := h.row
  have hkey : subnetId' ≠ subnetId ∨ ip' ≠ ip := by
    by_contra hsame
    obtain ⟨rfl, rfl⟩ := not_or.mp hsame |>.imp not_not.mp not_not.mp
    exact absurd (hm.symm.trans hnone) (Option.some_ne_none _)
  have hcoherent : Coherent (run.create subnetId' ip' data) := h.coherent.create ⟨hdata.1, hdata.2.1⟩
  have hblocked : Blocked (run.db.releaseDnsResolvedAt subnetId' ip') subnetId ip ↔ B :=
    (blocked_releaseDnsResolvedAt hkey).trans h.blocked
  obtain ⟨d', hd', hsame⟩ := find_releaseDnsResolvedAt subnetId' ip' hd
  have hsame : d' = d := by
    obtain hsame | ⟨-, hdns⟩ := hsame
    · exact hsame
    · simp only [dnsResolvedAt, Bool.and_eq_true, decide_eq_true_eq] at hdns
      obtain hkey | hkey := hkey
      · exact absurd (hdns.1.1.1.symm.trans hsub) hkey
      · exact absurd (Option.some.inj (hdns.1.1.2.symm.trans hip)) hkey
  subst hsame
  revert hcoherent
  rw [Run.create]
  split
  next => exact fun hcoherent => ⟨hcoherent, ⟨d', m, hd', hm, ⟨hsub, hip, hst⟩, hq⟩, hblocked⟩
  next t ht =>
    intro hcoherent
    refine ⟨hcoherent, ⟨d', m, find_insert ht hd', ?_, ⟨hsub, hip, hst⟩, hq⟩, ?_⟩
    · rw [mapGet_mapSet, if_neg (key_ne hkey), hm]
    · rw [← hblocked, Blocked, Blocked, (Table.insert_rows ht).1]
      simp only [List.mem_append, List.mem_singleton, or_and_right, exists_or, exists_eq_left]
      exact or_iff_left fun hnew => by simp [hdata.2.2] at hnew

theorem Tracks.act (h : Tracks id subnetId ip B Q run) (hne : ip ≠ "")
    (hinfo : VipAt c ip → ∀ d m v, Q d m → Q (setVipInfo v d) (setVipInfo v m))
    (hlease : Reached N c (subnetId, some ip) → ∀ d m f g, Shifts N c (subnetId, some ip) m f g → Q d m →
      Q (f d) (g m))
    (hact : Act N c run run') : Tracks id subnetId ip B Q run' := by
  cases hact with
  | note db hdb =>
    obtain ⟨d, m, hd, hrest⟩ := h.row
    refine ⟨h.coherent.act (.note (N := N) (c := c) db hdb), ⟨d, m, hdb ▸ hd, hrest⟩, ?_⟩
    rw [← h.blocked, Blocked, Blocked, hdb]
  | create subnetId' ip' data hnone hdata => exact h.create hnone hdata
  | info subnetId' ip' row v hrow hvip =>
    refine h.update hne (stays_setVipInfo v) hrow fun hs hi d hq => ?_
    subst hi
    exact hinfo hvip d _ v hq
  | lease subnetId' ip' row f g hrow hat hs =>
    refine h.update hne hs.stays hrow fun hsub hi d hq => ?_
    subst hsub hi
    exact hlease hat d _ f g hs hq

theorem Tracks.acts (h : Tracks id subnetId ip B Q run) (hne : ip ≠ "")
    (hinfo : VipAt c ip → ∀ d m v, Q d m → Q (setVipInfo v d) (setVipInfo v m))
    (hlease : Reached N c (subnetId, some ip) → ∀ d m f g, Shifts N c (subnetId, some ip) m f g → Q d m →
      Q (f d) (g m))
    (hacts : Acts N c run run') : Tracks id subnetId ip B Q run' := by
  induction hacts with
  | refl => exact h
  | tail _ hact ih => exact ih.act hne hinfo hlease hact

end Tracking

section Sweep

variable {N : Package} {c : Call} {run : Run} {p : MapKey × Row SyncReservation}
  {rest : List (MapKey × Row SyncReservation)}
  {r : Row SyncReservation} {d m : SyncReservation} {id : Nat} {release : SyncReservation → SyncReservation}
    {key : MapKey}
  {subnetId ip : String} {B : Prop} {Q : SyncReservation → SyncReservation → Prop}

/-- A release leaves the row at its address, from the same source. -/
structure Releases (release : SyncReservation → SyncReservation) : Prop where
  subnet : ∀ r, (release r).subnetId = r.subnetId
  address : ∀ r, (release r).ipAddress = r.ipAddress
  status : ∀ r, (release r).status = .released

theorem releases_of_stale (h : stale N c key m = some release) : Releases release := by
  rw [stale] at h
  split at h
  · split at h
    · cases h
      exact ⟨fun _ => rfl, fun _ => rfl, fun _ => rfl⟩
    · cases h
  · split at h
    · cases h
      exact ⟨fun _ => rfl, fun _ => rfl, fun _ => rfl⟩
    · cases h
  · cases h

theorem sweepRow_cases (N : Package) (c : Call) (run : Run) (p : MapKey × Row SyncReservation) :
    (sweepRow N c run p).db.reservations = run.db.reservations ∨
      ∃ release, stale N c p.1 p.2.data = some release ∧
        run.db.reservations.updateWhere (·.id = p.2.id) release =
          some (sweepRow N c run p).db.reservations := by
  rw [sweepRow]
  split
  next => exact .inl rfl
  next release hstale =>
    split
    next => exact .inl rfl
    next t ht => exact .inr ⟨release, hstale, ht⟩

theorem find_sweepRow (hd : run.db.reservations.find id = some ⟨id, d⟩) (hne : p.2.id ≠ id) :
    (sweepRow N c run p).db.reservations.find id = some ⟨id, d⟩ := by
  obtain hsame | ⟨release, -, ht⟩ := sweepRow_cases N c run p
  · rw [hsame, hd]
  · rw [Table.find_updateWhere ht hd, amend_of_neg (by simpa using hne.symm)]

theorem home_sweepRow (hd : run.db.reservations.find id = some ⟨id, d⟩) (hhome : HomeOf key d) :
    ∃ d', (sweepRow N c run p).db.reservations.find id = some ⟨id, d'⟩ ∧ HomeOf key d' := by
  obtain hsame | ⟨release, hstale, ht⟩ := sweepRow_cases N c run p
  · exact ⟨d, hsame ▸ hd, hhome⟩
  · have hrel := releases_of_stale hstale
    by_cases hid : p.2.id = id
    · refine ⟨release d,
      (Table.find_updateWhere ht hd).trans (congrArg some (amend_of_pos (by simp [hid]) _)), ?_⟩
      exact ⟨hhome.1.trans (hrel.subnet d).symm, fun ip hip => (hrel.address d) ▸ hhome.2 ip hip⟩
    · exact ⟨d, find_sweepRow hd hid, hhome⟩

theorem blocked_sweepRow (hne : ip ≠ "") (hd : run.db.reservations.find p.2.id = some ⟨p.2.id, d⟩)
    (hhome : HomeOf p.1 d)
    (hkey : p.1 ≠ (subnetId, some ip)) : Blocked (sweepRow N c run p).db subnetId ip ↔
      Blocked run.db subnetId ip := by
  obtain hsame | ⟨release, hstale, ht⟩ := sweepRow_cases N c run p
  · rw [Blocked, Blocked, hsame]
  · have hrel := releases_of_stale hstale
    have hown : ∀ q ∈ run.db.reservations.rows, q.id = p.2.id → ¬(q.data.subnetId = subnetId ∧
      q.data.ipAddress = some ip) := by
      rintro q hq hid ⟨hsub, hip⟩
      obtain rfl := Table.eq_of_id hq (Table.mem_of_find hd).1 hid
      exact hkey (Prod.ext (hhome.1.trans hsub) ((hhome.2 ip hne).mpr hip))
    rw [Blocked, Blocked, (Table.updateWhere_rows ht).1]
    constructor
    · rintro ⟨r, hr, hsub, hip, hst⟩
      obtain ⟨q, hq, rfl⟩ := List.mem_map.mp hr
      by_cases hid : q.id = p.2.id
      · rw [amend_of_pos (by simp [hid])] at hsub hip
        exact absurd ⟨(hrel.subnet _).symm.trans hsub, (hrel.address _).symm.trans hip⟩ (hown q hq hid)
      · rw [amend_of_neg (by simp [hid])] at hsub hip hst
        exact ⟨q, hq, hsub, hip, hst⟩
    · rintro ⟨q, hq, hsub, hip, hst⟩
      have hid : q.id ≠ p.2.id := fun hid => hown q hq hid ⟨hsub, hip⟩
      exact ⟨q, List.mem_map.mpr ⟨q, hq, amend_of_neg (by simp [hid]) _⟩, hsub, hip, hst⟩

theorem sweep_others (hne : ip ≠ "") (hrest : ∀ p ∈ rest, p.1 ≠ (subnetId, some ip))
    (hhomes : ∀ p ∈ rest, ∃ d, run.db.reservations.find p.2.id = some ⟨p.2.id, d⟩ ∧ HomeOf p.1 d)
    (hd : run.db.reservations.find id = some ⟨id, d⟩) (hsub : d.subnetId = subnetId)
    (hip : d.ipAddress = some ip) :
    (rest.foldl (sweepRow N c) run).db.reservations.find id = some ⟨id, d⟩ ∧
      (Blocked (rest.foldl (sweepRow N c) run).db subnetId ip ↔ Blocked run.db subnetId ip) := by
  induction rest generalizing run with
  | nil => exact ⟨hd, Iff.rfl⟩
  | cons p rest ih =>
    obtain ⟨d', hd', hhome⟩ := hhomes p List.mem_cons_self
    have hkey := hrest p List.mem_cons_self
    have hid : p.2.id ≠ id := by
      rintro hid
      rw [hid] at hd'
      cases Option.some.inj (hd.symm.trans hd')
      exact hkey (Prod.ext (hhome.1.trans hsub) ((hhome.2 ip hne).mpr hip))
    have hhomes' : ∀ q ∈ rest, ∃ d, (sweepRow N c run p).db.reservations.find q.2.id = some ⟨q.2.id, d⟩ ∧
      HomeOf q.1 d := by
      intro q hq
      obtain ⟨dq, hdq, hhomeq⟩ := hhomes q (List.mem_cons_of_mem p hq)
      exact home_sweepRow hdq hhomeq
    obtain ⟨hfind, hblocked⟩ := ih (fun q hq => hrest q (List.mem_cons_of_mem p hq)) hhomes'
      (find_sweepRow hd hid)
    exact ⟨hfind, hblocked.trans (blocked_sweepRow hne hd' hhome hkey)⟩

theorem homes_sweep (rest : List (MapKey × Row SyncReservation))
    (h : ∃ d, run.db.reservations.find id = some ⟨id, d⟩ ∧ HomeOf key d) :
    ∃ d, (rest.foldl (sweepRow N c) run).db.reservations.find id = some ⟨id, d⟩ ∧ HomeOf key d := by
  induction rest generalizing run with
  | nil => exact h
  | cons p rest ih =>
    obtain ⟨d, hd, hhome⟩ := h
    exact ih (home_sweepRow hd hhome)

theorem release_free (hrel : Releases release) (hd : run.db.reservations.find id = some ⟨id, d⟩)
    (hat : d.subnetId = subnetId ∧ d.ipAddress = some ip ∧ d.status = .active) :
    (∃ t, run.db.reservations.updateWhere (·.id = id) release = some t) ↔ ¬Blocked run.db subnetId ip := by
  obtain ⟨hsub, hip, hst⟩ := hat
  have hkey : rowKey (release d) = some (subnetId, ip, .released) := by
    change (release d).ipAddress.map (fun ip => ((release d).subnetId, ip, (release d).status)) = _
    rw [hrel.address, hrel.subnet, hrel.status, hip, hsub]
    rfl
  have hmem := (Table.mem_of_find hd).1
  have hown : ∀ a ∈ run.db.reservations.rows, decide (a.id = id) = true → a = ⟨id, d⟩ := fun a ha hid =>
    Table.eq_of_id ha hmem (of_decide_eq_true hid)
  constructor
  · rintro ⟨t, ht⟩ ⟨b, hb, hbsub, hbip, hbst⟩
    have hne : b.id ≠ id := by
      intro hid
      rw [hown b hb (decide_eq_true hid)] at hbst
      exact absurd (hst.symm.trans hbst) (by decide)
    have hb' : b ∈ t.rows := by
      rw [(Table.updateWhere_rows ht).1]
      exact List.mem_map.mpr ⟨b, hb, amend_of_neg (by simp [hne]) _⟩
    have hnew : (⟨id, release d⟩ : Row SyncReservation) ∈ t.rows := by
      rw [(Table.updateWhere_rows ht).1]
      exact List.mem_map.mpr ⟨_, hmem, amend_of_pos (by simp) _⟩
    have hbkey : rowKey b.data = some (subnetId, ip, .released) := by
      change b.data.ipAddress.map (fun ip => (b.data.subnetId, ip, b.data.status)) = _
      rw [hbip, hbsub, hbst]
      rfl
    exact hne (congrArg Row.id (Table.eq_of_key hb' hnew (hbkey.trans hkey.symm) (by simp [hbkey])))
  · intro hfree
    refine Table.updateWhere_isSome (fun a ha b hb hpa hpb _ _ => ?_) fun a ha hpa b hb hpb hk => ?_
    · rw [hown a ha hpa, hown b hb hpb]
      refine ⟨rfl, ?_⟩
      change d.ipAddress.map _ ≠ none
      simp [hip]
    · rw [hown a ha hpa, hkey] at hk
      change b.data.ipAddress.map (fun ip => (b.data.subnetId, ip, b.data.status)) = _ at hk
      obtain ⟨ip', hip', heq⟩ := Option.map_eq_some_iff.mp hk
      simp only [Prod.mk.injEq] at heq
      exact absurd ⟨b, hb, heq.1, heq.2.1 ▸ hip', heq.2.2⟩ hfree

theorem find_sweepRow_own (key : MapKey) (m : SyncReservation)
    (hd : run.db.reservations.find id = some ⟨id, d⟩)
    (hat : d.subnetId = subnetId ∧ d.ipAddress = some ip ∧ d.status = .active) :
    ∃ x, (sweepRow N c run (key, ⟨id, m⟩)).db.reservations.find id = some ⟨id, x⟩ ∧
      ((stale N c key m = none ∨ Blocked run.db subnetId ip) ∧ x = d ∨
        ∃ release, stale N c key m = some release ∧ ¬Blocked run.db subnetId ip ∧ x = release d) := by
  rw [sweepRow]
  split
  next hstale => exact ⟨d, hd, .inl ⟨.inl hstale, rfl⟩⟩
  next release hstale =>
    have hfree := release_free (releases_of_stale hstale) hd hat
    split
    next hnone =>
      refine ⟨d, hd, .inl ⟨.inr ?_, rfl⟩⟩
      by_contra hblocked
      obtain ⟨t, ht⟩ := hfree.mpr hblocked
      exact absurd (ht.symm.trans hnone) (Option.some_ne_none _)
    next t ht =>
      refine ⟨release d, (Table.find_updateWhere ht hd).trans (congrArg some (amend_of_pos (by simp) _)),
        .inr ?_⟩
      exact ⟨release, hstale, hfree.mp ⟨t, ht⟩, rfl⟩

theorem Tracks.sweep (h : Tracks id subnetId ip B Q run) (hne : ip ≠ "") :
    ∃ d m x, Q d m ∧ (d.subnetId = subnetId ∧ d.ipAddress = some ip ∧ d.status = .active) ∧
      (sweepStale N c run).db.reservations.find id = some ⟨id, x⟩ ∧
      ((stale N c (subnetId, some ip) m = none ∨ B) ∧ x = d ∨
        ∃ release, stale N c (subnetId, some ip) m = some release ∧ ¬B ∧ x = release d) := by
  obtain ⟨d, m, hd, hm, hat, hq⟩ := h.row
  obtain ⟨pre, post, hsplit⟩ := List.mem_iff_append.mp (mapGet_mem hm)
  have hnodup := h.coherent.nodup
  have hhomes := h.coherent.homes
  rw [hsplit] at hnodup hhomes
  rw [List.map_append, List.map_cons, List.nodup_append, List.nodup_cons] at hnodup
  obtain ⟨-, ⟨hpost, -⟩, hpre⟩ := hnodup
  have hpre : ∀ p ∈ pre, p.1 ≠ (subnetId, some ip) := fun p hp =>
    hpre _ (List.mem_map_of_mem hp) _ List.mem_cons_self
  have hpost : ∀ p ∈ post, p.1 ≠ (subnetId, some ip) := fun p hp hkey =>
    hpost (List.mem_map.mpr ⟨p, hp, hkey⟩)
  rw [sweepStale, hsplit, List.foldl_append, List.foldl_cons]
  obtain ⟨hd₁, hblocked⟩ := sweep_others (N := N) (c := c) hne hpre
    (fun p hp => hhomes p (List.mem_append_left _ hp)) hd hat.1 hat.2.1
  have hhomes₁ := fun p hp => homes_sweep (N := N) (c := c) pre
    (hhomes p (List.mem_append_right _ (List.mem_cons_of_mem _ hp)))
  obtain ⟨x, hx, hcases⟩ := find_sweepRow_own (N := N) (c := c) (subnetId, some ip) m hd₁ hat
  rw [hblocked.trans h.blocked] at hcases
  have hplace : x.subnetId = subnetId ∧ x.ipAddress = some ip := by
    obtain ⟨-, rfl⟩ | ⟨release, hstale, -, rfl⟩ := hcases
    · exact ⟨hat.1, hat.2.1⟩
    · have hrel := releases_of_stale hstale
      exact ⟨(hrel.subnet d).trans hat.1, (hrel.address d).trans hat.2.1⟩
  have hhomes₂ := fun p hp => (hhomes₁ p hp).elim fun _ hd' =>
    home_sweepRow (N := N) (c := c) (p := ((subnetId, some ip), ⟨id, m⟩)) hd'.1 hd'.2
  exact ⟨d, m, x, hq, hat, (sweep_others hne hpost hhomes₂ hx hplace.1 hplace.2).1, hcases⟩

theorem active_sweep (hr : r ∈ (rest.foldl (sweepRow N c) run).db.reservations.rows)
    (hst : r.data.status = .active) :
    r ∈ run.db.reservations.rows := by
  induction rest generalizing run with
  | nil => exact hr
  | cons p rest ih =>
    have hr := ih hr
    obtain hsame | ⟨release, hstale, ht⟩ := sweepRow_cases N c run p
    · exact hsame ▸ hr
    · rw [(Table.updateWhere_rows ht).1] at hr
      obtain ⟨q, hq, rfl⟩ := List.mem_map.mp hr
      by_cases hid : q.id = p.2.id
      · rw [amend_of_pos (by simp [hid])] at hst
        exact absurd (((releases_of_stale hstale).status _).symm.trans hst) (by decide)
      · rwa [amend_of_neg (by simp [hid])]

end Sweep

section Phases

variable {N : Package} {C : Casing} {c : Call} {db : Db} {run : Run} {r : Row SyncReservation}
  {d : SyncReservation} {id : Nat}
  {updates : List (Nat × ResUpdate)} {subnetId ip : String}

def place (r : Row SyncReservation) : Nat × String × Option String × ReservationStatus × SourceType :=
  (r.id, r.data.subnetId, r.data.ipAddress, r.data.status, r.data.sourceType)

theorem places_applyUpdates :
    (db.applyUpdates updates).reservations.rows.map place = db.reservations.rows.map place := by
  induction updates generalizing db with
  | nil => rfl
  | cons u updates ih =>
    refine ih.trans ?_
    dsimp only
    rw [updateReservation_rows (f := applyUpdate u.2) ⟨fun _ => rfl, fun _ => rfl, fun _ => rfl⟩,
      List.map_map]
    refine List.map_congr_left fun r _ => ?_
    rw [Function.comp_apply, amend]
    split <;> rfl

theorem acts_foldl {α : Type} {f : Run → α → Run} {l : List α} (hf : ∀ run, ∀ a ∈ l, Acts N c run (f run a)) :
    Acts N c run (l.foldl f run) := by
  induction l generalizing run with
  | nil => exact .refl
  | cons a l ih =>
    exact (hf run a List.mem_cons_self).trans (ih fun run b hb => hf run b (List.mem_cons_of_mem a hb))

def surveyed (N : Package) (C : Casing) (c : Call) (run : Run) : Run :=
  c.result.interfaceIps.foldl (syncInterface N c)
    (c.result.vips.foldl (syncVip N c)
      (c.result.fortiAps.foldl (syncAp N C c) (c.result.fortiSwitches.foldl (syncSwitch N c) run)))

theorem acts_surveyed : Acts N c run (surveyed N C c run) := by
  have hswitches : Acts N c run (c.result.fortiSwitches.foldl (syncSwitch N c) run) :=
    acts_foldl fun _ sw _ =>
    acts_syncSwitch sw
  have haps : ∀ run, Acts N c run (c.result.fortiAps.foldl (syncAp N C c) run) := fun _ =>
    acts_foldl fun _ ap _ => acts_syncAp ap
  have hvips : ∀ run, Acts N c run (c.result.vips.foldl (syncVip N c) run) := fun _ =>
    acts_foldl fun _ _ hvip => acts_foldl fun _ _ ha => acts_syncVipAddress hvip ha
  have hinterfaces : ∀ run, Acts N c run (c.result.interfaceIps.foldl (syncInterface N c) run) := fun _ =>
    acts_foldl fun _ i _ => acts_syncInterface i
  exact ((hswitches.trans (haps _)).trans (hvips _)).trans (hinterfaces _)

theorem acts_discover : Acts N c run (discover N C c run) :=
  acts_surveyed.trans (acts_foldl fun _ _ he => acts_syncLease he)

theorem coherent_preload : Coherent ⟨db, preload db⟩ := by
  suffices h : ∀ (rows : List (Row SyncReservation)) (m : List (MapKey × Row SyncReservation)),
    (∀ r ∈ rows, r ∈ db.reservations.rows) →
      Coherent ⟨db, m⟩ → Coherent ⟨db, rows.foldl (fun m r =>
        if r.data.sourceType = .dnsResolved then m
          else mapSet (r.data.subnetId, truthy r.data.ipAddress) r m) m⟩ from
    h _ [] (fun r hr => (List.mem_filter.mp hr).1) ⟨List.nodup_nil, fun p hp => absurd hp List.not_mem_nil⟩
  intro rows
  induction rows with
  | nil => exact fun m _ h => h
  | cons r rows ih =>
    intro m hrows h
    refine ih _ (fun x hx => hrows x (List.mem_cons_of_mem r hx)) ?_
    dsimp only
    split
    · exact h
    · refine ⟨nodup_mapSet h.nodup, fun p hp => ?_⟩
      obtain hp | rfl := mem_mapSet hp
      · exact h.homes p hp
      · refine ⟨r.data, Table.find_of_mem (hrows r List.mem_cons_self), rfl, fun ip hip => ?_⟩
        simp [truthy, Option.filter_eq_some_iff, hip]

/-- The run starts with every active row in memory, but for the fallback rows. -/
theorem mapGet_preload (hd : db.reservations.find id = some ⟨id, d⟩) (hne : ip ≠ "")
    (hat : d.subnetId = subnetId ∧ d.ipAddress = some ip ∧ d.status = .active)
    (hdns : d.sourceType ≠ .dnsResolved) :
    mapGet (subnetId, some ip) (preload db) = some ⟨id, d⟩ := by
  obtain ⟨hsub, hip, hst⟩ := hat
  have hmem := (Table.mem_of_find hd).1
  have honly : ∀ r ∈ db.reservations.rows.filter (·.data.status = .active),
    (r.data.subnetId, truthy r.data.ipAddress) =
      ((subnetId, some ip) : MapKey) → r = ⟨id, d⟩ := by
    intro r hr hkey
    obtain ⟨hr, hact⟩ := List.mem_filter.mp hr
    obtain ⟨hsub', hip'⟩ := Prod.mk.inj hkey
    have hkeys : rowKey r.data = rowKey d := by
      change r.data.ipAddress.map (fun ip => (r.data.subnetId, ip, r.data.status)) =
        d.ipAddress.map fun ip => (d.subnetId, ip, d.status)
      rw [(truthy_some hip').1, hip, hsub', hsub, of_decide_eq_true hact, hst]
    refine Table.eq_of_key hr hmem hkeys ?_
    rw [hkeys]
    change d.ipAddress.map _ ≠ none
    simp [hip]
  have hin : (⟨id, d⟩ : Row SyncReservation) ∈ db.reservations.rows.filter (·.data.status = .active) :=
    List.mem_filter.mpr ⟨hmem, decide_eq_true hst⟩
  have htruthy : truthy d.ipAddress = some ip := by simp [truthy, hip, hne]
  rw [preload]
  generalize db.reservations.rows.filter (·.data.status = .active) = rows at honly hin
  suffices h : ∀ m, ⟨id, d⟩ ∈ rows ∨ mapGet (subnetId, some ip) m = some ⟨id, d⟩ →
      mapGet (subnetId, some ip) (rows.foldl (fun m r =>
        if r.data.sourceType = .dnsResolved then m else mapSet (r.data.subnetId, truthy r.data.ipAddress) r m)
          m) = some ⟨id, d⟩ from
    h [] (.inl hin)
  clear hin
  induction rows with
  | nil => exact fun m h => h.resolve_left List.not_mem_nil
  | cons r rows ih =>
    intro m h
    refine ih (fun x hx => honly x (List.mem_cons_of_mem r hx)) _ ?_
    dsimp only
    by_cases hr : r = ⟨id, d⟩
    · subst hr
      rw [if_neg hdns, mapGet_mapSet, hsub, htruthy, if_pos rfl]
      exact .inr rfl
    · obtain hin | hgot := h
      · exact .inl ((List.mem_cons.mp hin).resolve_left (Ne.symm hr))
      · refine .inr ?_
        split
        · exact hgot
        · rw [mapGet_mapSet, if_neg fun hkey => hr (honly r List.mem_cons_self hkey.symm), hgot]

end Phases

section Outcome

variable {N : Package} {C : Casing} {c : Call} {db : Db} {run run' : Run} {d : SyncReservation} {id : Nat}
  {subnetId ip δ : String}
  {B : Prop} {Q Q' : SyncReservation → SyncReservation → Prop} {entry : DhcpEntry}

def swept (N : Package) (C : Casing) (c : Call) (db : Db) : Db :=
  (sweepStale N c (discover N C c ⟨db, preload db⟩)).db

/-- The row is a VIP's, of the device. -/
structure VipOf (δ : String) (x m : SyncReservation) : Prop where
  stored : x.sourceType = .vip
  memory : m.sourceType = .vip
  device : vipDevice m = δ

structure Gone (x m : SyncReservation) : Prop where
  stored : x.sourceType ≠ .vip
  memory : m.sourceType ≠ .vip

theorem Tracks.mono (h : Tracks id subnetId ip B Q run) (hq : ∀ d m, Q d m → Q' d m) :
    Tracks id subnetId ip B Q' run := by
  obtain ⟨d, m, hd, hm, hat, hdm⟩ := h.row
  exact ⟨h.coherent, ⟨d, m, hd, hm, hat, hq d m hdm⟩, h.blocked⟩

theorem tracks_start (hd : db.reservations.find id = some ⟨id, d⟩) (hne : ip ≠ "")
    (hat : d.subnetId = subnetId ∧ d.ipAddress = some ip ∧ d.status = .active)
    (hdns : d.sourceType ≠ .dnsResolved)
    (hq : Q d d) : Tracks id subnetId ip (Blocked db subnetId ip) Q ⟨db, preload db⟩ :=
  ⟨coherent_preload, ⟨d, d, hd, mapGet_preload hd hne hat hdns, hat, hq⟩, Iff.rfl⟩

theorem vipAt_of_current (h : ((subnetId, some ip) : MapKey) ∈ currentVipKeys N c) : VipAt c ip := by
  obtain ⟨vip, hvip, h⟩ := List.mem_flatMap.mp h
  obtain ⟨a, ha, h⟩ := List.mem_filterMap.mp h
  obtain ⟨s, -, hkey⟩ := Option.map_eq_some_iff.mp h
  exact ⟨vip, hvip, a, ha, Option.some.inj (Prod.mk.inj hkey).2⟩

theorem leaseAt_of_still (h : ((subnetId, some ip) : MapKey) ∈ stillOnGateKeys N c) : LeaseAt c ip := by
  obtain ⟨entry, he, h⟩ := List.mem_filterMap.mp h
  split at h
  · obtain ⟨s, -, hkey⟩ := Option.map_eq_some_iff.mp h
    exact ⟨entry, he, Option.some.inj (Prod.mk.inj hkey).2⟩
  · cases h

/-- The row of a VIP that is gone stays as it is where no lease succeeds it. -/
theorem Tracks.unmoved (h : Tracks id subnetId ip B (VipOf δ) run) (hne : ip ≠ "") (hvip : ¬VipAt c ip)
    (hstuck : Reached N c (subnetId, some ip) → δ ∉ c.result.vipInventoriedDevices)
    (hacts : Acts N c run run') :
    Tracks id subnetId ip B (VipOf δ) run' := by
  refine h.acts hne (fun hat => absurd hat hvip) (fun hreach d m f g hs hq => ?_) hacts
  have hkept := hs.kept hq.memory fun hsucc => hstuck hreach (hq.device ▸ hsucc.2)
  obtain ⟨⟨hf, -⟩, -⟩ := hkept d
  obtain ⟨-, hg, hinfo⟩ := hkept m
  exact ⟨hf.trans hq.stored, hg.trans hq.memory,
    (congrArg (fun v => (v.map (·.device)).getD "") hinfo).trans hq.device⟩

theorem Tracks.gone (h : Tracks id subnetId ip B Gone run) (hne : ip ≠ "") (hacts : Acts N c run run') :
    Tracks id subnetId ip B Gone run' :=
  h.acts hne (fun _ _ _ _ hq => ⟨hq.stored, hq.memory⟩) (fun _ d m _ _ hs hq =>
    ⟨fun hvip => hq.stored ((hs.born d).1 hvip), fun hvip => hq.memory ((hs.born m).2 hvip)⟩) hacts

theorem Tracks.converted (h : Tracks id subnetId ip B (VipOf δ) run) (hvip : ¬VipAt c ip)
    (hδ : δ ∈ c.result.vipInventoriedDevices)
    (hreach : reaches N c (subnetId, some ip) entry = true) :
    Tracks id subnetId ip B Gone (syncLease N C c run entry) := by
  simp only [reaches, Bool.and_eq_true, Option.any_eq_true, decide_eq_true_eq] at hreach
  obtain ⟨hempty, subnet, hsubnet, hkey⟩ := hreach
  obtain ⟨rfl, hip⟩ := Prod.mk.inj hkey
  obtain rfl := Option.some.inj hip
  obtain ⟨d, m, -, hm, -, hq⟩ := h.row
  have hsucc : (subnet.id, some entry.ipAddress) ∉ currentVipKeys N c ∧ (m.vipInfo.map (·.device)).getD "" ∈
      c.result.vipInventoriedDevices := ⟨fun hkey => hvip (vipAt_of_current hkey),
        (hq.device.symm ▸ hδ : vipDevice m ∈ _)⟩
  rw [syncLease, if_neg hempty, hsubnet]
  dsimp only
  rw [hm]
  dsimp only
  rw [hq.memory]
  dsimp only
  rw [vipLease, if_pos hsucc, rejectPending_inMemory]
  have hkind := fun r => online_kind (c := c) entry (succeed C c entry m r)
  have hgone : ∀ r, VipOf δ r m →
    Gone ((online c entry ∘ succeed C c entry m) r) (succeed C c entry m m) := fun r _ =>
    ⟨fun hvip => entrySource_ne entry ((hkind r).2.2.2.1.symm.trans hvip), entrySource_ne entry⟩
  have howned := h.own ⟨fun r => (hkind r).1, fun r => (hkind r).2.1, fun r => (hkind r).2.2.1⟩ hm hgone
  exact howned.act (N := N) (c := c) (by simpa using hempty) (fun _ _ _ _ hq => ⟨hq.stored, hq.memory⟩)
    (fun _ d m _ _ hs hq => ⟨fun hvip => hq.stored ((hs.born d).1 hvip),
      fun hvip => hq.memory ((hs.born m).2 hvip)⟩)
    (.note _ rfl)

theorem Tracks.pending (h : Tracks id subnetId ip B (fun x m => VipOf δ x m ∨ Gone x m) run) (hne : ip ≠ "")
    (hvip : ¬VipAt c ip)
    (hδ : δ ∈ c.result.vipInventoriedDevices) (hacts : Acts N c run run') :
    Tracks id subnetId ip B (fun x m => VipOf δ x m ∨ Gone x m) run' := by
  refine h.acts hne (fun hat => absurd hat hvip) (fun _ d m f g hs hq => .inr ?_) hacts
  obtain hq | hq := hq
  · have hgone := hs.gone hq.memory ⟨fun hkey => hvip (vipAt_of_current hkey),
      (hq.device.symm ▸ hδ : vipDevice m ∈ _)⟩
    exact ⟨(hgone d).1, (hgone m).2⟩
  · exact ⟨fun hvip => hq.stored ((hs.born d).1 hvip), fun hvip => hq.memory ((hs.born m).2 hvip)⟩

theorem Tracks.succeeded (h : Tracks id subnetId ip B (fun x m => VipOf δ x m ∨ Gone x m) run) (hne : ip ≠ "")
    (hvip : ¬VipAt c ip)
    (hδ : δ ∈ c.result.vipInventoriedDevices) (hreached : Reached N c (subnetId, some ip)) :
    Tracks id subnetId ip B Gone (c.result.dhcpEntries.foldl (syncLease N C c) run) := by
  obtain ⟨entry, he, hreach⟩ := hreached
  obtain ⟨pre, post, hsplit⟩ := List.mem_iff_append.mp he
  have hpre : ∀ e ∈ pre, e ∈ c.result.dhcpEntries := fun e he => hsplit ▸ List.mem_append_left _ he
  have hpost : ∀ e ∈ post, e ∈ c.result.dhcpEntries := fun e he =>
    hsplit ▸ List.mem_append_right _ (List.mem_cons_of_mem entry he)
  have hacts : Acts N c run (pre.foldl (syncLease N C c) run) := acts_foldl fun _ e he =>
    acts_syncLease (hpre e he)
  have hbefore := h.pending hne hvip hδ hacts
  have hafter : ∀ run, Tracks id subnetId ip B Gone (syncLease N C c run entry) →
      Tracks id subnetId ip B Gone (post.foldl (syncLease N C c) (syncLease N C c run entry)) := fun _ h =>
    h.gone hne (acts_foldl fun _ e he => acts_syncLease (hpost e he))
  rw [hsplit, List.foldl_append, List.foldl_cons]
  refine hafter _ ?_
  obtain ⟨d, m, hd, hm, hat, hq | hq⟩ := hbefore.row
  · exact Tracks.converted ⟨hbefore.coherent, ⟨d, m, hd, hm, hat, hq⟩, hbefore.blocked⟩ hvip hδ hreach
  · exact Tracks.gone ⟨hbefore.coherent, ⟨d, m, hd, hm, hat, hq⟩, hbefore.blocked⟩ hne (acts_syncLease he)

/-- The row of a VIP that is gone is released or taken over just where it has
the device on it, and where no released row is in the way of its release. -/
theorem vip_swept (hd : db.reservations.find id = some ⟨id, d⟩) (hne : ip ≠ "")
    (hat : d.subnetId = subnetId ∧ d.ipAddress = some ip ∧ d.status = .active) (hsource : d.sourceType = .vip)
    (hvip : ¬VipAt c ip) :
    ∃ x, (swept N C c db).reservations.find id = some ⟨id, x⟩ ∧
      (x.subnetId = subnetId ∧ x.ipAddress = some ip) ∧
      (x.status = .active ∧ x.sourceType = .vip ↔
        ¬(vipDevice d ∈ c.result.vipInventoriedDevices ∧ (Reached N c (subnetId, some ip) ∨
          ¬Blocked db subnetId ip))) := by
  have hstart : Tracks id subnetId ip (Blocked db subnetId ip) (VipOf (vipDevice d)) ⟨db, preload db⟩ :=
    tracks_start hd hne hat (by simp [hsource]) ⟨hsource, hsource, rfl⟩
  by_cases hsucc : Reached N c (subnetId, some ip) ∧ vipDevice d ∈ c.result.vipInventoriedDevices
  · obtain ⟨hreached, hδ⟩ := hsucc
    have hgone : Tracks id subnetId ip (Blocked db subnetId ip) Gone (discover N C c ⟨db, preload db⟩) :=
      ((hstart.mono fun _ _ hq => .inl hq).pending hne hvip hδ (acts_surveyed (C := C))).succeeded
        hne hvip hδ hreached
    obtain ⟨x, m, y, hq, ⟨hsub, hip, hst⟩, hy, hcases⟩ := hgone.sweep (N := N) (c := c) hne
    have hnot : ¬(y.status = .active ∧ y.sourceType = .vip) ∧ y.subnetId = subnetId ∧
      y.ipAddress = some ip := by
      obtain ⟨-, rfl⟩ | ⟨release, hstale, -, rfl⟩ := hcases
      · exact ⟨fun h => hq.stored h.2, hsub, hip⟩
      · have hrel := releases_of_stale hstale
        exact ⟨fun h => absurd ((hrel.status x).symm.trans h.1) (by decide), (hrel.subnet x).trans hsub,
          (hrel.address x).trans hip⟩
    exact ⟨y, hy, hnot.2, iff_of_false hnot.1 fun h => h ⟨hδ, .inl hreached⟩⟩
  · have hstays := hstart.unmoved hne hvip (fun hreach hδ => hsucc ⟨hreach, hδ⟩) (acts_discover (C := C))
    obtain ⟨x, m, y, hq, ⟨hsub, hip, hst⟩, hy, hcases⟩ := hstays.sweep (N := N) (c := c) hne
    have hstale : stale N c (subnetId, some ip) m =
        if vipDevice d ∈ c.result.vipInventoriedDevices then some releaseVip else none := by
      have hkey : ((subnetId, some ip) : MapKey) ∉ currentVipKeys N c := fun hkey =>
        hvip (vipAt_of_current hkey)
      rw [← hq.device, stale, hq.memory]
      simp only [hkey, not_false_eq_true, and_true]
      rfl
    obtain ⟨hwhy, rfl⟩ | ⟨release, hrel, hfree, rfl⟩ := hcases
    · refine ⟨y, hy, ⟨hsub, hip⟩, iff_of_true ⟨hst, hq.stored⟩ ?_⟩
      rintro ⟨hδ, hhow⟩
      rw [hstale, if_pos hδ] at hwhy
      exact hhow.elim (fun hreached => hsucc ⟨hreached, hδ⟩) fun hfree => hfree (hwhy.resolve_left (by simp))
    · rw [hstale] at hrel
      split at hrel
      next hδ =>
        cases hrel
        exact ⟨_, hy, ⟨hsub, hip⟩, iff_of_false (fun h => absurd h.1 ReservationStatus.noConfusion)
          fun h => h ⟨hδ, .inr hfree⟩⟩
      next => cases hrel

structure Reserves (subnetId : String) (x m : SyncReservation) : Prop where
  stored : x.sourceType = .dhcpReservation
  memory : m.sourceType = .dhcpReservation
  subnet : m.subnetId = subnetId

/-- A reserved address that the gate lists no more is released just where no
released row is in the way. -/
theorem reservation_swept (hd : db.reservations.find id = some ⟨id, d⟩) (hne : ip ≠ "")
    (hat : d.subnetId = subnetId ∧ d.ipAddress = some ip ∧ d.status = .active)
    (hsource : d.sourceType = .dhcpReservation)
    (hsweep : sweepable c subnetId = true) (hlease : ¬LeaseAt c ip) :
    ∃ x, (swept N C c db).reservations.find id = some ⟨id, x⟩ ∧
      (x.subnetId = subnetId ∧ x.ipAddress = some ip) ∧
      (x.status = .active ∧ x.sourceType = .dhcpReservation ↔ Blocked db subnetId ip) := by
  have hstart : Tracks id subnetId ip (Blocked db subnetId ip) (Reserves subnetId) ⟨db, preload db⟩ :=
    tracks_start hd hne hat (by simp [hsource]) ⟨hsource, hsource, hat.1⟩
  have hstays := hstart.acts hne (fun _ d m v hq => ⟨hq.stored, hq.memory, hq.subnet⟩)
    (fun hreached => absurd hreached.leaseAt hlease) (acts_discover (N := N) (C := C) (c := c))
  obtain ⟨x, m, y, hq, ⟨hsub, hip, hst⟩, hy, hcases⟩ := hstays.sweep (N := N) (c := c) hne
  have hstale : stale N c (subnetId, some ip) m = some releaseDhcp := by
    rw [stale, hq.memory, hq.subnet]
    exact if_pos ⟨hsweep, fun hkey => hlease (leaseAt_of_still hkey)⟩
  rw [hstale] at hcases
  obtain ⟨hblocked, rfl⟩ | ⟨release, hrel, hfree, rfl⟩ := hcases
  · exact ⟨y, hy, ⟨hsub, hip⟩, iff_of_true ⟨hst, hq.stored⟩ (hblocked.resolve_left (by simp))⟩
  · cases hrel
    exact ⟨_, hy, ⟨hsub, hip⟩, iff_of_false (fun h => absurd h.1 ReservationStatus.noConfusion) hfree⟩

/-- An active row after the sweep is of the gateway's making, or was there. -/
theorem origin_swept {r : Row SyncReservation} (hr : r ∈ (swept N C c db).reservations.rows)
    (hst : r.data.status = .active) :
    Origin c db r := by
  have hacts : ∀ run, Acts N c ⟨db, preload db⟩ run → Coherent run ∧ ∀ r ∈ run.db.reservations.rows,
    Origin c db r := by
    intro run hacts
    induction hacts with
    | refl => exact ⟨coherent_preload, fun r hr => .inr ⟨r, hr, rfl, rfl, rfl, id, rfl⟩⟩
    | tail _ hact ih => exact ⟨ih.1.act hact, origin_act ih.1 ih.2 hact⟩
  exact (hacts _ acts_discover).2 r (active_sweep hr hst)

end Outcome

section Runs

/-- A sync of one gateway that was asked for its VIPs and its reserved
addresses. -/
structure GateSync (owner gate : String) extends Call where
  owned : integrationId = owner
  runs : mode = .full ∨ mode = .skipDeprecation
  asked : result.vipInventoriedDevices = [gate] ∧ result.dhcpReservationsInventoriedDevices = [gate]
  own : (∀ vip ∈ result.vips, vip.device = gate) ∧ ∀ e ∈ result.dhcpEntries, e.device = gate
  subnet_ids : (subnets.map (·.id)).Nodup

/-- The tables, and the rows that a sync has created for a VIP. -/
structure State where
  db : Db
  created : List Nat

variable (N : Package) (C : Casing) {owner gate : String}

def step (s : State) (c : GateSync owner gate) : State :=
  let db := sync N C c.toCall s.db
  ⟨db, s.created ++
    (db.reservations.rows.filter fun r => s.db.reservations.nextId ≤ r.id && r.data.sourceType = .vip).map
      (·.id)⟩

/-- The subnet is one that the integration has found on the gateway. -/
def OfGate (c : GateSync owner gate) (subnetId : String) : Prop :=
  ∃ s ∈ c.subnets, s.id = subnetId ∧ s.discoveredBy = some owner ∧ truthy s.fortigateDevice = some gate

/-- After the sync, no row stands for a VIP or a reserved address that is
gone. -/
def Swept (s : State) (c : GateSync owner gate) : Prop :=
  ∀ r ∈ (step N C s c).db.reservations.rows, r.data.status = .active → ∀ ip ∈ truthy r.data.ipAddress,
    (r.data.sourceType = .vip → r.id ∈ s.created → VipAt c.toCall ip) ∧
      (r.data.sourceType = .dhcpReservation → OfGate c r.data.subnetId → LeaseAt c.toCall ip)

/-- A row whose VIP or reserved address is gone has the gateway on it, if it
is a VIP's, and no released row at its address. The successor of a VIP needs
none. -/
def Clear (s : State) (c : GateSync owner gate) : Prop :=
  ∀ r ∈ s.db.reservations.rows, r.data.status = .active → ∀ ip ∈ truthy r.data.ipAddress,
    (r.data.sourceType = .vip → r.id ∈ s.created → VipAt c.toCall ip ∨
      vipDevice r.data = gate ∧ (Reached N c.toCall (r.data.subnetId, some ip) ∨
        ¬Blocked s.db r.data.subnetId ip)) ∧
      (r.data.sourceType = .dhcpReservation → OfGate c r.data.subnetId → LeaseAt c.toCall ip ∨
        ¬Blocked s.db r.data.subnetId ip)

variable {N C} {c : GateSync owner gate} {s : State}

theorem sweepable_iff {subnetId : String} : sweepable c.toCall subnetId = true ↔ OfGate c subnetId := by
  simp only [sweepable, Option.any_eq_true, Bool.and_eq_true, decide_eq_true_eq, c.owned, c.asked.2,
    List.mem_singleton]
  constructor
  · rintro ⟨s, hs, hby, gate', hgate, rfl⟩
    exact ⟨s, List.mem_reverse.mp (List.mem_of_find?_eq_some hs), by simpa using List.find?_some hs, hby, hgate⟩
  · rintro ⟨s, hs, hid, hby, hgate⟩
    refine ⟨s, ?_, hby, gate, hgate, rfl⟩
    cases hf : c.subnets.reverse.find? (·.id = subnetId) with
    | none => exact absurd (decide_eq_true hid) (List.find?_eq_none.mp hf s (List.mem_reverse.mpr hs))
    | some s' =>
      have hid' : s'.id = subnetId := by simpa using List.find?_some hf
      have hmem := List.mem_reverse.mp (List.mem_of_find?_eq_some hf)
      rw [List.inj_on_of_nodup_map c.subnet_ids hmem hs (hid'.trans hid.symm)]

theorem sync_places : (step N C s c).db.reservations.rows.map
    place = (swept N C c.toCall s.db).reservations.rows.map place := by
  rw [step, sync, if_pos c.runs]
  exact places_applyUpdates

theorem mem_step {r : Row SyncReservation} (hr : r ∈ (step N C s c).db.reservations.rows) :
    ∃ x ∈ (swept N C c.toCall s.db).reservations.rows, place x = place r := by
  have hmem : place r ∈ (swept N C c.toCall s.db).reservations.rows.map place :=
    sync_places ▸ List.mem_map_of_mem hr
  exact List.mem_map.mp hmem

theorem step_of_swept {x : Row SyncReservation} (hx : x ∈ (swept N C c.toCall s.db).reservations.rows) :
    ∃ r ∈ (step N C s c).db.reservations.rows, place r = place x := by
  have hmem : place x ∈ (step N C s c).db.reservations.rows.map place := sync_places ▸ List.mem_map_of_mem hx
  exact List.mem_map.mp hmem

theorem place_eq {r x : Row SyncReservation} : place r = place x ↔ r.id = x.id ∧
    r.data.subnetId = x.data.subnetId ∧
    r.data.ipAddress = x.data.ipAddress ∧ r.data.status = x.data.status ∧
      r.data.sourceType = x.data.sourceType := by
  simp only [place, Prod.mk.injEq]

theorem Swept.clear (h : Swept N C s c) : Clear N s c := by
  intro r hr hst ip hip
  obtain ⟨haddr, hne⟩ := truthy_some hip
  have hd := Table.find_of_mem hr
  -- the row as the sweep has left it
  have hafter : ∀ x, (swept N C c.toCall s.db).reservations.find r.id = some ⟨r.id, x⟩ →
    x.subnetId = r.data.subnetId →
      x.ipAddress = some ip → x.status = .active →
      (x.sourceType = .vip → r.id ∈ s.created → VipAt c.toCall ip) ∧
        (x.sourceType = .dhcpReservation → OfGate c r.data.subnetId → LeaseAt c.toCall ip) := by
    intro x hx hsub hipx hstx
    obtain ⟨r', hr', hplace⟩ := step_of_swept (Table.mem_of_find hx).1
    obtain ⟨hid, hsub', haddr', hst', hsrc⟩ := place_eq.mp hplace
    obtain ⟨hvip, hlease⟩ := h r' hr' (hst'.trans hstx) ip (by simp [truthy, haddr', hipx, hne])
    rw [hsrc, hid] at hvip
    rw [hsrc, hsub'.trans hsub] at hlease
    exact ⟨hvip, hlease⟩
  constructor
  · intro hsource hcreated
    by_contra hnot
    obtain ⟨hvip, hstuck⟩ := not_or.mp hnot
    obtain ⟨x, hx, ⟨hsub, hipx⟩, hiff⟩ := vip_swept (N := N) (C := C) hd hne ⟨rfl, haddr, hst⟩ hsource hvip
    rw [c.asked.1, List.mem_singleton] at hiff
    obtain ⟨hstx, hsrcx⟩ := hiff.mpr hstuck
    exact hvip ((hafter x hx hsub hipx hstx).1 hsrcx hcreated)
  · intro hsource hgate
    by_contra hnot
    obtain ⟨hlease, hblocked⟩ := not_or.mp hnot
    obtain ⟨x, hx, ⟨hsub, hipx⟩, hiff⟩ := reservation_swept (N := N) (C := C) hd hne ⟨rfl, haddr, hst⟩ hsource
      (sweepable_iff.mpr hgate) hlease
    obtain ⟨hstx, hsrcx⟩ := hiff.mpr (not_not.mp hblocked)
    exact hlease ((hafter x hx hsub hipx hstx).2 hsrcx hgate)

theorem swept_of_clear (h : Clear N s c) : Swept N C s c := by
  intro r hr hst ip hip
  obtain ⟨x, hx, hplace⟩ := mem_step hr
  obtain ⟨hid, hsub, haddr, hstx, hsrc⟩ := place_eq.mp hplace
  obtain ⟨hipr, hne⟩ := truthy_some hip
  obtain hreported | ⟨r₀, hr₀, hid₀, hsub₀, haddr₀, hst₀, hsrc₀⟩ := origin_swept hx (hstx.trans hst)
  · obtain ⟨hvip, hlease⟩ := hreported ip (haddr.trans hipr) hne
    exact ⟨fun hsource _ => hvip (hsrc.trans hsource), fun hsource _ => hlease (hsrc.trans hsource)⟩
  · have hst₀ := hst₀ (hstx.trans hst)
    have haddr₀ : r₀.data.ipAddress = some ip := haddr₀.trans (haddr.trans hipr)
    have hd := Table.find_of_mem hr₀
    obtain ⟨hvips, hleases⟩ := h r₀ hr₀ hst₀ ip (by simp [truthy, haddr₀, hne])
    -- the sweep has left the row as it is now
    have hnow : ∀ y, (swept N C c.toCall s.db).reservations.find r₀.id = some ⟨r₀.id, y⟩ →
      y.status = r.data.status ∧
        y.sourceType = r.data.sourceType := by
      intro y hy
      have hxy : x = ⟨r₀.id, y⟩ := Table.eq_of_id hx (Table.mem_of_find hy).1 hid₀.symm
      rw [hxy] at hstx hsrc
      exact ⟨hstx, hsrc⟩
    constructor
    · intro hsource hcreated
      have hsource₀ := hsrc₀.symm.trans (hsrc.trans hsource)
      by_contra hvip
      obtain ⟨y, hy, -, hiff⟩ := vip_swept (N := N) (C := C) hd hne ⟨rfl, haddr₀, hst₀⟩ hsource₀ hvip
      rw [c.asked.1, List.mem_singleton] at hiff
      obtain ⟨hsty, hsrcy⟩ := hnow y hy
      exact hiff.mp ⟨hsty.trans hst, hsrcy.trans hsource⟩
        ((hvips hsource₀ (hid₀.trans hid ▸ hcreated)).resolve_left hvip)
    · intro hsource hgate
      have hsource₀ := hsrc₀.symm.trans (hsrc.trans hsource)
      have hgate₀ : OfGate c r₀.data.subnetId := hsub₀.trans hsub ▸ hgate
      by_contra hlease
      obtain ⟨y, hy, -, hiff⟩ := reservation_swept (N := N) (C := C) hd hne ⟨rfl, haddr₀, hst₀⟩ hsource₀
        (sweepable_iff.mpr hgate₀) hlease
      obtain ⟨hsty, hsrcy⟩ := hnow y hy
      exact (hleases hsource₀ hgate₀).resolve_left hlease (hiff.mp ⟨hsty.trans hst, hsrcy.trans hsource⟩)

theorem swept_iff (N : Package) (C : Casing) (s : State) (c : GateSync owner gate) :
    Swept N C s c ↔ Clear N s c :=
  ⟨Swept.clear, swept_of_clear⟩

/-- In every run of syncs of a gateway, the sweep leaves no stale row just
where the rows are clear before it. -/
theorem stale_rows_swept (N : Package) (C : Casing) (owner gate : String) (s : State)
    (syncs : List (GateSync owner gate)) :
    Along (step N C) (Swept N C) s syncs ↔ Along (step N C) (Clear N) s syncs :=
  ⟨Along.mono fun s c => (swept_iff N C s c).mp, Along.mono fun s c => (swept_iff N C s c).mpr⟩

section Branch

def branchNet : Subnet := { id := "lan", cidr := "10.0.0.0/24", discoveredBy := some "int-1",
                            fortigateDevice := some "branch" }

def branchCall (vips : List Vip) : Call where
  integrationId := "int-1"
  integrationType := .fortigate
  mode := .full
  result := { vips := vips, vipInventoriedDevices := ["branch"],
              dhcpReservationsInventoriedDevices := ["branch"] }
  subnets := [branchNet]
  assets := {}
  now := 0

def webVip : Vip := { device := "branch", name := "web", extip := "10.0.0.5", mappedips := [] }

def branchSync (vips : List Vip) (h : ∀ vip ∈ vips, vip.device = "branch") : GateSync "int-1" "branch" where
  toCall := branchCall vips
  owned := rfl
  runs := .inl rfl
  asked := ⟨rfl, rfl⟩
  own := ⟨h, fun _ he => absurd he List.not_mem_nil⟩
  subnet_ids := List.nodup_singleton _

def appeared : GateSync "int-1" "branch" := branchSync [webVip] fun _ h => List.mem_singleton.mp h ▸ rfl

def disappeared : GateSync "int-1" "branch" := branchSync [] fun _ h => absurd h List.not_mem_nil

def unsynced : State := ⟨⟨Table.empty _, Table.empty _⟩, []⟩

/-- A VIP that only one sync has seen is still on file after the next. -/
theorem brief_vip_stays :
    ¬Along (step Netmask.reference asciiCasing) (Swept Netmask.reference asciiCasing) unsynced [appeared,
      disappeared] := by
  intro h
  obtain ⟨r, hr, hst, hip, hsource, hcreated⟩ : ∃ r ∈ (step Netmask.reference asciiCasing
      (step Netmask.reference asciiCasing unsynced appeared) disappeared).db.reservations.rows,
        r.data.status = .active ∧
      truthy r.data.ipAddress = some "10.0.0.5" ∧ r.data.sourceType = .vip ∧
      r.id ∈ (step Netmask.reference asciiCasing unsynced appeared).created := by
    decide +kernel
  obtain ⟨vip, hvip, -⟩ := (h.2.1 r hr hst _ hip).1 hsource hcreated
  exact List.not_mem_nil hvip

end Branch

end Runs

end Polaris.StaleSweep
