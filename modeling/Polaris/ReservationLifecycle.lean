import Polaris.ReservationService
import Polaris.SubnetRefresh
import Polaris.Lib.Runs

namespace Polaris.ReservationLifecycle

open Polaris.Lib.Store Polaris.Lib.Runs Polaris.Netmask Polaris.Cidr Polaris.ReservationPush
  Polaris.Reservations Polaris.DnsResolved Polaris.ReservationService Polaris.SubnetRefresh

/-- The statements that move rows out of the active status. -/
def lifecycle : Writer → Bool
  | .release | .expire | .dnsReleaseAt | .refreshRelease => true
  | _ => false

/-- The store has rejected none of them. -/
def Quiet (db : Db) : Prop := ∀ x ∈ db.violations, lifecycle x = false

def SamePlace (a b : Row Reservation) : Prop :=
  a.data.subnetId = b.data.subnetId ∧ a.data.ipAddress = b.data.ipAddress

/-- No row of the status is at the address of the row. -/
def Vacant (db : Db) (status : ReservationStatus) (r : Row Reservation) : Prop :=
  r.data.ipAddress ≠ none → ∀ b ∈ db.rows, SamePlace b r → b.data.status ≠ status

instance (db : Db) (status : ReservationStatus) (r : Row Reservation) : Decidable (Vacant db status r) :=
  inferInstanceAs (Decidable (_ → ∀ b ∈ db.rows, _ ∧ _ → _))

section Moves

variable {db : Db} {w : Writer}

theorem uniqueKey_eq_some {r : Reservation} {k : String × String × ReservationStatus} :
    uniqueKey r = some k ↔ r.subnetId = k.1 ∧ r.ipAddress = some k.2.1 ∧ r.status = k.2.2 := by
  obtain ⟨s, ip, st⟩ := k
  cases h : r.ipAddress <;> simp [uniqueKey, h, and_left_comm]

variable (db) in
theorem move_isSome (p : Row Reservation → Bool) {f : Reservation → Reservation}
    {status : ReservationStatus}
    (hf : ∀ a, (f a).subnetId = a.subnetId ∧ (f a).ipAddress = a.ipAddress ∧ (f a).status = status)
    (hp : ∀ a ∈ db.rows, p a → a.data.status = .active)
    (hfree : ∀ a ∈ db.rows, p a → Vacant db status a) :
    ∃ t, db.reservations.updateWhere p f = some t := by
  refine Table.updateWhere_isSome (fun a ha b hb hpa hpb e hne => ?_) (fun a ha hpa b hb _ e => ?_)
  · obtain ⟨k, hk⟩ := Option.ne_none_iff_exists'.mp hne
    obtain ⟨hs, hip, -⟩ := uniqueKey_eq_some.mp hk
    obtain ⟨hs', hip', -⟩ := uniqueKey_eq_some.mp (e.symm.trans hk)
    rw [(hf _).1] at hs hs'
    rw [(hf _).2.1] at hip hip'
    have hka : uniqueKey a.data = some (k.1, k.2.1, .active) :=
      uniqueKey_eq_some.mpr ⟨hs, hip, hp a ha hpa⟩
    have hkb : uniqueKey b.data = some (k.1, k.2.1, .active) :=
      uniqueKey_eq_some.mpr ⟨hs', hip', hp b hb hpb⟩
    exact ⟨hka.trans hkb.symm, by simp [hka]⟩
  · by_contra hne
    obtain ⟨k, hk⟩ := Option.ne_none_iff_exists'.mp hne
    obtain ⟨hs, hip, hst⟩ := uniqueKey_eq_some.mp hk
    obtain ⟨hs', hip', hst'⟩ := uniqueKey_eq_some.mp (e.symm.trans hk)
    rw [(hf _).1] at hs'
    rw [(hf _).2.1] at hip'
    rw [(hf _).2.2] at hst'
    exact hfree a ha hpa (by simp [hip']) b hb ⟨hs.trans hs'.symm, hip.trans hip'.symm⟩
      (hst.trans hst'.symm)

theorem quiet_createRow (hw : lifecycle w = false) (h : Quiet db) (data : Reservation) :
    Quiet (db.createRow w data).1 := by
  obtain ⟨t, -, hc⟩ | ⟨-, hc⟩ := Db.createRow_cases db w data <;> rw [hc]
  · exact h
  · exact List.forall_mem_cons.mpr ⟨hw, h⟩

theorem quiet_updateRows (hw : lifecycle w = false) (h : Quiet db) (p : Row Reservation → Bool)
    (f : Reservation → Reservation) : Quiet (db.updateRows w p f).1 := by
  obtain ⟨t, -, hc⟩ | ⟨-, hc⟩ := Db.updateRows_cases db w p f <;> rw [hc]
  · exact h
  · exact List.forall_mem_cons.mpr ⟨hw, h⟩

theorem quiet_updateRow (hw : lifecycle w = false) (h : Quiet db) (id : Nat)
    (f : Reservation → Reservation) : Quiet (db.updateRow w id f).1 := by
  obtain ⟨r, t, -, -, hc⟩ | ⟨vs, e, hc, rfl | rfl⟩ := Db.updateRow_cases db w id f <;>
    rw [hc]
  · exact h
  · exact h
  · exact List.forall_mem_cons.mpr ⟨hw, h⟩

theorem updateRows_of_some {p : Row Reservation → Bool} {f : Reservation → Reservation}
    {t : Table uniqueKey} (ht : db.reservations.updateWhere p f = some t) :
    db.updateRows w p f = ({ db with reservations := t }, .ok (db.rows.countP p)) := by
  simp [Db.updateRows, Db.submit, ht]

theorem updateRow_of_some {id : Nat} {f : Reservation → Reservation} {r : Row Reservation}
    {t : Table uniqueKey} (hr : db.reservations.find id = some r)
    (ht : db.reservations.updateWhere (·.id = id) f = some t) :
    db.updateRow w id f = ({ db with reservations := t }, .ok ⟨id, f r.data⟩) := by
  simp [Db.updateRow, Db.updateRows, Db.submit, hr, ht]

theorem markReleased_moves (a : Reservation) : (markReleased a).subnetId = a.subnetId ∧
    (markReleased a).ipAddress = a.ipAddress ∧ (markReleased a).status = .released := ⟨rfl, rfl, rfl⟩

end Moves

section Services

variable {N : Package} {db : Db} {w : World}

/-- The fallback rows at the address can be released. -/
def HandsOff (db : Db) (subnetId ip : String) : Prop :=
  ∀ r ∈ db.rows, dnsResolvedAt subnetId ip r = true → Vacant db .released r

theorem releaseDnsResolvedAt_some {subnetId ip : String} (h : HandsOff db subnetId ip) :
    ∃ t, db.reservations.updateWhere (dnsResolvedAt subnetId ip) markReleased = some t ∧
      releaseDnsResolvedAt db subnetId ip = { db with reservations := t } := by
  obtain ⟨t, ht⟩ := move_isSome db (dnsResolvedAt subnetId ip) markReleased_moves
    (fun a _ hp => by simp_all [dnsResolvedAt, activeAt]) h
  exact ⟨t, ht, by rw [releaseDnsResolvedAt, updateRows_of_some ht]⟩

theorem quiet_releaseDnsResolvedAt {subnetId ip : String} (hq : Quiet db)
    (h : HandsOff db subnetId ip) : Quiet (releaseDnsResolvedAt db subnetId ip) := by
  obtain ⟨t, -, ht⟩ := releaseDnsResolvedAt_some h
  rw [ht]
  exact hq

theorem expire_some {now : Nat} (h : ∀ r ∈ db.rows, stale now r = true → Vacant db .expired r) :
    ∃ t, db.reservations.updateWhere (stale now) markExpired = some t ∧
      expireStaleReservations db now =
        ({ db with reservations := t }, .ok (db.rows.countP (stale now))) := by
  obtain ⟨t, ht⟩ := move_isSome db (stale now) (f := markExpired)
    (fun _ => ⟨rfl, rfl, rfl⟩) (fun a _ hp => by simp_all [stale]) h
  exact ⟨t, ht, updateRows_of_some ht⟩

theorem quiet_insertReservation {input : CreateReservationInput} (hq : Quiet db)
    (h : ∀ ip, truthy input.ipAddress = some ip → HandsOff db input.subnetId ip) :
    Quiet (insertReservation db input).1 := by
  unfold insertReservation
  cases hip : truthy input.ipAddress with
  | some ip => exact quiet_createRow rfl (quiet_releaseDnsResolvedAt hq (h ip hip)) _
  | none =>
    have hc := quiet_createRow (w := .create) rfl hq (newReservation input)
    revert hc
    rcases db.createRow .create (newReservation input) with ⟨db', res⟩
    cases res with
    | error e => exact id
    | ok r => exact id

theorem quiet_pushCreated {input : CreateReservationInput} {subnet : Subnet} {target : PushTarget}
    {id now : Nat} {ip mac : String} {faults : PushFaults} (hq : Quiet w.db) :
    Quiet (pushCreated N w input subnet target id ip mac now faults).1.db := by
  unfold pushCreated
  split_ifs
  · exact quiet_updateRow rfl hq _ _
  · change Quiet (settleCreate _ _ _ _ _).1
    unfold settleCreate
    split
    · exact quiet_updateRow rfl hq _ _
    · split
      · exact quiet_updateRow rfl hq _ _
      · exact hq

theorem quiet_createReservation {input : CreateReservationInput} {now : Nat} {faults : PushFaults}
    (hq : Quiet w.db)
    (h : ∀ c, checkCreate N w.db input = .ok c → ∀ ip, truthy input.ipAddress = some ip →
      HandsOff w.db input.subnetId ip) :
    Quiet (createReservation N w input now faults).1.db := by
  unfold createReservation
  cases hc : checkCreate N w.db input with
  | error e => exact hq
  | ok c =>
    have hi := quiet_insertReservation hq (h c hc)
    revert hi
    rcases insertReservation w.db input with ⟨db, res⟩
    intro hi
    cases res with
    | error e => exact hi
    | ok row =>
      dsimp only
      split
      · exact quiet_pushCreated hi
      · exact hi

theorem releasable {row : Row Reservation} (hrow : row ∈ db.rows) (hact : row.data.status = .active) :
    (db.deleteRows (releasedTwin row)).reservations.find row.id = some row ∧
      ∃ t, (db.deleteRows (releasedTwin row)).reservations.updateWhere (·.id = row.id) stampReleased =
        some t := by
  have hmem : row ∈ (db.deleteRows (releasedTwin row)).rows := by
    refine Table.mem_deleteWhere.mpr ⟨hrow, ?_⟩
    simp [releasedTwin]
  refine ⟨Table.find_of_mem hmem,
    move_isSome _ _ (fun _ => ⟨rfl, rfl, rfl⟩) (fun a ha hp => ?_) (fun a ha hp _ b hb hab => ?_)⟩
  · rw [Table.eq_of_id ha hmem (by simpa using hp)]
    exact hact
  · cases Table.eq_of_id ha hmem (by simpa using hp)
    intro hst
    have htwin := (Table.mem_deleteWhere.mp hb).2
    have hid : b.id ≠ row.id := by
      intro hid
      rw [Table.eq_of_id hb hmem hid, hact] at hst
      cases hst
    simp [releasedTwin, hid, hab.1, hab.2, hst] at htwin

theorem commitRelease_ok {row : Row Reservation} (hrow : row ∈ db.rows)
    (hact : row.data.status = .active) : ∃ released, (commitRelease db row).2 = .ok released := by
  obtain ⟨hfind, t, ht⟩ := releasable hrow hact
  unfold commitRelease
  rw [updateRow_of_some hfind ht]
  dsimp only
  split_ifs
  · exact ⟨_, rfl⟩
  · exact ⟨_, rfl⟩

theorem commitRelease_quiet {row : Row Reservation} (hq : Quiet db) (hrow : row ∈ db.rows)
    (hact : row.data.status = .active) : Quiet (commitRelease db row).1 := by
  obtain ⟨hfind, t, ht⟩ := releasable hrow hact
  unfold commitRelease
  rw [updateRow_of_some hfind ht]
  dsimp only
  split_ifs
  · exact hq
  · exact hq

theorem quiet_releaseReservation {id : Nat} {faults : ReleaseFaults} (hq : Quiet w.db) :
    Quiet (releaseReservation w id faults).1.db := by
  unfold releaseReservation
  cases hf : w.db.findReservation id with
  | error e => exact hq
  | ok found =>
    obtain ⟨row, subnet⟩ := found
    have hrow := (Table.mem_of_find (Db.findReservation_ok hf).1).1
    dsimp only
    split_ifs with hact
    · exact hq
    · change Quiet (commitRelease _ row).1
      rw [unpushReleased_db]
      exact commitRelease_quiet hq hrow (by simpa using hact)

theorem quiet_releaseOwned (hq : Quiet db) (ids : List Nat) : Quiet (releaseOwned db ids).1 := by
  have hr : Quiet (releaseRows db ids).1 := by
    unfold releaseRows
    split_ifs
    · exact hq
    · exact quiet_updateRows rfl hq _ _
  revert hr
  unfold releaseOwned
  rcases releaseRows db ids with ⟨db', res⟩
  cases res <;> exact id

theorem quiet_upsertSystemRow (hq : Quiet db) (a : AssetIdentity) (subnetId ip : String) :
    Quiet (upsertSystemRow db a subnetId ip).1 := by
  unfold upsertSystemRow
  cases findSystemRowAt db subnetId ip with
  | some r =>
    dsimp only
    split_ifs
    · have hu := quiet_updateRow (w := .dnsUpsert) rfl hq r.id fun d =>
        { d with hostname := resolvedHostname a, macAddress := a.macAddress }
      revert hu
      rcases db.updateRow .dnsUpsert r.id _ with ⟨db', res⟩
      cases res <;> exact id
    · exact hq
  | none =>
    have hc := quiet_createRow (w := .dnsUpsert) rfl hq (systemRow a subnetId ip)
    revert hc
    dsimp only
    rcases db.createRow .dnsUpsert _ with ⟨db', res⟩
    cases res <;> exact id

theorem quiet_reconcile {inet : Inet} {asset : Option AssetIdentity} (hq : Quiet db) :
    Quiet (reconcileDnsResolvedForAsset inet db asset).1 := by
  unfold reconcileDnsResolvedForAsset
  cases asset with
  | none => exact hq
  | some a =>
    dsimp only
    split_ifs
    · exact quiet_releaseOwned hq _
    · split
      · exact quiet_releaseOwned hq _
      · exact quiet_releaseOwned hq _
      · split_ifs
        · exact quiet_releaseOwned hq _
        · exact quiet_releaseOwned (quiet_upsertSystemRow hq _ _ _) _

end Services

section Refresh

variable {db : Db} {rs : List (Row Reservation)}

/-- The rows to be released are where and as they were read, and no released
row is at their places. -/
def Ready (rs : List (Row Reservation)) (b : Row Reservation) : Prop :=
  ∀ r ∈ rs, (b.data.status = .released → ¬ SamePlace b r) ∧
    (b.id = r.id → SamePlace b r ∧ b.data.status = .active)

theorem ready_of_key {id : Nat} {a : Reservation} {f : Reservation → Reservation}
    (hf : (f a).subnetId = a.subnetId ∧ (f a).ipAddress = a.ipAddress ∧ (f a).status = a.status)
    (h : Ready rs ⟨id, a⟩) : Ready rs ⟨id, f a⟩ := by
  intro r hr
  obtain ⟨h1, h2⟩ := h r hr
  refine ⟨fun hst hp => h1 (hf.2.2 ▸ hst) ⟨hf.1 ▸ hp.1, hf.2.1 ▸ hp.2⟩, fun hid => ?_⟩
  obtain ⟨hp, hst⟩ := h2 hid
  exact ⟨⟨hf.1.trans hp.1, hf.2.1.trans hp.2⟩, hf.2.2.trans hst⟩

/-- What the upsert loop keeps. -/
structure Loop (rs : List (Row Reservation)) (db : Db) : Prop where
  quiet : Quiet db
  ready : ∀ b ∈ db.rows, Ready rs b
  ids_lt : ∀ r ∈ rs, r.id < db.reservations.nextId

theorem loop_updateRow {w : Writer} {id : Nat} {f : Reservation → Reservation}
    (hw : lifecycle w = false)
    (hf : ∀ a, (f a).subnetId = a.subnetId ∧ (f a).ipAddress = a.ipAddress ∧ (f a).status = a.status)
    (h : Loop rs db) : Loop rs (db.updateRow w id f).1 := by
  refine ⟨quiet_updateRow hw h.quiet id f, ?_, ?_⟩
  · exact Db.forall_updateRow db h.ready
      (fun r hr hid => ready_of_key (hf r.data) (hid ▸ h.ready r hr))
  · obtain ⟨r, t, -, ht, hc⟩ | ⟨vs, e, hc, -⟩ := Db.updateRow_cases db w id f <;>
      rw [hc]
    · exact (Table.updateWhere_rows ht).2 ▸ h.ids_lt
    · exact h.ids_lt

theorem loop_createRow {w : Writer} {data : Reservation} (hw : lifecycle w = false)
    (hact : data.status = .active) (h : Loop rs db) : Loop rs (db.createRow w data).1 := by
  refine ⟨quiet_createRow hw h.quiet data, ?_, ?_⟩
  · refine Db.forall_createRow db h.ready (fun r hr => ⟨fun hst => ?_, fun hid => ?_⟩)
    · rw [hact] at hst
      cases hst
    · exact absurd hid (Nat.ne_of_gt (h.ids_lt r hr))
  · obtain ⟨t, ht, hc⟩ | ⟨-, hc⟩ := Db.createRow_cases db w data <;> rw [hc]
    · intro r hr
      rw [(Table.insert_rows ht).2]
      exact Nat.lt_succ_of_lt (h.ids_lt r hr)
    · exact h.ids_lt

theorem loop_upsertFresh {c : Scope} {n : Counts} {f : Fresh} (h : Loop rs db) :
    Loop rs (upsertFresh c db n f).1 := by
  unfold upsertFresh
  split
  · unfold reconcilePending
    split
    · split_ifs
      · exact loop_updateRow rfl (fun _ => ⟨rfl, rfl, rfl⟩) h
      · exact loop_updateRow rfl (fun _ => ⟨rfl, rfl, rfl⟩) h
    · exact loop_updateRow rfl (fun _ => ⟨rfl, rfl, rfl⟩) h
  · split_ifs
    · exact h
    · split
      · dsimp only
        split_ifs
        · exact h
        · exact loop_updateRow rfl (fun _ => ⟨rfl, rfl, rfl⟩) h
      · exact loop_createRow rfl rfl h

theorem ready_release {r : Row Reservation} (h : ∀ b ∈ db.rows, Ready (r :: rs) b) :
    ∃ t, db.reservations.updateWhere (·.id = r.id) markReleased = some t := by
  refine move_isSome _ _ markReleased_moves (fun a ha hid => ?_) (fun a ha hid _ b hb hab hst => ?_)
  · exact ((h a ha r (by simp)).2 (by simpa using hid)).2
  · have hplace := ((h a ha r (by simp)).2 (by simpa using hid)).1
    exact (h b hb r (by simp)).1 hst ⟨hab.1.trans hplace.1, hab.2.trans hplace.2⟩

theorem loop_release {r : Row Reservation} {t : Table uniqueKey} (h : Loop (r :: rs) db)
    (hr : ∀ r' ∈ rs, ¬ SamePlace r r')
    (ht : db.reservations.updateWhere (·.id = r.id) markReleased = some t) :
    Loop rs { db with reservations := t } := by
  refine ⟨h.quiet, ?_, fun r' hr' => ?_⟩
  · refine Table.forall_updateWhere (fun b hb r' hr' => h.ready b hb r' (by simp [hr']))
      (fun b hb hid r' hr' => ?_) ht
    have hplace := ((h.ready b hb r (by simp)).2 (by simpa using hid)).1
    refine ⟨fun _ hsame => ?_, fun hid' => ?_⟩
    · exact hr r' hr' ⟨hplace.1.symm.trans hsame.1, hplace.2.symm.trans hsame.2⟩
    · have hplace' := ((h.ready b hb r' (by simp [hr'])).2 hid').1
      exact absurd ⟨hplace.1.symm.trans hplace'.1, hplace.2.symm.trans hplace'.2⟩ (hr r' hr')
  · exact (Table.updateWhere_rows ht).2.symm ▸ h.ids_lt r' (by simp [hr'])

theorem quiet_loop_releaseGone {n : Counts} (h : Loop rs db)
    (hp : rs.Pairwise fun a b => ¬ SamePlace a b) : Quiet (loop releaseGone db n rs).1 := by
  induction rs generalizing db n with
  | nil => exact h.quiet
  | cons r rs ih =>
    obtain ⟨hr, hp⟩ := List.pairwise_cons.mp hp
    unfold loop
    cases hf : db.reservations.find r.id with
    | none =>
      have hstep : releaseGone db n r = (db, .error Db.notFound) := by
        simp [releaseGone, Db.updateRow, hf, Except.map]
      rw [hstep]
      exact h.quiet
    | some a =>
      obtain ⟨t, ht⟩ := ready_release h.ready
      have hstep : releaseGone db n r =
          ({ db with reservations := t }, .ok { n with released := n.released + 1 }) := by
        simp [releaseGone, updateRow_of_some hf ht, Except.map]
      rw [hstep]
      exact ih (loop_release h hr ht) hp

variable {c : Scope} {fresh : List Fresh}

theorem mem_gone {r : Row Reservation} (h : r ∈ gone c.rows fresh) :
    r ∈ c.rows ∧ r.data.status = .active ∧ r.data.ipAddress ≠ none := by
  obtain ⟨he, -⟩ := List.mem_filter.mp h
  obtain ⟨hr, hl⟩ := List.mem_filter.mp he
  simp only [liveAt, Bool.and_eq_true, decide_eq_true_eq] at hl
  refine ⟨hr, hl.1.1, fun hn => ?_⟩
  simp [hn, truthy] at hl

theorem loop_start (hq : Quiet db) (hrows : ∀ r ∈ c.rows, r ∈ db.rows)
    (hv : ∀ r ∈ gone c.rows fresh, Vacant db .released r) : Loop (gone c.rows fresh) db := by
  refine ⟨hq, fun b hb r hr => ⟨fun hst hsame => ?_, fun hid => ?_⟩, fun r hr => ?_⟩
  · exact hv r hr (mem_gone hr).2.2 b hb hsame hst
  · cases Table.eq_of_id hb (hrows r (mem_gone hr).1) hid
    exact ⟨⟨rfl, rfl⟩, (mem_gone hr).2.1⟩
  · exact db.reservations.ids_lt r (hrows r (mem_gone hr).1)

theorem gone_pairwise (hrows : c.rows.Sublist db.rows) :
    (gone c.rows fresh).Pairwise fun a b => ¬ SamePlace a b := by
  have hsub : (gone c.rows fresh).Sublist db.rows :=
    (List.filter_sublist.trans List.filter_sublist).trans hrows
  refine (List.Pairwise.sublist hsub db.reservations.unique).imp_of_mem ?_
  intro a b ha hb hab hsame
  obtain ⟨-, hact, hip⟩ := mem_gone ha
  obtain ⟨-, hact', -⟩ := mem_gone hb
  have hk : uniqueKey a.data = uniqueKey b.data := by
    simp [uniqueKey, hsame.1, hsame.2, hact, hact']
  have := hab hk
  simp [uniqueKey] at this
  exact hip this

theorem quiet_reconcileScope (hq : Quiet db) (hrows : c.rows.Sublist db.rows)
    (hv : ∀ r ∈ gone c.rows fresh, Vacant db .released r) :
    Quiet (reconcileScope c db fresh).1 := by
  have hl := loop_start hq (fun r hr => hrows.subset hr) hv
  have hu : Loop (gone c.rows fresh) (loop (upsertFresh c) db {} fresh).1 :=
    loop_invariant (fun _ _ _ _ => loop_upsertFresh) hl
  revert hu
  unfold reconcileScope
  rcases loop (upsertFresh c) db {} fresh with ⟨db', res⟩
  intro hu
  cases res with
  | error e => exact hu.quiet
  | ok n => exact quiet_loop_releaseGone hu (gone_pairwise hrows)

end Refresh

section Consequences

variable {N : Package} {db : Db} {w : World}

theorem expire_leaves_none {now : Nat} (h : ∀ r ∈ db.rows, stale now r = true → Vacant db .expired r) :
    (∃ n, (expireStaleReservations db now).2 = .ok n) ∧
      ∀ r ∈ (expireStaleReservations db now).1.rows, r.data.status = .active →
        ∀ t, r.data.expiresAt = some t → now ≤ t := by
  obtain ⟨t, ht, he⟩ := expire_some h
  refine ⟨⟨_, by rw [he]⟩, fun r hr hact due hdue => ?_⟩
  rw [he, Db.rows, (Table.updateWhere_rows ht).1] at hr
  obtain ⟨a, ha, rfl⟩ := List.mem_map.mp hr
  cases hs : stale now a with
  | true =>
    rw [amend_of_pos hs] at hact
    cases hact
  | false =>
    rw [amend_of_neg hs] at hact hdue
    simp only [stale, hact, hdue, decide_true, Bool.true_and, Option.any_some,
      decide_eq_false_iff_not] at hs
    omega

theorem insert_after_handoff {input : CreateReservationInput} {ip : String}
    (h : HandsOff db input.subnetId ip) (hip : truthy input.ipAddress = some ip)
    (hfree : findActiveAuthoritativeAt db input.subnetId ip = none) :
    ∃ row, (insertReservation db input).2 = .ok row := by
  obtain ⟨t, ht, hdb⟩ := releaseDnsResolvedAt_some h
  have hnew : uniqueKey (newReservation input) = some (input.subnetId, ip, .active) :=
    uniqueKey_eq_some.mpr ⟨rfl, (truthy_some hip).1, rfl⟩
  obtain ⟨t', ht'⟩ : ∃ t', t.insert (newReservation input) = some t' := by
    refine Table.insert_isSome (fun r hr hk => ?_)
    rw [hnew] at hk
    obtain ⟨hs, hi, hst⟩ := uniqueKey_eq_some.mp hk
    rw [(Table.updateWhere_rows ht).1] at hr
    obtain ⟨a, ha, rfl⟩ := List.mem_map.mp hr
    cases hd : dnsResolvedAt input.subnetId ip a with
    | true =>
      rw [amend_of_pos hd] at hst
      cases hst
    | false =>
      rw [amend_of_neg hd] at hs hi hst
      have hn := List.find?_eq_none.mp hfree a ha
      simp_all [dnsResolvedAt, activeAt]
  refine ⟨⟨t.nextId, newReservation input⟩, ?_⟩
  simp [insertReservation, hip, hdb, Db.createRow, Db.submit, ht']

theorem pushCreated_error {input : CreateReservationInput} {subnet : Subnet} {target : PushTarget}
    {id now : Nat} {ip mac : String} {faults : PushFaults} {r : Row Reservation} {e : Failure}
    (hr : w.db.reservations.find id = some r)
    (h : (pushCreated N w input subnet target id ip mac now faults).2 = .error e) :
    classifyPushError e = .permanent := by
  have hok : ∀ {f : Reservation → Reservation}, (∀ a, uniqueKey (f a) = uniqueKey a) →
      (w.db.updateRow .push id f).2 ≠ .error e := by
    intro f hf hu
    obtain ⟨t, -, ht⟩ := Db.updateRow_of_key (w := .push) hr hf
    rw [ht] at hu
    cases hu
  unfold pushCreated at h
  split_ifs at h
  · exact absurd h (hok (fun _ => rfl))
  · change (settleCreate _ _ _ _ _).2 = _ at h
    unfold settleCreate at h
    split at h
    · exact absurd h (hok (fun _ => rfl))
    · split at h
      · exact absurd h (hok (fun _ => rfl))
      · rename_i hk
        cases h
        exact hk

/-- Once the checks have passed, only a device that refuses the push for good
makes a create over a fallback row fail. -/
theorem create_over_fallback {input : CreateReservationInput} {now : Nat} {faults : PushFaults}
    {subnet : Subnet} {push : Option PushTarget} {ip : String}
    (h : HandsOff w.db input.subnetId ip) (hip : truthy input.ipAddress = some ip)
    (hc : checkCreate N w.db input = .ok (subnet, push)) :
    (push = none → ∃ row ∈ (createReservation N w input now faults).1.db.rows,
      (createReservation N w input now faults).2 = .ok row) ∧
    ∀ e, (createReservation N w input now faults).2 = .error e →
      push ≠ none ∧ classifyPushError e = .permanent := by
  have hfree := (checkAddress_ok (checkCreate_ok hc).2.1 hip).2.2
  obtain ⟨row, hrow⟩ := insert_after_handoff h hip hfree
  have hfind := (insertReservation_ok hrow).2
  unfold createReservation
  revert hrow hfind
  rw [hc]
  rcases insertReservation w.db input with ⟨db, res⟩
  rintro rfl hfind
  dsimp only
  refine ⟨?_, ?_⟩
  · rintro rfl
    exact ⟨row, (Table.mem_of_find hfind).1, rfl⟩
  · intro e he
    split at he
    · exact ⟨by simp, pushCreated_error hfind he⟩
    · cases he

end Consequences

section Runs

variable (N : Package) (inet : Inet)

inductive Call
  | create (input : CreateReservationInput) (now : Nat) (faults : PushFaults)
  | release (id : Nat) (faults : ReleaseFaults)
  | expire (now : Nat)
  | releaseDns (subnetId ip : String)
  | reconcile (asset : Option AssetIdentity)
  | refresh (subnetId : String) (actor : Option String) (now : Nat) (leases : List MonitorEntry)
      (faults : RefreshFaults)

def run (w : World) : Call → World
  | .create input now faults => (createReservation N w input now faults).1
  | .release id faults => (releaseReservation w id faults).1
  | .expire now => { w with db := (expireStaleReservations w.db now).1 }
  | .releaseDns subnetId ip => { w with db := releaseDnsResolvedAt w.db subnetId ip }
  | .reconcile asset => { w with db := (reconcileDnsResolvedForAsset inet w.db asset).1 }
  | .refresh subnetId actor now leases faults => (refreshSubnet N w subnetId actor now leases faults).1

/-- No row the call moves to a status finds an older row of that status at
its address. Releases by id make room themselves. -/
def Clear (w : World) : Call → Prop
  | .create input _ _ => ∀ c, checkCreate N w.db input = .ok c → ∀ ip, truthy input.ipAddress = some ip →
      HandsOff w.db input.subnetId ip
  | .release _ _ | .reconcile _ => True
  | .expire now => ∀ r ∈ w.db.rows, stale now r = true → Vacant w.db .expired r
  | .releaseDns subnetId ip => HandsOff w.db subnetId ip
  | .refresh subnetId _ _ leases faults => ∀ subnet scopeId fresh,
      readDevice N w subnetId leases faults = .ok (subnet, scopeId, fresh) →
      ∀ r ∈ gone (subnetRows w.db subnetId) fresh, Vacant w.db .released r

variable {N inet} {w : World}

theorem quiet_refreshSubnet {subnetId : String} {actor : Option String} {now : Nat}
    {leases : List MonitorEntry} {faults : RefreshFaults} (hq : Quiet w.db)
    (hc : Clear N w (.refresh subnetId actor now leases faults)) :
    Quiet (refreshSubnet N w subnetId actor now leases faults).1.db := by
  unfold refreshSubnet
  cases hr : readDevice N w subnetId leases faults with
  | error e => exact hq
  | ok view =>
    obtain ⟨subnet, scopeId, fresh⟩ := view
    have hs := quiet_reconcileScope (c := ⟨subnet, scopeId, subnetRows w.db subnetId, actor, now⟩) hq
      List.filter_sublist (hc subnet scopeId fresh hr)
    revert hs
    dsimp only
    rcases reconcileScope _ w.db fresh with ⟨db', res⟩
    cases res with
    | error e => exact id
    | ok n => exact id

theorem quiet_run {c : Call} (hq : Quiet w.db) (hc : Clear N w c) : Quiet (run N inet w c).db := by
  cases c with
  | create input now faults => exact quiet_createReservation hq hc
  | release id faults => exact quiet_releaseReservation hq
  | expire now =>
    obtain ⟨t, -, ht⟩ := expire_some hc
    change Quiet (expireStaleReservations w.db now).1
    rw [ht]
    exact hq
  | releaseDns subnetId ip => exact quiet_releaseDnsResolvedAt hq hc
  | reconcile asset => exact quiet_reconcile hq
  | refresh subnetId actor now leases faults => exact quiet_refreshSubnet hq hc

/-- In every run whose calls find the places clear, no lifecycle statement is
rejected. A clear expiry then leaves no stale row, and a clear create whose
checks pass, as they do where the only active row is a fallback, fails only
when the device refuses it for good. -/
theorem transitions_never_rejected (N : Package) (inet : Inet) (w : World) (calls : List Call)
    (hw : w.db.violations = []) (hcalls : Along (run N inet) (Clear N) w calls) :
    Quiet (calls.foldl (run N inet) w).db ∧
      (∀ now, Clear N (calls.foldl (run N inet) w) (.expire now) →
        (∃ n, (expireStaleReservations (calls.foldl (run N inet) w).db now).2 = .ok n) ∧
        ∀ r ∈ (expireStaleReservations (calls.foldl (run N inet) w).db now).1.rows,
          r.data.status = .active → ∀ t, r.data.expiresAt = some t → now ≤ t) ∧
      ∀ input now faults subnet push ip,
        Clear N (calls.foldl (run N inet) w) (.create input now faults) →
        truthy input.ipAddress = some ip →
        checkCreate N (calls.foldl (run N inet) w).db input = .ok (subnet, push) →
        (push = none →
          ∃ row ∈ (createReservation N (calls.foldl (run N inet) w) input now faults).1.db.rows,
            (createReservation N (calls.foldl (run N inet) w) input now faults).2 = .ok row) ∧
        ∀ e, (createReservation N (calls.foldl (run N inet) w) input now faults).2 = .error e →
          push ≠ none ∧ classifyPushError e = .permanent := by
  refine ⟨?_, fun now hc => expire_leaves_none hc, fun input now faults subnet push ip hc hip hok => ?_⟩
  · exact foldl_invariant (I := fun w => Quiet w.db) (fun _ _ hq hc => quiet_run hq hc)
      (by simp [Quiet, hw]) hcalls
  · exact create_over_fallback (hc _ hok ip hip) hip hok

/-- A subnet that pushes nothing, before its first reservation. -/
def branch : World where
  db := { subnets := [{ id := "lan", cidr := "10.0.0.0/24" }] }
  gateways := fun _ => .empty []

def noInet : Inet := ⟨fun _ _ => .error (), fun _ => 0⟩

def reserveUntil (due : Nat) : Call :=
  .create { subnetId := "lan", ipAddress := some "10.0.0.5", expiresAt := some due } 0 {}

theorem transitions_never_rejected_branch :
    let w := [reserveUntil 100, .expire 200, reserveUntil 900, .release 1 {}, reserveUntil 900,
      .release 2 {}].foldl (run reference noInet) branch
    Quiet w.db ∧ w.db.rows.map (fun r => r.data.status) = [.expired, .released] := by
  refine ⟨(transitions_never_rejected reference noInet branch _ rfl ?_).1, by decide +kernel⟩
  refine ⟨?_, ?_, ?_, trivial, ?_, trivial, trivial⟩
  · intro _ _ ip hip
    cases (truthy_some hip).1
    unfold HandsOff
    decide
  · unfold Clear
    decide +kernel
  · intro _ _ ip hip
    cases (truthy_some hip).1
    unfold HandsOff
    decide +kernel
  · intro _ _ ip hip
    cases (truthy_some hip).1
    unfold HandsOff
    decide +kernel

/-- The second expiry at an address meets the row of the first, is rejected,
and leaves the stale row active. -/
theorem second_expiry_rejected :
    let w := [reserveUntil 100, .expire 200, reserveUntil 300, .expire 400].foldl
      (run reference noInet) branch
    ¬ Quiet w.db ∧ ∃ r ∈ w.db.rows, r.data.status = .active ∧ r.data.expiresAt = some 300 := by
  refine ⟨fun h => ?_, by decide +kernel⟩
  have hv : Writer.expire ∈ ([reserveUntil 100, .expire 200, reserveUntil 300, .expire 400].foldl
      (run reference noInet) branch).db.violations := by
    decide +kernel
  cases h _ hv

end Runs

end Polaris.ReservationLifecycle
