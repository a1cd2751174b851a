import Polaris.ReservationService
import Polaris.Lib.Runs

namespace Polaris.FullSubnetClaims

open Polaris.Lib.Store Polaris.Lib.Runs Polaris.Netmask Polaris.Cidr Polaris.ReservationPush
  Polaris.Reservations Polaris.DnsResolved Polaris.ReservationService
open Polaris.SubnetService (SubnetStatus)

def fullSubnet (sid : String) (r : Row Reservation) : Bool :=
  r.data.subnetId = sid && r.data.ipAddress = none && r.data.status = .active

def claims (sid : String) (db : Db) : List (Row Reservation) := db.rows.filter (fullSubnet sid)

/-- The subnet is shown as reserved exactly when it has an active reservation
of the whole of it, and there is at most one. -/
def Mirrors (sid : String) (db : Db) : Prop :=
  ∃ s, db.findSubnet sid = some s ∧ (s.status = .reserved ↔ claims sid db ≠ []) ∧
    (claims sid db).length ≤ 1

/-- No active row of the subnet has the empty text for an address. -/
def Addressed (sid : String) (r : Row Reservation) : Prop :=
  r.data.subnetId = sid → r.data.status = .active → r.data.ipAddress ≠ some ""

section Writes

variable {sid : String} {db db' : Db} {w : Writer}

variable (sid db db') in
/-- A write that leaves the subnets and the claims on one of them alone. -/
structure Aside : Prop where
  subnets : db'.subnets = db.subnets
  claims : claims sid db' = claims sid db

theorem Aside.trans {db'' : Db} (h : Aside sid db db') (h' : Aside sid db' db'') : Aside sid db db'' :=
  ⟨h'.subnets.trans h.subnets, h'.claims.trans h.claims⟩

theorem Aside.mirrors (h : Aside sid db db') (hm : Mirrors sid db) : Mirrors sid db' := by
  unfold Mirrors Db.findSubnet at hm ⊢
  rw [h.claims, h.subnets]
  exact hm

theorem filter_amend {p q : Row Reservation → Bool} {f : Reservation → Reservation}
    {rows : List (Row Reservation)}
    (h : ∀ r ∈ rows, p r = true → q r = false ∧ q ⟨r.id, f r.data⟩ = false) :
    (rows.map (amend p f)).filter q = rows.filter q := by
  induction rows with
  | nil => rfl
  | cons r rs ih =>
    have hrs := ih fun a ha => h a (List.mem_cons_of_mem r ha)
    rw [List.map_cons]
    cases hp : p r with
    | false => rw [amend_of_neg hp, List.filter_cons, List.filter_cons, hrs]
    | true =>
      obtain ⟨hq, hq'⟩ := h r List.mem_cons_self hp
      rw [amend_of_pos hp, List.filter_cons_of_neg (by simp [hq']), hrs,
        List.filter_cons_of_neg (by simp [hq])]

variable (w) in
theorem aside_updateRows {p : Row Reservation → Bool} {f : Reservation → Reservation}
    (h : ∀ r ∈ db.rows, p r = true → fullSubnet sid r = false ∧
      fullSubnet sid ⟨r.id, f r.data⟩ = false) : Aside sid db (db.updateRows w p f).1 := by
  obtain ⟨t, ht, hc⟩ | ⟨-, hc⟩ := Db.updateRows_cases db w p f <;> rw [hc]
  · refine ⟨rfl, ?_⟩
    change t.rows.filter _ = _
    rw [(Table.updateWhere_rows ht).1]
    exact filter_amend h
  · exact ⟨rfl, rfl⟩

variable (w) in
theorem aside_updateRow {id : Nat} {f : Reservation → Reservation}
    (h : ∀ r ∈ db.rows, r.id = id → fullSubnet sid r = false ∧
      fullSubnet sid ⟨r.id, f r.data⟩ = false) : Aside sid db (db.updateRow w id f).1 := by
  obtain ⟨r, t, -, ht, hc⟩ | ⟨vs, e, hc, -⟩ := Db.updateRow_cases db w id f <;> rw [hc]
  · refine ⟨rfl, ?_⟩
    change t.rows.filter _ = _
    rw [(Table.updateWhere_rows ht).1]
    exact filter_amend fun r hr hp => h r hr (by simpa using hp)
  · exact ⟨rfl, rfl⟩

theorem aside_deleteRows {p : Row Reservation → Bool}
    (h : ∀ r ∈ db.rows, p r = true → fullSubnet sid r = false) : Aside sid db (db.deleteRows p) := by
  refine ⟨rfl, ?_⟩
  change (db.rows.filter _).filter _ = _
  rw [List.filter_filter]
  refine List.filter_congr fun r hr => ?_
  cases hp : p r with
  | false => simp
  | true => simp [h r hr hp]

variable (w) in
theorem aside_createRow {data : Reservation}
    (h : fullSubnet sid ⟨db.reservations.nextId, data⟩ = false) : Aside sid db (db.createRow w data).1 := by
  obtain ⟨t, ht, hc⟩ | ⟨-, hc⟩ := Db.createRow_cases db w data <;> rw [hc]
  · refine ⟨rfl, ?_⟩
    change t.rows.filter _ = _
    rw [(Table.insert_rows ht).1, List.filter_append, List.filter_cons, h]
    simp [claims, Db.rows]
  · exact ⟨rfl, rfl⟩

theorem mirrors_setSubnetStatus {id : String} (h : id ≠ sid) (status : SubnetStatus)
    (hm : Mirrors sid db) : Mirrors sid (db.setSubnetStatus id status) := by
  obtain ⟨s, hs, hm⟩ := hm
  refine ⟨s, ?_, hm⟩
  have hne : s.id ≠ id := fun hid => h (hid.symm.trans (Db.findSubnet_id hs))
  rw [Db.findSubnet_setSubnetStatus, hs, Option.map_some, if_neg hne]

end Writes

section Services

variable {N : Package} {sid : String} {db : Db} {w : World} {input : CreateReservationInput}
  {row : Row Reservation}

theorem fullSubnet_of_address {r : Row Reservation} {ip : String} (h : r.data.ipAddress = some ip) :
    fullSubnet sid r = false := by
  simp [fullSubnet, h]

theorem fullSubnet_of_subnet {r : Row Reservation} (h : r.data.subnetId ≠ sid) :
    fullSubnet sid r = false := by
  simp [fullSubnet, h]

theorem fullSubnet_of_status {r : Row Reservation} (h : r.data.status ≠ .active) :
    fullSubnet sid r = false := by
  simp [fullSubnet, h]

theorem aside_insertReservation {ip : String} (hip : truthy input.ipAddress = some ip) :
    Aside sid db (insertReservation db input).1 := by
  unfold insertReservation
  rw [hip]
  refine Aside.trans (aside_updateRows .dnsReleaseAt fun r _ hr => ?_)
    (aside_createRow .create (fullSubnet_of_address (truthy_some hip).1))
  have haddr : r.data.ipAddress = some ip := by
    simp only [dnsResolvedAt, activeAt, Bool.and_eq_true, decide_eq_true_eq] at hr
    exact hr.1.1.2
  exact ⟨fullSubnet_of_address haddr, fullSubnet_of_address haddr⟩

theorem aside_pushCreated {subnet : Subnet} {target : PushTarget} {id now : Nat} {ip mac : String}
    {faults : PushFaults} (h : ∀ r ∈ w.db.rows, r.id = id → r.data.ipAddress = some ip) :
    Aside sid w.db (pushCreated N w input subnet target id ip mac now faults).1.db := by
  unfold pushCreated
  split_ifs
  · exact aside_updateRow .push fun r hr hid =>
      ⟨fullSubnet_of_address (h r hr hid), fullSubnet_of_address (h r hr hid)⟩
  · change Aside sid w.db (settleCreate _ _ _ _ _).1
    unfold settleCreate
    split
    · exact aside_updateRow .push fun r hr hid =>
        ⟨fullSubnet_of_address (h r hr hid), fullSubnet_of_address (h r hr hid)⟩
    · split
      · exact aside_updateRow .push fun r hr hid =>
          ⟨fullSubnet_of_address (h r hr hid), fullSubnet_of_address (h r hr hid)⟩
      · exact aside_deleteRows fun r hr hid => fullSubnet_of_address (h r hr (by simpa using hid))

/-- A claim on the whole subnet is made where there was none, and the subnet
is then shown as reserved. -/
theorem mirrors_insertFull (hip : truthy input.ipAddress = none)
    (hfree : input.subnetId = sid → input.ipAddress = none ∧ claims sid db = []) (hm : Mirrors sid db) :
    Mirrors sid (insertReservation db input).1 := by
  unfold insertReservation
  rw [hip]
  dsimp only
  by_cases hsid : input.subnetId = sid
  · obtain ⟨hnone, hfree⟩ := hfree hsid
    obtain ⟨s, hs, -⟩ := hm
    have hfull : fullSubnet sid ⟨db.reservations.nextId, newReservation input⟩ = true := by
      simp [fullSubnet, newReservation, hsid, hnone]
    have hkey : uniqueKey (newReservation input) = none := by
      simp [uniqueKey, newReservation, hnone]
    obtain ⟨t, ht⟩ : ∃ t, db.reservations.insert (newReservation input) = some t :=
      Table.insert_isSome fun _ _ _ => hkey
    have hclaims : claims sid (({ db with reservations := t } : Db).setSubnetStatus sid .reserved) =
        [⟨db.reservations.nextId, newReservation input⟩] := by
      change t.rows.filter _ = _
      rw [(Table.insert_rows ht).1, List.filter_append, List.filter_cons_of_pos hfull]
      change claims sid db ++ _ = _
      rw [hfree]
      rfl
    simp only [Db.createRow, Db.submit, ht, hsid]
    refine ⟨{ s with status := .reserved }, ?_, ?_, ?_⟩
    · rw [Db.findSubnet_setSubnetStatus]
      change (db.findSubnet sid).map _ = _
      rw [hs, Option.map_some, if_pos (Db.findSubnet_id hs)]
    · simp [hclaims]
    · simp [hclaims]
  · have haside : Aside sid db (db.createRow .create (newReservation input)).1 :=
      aside_createRow .create (fullSubnet_of_subnet hsid)
    have hc := haside.mirrors hm
    revert hc
    rcases db.createRow .create (newReservation input) with ⟨db', res⟩
    intro hc
    cases res with
    | error e => exact hc
    | ok r => exact mirrors_setSubnetStatus hsid _ hc

theorem claims_of_checkAddress {subnet : Subnet} (hip : truthy input.ipAddress = none)
    (h : checkAddress N db subnet input = .ok ()) : claims input.subnetId db = [] := by
  simp only [checkAddress, hip] at h
  split at h
  · cases h
  · rename_i hnone
    exact List.filter_eq_nil_iff.mpr (List.find?_eq_none.mp hnone)

theorem mirrors_create {now : Nat} {faults : PushFaults} (hm : Mirrors sid w.db)
    (ha : input.subnetId = sid → input.ipAddress ≠ some "") :
    Mirrors sid (createReservation N w input now faults).1.db := by
  unfold createReservation
  cases hc : checkCreate N w.db input with
  | error e => exact hm
  | ok c =>
    obtain ⟨-, haddr, -⟩ := checkCreate_ok hc
    cases hip : truthy input.ipAddress with
    | some ip =>
      have haside : Aside sid w.db (insertReservation w.db input).1 := aside_insertReservation hip
      have hins := haside.mirrors hm
      have hrow := @insertReservation_ok w.db input
      revert hins hrow
      rcases insertReservation w.db input with ⟨db', res⟩
      intro hins hrow
      cases res with
      | error e => exact hins
      | ok row =>
        obtain ⟨hnew, hfind⟩ := hrow rfl
        dsimp only
        split
        · rename_i target ip' mac _ hip' _
          cases hip'
          refine (aside_pushCreated fun r hr hid => ?_).mirrors hins
          rw [Table.eq_of_id hr (Table.mem_of_find hfind).1 hid, hnew]
          exact (truthy_some hip).1
        · exact hins
    | none =>
      have hins : Mirrors sid (insertReservation w.db input).1 := by
        refine mirrors_insertFull hip (fun hsid => ⟨?_, hsid ▸ claims_of_checkAddress hip haddr⟩) hm
        cases hi : input.ipAddress with
        | none => rfl
        | some ip =>
          have hne : ip ≠ "" := fun h => ha hsid (h ▸ hi)
          simp [truthy, hi, hne] at hip
      revert hins
      rcases insertReservation w.db input with ⟨db', res⟩
      intro hins
      obtain ⟨subnet, push⟩ := c
      cases res with
      | error e => exact hins
      | ok row => cases push <;> exact hins

theorem claims_eq_singleton (hm : Mirrors sid db) (hrow : row ∈ claims sid db) :
    claims sid db = [row] := by
  obtain ⟨-, -, -, hlen⟩ := hm
  cases hc : claims sid db with
  | nil =>
    rw [hc] at hrow
    cases hrow
  | cons a as =>
    rw [hc, List.length_cons] at hlen
    cases List.eq_nil_of_length_eq_zero (show as.length = 0 by omega)
    rw [hc, List.mem_singleton] at hrow
    rw [hrow]

theorem truthy_none {s : Option String} (h : truthy s = none) (hne : s ≠ some "") : s = none := by
  cases s with
  | none => rfl
  | some v =>
    have hv : v ≠ "" := fun hv => hne (hv ▸ rfl)
    simp [truthy, hv] at h

theorem claims_released {f : Reservation → Reservation} (hc : claims sid db = [row])
    (hf : ∀ a, (f a).status = .released) :
    (db.rows.map (amend (·.id = row.id) f)).filter (fullSubnet sid) = [] := by
  refine List.filter_eq_nil_iff.mpr fun r hr hfull => ?_
  obtain ⟨a, ha, rfl⟩ := List.mem_map.mp hr
  cases hp : decide (a.id = row.id) with
  | true =>
    rw [amend_of_pos hp, fullSubnet_of_status (by simp [hf])] at hfull
    cases hfull
  | false =>
    rw [amend_of_neg hp] at hfull
    have hmem : a ∈ claims sid db := List.mem_filter.mpr ⟨ha, hfull⟩
    rw [hc, List.mem_singleton] at hmem
    simp [hmem] at hp

theorem mirrors_commitRelease (hm : Mirrors sid db) (hrow : row ∈ db.rows)
    (hact : row.data.status = .active) (ha : Addressed sid row) :
    Mirrors sid (commitRelease db row).1 := by
  have hdel : Aside sid db (db.deleteRows (releasedTwin row)) := by
    refine aside_deleteRows fun r _ hr => fullSubnet_of_status ?_
    simp only [releasedTwin, Bool.and_eq_true, decide_eq_true_eq] at hr
    simp [hr.2]
  have hrow' : row ∈ (db.deleteRows (releasedTwin row)).rows := by
    refine Table.mem_deleteWhere.mpr ⟨hrow, ?_⟩
    simp [releasedTwin]
  have hm' := hdel.mirrors hm
  unfold commitRelease
  cases hfull : fullSubnet sid row with
  | false =>
    have haside : Aside sid (db.deleteRows (releasedTwin row))
        ((db.deleteRows (releasedTwin row)).updateRow .release row.id stampReleased).1 := by
      refine aside_updateRow .release fun r hr hid => ⟨Table.eq_of_id hr hrow' hid ▸ hfull, ?_⟩
      exact fullSubnet_of_status (by simp [stampReleased])
    have hupd := haside.mirrors hm'
    revert hupd
    rcases (db.deleteRows (releasedTwin row)).updateRow .release row.id stampReleased with ⟨db', res⟩
    intro hupd
    cases res with
    | error e => exact Aside.mirrors ⟨rfl, rfl⟩ hm
    | ok released =>
      dsimp only
      split_ifs with hip
      · exact hupd
      · refine mirrors_setSubnetStatus (fun hsid => ?_) _ hupd
        have hnone := truthy_none (by simpa using hip) (ha hsid hact)
        simp [fullSubnet, hsid, hnone, hact] at hfull
  | true =>
    obtain ⟨r, t, -, ht, hc⟩ | ⟨vs, e, hc, -⟩ :=
      Db.updateRow_cases (db.deleteRows (releasedTwin row)) .release row.id stampReleased
    · have hsingle := claims_eq_singleton hm' (List.mem_filter.mpr ⟨hrow', hfull⟩)
      simp only [fullSubnet, Bool.and_eq_true, decide_eq_true_eq] at hfull
      obtain ⟨⟨hsid, hnone⟩, -⟩ := hfull
      have hclaims : claims sid (({ db.deleteRows (releasedTwin row) with
          reservations := t } : Db).setSubnetStatus sid .available) = [] := by
        change t.rows.filter _ = _
        rw [(Table.updateWhere_rows ht).1]
        exact claims_released hsingle fun _ => rfl
      obtain ⟨s, hs, -⟩ := hm
      rw [hc]
      simp only [hnone, truthy, Option.filter_none, Option.isSome_none, Bool.false_eq_true, if_false, hsid]
      refine ⟨{ s with status := .available }, ?_, ?_, ?_⟩
      · rw [Db.findSubnet_setSubnetStatus]
        change (db.findSubnet sid).map _ = _
        rw [hs, Option.map_some, if_pos (Db.findSubnet_id hs)]
      · simp [hclaims]
      · simp [hclaims]
    · rw [hc]
      exact Aside.mirrors ⟨rfl, rfl⟩ hm

theorem mirrors_release {id : Nat} {faults : ReleaseFaults} (hm : Mirrors sid w.db)
    (ha : ∀ r ∈ w.db.rows, Addressed sid r) : Mirrors sid (releaseReservation w id faults).1.db := by
  unfold releaseReservation
  cases hf : w.db.findReservation id with
  | error e => exact hm
  | ok found =>
    obtain ⟨row, subnet⟩ := found
    have hrow := (Table.mem_of_find (Db.findReservation_ok hf).1).1
    dsimp only
    split_ifs with hact
    · exact hm
    · change Mirrors sid (commitRelease _ row).1
      rw [unpushReleased_db]
      exact mirrors_commitRelease hm hrow (by simpa using hact) (ha row hrow)

/-- Expiry leaves the status of the subnet as it is, so the claim must not be
among the stale rows. -/
theorem mirrors_expire {now : Nat} (hm : Mirrors sid db)
    (h : ∀ r ∈ claims sid db, stale now r = false) :
    Mirrors sid (expireStaleReservations db now).1 := by
  refine (aside_updateRows .expire fun r hr hs => ⟨?_,
    fullSubnet_of_status (by simp [markExpired])⟩).mirrors hm
  by_contra hfull
  have := h r (List.mem_filter.mpr ⟨hr, by simpa using hfull⟩)
  rw [hs] at this
  cases this

end Services

section Runs

variable (N : Package)

inductive Call
  | create (input : CreateReservationInput) (now : Nat) (faults : PushFaults)
  | release (id : Nat) (faults : ReleaseFaults)
  | expire (now : Nat)

def run (w : World) : Call → World
  | .create input now faults => (createReservation N w input now faults).1
  | .release id faults => (releaseReservation w id faults).1
  | .expire now => { w with db := (expireStaleReservations w.db now).1 }

/-- A create on the subnet gives an address or none, never the empty text, and
no expiry finds the claim on the whole subnet stale. -/
def Careful (sid : String) (w : World) : Call → Prop
  | .create input _ _ => input.subnetId = sid → input.ipAddress ≠ some ""
  | .release _ _ => True
  | .expire now => ∀ r ∈ claims sid w.db, stale now r = false

instance (sid : String) (w : World) : ∀ c, Decidable (Careful sid w c)
  | .create input _ _ => inferInstanceAs (Decidable (input.subnetId = sid → input.ipAddress ≠ some ""))
  | .release _ _ => isTrue trivial
  | .expire now => inferInstanceAs (Decidable (∀ r ∈ claims sid w.db, stale now r = false))

variable {N} {sid : String} {w : World}

theorem kept_addressed : Kept (Addressed sid) where
  markReleased := fun _ _ _ _ h => by simp [markReleased] at h
  stampPushed := fun _ _ _ _ _ h => h
  stampQueued := fun _ _ _ _ _ _ _ h => h
  stampReleased := fun _ _ _ _ h => by simp [stampReleased] at h

theorem addressed_run {c : Call} (h : ∀ r ∈ w.db.rows, Addressed sid r) (hc : Careful sid w c) :
    ∀ r ∈ (run N w c).db.rows, Addressed sid r := by
  cases c with
  | create input now faults =>
    exact forall_createReservation kept_addressed h fun _ _ _ hsid _ => hc hsid
  | release id faults => exact forall_releaseReservation kept_addressed h
  | expire now =>
    refine Db.forall_updateRows _ h fun r _ _ _ hact => ?_
    simp [markExpired] at hact

theorem mirrors_run {c : Call} (hm : Mirrors sid w.db) (h : ∀ r ∈ w.db.rows, Addressed sid r)
    (hc : Careful sid w c) : Mirrors sid (run N w c).db := by
  cases c with
  | create input now faults => exact mirrors_create hm hc
  | release id faults => exact mirrors_release hm h
  | expire now => exact mirrors_expire hm hc

/-- From an available subnet without reservations, in every run whose calls
are careful. -/
theorem status_mirrors_claim (N : Package) (sid : String) (w : World) (calls : List Call)
    (hs : ∃ s, w.db.findSubnet sid = some s ∧ s.status = .available)
    (hw : ∀ r ∈ w.db.rows, r.data.subnetId ≠ sid) (hcalls : Along (run N) (Careful sid) w calls) :
    Mirrors sid (calls.foldl (run N) w).db := by
  obtain ⟨s, hs, hav⟩ := hs
  have hnone : claims sid w.db = [] := List.filter_eq_nil_iff.mpr fun r hr => by
    simp [fullSubnet_of_subnet (hw r hr)]
  have hinit : Mirrors sid w.db ∧ ∀ r ∈ w.db.rows, Addressed sid r :=
    ⟨⟨s, hs, by simp [hav, hnone], by simp [hnone]⟩, fun r hr hsid => absurd hsid (hw r hr)⟩
  exact (foldl_invariant (I := fun w => Mirrors sid w.db ∧ ∀ r ∈ w.db.rows, Addressed sid r)
    (fun _ _ h hc => ⟨mirrors_run h.1 h.2 hc, addressed_run h.2 hc⟩) hinit hcalls).1

def claimAll (expiresAt : Option Nat) : Call := .create { subnetId := "lan", expiresAt := expiresAt } 0 {}

theorem status_mirrors_claim_office :
    let calls := [claimAll none, .create { subnetId := "lan", ipAddress := some "10.0.0.8" } 0 {},
      .expire 100, claimAll none, .release 0 {}, claimAll none]
    Mirrors "lan" (calls.foldl (run reference) office).db ∧
      (claims "lan" (calls.foldl (run reference) office).db).length = 1 :=
  ⟨status_mirrors_claim reference "lan" office _ ⟨_, rfl, rfl⟩ (by decide) (by decide +kernel),
    by decide +kernel⟩

/-- The expired claim leaves the subnet shown as reserved. -/
theorem expired_claim_stays_reserved :
    ¬ Mirrors "lan" (([claimAll (some 100), .expire 200] : List Call).foldl (run reference) office).db := by
  rintro ⟨s, hs, hiff, -⟩
  have hstatus : (([claimAll (some 100), .expire 200] : List Call).foldl (run reference) office).db.findSubnet
      "lan" = some { id := "lan", cidr := "10.0.0.0/24", status := .reserved } := by
    decide +kernel
  rw [hstatus] at hs
  cases hs
  exact hiff.mp rfl (by decide +kernel)

end Runs

end Polaris.FullSubnetClaims
