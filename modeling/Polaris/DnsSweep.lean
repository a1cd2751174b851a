import Mathlib.Data.List.Infix
import Polaris.DnsResolved

namespace Polaris.DnsSweep

open Polaris.Lib.Store Polaris.Netmask Polaris.Cidr Polaris.Reservations Polaris.DnsResolved

structure SweepResult where
  created : Nat := 0
  updated : Nat := 0
  released : Nat := 0
  scanned : Nat := 0
  deriving DecidableEq

def scanAsset (inet : Inet) (state : Db × SweepResult) (a : AssetIdentity) : Db × SweepResult :=
  let (db, r) := reconcileDnsResolvedForAsset inet state.1 (some a)
  (db, ⟨state.2.created + r.created, state.2.updated + r.updated, state.2.released + r.released,
    state.2.scanned + 1⟩)

def scanned (assets : List AssetIdentity) : List AssetIdentity := assets.filter (·.ipAddress ≠ none)

def reconcileDnsResolvedForAllAssets (inet : Inet) (db : Db) (assets : List AssetIdentity) :
    Db × SweepResult :=
  (scanned assets).foldl (scanAsset inet) (db, {})

section Rows

def held (r : Row Reservation) : Bool :=
  r.data.createdBy = some systemActor && r.data.sourceType = .dnsResolved && r.data.status = .active

def spotOf (r : Row Reservation) : Option (String × String) :=
  r.data.ipAddress.map (r.data.subnetId, ·)

def identity (a : AssetIdentity) : Option String × Option String := (resolvedHostname a, a.macAddress)

def shown (r : Row Reservation) : Option String × Option String := (r.data.hostname, r.data.macAddress)

def shares (a : AssetIdentity) (who : Option String × Option String) : Bool :=
  (truthy a.macAddress).any (who.2 = some ·) || (resolvedHostname a).any (who.1 = some ·)

theorem ownedBy_eq (a : AssetIdentity) (r : Row Reservation) :
    ownedBy a r = (held r && shares a (shown r)) := rfl

def target (inet : Inet) (db : Db) (a : AssetIdentity) : Option (String × String) :=
  if ! assetEligible a then none
  else match findContainingSubnet inet db (a.ipAddress.getD "") with
    | .error _ | .ok none => none
    | .ok (some s) =>
      if (findActiveAuthoritativeAt db s.id (a.ipAddress.getD "")).isSome then none
      else some (s.id, a.ipAddress.getD "")

def stale (db : Db) (a : AssetIdentity) (spot : String × String) : List (Row Reservation) :=
  (findOwnedSystemRows db a).filter fun r => spotOf r ≠ some spot

theorem spotOf_eq {r : Row Reservation} {sid ip : String} :
    spotOf r = some (sid, ip) ↔ r.data.subnetId = sid ∧ r.data.ipAddress = some ip := by
  simp only [spotOf, Option.map_eq_some_iff, Prod.mk.injEq]
  constructor
  · rintro ⟨ip, hip, rfl, rfl⟩
    exact ⟨rfl, hip⟩
  · rintro ⟨rfl, hip⟩
    exact ⟨ip, hip, rfl, rfl⟩

theorem reconcile_eq (inet : Inet) (db : Db) (a : AssetIdentity) :
    reconcileDnsResolvedForAsset inet db (some a) =
      match target inet db a with
      | none =>
        let after := releaseOwned db ((findOwnedSystemRows db a).map (·.id))
        (after.1, { released := after.2, skipped := true })
      | some spot =>
        let written := upsertSystemRow db a spot.1 spot.2
        let after := releaseOwned written.1 ((stale db a spot).map (·.id))
        (after.1, { created := written.2.1, updated := written.2.2, released := after.2 }) := by
  have hspot : ∀ sid ip, ((findOwnedSystemRows db a).filter fun r =>
      ! (r.data.subnetId = sid && r.data.ipAddress = some ip)) = stale db a (sid, ip) := by
    intro sid ip
    refine List.filter_congr fun r _ => ?_
    rw [Bool.eq_iff_iff]
    simp [spotOf_eq]
  cases he : assetEligible a with
  | false => simp [reconcileDnsResolvedForAsset, target, he]
  | true =>
    cases hs : findContainingSubnet inet db (a.ipAddress.getD "") with
    | error _ => simp [reconcileDnsResolvedForAsset, target, he, hs]
    | ok s =>
      cases s with
      | none => simp [reconcileDnsResolvedForAsset, target, he, hs]
      | some s =>
        cases ha : (findActiveAuthoritativeAt db s.id (a.ipAddress.getD "")).isSome with
        | true => simp [reconcileDnsResolvedForAsset, target, he, hs, ha]
        | false =>
          simp only [reconcileDnsResolvedForAsset, target, he, hs, ha, hspot, Bool.not_true,
            Bool.false_eq_true, if_false]

end Rows

section Writes

variable {db : Db}

theorem releaseOwned_cases (db : Db) (ids : List Nat) :
    (∃ t, releaseOwned db ids = ({ db with reservations := t },
        db.rows.countP fun r => r.id ∈ ids && r.data.status = .active) ∧
      t.rows = db.rows.map (amend (fun r => r.id ∈ ids && r.data.status = .active) markReleased)) ∨
    ∃ w, releaseOwned db ids = ({ db with violations := w :: db.violations }, 0) := by
  unfold releaseOwned releaseRows
  by_cases hids : ids = []
  · refine .inl ⟨db.reservations, by simp [hids], ?_⟩
    have hid : amend (fun r => r.id ∈ ids && r.data.status = .active) markReleased = id := by
      funext r
      exact amend_of_neg (by simp [hids]) _
    rw [hid, List.map_id]
    rfl
  · rw [if_neg hids]
    obtain ⟨t, ht, hc⟩ | ⟨-, hc⟩ := Db.updateRows_cases db .dnsReleaseRows
      (fun r => r.id ∈ ids && r.data.status = .active) markReleased
    · rw [hc]
      exact .inl ⟨t, rfl, (Table.updateWhere_rows ht).1⟩
    · rw [hc]
      exact .inr ⟨_, rfl⟩

def identified (a : AssetIdentity) (d : Reservation) : Reservation :=
  { d with hostname := resolvedHostname a, macAddress := a.macAddress }

theorem findSystemRowAt_eq (db : Db) (spot : String × String) :
    findSystemRowAt db spot.1 spot.2 = db.rows.find? fun r => held r && spotOf r = some spot := by
  obtain ⟨sid, ip⟩ := spot
  unfold findSystemRowAt
  congr 1
  funext r
  rw [Bool.eq_iff_iff]
  simp only [activeAt, held, Bool.and_eq_true, decide_eq_true_eq, spotOf_eq]
  tauto

theorem upsertSystemRow_cases (db : Db) (a : AssetIdentity) (spot : String × String) :
    (∃ r ∈ db.rows, held r ∧ spotOf r = some spot ∧ shown r = identity a ∧
      upsertSystemRow db a spot.1 spot.2 = (db, 0, 0)) ∨
    (∃ r ∈ db.rows, held r ∧ spotOf r = some spot ∧ shown r ≠ identity a ∧ ∃ t,
      upsertSystemRow db a spot.1 spot.2 = ({ db with reservations := t }, 0, 1) ∧
      t.rows = db.rows.map (amend (·.id = r.id) (identified a))) ∨
    (∀ r ∈ db.rows, held r → spotOf r ≠ some spot) ∧
      ((∃ t, upsertSystemRow db a spot.1 spot.2 = ({ db with reservations := t }, 1, 0) ∧
        t.rows = db.rows ++ [⟨db.reservations.nextId, systemRow a spot.1 spot.2⟩]) ∨
      ∃ w, upsertSystemRow db a spot.1 spot.2 =
        ({ db with violations := w :: db.violations }, 0, 0)) := by
  unfold upsertSystemRow
  cases hf : findSystemRowAt db spot.1 spot.2 with
  | some r =>
    rw [findSystemRowAt_eq] at hf
    have hr := List.mem_of_find?_eq_some hf
    obtain ⟨hh, hs⟩ : held r ∧ spotOf r = some spot := by simpa using List.find?_some hf
    dsimp only
    split
    · rename_i hdiff
      obtain ⟨t, ht, hc⟩ : ∃ t, db.reservations.updateWhere (·.id = r.id) (identified a) = some t ∧
          db.updateRow .dnsUpsert r.id (identified a) =
            ({ db with reservations := t }, .ok ⟨r.id, identified a r.data⟩) :=
        Db.updateRow_of_key (Table.find_of_mem hr) fun _ => rfl
      have hne : shown r ≠ identity a := fun h =>
        hdiff.elim (· (congrArg Prod.fst h)) (· (congrArg Prod.snd h))
      refine .inr (.inl ⟨r, hr, hh, hs, hne, t, ?_, (Table.updateWhere_rows ht).1⟩)
      rw [show (fun d : Reservation => { d with hostname := resolvedHostname a, macAddress := a.macAddress }) =
        identified a from rfl, hc]
    · rename_i hsame
      refine .inl ⟨r, hr, hh, hs, ?_, rfl⟩
      rw [not_or, not_not, not_not] at hsame
      exact Prod.ext hsame.1 hsame.2
  | none =>
    rw [findSystemRowAt_eq, List.find?_eq_none] at hf
    have hnone : ∀ r ∈ db.rows, held r → spotOf r ≠ some spot := by
      intro r hr hh hs
      exact hf r hr (by simp [hh, hs])
    dsimp only
    obtain ⟨t, ht, hc⟩ | ⟨-, hc⟩ := Db.createRow_cases db .dnsUpsert (systemRow a spot.1 spot.2)
    · rw [hc]
      exact .inr (.inr ⟨hnone, .inl ⟨t, rfl, (Table.insert_rows ht).1⟩⟩)
    · rw [hc]
      exact .inr (.inr ⟨hnone, .inr ⟨_, rfl⟩⟩)

/-- The row belongs where it stands. -/
def Placed (t : Option (String × String)) (r : Row Reservation) : Prop :=
  ∃ spot, t = some spot ∧ spotOf r = some spot

/-- What the reconcile of an asset does to the rows when its writes go
through: the rows it owns elsewhere end, its own is there, and no other is
touched. -/
structure Reconciled (a : AssetIdentity) (t : Option (String × String)) (db db' : Db) : Prop where
  kept : ∀ r ∈ db'.rows, held r → (r ∈ db.rows ∧ (shares a (shown r) → Placed t r)) ∨
    (Placed t r ∧ shown r = identity a)
  there : ∀ spot ∈ t, ∃ r ∈ db'.rows, held r ∧ spotOf r = some spot ∧ shown r = identity a
  others : ∀ r ∈ db.rows, held r → shares a (shown r) = false → ¬ Placed t r → r ∈ db'.rows
  authority : ∀ r, r.data.sourceType ≠ .dnsResolved → (r ∈ db'.rows ↔ r ∈ db.rows)
  subnets : db'.subnets = db.subnets

theorem mem_release {rows : List (Row Reservation)} {ids : List Nat} {r : Row Reservation}
    (hr : r.data.status = .active ∨ r.data.sourceType ≠ .dnsResolved)
    (hids : ∀ x ∈ rows, x.id ∈ ids → x.data.sourceType = .dnsResolved) :
    r ∈ rows.map (amend (fun r => r.id ∈ ids && r.data.status = .active) markReleased) ↔
      r ∈ rows ∧ (r.id ∉ ids ∨ r.data.status ≠ .active) := by
  constructor
  · intro h
    obtain ⟨x, hx, rfl⟩ := List.mem_map.mp h
    cases hp : (x.id ∈ ids && x.data.status = .active : Bool) with
    | true =>
      obtain ⟨hxi, -⟩ : x.id ∈ ids ∧ x.data.status = .active := by simpa using hp
      rw [amend_of_pos hp] at hr
      obtain hr | hr := hr
      · cases hr
      · exact absurd (hids x hx hxi) hr
    | false =>
      rw [amend_of_neg hp]
      refine ⟨hx, ?_⟩
      simpa [Classical.or_iff_not_imp_left] using hp
  · rintro ⟨hr', h⟩
    refine List.mem_map.mpr ⟨r, hr', amend_of_neg ?_ _⟩
    obtain h | h := h <;> simp [h]

theorem releaseOwned_grows (db : Db) (ids : List Nat) :
    db.violations <:+ (releaseOwned db ids).1.violations := by
  obtain ⟨t, h, -⟩ | ⟨w, h⟩ := releaseOwned_cases db ids
  · rw [h]
  · rw [h]
    exact List.suffix_cons w _

theorem upsertSystemRow_grows (db : Db) (a : AssetIdentity) (spot : String × String) :
    db.violations <:+ (upsertSystemRow db a spot.1 spot.2).1.violations := by
  obtain ⟨r, -, -, -, -, h⟩ | ⟨r, -, -, -, -, t, h, -⟩ | ⟨-, ⟨t, h, -⟩ | ⟨w, h⟩⟩ :=
    upsertSystemRow_cases db a spot
  · rw [h]
  · rw [h]
  · rw [h]
  · rw [h]
    exact List.suffix_cons w _

theorem reconcile_grows (inet : Inet) (db : Db) (a : AssetIdentity) :
    db.violations <:+ (reconcileDnsResolvedForAsset inet db (some a)).1.violations := by
  rw [reconcile_eq]
  split
  · exact releaseOwned_grows db _
  · exact (upsertSystemRow_grows db a _).trans (releaseOwned_grows _ _)

theorem eq_of_grows {l m : List Writer} (h : l <:+ m) (h' : m <:+ l) : m = l :=
  (h.eq_of_length (le_antisymm h.length_le h'.length_le)).symm

/-- An asset with nothing to do: its row is there, and it owns no other. -/
structure Idle (a : AssetIdentity) (t : Option (String × String)) (db : Db) : Prop where
  owned : ∀ r ∈ db.rows, held r → shares a (shown r) → Placed t r
  there : ∀ spot ∈ t, ∃ r ∈ db.rows, held r ∧ spotOf r = some spot ∧ shown r = identity a

theorem mem_owned {a : AssetIdentity} {r : Row Reservation} :
    r ∈ findOwnedSystemRows db a ↔ r ∈ db.rows ∧ held r ∧ shares a (shown r) := by
  rw [findOwnedSystemRows, List.mem_filter, ownedBy_eq, Bool.and_eq_true]

theorem mem_stale {a : AssetIdentity} {spot : String × String} {r : Row Reservation} :
    r ∈ stale db a spot ↔ (r ∈ db.rows ∧ held r ∧ shares a (shown r)) ∧ spotOf r ≠ some spot := by
  rw [stale, List.mem_filter, mem_owned, decide_eq_true_eq]

theorem held_unique {r r' : Row Reservation} {spot : String × String} (hr : r ∈ db.rows)
    (hr' : r' ∈ db.rows) (hh : held r) (hh' : held r') (hs : spotOf r = some spot)
    (hs' : spotOf r' = some spot) : r = r' := by
  have hkey : ∀ x : Row Reservation, held x → spotOf x = some spot →
      uniqueKey x.data = some (spot.1, spot.2, .active) := by
    intro x hx hsx
    obtain ⟨hsid, hip⟩ := spotOf_eq.mp hsx
    have hact : x.data.status = .active := by
      simp only [held, Bool.and_eq_true, decide_eq_true_eq] at hx
      exact hx.2
    simp [uniqueKey, hip, hsid, hact]
  refine Table.eq_of_key hr hr' ((hkey r hh hs).trans (hkey r' hh' hs').symm) ?_
  rw [hkey r hh hs]
  exact Option.some_ne_none _

theorem releaseOwned_nil (db : Db) : releaseOwned db [] = (db, 0) := rfl

theorem reconcile_idle {inet : Inet} {a : AssetIdentity} (h : Idle a (target inet db a) db) :
    (reconcileDnsResolvedForAsset inet db (some a)).1 = db ∧
      (reconcileDnsResolvedForAsset inet db (some a)).2.created = 0 ∧
      (reconcileDnsResolvedForAsset inet db (some a)).2.updated = 0 ∧
      (reconcileDnsResolvedForAsset inet db (some a)).2.released = 0 := by
  rw [reconcile_eq]
  cases ht : target inet db a with
  | none =>
    have howned : findOwnedSystemRows db a = [] := by
      rw [List.eq_nil_iff_forall_not_mem]
      intro r hr
      obtain ⟨hr, hh, hs⟩ := mem_owned.mp hr
      obtain ⟨spot, hspot, -⟩ := h.owned r hr hh hs
      rw [ht] at hspot
      cases hspot
    simp [howned, releaseOwned_nil]
  | some spot =>
    have hstale : stale db a spot = [] := by
      rw [List.eq_nil_iff_forall_not_mem]
      intro r hr
      obtain ⟨⟨hr, hh, hs⟩, hne⟩ := mem_stale.mp hr
      obtain ⟨spot', hspot, hs'⟩ := h.owned r hr hh hs
      rw [ht] at hspot
      cases hspot
      exact hne hs'
    obtain ⟨r, hr, hh, hs, hi⟩ := h.there spot ht
    have hupsert : upsertSystemRow db a spot.1 spot.2 = (db, 0, 0) := by
      obtain ⟨r', -, -, -, -, hu⟩ | ⟨r', hr', hh', hs', hne, -⟩ | ⟨hnone, -⟩ :=
        upsertSystemRow_cases db a spot
      · exact hu
      · exact absurd (held_unique hr hr' hh hh' hs hs' ▸ hi) hne
      · exact absurd hs (hnone r hr hh)
    simp [hupsert, hstale, releaseOwned_nil]

theorem dnsResolved_of_held {r : Row Reservation} (h : held r) : r.data.sourceType = .dnsResolved := by
  simp only [held, Bool.and_eq_true, decide_eq_true_eq] at h
  exact h.1.2

theorem active_of_held {r : Row Reservation} (h : held r) : r.data.status = .active := by
  simp only [held, Bool.and_eq_true, decide_eq_true_eq] at h
  exact h.2

theorem mem_ids {rows : List (Row Reservation)} (hrows : ∀ x ∈ rows, x ∈ db.rows)
    {r : Row Reservation} (hr : r ∈ db.rows) : r.id ∈ rows.map (·.id) ↔ r ∈ rows := by
  refine ⟨fun h => ?_, List.mem_map_of_mem⟩
  obtain ⟨x, hx, hid⟩ := List.mem_map.mp h
  exact Table.eq_of_id (hrows x hx) hr hid ▸ hx

/-- What the upsert of an asset's row leaves, seen from the rows it is about
to release. -/
structure Written (a : AssetIdentity) (spot : String × String) (db db' : Db) : Prop where
  kept : ∀ r ∈ db'.rows, r ∈ db.rows ∨ held r ∧ spotOf r = some spot ∧ shown r = identity a ∧
    r.id ∉ (stale db a spot).map (·.id)
  there : ∃ r ∈ db'.rows, held r ∧ spotOf r = some spot ∧ shown r = identity a ∧
    r.id ∉ (stale db a spot).map (·.id)
  others : ∀ r ∈ db.rows, held r → spotOf r ≠ some spot → r ∈ db'.rows
  authority : ∀ r, r.data.sourceType ≠ .dnsResolved → (r ∈ db'.rows ↔ r ∈ db.rows)
  subnets : db'.subnets = db.subnets

theorem not_stale {a : AssetIdentity} {spot : String × String} {r : Row Reservation}
    (hr : r ∈ db.rows) (hs : spotOf r = some spot) : r.id ∉ (stale db a spot).map (·.id) := by
  rw [mem_ids (fun x hx => (mem_stale.mp hx).1.1) hr]
  exact fun h => (mem_stale.mp h).2 hs

theorem written {a : AssetIdentity} {spot : String × String}
    (h : (upsertSystemRow db a spot.1 spot.2).1.violations = db.violations) :
    Written a spot db (upsertSystemRow db a spot.1 spot.2).1 := by
  obtain ⟨r, hr, hh, hs, hi, hu⟩ | ⟨r, hr, hh, hs, -, t, hu, hrows⟩ | ⟨hnone, ⟨t, hu, hrows⟩ | ⟨w, hu⟩⟩ :=
    upsertSystemRow_cases db a spot
  · rw [hu]
    exact ⟨fun r hr => .inl hr, ⟨r, hr, hh, hs, hi, not_stale hr hs⟩, fun r hr _ _ => hr,
      fun r _ => Iff.rfl, rfl⟩
  · rw [hu]
    have hmem : ∀ x, x ∈ ({ db with reservations := t } : Db).rows ↔
        (x ∈ db.rows ∧ x ≠ r) ∨ x = ⟨r.id, identified a r.data⟩ := by
      intro x
      change x ∈ t.rows ↔ _
      rw [hrows]
      exact Table.mem_map_amend hr
    have hnew : held ⟨r.id, identified a r.data⟩ ∧ spotOf ⟨r.id, identified a r.data⟩ = some spot ∧
        shown ⟨r.id, identified a r.data⟩ = identity a ∧ r.id ∉ (stale db a spot).map (·.id) :=
      ⟨hh, hs, rfl, not_stale hr hs⟩
    refine ⟨fun x hx => ?_, ⟨_, (hmem _).mpr (.inr rfl), hnew⟩, fun x hx _ hne => ?_,
      fun x hx => ?_, rfl⟩
    · obtain ⟨hx, -⟩ | rfl := (hmem x).mp hx
      · exact .inl hx
      · exact .inr hnew
    · refine (hmem x).mpr (.inl ⟨hx, fun he => hne ?_⟩)
      rw [he]
      exact hs
    · constructor
      · intro h
        obtain ⟨h, -⟩ | rfl := (hmem x).mp h
        · exact h
        · exact absurd (dnsResolved_of_held hnew.1) hx
      · intro h
        refine (hmem x).mpr (.inl ⟨h, fun he => hx ?_⟩)
        rw [he]
        exact dnsResolved_of_held hh
  · rw [hu]
    have hmem : ∀ x, x ∈ ({ db with reservations := t } : Db).rows ↔
        x ∈ db.rows ∨ x = ⟨db.reservations.nextId, systemRow a spot.1 spot.2⟩ := by
      intro x
      change x ∈ t.rows ↔ _
      rw [hrows, List.mem_append, List.mem_singleton]
    have hfresh : db.reservations.nextId ∉ (stale db a spot).map (·.id) := by
      intro hid
      obtain ⟨x, hx, hid⟩ := List.mem_map.mp hid
      have hlt : x.id < db.reservations.nextId := db.reservations.ids_lt x (mem_stale.mp hx).1.1
      omega
    refine ⟨fun x hx => ?_, ⟨_, (hmem _).mpr (.inr rfl), rfl, rfl, rfl, hfresh⟩,
      fun x hx _ _ => (hmem x).mpr (.inl hx), fun x hx => ?_, rfl⟩
    · obtain hx | rfl := (hmem x).mp hx
      · exact .inl hx
      · exact .inr ⟨rfl, rfl, rfl, hfresh⟩
    · refine ⟨fun h => ?_, fun h => (hmem x).mpr (.inl h)⟩
      obtain h | rfl := (hmem x).mp h
      · exact h
      · exact absurd rfl hx
  · rw [hu] at h
    exact absurd h (List.cons_ne_self w db.violations)

theorem releaseOwned_rows {ids : List Nat} (h : (releaseOwned db ids).1.violations = db.violations) :
    (releaseOwned db ids).1.rows =
        db.rows.map (amend (fun r => r.id ∈ ids && r.data.status = .active) markReleased) ∧
      (releaseOwned db ids).1.subnets = db.subnets ∧
      (releaseOwned db ids).2 = db.rows.countP fun r => r.id ∈ ids && r.data.status = .active := by
  obtain ⟨t, hr, hrows⟩ | ⟨w, hr⟩ := releaseOwned_cases db ids
  · rw [hr]
    exact ⟨hrows, rfl, rfl⟩
  · rw [hr] at h
    exact absurd h (List.cons_ne_self w db.violations)

theorem reconciled_none {a : AssetIdentity}
    (h : (releaseOwned db ((findOwnedSystemRows db a).map (·.id))).1.violations = db.violations) :
    Reconciled a none db (releaseOwned db ((findOwnedSystemRows db a).map (·.id))).1 := by
  obtain ⟨hrows, hsubnets, -⟩ := releaseOwned_rows h
  have hids : ∀ x ∈ db.rows, x.id ∈ (findOwnedSystemRows db a).map (·.id) →
      held x ∧ shares a (shown x) := by
    intro x hx hid
    exact (mem_owned.mp ((mem_ids (fun y hy => (mem_owned.mp hy).1) hx).mp hid)).2
  have hmem : ∀ r : Row Reservation, r.data.status = .active ∨ r.data.sourceType ≠ .dnsResolved →
      (r ∈ (releaseOwned db ((findOwnedSystemRows db a).map (·.id))).1.rows ↔
        r ∈ db.rows ∧ (r.id ∉ (findOwnedSystemRows db a).map (·.id) ∨ r.data.status ≠ .active)) := by
    intro r hr
    rw [hrows]
    exact mem_release hr fun x hx hid => dnsResolved_of_held (hids x hx hid).1
  refine ⟨fun r hr hh => .inl ?_, fun _ => nofun, fun r hr hh hs _ => ?_,
    fun r hr => ⟨fun h => ((hmem r (.inr hr)).mp h).1, fun h => ?_⟩, hsubnets⟩
  · obtain ⟨hr', hid | hst⟩ := (hmem r (.inl (active_of_held hh))).mp hr
    · exact ⟨hr', fun hs => absurd (List.mem_map_of_mem (mem_owned.mpr ⟨hr', hh, hs⟩)) hid⟩
    · exact absurd (active_of_held hh) hst
  · refine (hmem r (.inl (active_of_held hh))).mpr ⟨hr, .inl fun hid => ?_⟩
    rw [(hids r hr hid).2] at hs
    cases hs
  · exact (hmem r (.inr hr)).mpr ⟨h, .inl fun hid => hr (dnsResolved_of_held (hids r h hid).1)⟩

theorem reconciled_some {a : AssetIdentity} {spot : String × String} {db' : Db}
    (hw : Written a spot db db')
    (h : (releaseOwned db' ((stale db a spot).map (·.id))).1.violations = db'.violations) :
    Reconciled a (some spot) db (releaseOwned db' ((stale db a spot).map (·.id))).1 := by
  obtain ⟨hrows, hsubnets, -⟩ := releaseOwned_rows h
  have hids : ∀ x ∈ db'.rows, x.id ∈ (stale db a spot).map (·.id) → x ∈ stale db a spot := by
    intro x hx hid
    obtain hx | ⟨-, -, -, hnot⟩ := hw.kept x hx
    · exact (mem_ids (fun y hy => (mem_stale.mp hy).1.1) hx).mp hid
    · exact absurd hid hnot
  have hheld : ∀ x ∈ stale db a spot, x.data.sourceType = .dnsResolved :=
    fun x hx => dnsResolved_of_held (mem_stale.mp hx).1.2.1
  have hmem : ∀ r : Row Reservation, r.data.status = .active ∨ r.data.sourceType ≠ .dnsResolved →
      (r ∈ (releaseOwned db' ((stale db a spot).map (·.id))).1.rows ↔
        r ∈ db'.rows ∧ (r.id ∉ (stale db a spot).map (·.id) ∨ r.data.status ≠ .active)) := by
    intro r hr
    rw [hrows]
    exact mem_release hr fun x hx hid => hheld x (hids x hx hid)
  refine ⟨fun r hr hh => ?_, ?_, fun r hr hh hs hp => ?_, fun r hr => ?_, hsubnets.trans hw.subnets⟩
  · obtain ⟨hr', hid | hst⟩ := (hmem r (.inl (active_of_held hh))).mp hr
    · obtain hr' | ⟨-, hspot, hi, -⟩ := hw.kept r hr'
      · refine .inl ⟨hr', fun hs => ⟨spot, rfl, ?_⟩⟩
        by_contra hne
        exact hid (List.mem_map_of_mem (mem_stale.mpr ⟨⟨hr', hh, hs⟩, hne⟩))
      · exact .inr ⟨⟨spot, rfl, hspot⟩, hi⟩
    · exact absurd (active_of_held hh) hst
  · intro spot' hspot'
    cases hspot'
    obtain ⟨r, hr, hh, hs, hi, hnot⟩ := hw.there
    exact ⟨r, (hmem r (.inl (active_of_held hh))).mpr ⟨hr, .inl hnot⟩, hh, hs, hi⟩
  · have hr' : r ∈ db'.rows := hw.others r hr hh fun hspot => hp ⟨spot, rfl, hspot⟩
    refine (hmem r (.inl (active_of_held hh))).mpr ⟨hr', .inl fun hid => ?_⟩
    rw [(mem_stale.mp (hids r hr' hid)).1.2.2] at hs
    cases hs
  · rw [hmem r (.inr hr), ← hw.authority r hr]
    exact ⟨And.left, fun h => ⟨h, .inl fun hid => hr (hheld r (hids r h hid))⟩⟩

theorem reconciled {inet : Inet} {a : AssetIdentity}
    (h : (reconcileDnsResolvedForAsset inet db (some a)).1.violations = db.violations) :
    Reconciled a (target inet db a) db (reconcileDnsResolvedForAsset inet db (some a)).1 := by
  rw [reconcile_eq] at h ⊢
  cases ht : target inet db a with
  | none =>
    rw [ht] at h
    exact reconciled_none h
  | some spot =>
    rw [ht] at h
    have hgrow := releaseOwned_grows (upsertSystemRow db a spot.1 spot.2).1 ((stale db a spot).map (·.id))
    have hup : (upsertSystemRow db a spot.1 spot.2).1.violations = db.violations :=
      eq_of_grows (upsertSystemRow_grows db a spot) (hgrow.trans (h ▸ List.suffix_refl _))
    exact reconciled_some (written hup) (h.trans hup.symm)

theorem idle_of_zero {inet : Inet} {a : AssetIdentity}
    (h : (reconcileDnsResolvedForAsset inet db (some a)).1.violations = db.violations)
    (hc : (reconcileDnsResolvedForAsset inet db (some a)).2.created = 0)
    (hu : (reconcileDnsResolvedForAsset inet db (some a)).2.updated = 0)
    (hr : (reconcileDnsResolvedForAsset inet db (some a)).2.released = 0) :
    Idle a (target inet db a) db := by
  have hnone : ∀ ids, (releaseOwned db ids).1.violations = db.violations →
      (releaseOwned db ids).2 = 0 → ∀ r ∈ db.rows, held r → r.id ∉ ids := by
    intro ids hv hzero r hr hh hid
    rw [(releaseOwned_rows hv).2.2, List.countP_eq_zero] at hzero
    exact hzero r hr (by simp [hid, active_of_held hh])
  rw [reconcile_eq] at h hc hu hr
  cases ht : target inet db a with
  | none =>
    rw [ht] at h hr
    refine ⟨fun r hr' hh hs => ?_, fun _ => nofun⟩
    exact absurd (List.mem_map_of_mem (mem_owned.mpr ⟨hr', hh, hs⟩)) (hnone _ h hr r hr' hh)
  | some spot =>
    rw [ht] at h hc hu hr
    dsimp only at h hc hu hr
    obtain ⟨r, hr', hh, hs, hi, hw⟩ | ⟨r, -, -, -, -, t, hw, -⟩ | ⟨-, ⟨t, hw, -⟩ | ⟨w, hw⟩⟩ :=
      upsertSystemRow_cases db a spot
    · rw [hw] at h hr
      refine ⟨fun r' hr'' hh' hs' => ⟨spot, rfl, ?_⟩, fun spot' hspot' => ?_⟩
      · by_contra hne
        exact hnone _ h hr r' hr'' hh' (List.mem_map_of_mem (mem_stale.mpr ⟨⟨hr'', hh', hs'⟩, hne⟩))
      · cases hspot'
        exact ⟨r, hr', hh, hs, hi⟩
    · rw [hw] at hu
      cases hu
    · rw [hw] at hc
      cases hc
    · rw [hw] at h
      have hgrow := (releaseOwned_grows ({ db with violations := w :: db.violations } : Db)
        ((stale db a spot).map (·.id))).length_le
      have hlen := congrArg List.length h
      simp only [List.length_cons] at hgrow hlen
      omega

theorem authoritative_congr {db' : Db}
    (h : ∀ r : Row Reservation, r.data.sourceType ≠ .dnsResolved → (r ∈ db'.rows ↔ r ∈ db.rows))
    (sid ip : String) :
    (findActiveAuthoritativeAt db' sid ip).isSome = (findActiveAuthoritativeAt db sid ip).isSome := by
  rw [Bool.eq_iff_iff, findActiveAuthoritativeAt, findActiveAuthoritativeAt, List.find?_isSome,
    List.find?_isSome]
  refine exists_congr fun r => and_congr_left fun hr => h r ?_
  simp only [ne_eq, Bool.and_eq_true, decide_eq_true_eq] at hr
  exact hr.2

theorem Reconciled.target_eq {a : AssetIdentity} {t : Option (String × String)} {db' : Db}
    (h : Reconciled a t db db') (inet : Inet) : target inet db' = target inet db := by
  funext b
  simp only [target, findContainingSubnet, h.subnets, authoritative_congr h.authority]

end Writes

section Sweep

variable {inet : Inet} {targets : AssetIdentity → Option (String × String)} {assets : List AssetIdentity}
  {db db' : Db} {a b : AssetIdentity}

/-- No asset claims what another has: assets that meet at one address are told
apart by nothing the row shows, and an asset that shares the MAC or the
hostname of one with a row belongs at the same address. -/
structure Compatible (targets : AssetIdentity → Option (String × String)) (assets : List AssetIdentity) :
    Prop where
  same : ∀ a ∈ assets, ∀ b ∈ assets, ∀ spot ∈ targets a, targets b = some spot → identity a = identity b
  apart : ∀ a ∈ assets, ∀ b ∈ assets, ∀ spot ∈ targets b, shares a (identity b) → targets a = some spot

theorem Reconciled.idle (h : Reconciled a (targets a) db db') : Idle a (targets a) db' := by
  refine ⟨fun r hr hh hs => ?_, h.there⟩
  obtain ⟨-, hp⟩ | ⟨hp, -⟩ := h.kept r hr hh
  · exact hp hs
  · exact hp

theorem Idle.step (hc : Compatible targets assets) (ha : a ∈ assets) (hb : b ∈ assets)
    (h : Reconciled a (targets a) db db') (hidle : Idle b (targets b) db) : Idle b (targets b) db' := by
  refine ⟨fun r hr hh hs => ?_, fun spot hspot => ?_⟩
  · obtain ⟨hr', -⟩ | ⟨⟨spot, hspot, hs'⟩, hi⟩ := h.kept r hr hh
    · exact hidle.owned r hr' hh hs
    · rw [hi] at hs
      exact ⟨spot, hc.apart b hb a ha spot hspot hs, hs'⟩
  · obtain ⟨r, hr, hh, hs, hi⟩ := hidle.there spot hspot
    by_cases hp : Placed (targets a) r
    · obtain ⟨spot', hspot', hs'⟩ := hp
      cases hs.symm.trans hs'
      obtain ⟨r', hr', hh', hs', hi'⟩ := h.there spot hspot'
      exact ⟨r', hr', hh', hs', hi'.trans (hc.same a ha b hb spot hspot' hspot)⟩
    · refine ⟨r, h.others r hr hh ?_ hp, hh, hs, hi⟩
      by_contra hshare
      rw [hi, Bool.not_eq_false] at hshare
      exact hp ⟨spot, hc.apart a ha b hb spot hspot hshare, hs⟩

variable (inet) in
theorem scan_grows (l : List AssetIdentity) (state : Db × SweepResult) :
    state.1.violations <:+ (l.foldl (scanAsset inet) state).1.violations := by
  induction l generalizing state with
  | nil => exact List.suffix_refl _
  | cons a l ih => exact (reconcile_grows inet state.1 a).trans (ih (scanAsset inet state a))

theorem scan_cons {l : List AssetIdentity} {state : Db × SweepResult}
    (h : ((a :: l).foldl (scanAsset inet) state).1.violations = state.1.violations) :
    (scanAsset inet state a).1.violations = state.1.violations ∧
      (l.foldl (scanAsset inet) (scanAsset inet state a)).1.violations =
        (scanAsset inet state a).1.violations := by
  have hgrow := scan_grows inet l (scanAsset inet state a)
  have hstep : (scanAsset inet state a).1.violations = state.1.violations :=
    eq_of_grows (reconcile_grows inet state.1 a) (hgrow.trans (h ▸ List.suffix_refl _))
  exact ⟨hstep, h.trans hstep.symm⟩

theorem scan_idle (hc : Compatible targets assets) {l : List AssetIdentity} {state : Db × SweepResult}
    (hl : ∀ a ∈ l, a ∈ assets) (ht : target inet state.1 = targets)
    (hv : (l.foldl (scanAsset inet) state).1.violations = state.1.violations)
    (hidle : ∀ b ∈ assets, b ∉ l → Idle b (targets b) state.1) :
    target inet (l.foldl (scanAsset inet) state).1 = targets ∧
      ∀ b ∈ assets, Idle b (targets b) (l.foldl (scanAsset inet) state).1 := by
  induction l generalizing state with
  | nil => exact ⟨ht, fun b hb => hidle b hb List.not_mem_nil⟩
  | cons a l ih =>
    obtain ⟨hstep, hrest⟩ := scan_cons hv
    have hrec : Reconciled a (targets a) state.1 (scanAsset inet state a).1 := ht ▸ reconciled hstep
    refine ih (fun b hb => hl b (List.mem_cons_of_mem a hb)) ((hrec.target_eq inet).trans ht) hrest
      fun b hb hbl => ?_
    by_cases hab : b = a
    · rw [hab]
      exact hrec.idle
    · refine Idle.step hc (hl a List.mem_cons_self) hb hrec (hidle b hb ?_)
      exact fun h => (List.mem_cons.mp h).elim hab hbl

def SweepResult.quiet (r : SweepResult) : Prop := r.created = 0 ∧ r.updated = 0 ∧ r.released = 0

instance (r : SweepResult) : Decidable r.quiet := inferInstanceAs (Decidable (_ ∧ _ ∧ _))

theorem scan_of_idle {l : List AssetIdentity} {state : Db × SweepResult}
    (h : ∀ a ∈ l, Idle a (target inet state.1 a) state.1) (hq : state.2.quiet) :
    (l.foldl (scanAsset inet) state).2.quiet := by
  induction l generalizing state with
  | nil => exact hq
  | cons a l ih =>
    obtain ⟨hdb, hc, hu, hr⟩ := reconcile_idle (h a List.mem_cons_self)
    obtain ⟨hc', hu', hr'⟩ := hq
    have hquiet : (scanAsset inet state a).2.quiet := by
      simp [scanAsset, SweepResult.quiet, hc, hc', hu, hu', hr, hr']
    refine ih (fun b hb => ?_) hquiet
    change Idle b (target inet (reconcileDnsResolvedForAsset inet state.1 (some a)).1 b)
      (reconcileDnsResolvedForAsset inet state.1 (some a)).1
    rw [hdb]
    exact h b (List.mem_cons_of_mem a hb)

theorem quiet_of_scan (l : List AssetIdentity) (state : Db × SweepResult)
    (h : (l.foldl (scanAsset inet) state).2.quiet) : state.2.quiet := by
  induction l generalizing state with
  | nil => exact h
  | cons a l ih =>
    obtain ⟨hc, hu, hr⟩ := ih (scanAsset inet state a) h
    simp only [scanAsset, Nat.add_eq_zero_iff] at hc hu hr
    exact ⟨hc.1, hu.1, hr.1⟩

theorem idle_of_scan {l : List AssetIdentity} {state : Db × SweepResult}
    (hv : (l.foldl (scanAsset inet) state).1.violations = state.1.violations)
    (h : (l.foldl (scanAsset inet) state).2.quiet) :
    ∀ a ∈ l, Idle a (target inet state.1 a) state.1 := by
  induction l generalizing state with
  | nil => exact fun a ha => absurd ha List.not_mem_nil
  | cons a l ih =>
    obtain ⟨hstep, hrest⟩ := scan_cons hv
    obtain ⟨hc, hu, hr⟩ := quiet_of_scan l (scanAsset inet state a) h
    simp only [scanAsset, Nat.add_eq_zero_iff] at hc hu hr
    have hidle := idle_of_zero hstep hc.2 hu.2 hr.2
    have hdb : (scanAsset inet state a).1 = state.1 := (reconcile_idle hidle).1
    have hlater := ih hrest h
    rw [hdb] at hlater
    intro b hb
    obtain rfl | hb := List.mem_cons.mp hb
    · exact hidle
    · exact hlater b hb

/-- The second of two sweeps changes nothing, and after the first every asset
that belongs somewhere has its row there. -/
def Converges (inet : Inet) (db : Db) (assets : List AssetIdentity) : Prop :=
  (reconcileDnsResolvedForAllAssets inet (reconcileDnsResolvedForAllAssets inet db assets).1 assets).2.quiet ∧
    ∀ a ∈ scanned assets, ∀ spot ∈ target inet db a,
      ∃ r ∈ (reconcileDnsResolvedForAllAssets inet db assets).1.rows,
        held r ∧ spotOf r = some spot ∧ shown r = identity a

theorem compatible_of_idle (h : ∀ a ∈ assets, Idle a (targets a) db) : Compatible targets assets := by
  refine ⟨fun a ha b hb spot hspot hspot' => ?_, fun a ha b hb spot hspot hshare => ?_⟩
  · obtain ⟨r, hr, hh, hs, hi⟩ := (h a ha).there spot hspot
    obtain ⟨r', hr', hh', hs', hi'⟩ := (h b hb).there spot hspot'
    rw [← hi, ← hi', held_unique hr hr' hh hh' hs hs']
  · obtain ⟨r, hr, hh, hs, hi⟩ := (h b hb).there spot hspot
    obtain ⟨spot', hspot', hs'⟩ := (h a ha).owned r hr hh (hi ▸ hshare)
    cases hs.symm.trans hs'
    exact hspot'

theorem scan_target {l : List AssetIdentity} {state : Db × SweepResult}
    (hv : (l.foldl (scanAsset inet) state).1.violations = state.1.violations) :
    target inet (l.foldl (scanAsset inet) state).1 = target inet state.1 := by
  induction l generalizing state with
  | nil => rfl
  | cons a l ih =>
    obtain ⟨hstep, hrest⟩ := scan_cons hv
    have hrec : Reconciled a _ state.1 (scanAsset inet state a).1 := reconciled hstep
    exact (ih hrest).trans (hrec.target_eq inet)

/-- When no write of the two sweeps is rejected, they converge exactly where
the assets are compatible. -/
theorem sweep_converges_iff (inet : Inet) (db : Db) (assets : List AssetIdentity)
    (hv : (reconcileDnsResolvedForAllAssets inet
      (reconcileDnsResolvedForAllAssets inet db assets).1 assets).1.violations = db.violations) :
    Converges inet db assets ↔ Compatible (target inet db) (scanned assets) := by
  have hgrow := scan_grows inet (scanned assets) ((reconcileDnsResolvedForAllAssets inet db assets).1, {})
  have hfirst : (reconcileDnsResolvedForAllAssets inet db assets).1.violations = db.violations :=
    eq_of_grows (scan_grows inet (scanned assets) (db, {})) (hgrow.trans (hv ▸ List.suffix_refl _))
  have ht : target inet (reconcileDnsResolvedForAllAssets inet db assets).1 = target inet db :=
    scan_target hfirst
  constructor
  · rintro ⟨hquiet, -⟩
    have hidle := idle_of_scan (hv.trans hfirst.symm) hquiet
    rw [ht] at hidle
    exact compatible_of_idle hidle
  · intro hc
    obtain ⟨-, hidle⟩ := scan_idle hc (fun a ha => ha) rfl hfirst fun b hb hnot => absurd hb hnot
    refine ⟨scan_of_idle (fun a ha => ?_) ⟨rfl, rfl, rfl⟩, fun a ha => (hidle a ha).there⟩
    rw [ht]
    exact hidle a ha

end Sweep

section Office

def ipv4Inet : Inet where
  contains := fun cidr ip =>
    match (reference.parse cidr).bind (contains reference · ip) with
    | some inside => .ok inside
    | none => .error ()
  masklen := fun cidr => ((reference.parse cidr).map (·.bitmask)).getD 0

def office : Db := { subnets := [{ id := "lan", cidr := "10.0.0.0/24" }] }

def retired : AssetIdentity :=
  { ipAddress := some "10.0.0.5", hostname := some "reception", status := .decommissioned }

def replacement : AssetIdentity := { ipAddress := some "10.0.0.6", hostname := some "reception" }

def printer : AssetIdentity := { ipAddress := some "10.0.0.7", hostname := some "printer" }

theorem sweep_converges_office : Converges ipv4Inet office [replacement, printer] := by
  refine (sweep_converges_iff ipv4Inet office [replacement, printer] (by decide +kernel)).mpr ⟨?_, ?_⟩
  · decide +kernel
  · decide +kernel

/-- A decommissioned asset takes the row of its replacement, which creates it
anew in the next sweep, until the row that was taken stands in the way. -/
theorem retired_asset_releases_replacement :
    (reconcileDnsResolvedForAllAssets ipv4Inet
        (reconcileDnsResolvedForAllAssets ipv4Inet office [retired, replacement]).1
        [retired, replacement]).1.violations = office.violations ∧
      ¬ Converges ipv4Inet office [retired, replacement] := by
  refine ⟨by decide +kernel, fun h => ?_⟩
  have hquiet := h.1
  revert hquiet
  decide +kernel

end Office

end Polaris.DnsSweep
