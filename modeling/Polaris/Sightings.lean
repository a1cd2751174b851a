import Polaris.ReservationStale

namespace Polaris.Sightings

open Polaris.Lib.Runs Polaris.Lib.Store Polaris.Lib.Rollup Polaris.Lib.Checks Polaris.Cidr Polaris.Netmask
  Polaris.ReservationPush
  Polaris.Reservations Polaris.DnsResolved Polaris.SubnetRefresh Polaris.RefreshView Polaris.ReservationStale

section View

variable {cmdb : List ReservedAddress} {live : List DhcpLease} {fresh : List Fresh} {f : Fresh}

theorem foldl_addLease_of_mem (h : f ∈ live.foldl addLease fresh) :
    f ∈ fresh ∨ ∃ l ∈ live, f = ofLease l := by
  induction live generalizing fresh with
  | nil => exact .inl h
  | cons l live ih =>
    obtain hf | ⟨l', hl', rfl⟩ := ih h
    · unfold addLease at hf
      split at hf
      · exact .inl hf
      · obtain hf | hf := List.mem_append.mp hf
        · exact .inl hf
        · exact .inr ⟨l, List.mem_cons_self, List.mem_singleton.mp hf⟩
    · exact .inr ⟨l', List.mem_cons_of_mem l hl', rfl⟩

/-- What is no reserved address of the device is a lease. -/
theorem freshView_origin (h : f ∈ freshView cmdb live) :
    (∃ e ∈ cmdb, ofEntry e = some f) ∨ ∃ l ∈ live, f = ofLease l := by
  obtain hf | hl := foldl_addLease_of_mem h
  · obtain hf | hf := mem_of_mem_foldl_upsert Fresh.ip hf
    · exact .inl (List.mem_filterMap.mp hf)
    · cases hf
  · exact .inr hl

theorem freshView_ips (cmdb : List ReservedAddress) (live : List DhcpLease) :
    ((freshView cmdb live).map (·.ip)).Nodup :=
  foldl_addLease_nodup (nodup_foldl_upsert Fresh.ip List.nodup_nil)

theorem freshView_named (hlive : ∀ l ∈ live, l.ip ≠ "") (h : f ∈ freshView cmdb live) : f.ip ≠ "" := by
  obtain ⟨e, -, he⟩ | ⟨l, hl, rfl⟩ := freshView_origin h
  · obtain ⟨ip, hip, rfl⟩ := Option.map_eq_some_iff.mp he
    exact (truthy_some hip).2
  · exact hlive l hl

theorem entry_of_unleased (h : f ∈ freshView cmdb live) (hl : ∀ l ∈ live, l.ip ≠ f.ip) :
    f.entryId.isSome ∧ f.sourceType = .dhcpReservation := by
  obtain ⟨e, -, he⟩ | ⟨l, hmem, rfl⟩ := freshView_origin h
  · obtain ⟨ip, -, rfl⟩ := Option.map_eq_some_iff.mp he
    exact ⟨rfl, rfl⟩
  · exact absurd rfl (hl l hmem)

end View

section Upserts

variable {c : Scope} {fresh rest : List Fresh} {f : Fresh} {db db' : Db} {n : Counts} {r x : Row Reservation}

theorem loop_through {β : Type} {body : Db → Counts → β → Db × Except Failure Counts} {I : List β → Db → Prop}
    {bs : List β} (step : ∀ b bs db n, I (b :: bs) db → ∃ db' n', body db n b = (db', .ok n') ∧ I bs db')
    (hI : I bs db) : ∃ db' n', loop body db n bs = (db', .ok n') ∧ I [] db' := by
  induction bs generalizing db n with
  | nil => exact ⟨db, n, rfl, hI⟩
  | cons b bs ih =>
    obtain ⟨db₁, n₁, hb, h₁⟩ := step b bs db n hI
    obtain ⟨db', n', hloop, h'⟩ := ih h₁ (n := n₁)
    refine ⟨db', n', ?_, h'⟩
    rw [loop, hb]
    exact hloop

/-- What has become of the rows that were there. -/
theorem tracks (hu : Upserted c fresh db rest db') (hr : r ∈ db.rows) :
    r ∈ db'.rows ∨ ∃ f ∈ fresh, f ∉ rest ∧ r ∈ c.rows ∧ Stands f r ∧ ⟨r.id, settle c f r⟩ ∈ db'.rows := by
  by_cases h : ∃ f ∈ fresh, r ∈ c.rows ∧ Stands f r
  · obtain ⟨f, hf, hmem, hs⟩ := h
    by_cases hrest : f ∈ rest
    · exact .inl (hu.waiting f hrest r hmem hs)
    · exact .inr ⟨f, hf, hrest, hmem, hs, hu.settled f hf hrest r hmem hs⟩
  · refine .inl (hu.others r hr ?_)
    rintro f hf r' hr' hs rfl
    exact h ⟨f, hf, hr', hs⟩

/-- The rows that were not there stand for entries without a row. -/
def Origin (c : Scope) (fresh : List Fresh) (db : Db) (rest : List Fresh) (db' : Db) : Prop :=
  ∀ x ∈ db'.rows, (∃ r ∈ db.rows, r.id = x.id) ∨
    ∃ f ∈ fresh, f ∉ rest ∧ (∀ r ∈ c.rows, ¬ Stands f r) ∧ x.data = freshReservation c f

theorem uniqueKey_settle (c : Scope) (f : Fresh) (r : Row Reservation) :
    uniqueKey (settle c f r) = uniqueKey r.data := by
  obtain ⟨hsub, hip, hst⟩ := settle_place c f r
  rw [uniqueKey, uniqueKey, hsub, hip, hst]

theorem key_eq (hu : Upserted c fresh db rest db') (hr : r ∈ db.rows) (hx : x ∈ db'.rows)
    (hid : r.id = x.id) :
    uniqueKey x.data = uniqueKey r.data := by
  obtain h | ⟨f, -, -, -, -, h⟩ := tracks hu hr
  · rw [Table.eq_of_id h hx hid]
  · have hx' := Table.eq_of_id h hx hid
    rw [← hx']
    exact uniqueKey_settle c f r

theorem free_of_origin (hc : Ready c fresh db) (hu : Upserted c fresh db (f :: rest) db')
    (ho : Origin c fresh db (f :: rest) db') (hnone : ∀ r ∈ c.rows, ¬ Stands f r) (hx : x ∈ db'.rows) :
    uniqueKey x.data ≠ uniqueKey (freshReservation c f) := by
  intro hk
  have hf : f ∈ fresh := hu.tail.subset List.mem_cons_self
  obtain ⟨r, hr, hid⟩ | ⟨g, hg, hrest, -, hdata⟩ := ho x hx
  · rw [key_eq hu hr hx hid, uniqueKey, uniqueKey] at hk
    obtain ⟨ip, hip, hkey⟩ := Option.map_eq_some_iff.mp hk
    rw [Prod.mk.injEq, Prod.mk.injEq] at hkey
    obtain ⟨hsub, rfl, hst⟩ := hkey
    exact hnone r ((hc.rows r).mpr ⟨hr, hsub⟩) ⟨hst, hip⟩
  · rw [hdata] at hk
    have hip : g.ip = f.ip := congrArg
      (fun k : String × String × ReservationStatus => k.2.1) (Option.some.inj hk)
    exact hrest (List.inj_on_of_nodup_map hc.nodup hg hf hip ▸ List.mem_cons_self)

theorem upsertFresh_ok (hc : Ready c fresh db) (hu : Upserted c fresh db (f :: rest) db')
    (ho : Origin c fresh db (f :: rest) db') : ∃ db₂ n', upsertFresh c db' n f = (db₂, .ok n') := by
  have hf : f ∈ fresh := hu.tail.subset List.mem_cons_self
  have hfind : ∀ r ∈ c.rows, Stands f r → db'.reservations.find r.id = some r :=
    fun r hr hs => Table.find_of_mem (hu.waiting f List.mem_cons_self r hr hs)
  have hupdate : ∀ r ∈ c.rows, Stands f r → ∀ g : Reservation → Reservation,
    (∀ a, uniqueKey (g a) = uniqueKey a) →
      ∃ db₂ row, db'.updateRow .refreshUpsert r.id g = (db₂, .ok row) := by
    intro r hr hs g hg
    obtain ⟨t, -, h⟩ := Db.updateRow_of_key (w := .refreshUpsert) (hfind r hr hs) hg
    exact ⟨_, _, h⟩
  rw [upsertFresh]
  split
  · next r hr =>
    obtain ⟨hmem, hs, -⟩ := pendingByIp_some (hc.named f hf) hr
    have hcollide : ∃ db₂ n', reconcilePending.collided c db' r f n = (db₂, .ok n') := by
      obtain ⟨db₂, row, h⟩ :=
        hupdate r hmem hs (collide (collisionText f.sourceType f.mac) c.now) fun _ => rfl
      exact ⟨db₂, { n with skipped := n.skipped + 1 }, by rw [reconcilePending.collided, h]; rfl⟩
    rw [reconcilePending]
    split
    · next entryId _ =>
      split
      · obtain ⟨db₂, row, h⟩ :=
          hupdate r hmem hs (adopt f c.subnet.discoveredBy c.scopeId entryId c.now) fun _ => rfl
        exact ⟨db₂, { n with updated := n.updated + 1 }, by rw [h]; rfl⟩
      · exact hcollide
    · exact hcollide
  · next hpending =>
    split
    · exact ⟨_, _, rfl⟩
    · next hmanual =>
      split
      · next r hr =>
        obtain ⟨hmem, hd⟩ := List.mem_filter.mp (List.mem_of_find?_eq_some hr)
        have hip := List.find?_some hr
        simp only [Bool.and_eq_true, decide_eq_true_eq] at hd hip
        have hs : Stands f r := (stands_iff (hc.named f hf)).mpr ⟨hd.1, hip⟩
        dsimp only
        split
        · exact ⟨_, _, rfl⟩
        · obtain ⟨db₂, row, h⟩ := hupdate r hmem hs (applyDiff (diffOf f r.data c.now)) fun _ => rfl
          exact ⟨db₂, { n with updated := n.updated + 1 }, by rw [h]; rfl⟩
      · next hnone =>
        have hfree : ∀ r ∈ c.rows, ¬ Stands f r := by
          intro r hr hs
          cases hd : isDhcp r with
          | false =>
            have hp := pendingByIp_none (hc.named f hf) hpending hr hs
            exact hmanual ((manualByIp_iff (hc.named f hf)).mpr ⟨r, hr, hs, hd, hp⟩)
          | true =>
            obtain ⟨hl, hip⟩ := (stands_iff (hc.named f hf)).mp hs
            have hexists : r ∈ existingRows c.rows := List.mem_filter.mpr ⟨hr, by simp [hl, hd]⟩
            exact absurd (decide_eq_true hip) (List.find?_eq_none.mp hnone r hexists)
        obtain ⟨t, ht⟩ : ∃ t, db'.reservations.insert (freshReservation c f) = some t :=
          Table.insert_isSome fun x hx hk => absurd hk (free_of_origin hc hu ho hfree hx)
        obtain ⟨t', -, h⟩ | ⟨h, -⟩ := Db.createRow_cases db' .refreshUpsert (freshReservation c f)
        · exact ⟨{ db' with reservations := t' }, { n with created := n.created + 1 }, by rw [h]; rfl⟩
        · rw [ht] at h
          cases h

theorem origin_step (hc : Ready c fresh db) {db₂ : Db} {n' : Counts}
    (hu : Upserted c fresh db (f :: rest) db')
    (ho : Origin c fresh db (f :: rest) db') (h : upsertFresh c db' n f = (db₂, .ok n')) :
    Origin c fresh db rest db₂ := by
  have hf : f ∈ fresh := hu.tail.subset List.mem_cons_self
  have hrest : f ∉ rest := by
    have hnodup := (hu.tail.sublist.map (·.ip)).nodup hc.nodup
    rw [List.map_cons, List.nodup_cons] at hnodup
    exact fun hmem => hnodup.1 (List.mem_map_of_mem hmem)
  have hold : ∀ x ∈ db'.rows, (∃ r ∈ db.rows, r.id = x.id) ∨
      ∃ g ∈ fresh, g ∉ rest ∧ (∀ r ∈ c.rows, ¬ Stands g r) ∧ x.data = freshReservation c g := by
    intro x hx
    refine (ho x hx).imp_right ?_
    rintro ⟨g, hg, hnot, hg'⟩
    exact ⟨g, hg, fun hmem => hnot (List.mem_cons_of_mem f hmem), hg'⟩
  obtain ⟨r, hr, hs, ⟨rfl, -⟩ | ⟨g, t, ht, rfl, -⟩⟩ | ⟨hnone, t, ht, rfl⟩ :=
    upsertFresh_cases (hc.named f hf) h
  · exact hold
  · intro x hx
    have hmem := hu.waiting f List.mem_cons_self r hr hs
    change x ∈ t.rows at hx
    rw [(Table.updateWhere_rows ht).1, Table.mem_map_amend hmem] at hx
    obtain ⟨hx, -⟩ | rfl := hx
    · exact hold x hx
    · exact .inl ⟨r, ((hc.rows r).mp hr).1, rfl⟩
  · intro x hx
    change x ∈ t.rows at hx
    rw [(Table.insert_rows ht).1, List.mem_append, List.mem_singleton] at hx
    obtain hx | rfl := hx
    · exact hold x hx
    · exact .inr ⟨f, hf, hrest, hnone, rfl⟩

theorem upserts_through (hc : Ready c fresh db) : ∃ db₁ n₁, loop (upsertFresh c) db {} fresh = (db₁, .ok n₁) ∧
    Upserted c fresh db [] db₁ ∧ Origin c fresh db [] db₁ := by
  refine loop_through
    (I := fun rest db' => Upserted c fresh db rest db' ∧ Origin c fresh db rest db') ?_ ⟨?_, ?_⟩
  · rintro f rest db' n ⟨hu, ho⟩
    obtain ⟨db₂, n', h⟩ := upsertFresh_ok (n := n) hc hu ho
    exact ⟨db₂, n', h, hu.step hc h, origin_step hc hu ho h⟩
  · exact ⟨List.suffix_refl _, fun f _ r hr _ => ((hc.rows r).mp hr).1, fun f hf hnot => absurd hf hnot,
      fun f hf hnot => absurd hf hnot, fun x hx _ => hx⟩
  · exact fun x hx => .inl ⟨x, hx, rfl⟩

end Upserts

section Truth

variable {c : Scope} {cmdb : List ReservedAddress} {live : List DhcpLease} {f : Fresh} {db db' : Db}
  {now : Nat} {r x : Row Reservation}

/-- The row was not there, or its last sighting was another. -/
def Advanced (db : Db) (x : Row Reservation) : Prop := lastSeen db x.id ≠ some x.data.lastSeenLeased

/-- A reserved row is seen only where the device leases its address. -/
def TruthfulIn (live : List DhcpLease) (db db' : Db) : Prop :=
  ∀ x ∈ db'.rows, x.data.sourceType = .dhcpReservation → Advanced db x →
    ∃ l ∈ live, x.data.ipAddress = some l.ip

/-- The row at the address of a reserved entry keeps its last sighting: it is a
queued push that the entry does not settle or a row that is not of DHCP, or this
instant is what it has. -/
def LeftAlone (rows : List (Row Reservation)) (now : Nat) (f : Fresh) : Prop :=
  ∃ r ∈ rows, Stands f r ∧
    ((if isPending r then adopts f r.data else isDhcp r) = false ∨ r.data.lastSeenLeased = some now)

/-- Every reserved address that no lease has meets a row that is left alone. -/
def HonestIn (rows : List (Row Reservation)) (now : Nat) (cmdb : List ReservedAddress)
    (live : List DhcpLease) : Prop :=
  ∀ f ∈ freshView cmdb live, f.entryId.isSome → (∀ l ∈ live, l.ip ≠ f.ip) → LeftAlone rows now f

theorem lastSeen_of_mem (hr : r ∈ db.rows) : lastSeen db r.id = some r.data.lastSeenLeased := by
  have hfind : db.reservations.find r.id = some r := Table.find_of_mem hr
  rw [lastSeen, hfind]
  rfl

theorem settle_lastSeen_pending (hp : isPending r = true) :
    (settle c f r).lastSeenLeased = if adopts f r.data then some c.now else r.data.lastSeenLeased := by
  rw [settle, if_pos hp]
  split <;> rfl

theorem settle_lastSeen_dhcp (hp : isPending r = false) (hd : isDhcp r = true)
    (hf : f.sourceType = .dhcpReservation) :
    (settle c f r).lastSeenLeased = some c.now := by
  rw [settle, if_neg (by simp [hp]), if_pos hd]
  simp [applyDiff, diffOf, hf]

theorem settle_of_manual (hp : isPending r = false) (hd : isDhcp r = false) : settle c f r = r.data := by
  rw [settle, if_neg (by simp [hp]), if_neg (by simp [hd])]

theorem settle_lastSeen (hf : f.sourceType = .dhcpReservation) : (settle c f r).lastSeenLeased =
    if (if isPending r then adopts f r.data else isDhcp r) then some c.now else r.data.lastSeenLeased := by
  cases hp : isPending r with
  | true =>
    rw [settle_lastSeen_pending hp]
    rfl
  | false =>
    cases hd : isDhcp r with
    | true => rw [settle_lastSeen_dhcp hp hd hf]; rfl
    | false => rw [settle_of_manual hp hd]; rfl

theorem settle_sourceType (hf : f.sourceType = .dhcpReservation)
    (h : (if isPending r then adopts f r.data else isDhcp r) = true) :
    (settle c f r).sourceType = .dhcpReservation := by
  cases hp : isPending r with
  | true =>
    rw [hp, if_pos rfl] at h
    rw [settle, if_pos hp, if_pos h]
    rfl
  | false =>
    rw [hp, if_neg Bool.false_ne_true] at h
    rw [settle, if_neg (by simp [hp]), if_pos h]
    exact (applyDiff_authority f r.data c.now).1.trans hf

theorem settle_of_leftAlone (hc : Ready c (freshView cmdb live) db) (hf : f ∈ freshView cmdb live)
    (hl : ∀ l ∈ live, l.ip ≠ f.ip) (ha : LeftAlone c.rows c.now f) (hr : r ∈ c.rows) (hs : Stands f r) :
    (settle c f r).lastSeenLeased = r.data.lastSeenLeased := by
  obtain ⟨r', hr', hs', h⟩ := ha
  obtain rfl := hc.one hr hr' hs hs'
  rw [settle_lastSeen (entry_of_unleased hf hl).2]
  obtain h | h := h
  · rw [h]
    rfl
  · rw [h, ite_self]

theorem truthfulIn_upserts_iff (hc : Ready c (freshView cmdb live) db)
    (hu : Upserted c (freshView cmdb live) db [] db')
    (ho : Origin c (freshView cmdb live) db [] db') :
    TruthfulIn live db db' ↔ HonestIn c.rows c.now cmdb live := by
  constructor
  · intro ht f hf _ hl
    obtain ⟨-, htype⟩ := entry_of_unleased hf hl
    by_cases hstands : ∃ r ∈ c.rows, Stands f r
    · obtain ⟨r, hr, hs⟩ := hstands
      refine ⟨r, hr, hs, ?_⟩
      by_contra hnot
      rw [not_or, Bool.not_eq_false] at hnot
      have hmem := hu.settled f hf List.not_mem_nil r hr hs
      have hseen : lastSeen db r.id = some r.data.lastSeenLeased := lastSeen_of_mem ((hc.rows r).mp hr).1
      obtain ⟨l, hlive, hip⟩ := ht _ hmem (settle_sourceType htype hnot.1) (by
        rw [Advanced, hseen, settle_lastSeen htype, if_pos hnot.1]
        exact fun he => hnot.2 (Option.some.inj he))
      rw [(settle_place c f r).2.1, hs.2] at hip
      exact hl l hlive (Option.some.inj hip).symm
    · have hnone : ∀ r ∈ c.rows, ¬ Stands f r := fun r hr hs => hstands ⟨r, hr, hs⟩
      obtain ⟨x, hx, hdata⟩ := hu.created f hf List.not_mem_nil hnone
      have hnew : lastSeen db x.id = none := by
        by_contra hsome
        obtain ⟨v, hv⟩ := Option.ne_none_iff_exists'.mp hsome
        obtain ⟨r, hr, -⟩ := Option.map_eq_some_iff.mp hv
        obtain ⟨hr, hid⟩ := Table.mem_of_find hr
        have hk := key_eq hu hr hx hid
        rw [hdata, uniqueKey, uniqueKey] at hk
        obtain ⟨ip, hip, hkey⟩ := Option.map_eq_some_iff.mp hk.symm
        rw [Prod.mk.injEq, Prod.mk.injEq] at hkey
        obtain ⟨hsub, rfl, hst⟩ := hkey
        exact hnone r ((hc.rows r).mpr ⟨hr, hsub⟩) ⟨hst, hip⟩
      obtain ⟨l, hlive, hip⟩ := ht x hx (by rw [hdata]; exact htype)
        (by rw [Advanced, hnew]; exact (Option.some_ne_none _).symm)
      rw [hdata] at hip
      exact absurd (Option.some.inj hip).symm (hl l hlive)
  · intro hh x hx _ hadv
    obtain ⟨r, hr, hid⟩ | ⟨f, hf, -, hnone, hdata⟩ := ho x hx
    · obtain hmem | ⟨f, hf, -, hrow, hs, hmem⟩ := tracks hu hr
      · rw [← Table.eq_of_id hmem hx hid] at hadv
        exact absurd (lastSeen_of_mem hr) hadv
      · have hx' : ⟨r.id, settle c f r⟩ = x := Table.eq_of_id hmem hx hid
        by_contra hnot
        have hl : ∀ l ∈ live, l.ip ≠ f.ip := by
          intro l hlive hip
          refine hnot ⟨l, hlive, ?_⟩
          rw [← hx']
          exact ((settle_place c f r).2.1.trans hs.2).trans (congrArg some hip.symm)
        have hkept := settle_of_leftAlone hc hf hl (hh f hf (entry_of_unleased hf hl).1 hl) hrow hs
        rw [← hx'] at hadv
        exact hadv ((lastSeen_of_mem hr).trans (congrArg some hkept.symm))
    · by_contra hnot
      have hl : ∀ l ∈ live, l.ip ≠ f.ip := by
        intro l hlive hip
        refine hnot ⟨l, hlive, ?_⟩
        rw [hdata]
        exact congrArg some hip.symm
      obtain ⟨r, hr, hs, -⟩ := hh f hf (entry_of_unleased hf hl).1 hl
      exact hnone r hr hs

end Truth

section Refresh

variable {c : Scope} {live : List DhcpLease} {db db' db'' : Db} {n : Counts}

/-- The rows differ in their status alone. -/
structure Rewritten (x y : Row Reservation) : Prop where
  id : y.id = x.id
  sourceType : y.data.sourceType = x.data.sourceType
  ipAddress : y.data.ipAddress = x.data.ipAddress
  lastSeenLeased : y.data.lastSeenLeased = x.data.lastSeenLeased

def SameSightings (db db' : Db) : Prop :=
  (∀ x ∈ db.rows, ∃ y ∈ db'.rows, Rewritten x y) ∧ ∀ y ∈ db'.rows, ∃ x ∈ db.rows, Rewritten x y

theorem sameSightings_release {r : Row Reservation} (h : SameSightings db db') :
    SameSightings db (releaseGone db' n r).1 := by
  change SameSightings db (db'.updateRow .refreshRelease r.id markReleased).1
  obtain ⟨_, t, -, ht, hc⟩ | ⟨vs, e, hc, -⟩ := Db.updateRow_cases db' .refreshRelease r.id markReleased
  · rw [hc]
    have hamend : ∀ y, Rewritten y (amend (·.id = r.id) markReleased y) := by
      intro y
      by_cases hy : y.id = r.id
      · rw [amend_of_pos (by simpa using hy)]
        exact ⟨rfl, rfl, rfl, rfl⟩
      · rw [amend_of_neg (by simpa using hy)]
        exact ⟨rfl, rfl, rfl, rfl⟩
    have htrans : ∀ x y, Rewritten x y → Rewritten x (amend (·.id = r.id) markReleased y) := by
      intro x y hxy
      have hy := hamend y
      exact ⟨hy.id.trans hxy.id, hy.sourceType.trans hxy.sourceType, hy.ipAddress.trans hxy.ipAddress,
        hy.lastSeenLeased.trans hxy.lastSeenLeased⟩
    constructor
    · intro x hx
      obtain ⟨y, hy, hxy⟩ := h.1 x hx
      refine ⟨_, ?_, htrans x y hxy⟩
      change _ ∈ t.rows
      rw [(Table.updateWhere_rows ht).1]
      exact List.mem_map_of_mem hy
    · intro z hz
      change z ∈ t.rows at hz
      rw [(Table.updateWhere_rows ht).1] at hz
      obtain ⟨y, hy, rfl⟩ := List.mem_map.mp hz
      obtain ⟨x, hx, hxy⟩ := h.2 y hy
      exact ⟨x, hx, htrans x y hxy⟩
  · rw [hc]
    exact h

theorem truthfulIn_congr (h : SameSightings db' db'') : TruthfulIn live db db'' ↔ TruthfulIn live db db' := by
  constructor
  · intro ht x hx htype hadv
    obtain ⟨y, hy, hxy⟩ := h.1 x hx
    rw [← hxy.ipAddress]
    refine ht y hy (hxy.sourceType.trans htype) ?_
    rw [Advanced, hxy.id, hxy.lastSeenLeased]
    exact hadv
  · intro ht y hy htype hadv
    obtain ⟨x, hx, hxy⟩ := h.2 y hy
    rw [hxy.ipAddress]
    refine ht x hx (hxy.sourceType.symm.trans htype) ?_
    rw [Advanced, hxy.id, hxy.lastSeenLeased] at hadv
    exact hadv

/-- Whatever becomes of the releases, the sightings are those of the upserts. -/
theorem reconcileScope_sightings {fresh : List Fresh} (hc : Ready c fresh db) :
    ∃ db₁, Upserted c fresh db [] db₁ ∧ Origin c fresh db [] db₁ ∧
      SameSightings db₁ (reconcileScope c db fresh).1 := by
  obtain ⟨db₁, n₁, hloop, hu, ho⟩ := upserts_through hc
  refine ⟨db₁, hu, ho, ?_⟩
  rw [reconcileScope, hloop]
  exact loop_invariant (I := SameSightings db₁) (fun _ _ _ _ h => sameSightings_release h)
    ⟨fun x hx => ⟨x, hx, rfl, rfl, rfl, rfl⟩, fun x hx => ⟨x, hx, rfl, rfl, rfl, rfl⟩⟩

variable (N : Package) (w : World) (subnetId : String) (actor : Option String) (now : Nat)
  (leases : List MonitorEntry) (faults : RefreshFaults)

def liveLeases : List DhcpLease :=
  match deviceLists N w subnetId leases faults with
  | .ok (_, _, _, live) => live
  | .error _ => []

def reservedEntries : List ReservedAddress :=
  match deviceLists N w subnetId leases faults with
  | .ok (_, _, cmdb, _) => cmdb
  | .error _ => []

/-- The refresh advances the last sighting of a reservation only where the live
leases have its address. -/
def Truthful : Prop :=
  TruthfulIn (liveLeases N w subnetId leases faults) w.db
    (refreshSubnet N w subnetId actor now leases faults).1.db

def Honest : Prop :=
  HonestIn (subnetRows w.db subnetId) now (reservedEntries N w subnetId leases faults)
    (liveLeases N w subnetId leases faults)

variable {N w subnetId actor now leases faults}

theorem refreshSubnet_unread {e : Failure} (h : deviceLists N w subnetId leases faults = .error e) :
    (refreshSubnet N w subnetId actor now leases faults).1 = w := by
  have hread : readDevice N w subnetId leases faults = .error e := by
    rw [readDevice_eq, h]
    rfl
  rw [refreshSubnet, hread]

theorem refreshSubnet_read {subnet : Subnet} {scopeId : Nat} {cmdb : List ReservedAddress}
    (h : deviceLists N w subnetId leases faults = .ok (subnet, scopeId, cmdb, live)) :
    (refreshSubnet N w subnetId actor now leases faults).1.db.rows =
      (reconcileScope ⟨subnet, scopeId, subnetRows w.db subnetId, actor,
        now⟩ w.db (freshView cmdb live)).1.rows := by
  have hread : readDevice N w subnetId leases faults = .ok (subnet, scopeId, freshView cmdb live) := by
    rw [readDevice_eq, h]
    rfl
  rw [refreshSubnet, hread]
  dsimp only
  split
  · next heq => rw [heq]
  · next heq =>
    rw [heq]
    rfl

theorem ready_read {subnet : Subnet} {scopeId : Nat} {cmdb : List ReservedAddress}
    (h : deviceLists N w subnetId leases faults = .ok (subnet, scopeId, cmdb, live)) :
    Ready ⟨subnet, scopeId, subnetRows w.db subnetId, actor, now⟩ (freshView cmdb live) w.db := by
  obtain ⟨hid, hlive⟩ := deviceLists_ok h
  refine ⟨fun r => ?_, ?_, freshView_ips cmdb live, fun f hf => freshView_named hlive hf⟩
  · rw [subnetRows, List.mem_filter, decide_eq_true_eq, hid]
  · exact (List.filter_sublist.map Row.id).nodup w.db.reservations.ids_nodup

theorem truthful_iff_honest :
    Truthful N w subnetId actor now leases faults ↔ Honest N w subnetId now leases faults := by
  rw [Truthful, Honest, liveLeases, reservedEntries]
  cases h : deviceLists N w subnetId leases faults with
  | error e =>
    rw [refreshSubnet_unread h]
    refine ⟨fun _ f hf => ?_, fun _ x hx _ hadv => absurd (lastSeen_of_mem hx) hadv⟩
    cases hf
  | ok lists =>
    obtain ⟨subnet, scopeId, cmdb, live⟩ := lists
    have hc : Ready ⟨subnet, scopeId, subnetRows w.db subnetId, actor, now⟩ (freshView cmdb live) w.db :=
      ready_read h
    obtain ⟨db₁, hu, ho, hsame⟩ := reconcileScope_sightings hc
    have hrows : (refreshSubnet N w subnetId actor now leases faults).1.db.rows =
        (reconcileScope ⟨subnet, scopeId, subnetRows w.db subnetId, actor,
          now⟩ w.db (freshView cmdb live)).1.rows :=
      refreshSubnet_read h
    have hdb : TruthfulIn live w.db (refreshSubnet N w subnetId actor now leases faults).1.db ↔
        TruthfulIn live w.db
          (reconcileScope ⟨subnet, scopeId, subnetRows w.db subnetId, actor,
            now⟩ w.db (freshView cmdb live)).1 := by
      rw [TruthfulIn, TruthfulIn, hrows]
    rw [hdb, truthfulIn_congr hsame]
    exact truthfulIn_upserts_iff hc hu ho

end Refresh

section Runs

variable (N : Package) (staleAfterDays id : Nat)

/-- A refresh finds no lease at the address of the row. -/
def Offline (s : State) (e : Event) : Prop :=
  match e.call with
  | .refresh subnetId _ leases faults => ∀ r ∈ s.find id, r.data.subnetId = subnetId →
      ∀ l ∈ liveLeases N s.world subnetId leases faults, r.data.ipAddress ≠ some l.ip
  | _ => True

def HonestAt (s : State) (e : Event) : Prop :=
  match e.call with
  | .refresh subnetId _ leases faults => Honest N s.world subnetId e.time leases faults
  | _ => True

/-- The row is one to alert of, and its last signal is out of the window. -/
structure Overdue (v : Option Nat) (s : State) (now : Nat) : Prop where
  row : ∃ r, s.find id = some r ∧ alertable r
  watched : (s.stale id).staleIgnored = false
  awake : snoozed s now id = false
  late : v.getD (max (s.stale id).createdAt (getDetectionStartedAt s now).2) + staleAfterDays * dayMs ≤ now

/-- In a run whose refreshes find the client of the row offline, the row keeps
its last sighting and is listed when it is overdue. -/
def EventuallyListed (s : State) (events : List Event) : Prop :=
  ∀ v, sightedAt s id = some v → Along (step N staleAfterDays) (Offline N id) s events →
    sightedAt (run N staleAfterDays s events) id = some v ∧
      ∀ now, Overdue staleAfterDays id v (run N staleAfterDays s events) now →
        id ∈ (listStaleReservations (run N staleAfterDays s events) staleAfterDays now .active).2.map (·.id)

variable {N staleAfterDays id} {s : State} {e : Event} {v : Option Nat}

theorem refresh_keeps {w : World} {subnetId : String} {actor : Option String} {now : Nat}
    {leases : List MonitorEntry}
    {faults : RefreshFaults} {r : Row Reservation} (hh : Honest N w subnetId now leases faults)
    (hr : r ∈ w.db.rows)
    (hoff : r.data.subnetId = subnetId →
      ∀ l ∈ liveLeases N w subnetId leases faults, r.data.ipAddress ≠ some l.ip) :
    lastSeen (refreshSubnet N w subnetId actor now leases faults).1.db r.id = some r.data.lastSeenLeased := by
  rw [Honest, liveLeases, reservedEntries] at hh
  rw [liveLeases] at hoff
  cases h : deviceLists N w subnetId leases faults with
  | error e =>
    rw [refreshSubnet_unread h]
    exact lastSeen_of_mem hr
  | ok lists =>
    obtain ⟨subnet, scopeId, cmdb, live⟩ := lists
    rw [h] at hh hoff
    have hc : Ready ⟨subnet, scopeId, subnetRows w.db subnetId, actor, now⟩ (freshView cmdb live) w.db :=
      ready_read h
    obtain ⟨db₁, hu, -, hsame⟩ := reconcileScope_sightings hc
    have hkept : ∃ x ∈ db₁.rows, x.id = r.id ∧ x.data.lastSeenLeased = r.data.lastSeenLeased := by
      obtain hmem | ⟨f, hf, -, hrow, hs, hmem⟩ := tracks hu hr
      · exact ⟨r, hmem, rfl, rfl⟩
      · have hl : ∀ l ∈ live, l.ip ≠ f.ip := by
          intro l hlive hip
          have hsub : r.data.subnetId = subnetId := by
            simpa using (List.mem_filter.mp hrow).2
          exact hoff hsub l hlive (hs.2.trans (congrArg some hip.symm))
        exact ⟨_, hmem, rfl, settle_of_leftAlone hc hf hl (hh f hf (entry_of_unleased hf hl).1 hl) hrow hs⟩
    obtain ⟨x, hx, hid, hseen⟩ := hkept
    obtain ⟨y, hy, hxy⟩ := hsame.1 x hx
    have hrows : y ∈ (refreshSubnet N w subnetId actor now leases faults).1.db.rows := by
      rw [refreshSubnet_read h]
      exact hy
    rw [← hid, ← hxy.id, lastSeen_of_mem hrows, hxy.lastSeenLeased, hseen]

theorem sighted_step (s : State) (e : Event) (h : sightedAt s id = some v)
    (hc : HonestAt N s e ∧ Offline N id s e) :
    sightedAt (step N staleAfterDays s e) id = some v := by
  obtain ⟨now, call⟩ := e
  cases call with
  | refresh subnetId actor leases faults =>
    obtain ⟨r, hr, rfl⟩ := Option.map_eq_some_iff.mp h
    obtain ⟨hmem, rfl⟩ := Table.mem_of_find hr
    exact refresh_keeps hc.1 hmem fun hsub => hc.2 r hr hsub
  | flag => exact step_unseen staleAfterDays N rfl h
  | snooze _ => exact step_unseen staleAfterDays N rfl h
  | setIgnored _ _ => exact step_unseen staleAfterDays N rfl h

theorem listed_of_overdue {now : Nat} (hdays : staleAfterDays ≠ 0) (hseen : sightedAt s id = some v)
    (h : Overdue staleAfterDays id v s now) :
    id ∈ (listStaleReservations s staleAfterDays now .active).2.map (·.id) := by
  obtain ⟨⟨r, hr, ha⟩, hw, hz, hlate⟩ := h
  obtain ⟨hmem, rfl⟩ := Table.mem_of_find hr
  have hv : r.data.lastSeenLeased = v := Option.some.inj ((lastSeen_of_mem hmem).symm.trans hseen)
  rw [listStaleReservations, if_neg hdays]
  simp only [List.mem_map, List.mem_filter, alertRows, List.mem_mergeSort, Bool.and_eq_true,
    Bool.not_eq_true',
    decide_eq_true_eq]
  refine ⟨_, ⟨r, ⟨⟨hmem, ha, hw⟩, hz, ?_⟩, rfl⟩, rfl⟩
  rw [lastSignal, hv]
  omega

theorem eventuallyListed (hdays : staleAfterDays ≠ 0) {events : List Event}
    (hh : Along (step N staleAfterDays) (HonestAt N) s events) :
    EventuallyListed N staleAfterDays id s events := by
  intro v hv hoff
  have hseen : sightedAt (run N staleAfterDays s events) id = some v :=
    foldl_invariant (I := fun s => sightedAt s id = some v)
      (fun s e h hc => sighted_step s e h hc) hv (hh.and hoff)
  exact ⟨hseen, fun now ho => listed_of_overdue hdays hseen ho⟩

/-- A refresh is truthful exactly where the reserved addresses without a lease
meet rows that are left alone, and in a run of such refreshes a reservation
whose client stays offline comes to be listed. -/
theorem sightings_truthful_iff (N : Package) :
    (∀ w subnetId actor now leases faults,
      Truthful N w subnetId actor now leases faults ↔ Honest N w subnetId now leases faults) ∧
    ∀ staleAfterDays id s events, staleAfterDays ≠ 0 → Along (step N staleAfterDays) (HonestAt N) s events →
      EventuallyListed N staleAfterDays id s events :=
  ⟨fun _ _ _ _ _ _ => truthful_iff_honest, fun _ _ _ _ hdays hh => eventuallyListed hdays hh⟩

def daily : List Event := [refreshAt dayMs, refreshAt (2 * dayMs)]

theorem scanner_offline : Along (step reference 1) (Offline reference 0) scannerState daily := by
  have hempty : ∀ w, liveLeases reference w "lan" [] {} = [] := by
    intro w
    rw [liveLeases]
    split
    · next h =>
      obtain ⟨_, _, h⟩ := bind_ok h
      obtain ⟨_, _, h⟩ := bind_ok h
      obtain ⟨_, _, h⟩ := bind_ok h
      obtain ⟨_, _, h⟩ := bind_ok h
      obtain ⟨_, _, h⟩ := bind_ok h
      cases h
      rfl
    · rfl
  refine ⟨fun _ _ _ l hl => ?_, fun _ _ _ l hl => ?_, trivial⟩
  · rw [hempty] at hl
    cases hl
  · rw [hempty] at hl
    cases hl

/-- The reserved address of a scanner that is never online is seen at every
refresh, and never listed. -/
theorem offline_scanner_sighted :
    ((refreshSubnet reference (clinic []) "lan" none 5 [] {}).1.db.rows.map fun r =>
      (r.data.sourceType, r.data.ipAddress, r.data.lastSeenLeased)) =
        [(.dhcpReservation, some "10.0.0.5", some 5)] ∧
    ¬ Truthful reference (clinic []) "lan" none 5 [] {} ∧
      ¬ EventuallyListed reference 1 0 scannerState daily := by
  refine ⟨by rfl, fun h => ?_, fun h => ?_⟩
  · have hrow : ∃ x ∈ (refreshSubnet reference (clinic []) "lan" none 5 [] {}).1.db.rows,
        x.data.sourceType = .dhcpReservation ∧ lastSeen (clinic []).db x.id ≠ some x.data.lastSeenLeased := by
      decide +kernel
    obtain ⟨x, hx, htype, hadv⟩ := hrow
    obtain ⟨l, hl, -⟩ := h x hx htype hadv
    have hlive : liveLeases reference (clinic []) "lan" [] {} = [] := by rfl
    rw [hlive] at hl
    cases hl
  · obtain ⟨hseen, -⟩ := h (some 0) (by decide +kernel) scanner_offline
    revert hseen
    decide +kernel

end Runs

end Polaris.Sightings
