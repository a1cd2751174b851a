import Polaris.SubnetRefresh

namespace Polaris.RefreshView

open Polaris.Lib.Store Polaris.Lib.Rollup Polaris.Lib.Faults Polaris.Lib.Checks Polaris.Netmask Polaris.Cidr
  Polaris.Mac Polaris.Transport
  Polaris.ReservationPush Polaris.Reservations Polaris.DnsResolved Polaris.SubnetRefresh

section View

variable {cmdb : List ReservedAddress} {live : List DhcpLease} {f : Fresh}

/-- The device's view: its reserved addresses, and its leases at the others. -/
def Seen (cmdb : List ReservedAddress) (live : List DhcpLease) (f : Fresh) : Prop :=
  (∃ e ∈ cmdb, ofEntry e = some f) ∨ ∃ l ∈ live, f = ofLease l ∧ ∀ e ∈ cmdb, truthy e.ip ≠ some l.ip

/-- Neither list names an address twice. -/
def Distinct (cmdb : List ReservedAddress) (live : List DhcpLease) : Prop :=
  (cmdb.filterMap (truthy ·.ip)).Nodup ∧ (live.map (·.ip)).Nodup

instance (cmdb : List ReservedAddress) (live : List DhcpLease) : Decidable (Distinct cmdb live) :=
  inferInstanceAs (Decidable (_ ∧ _))

theorem ofEntry_ip (e : ReservedAddress) : (ofEntry e).map (·.ip) = truthy e.ip := by
  cases h : truthy e.ip <;> simp [ofEntry, h]

theorem foldl_addLease_nodup {fresh : List Fresh} (h : (fresh.map (·.ip)).Nodup) :
    ((live.foldl addLease fresh).map (·.ip)).Nodup := by
  induction live generalizing fresh with
  | nil => exact h
  | cons l live ih =>
    apply ih
    unfold addLease
    split
    · exact h
    · rename_i hnone
      rw [List.map_append, List.nodup_append]
      refine ⟨h, by simp, fun ip hip ip' hip' heq => hnone ?_⟩
      obtain ⟨g, hg, rfl⟩ := List.mem_map.mp hip
      rw [List.map_singleton, List.mem_singleton] at hip'
      rw [List.any_eq_true]
      exact ⟨g, hg, decide_eq_true (heq.trans hip')⟩

theorem mem_foldl_addLease {fresh : List Fresh} (h : (live.map (·.ip)).Nodup) :
    f ∈ live.foldl addLease fresh ↔
      f ∈ fresh ∨ ∃ l ∈ live, f = ofLease l ∧ ∀ g ∈ fresh, g.ip ≠ l.ip := by
  induction live generalizing fresh with
  | nil => simp
  | cons l live ih =>
    obtain ⟨hl, hlive⟩ := List.nodup_cons.mp h
    have hne : ∀ l' ∈ live, l.ip ≠ l'.ip := fun l' hl' he =>
      hl (List.mem_map.mpr ⟨l', hl', he.symm⟩)
    rw [List.foldl_cons, ih hlive]
    unfold addLease
    by_cases hany : fresh.any (·.ip = l.ip)
    · rw [if_pos hany]
      have hnot : ¬ ∀ g ∈ fresh, g.ip ≠ l.ip := by
        obtain ⟨g, hg, heq⟩ := List.any_eq_true.mp hany
        exact fun hall => hall g hg (of_decide_eq_true heq)
      simp [hnot]
    · rw [if_neg hany]
      have hall : ∀ g ∈ fresh, g.ip ≠ l.ip := by
        intro g hg heq
        exact hany (List.any_eq_true.mpr ⟨g, hg, decide_eq_true heq⟩)
      constructor
      · rintro (hf | ⟨l', hl', rfl, hfree⟩)
        · obtain hf | hf := List.mem_append.mp hf
          · exact .inl hf
          · exact .inr ⟨l, List.mem_cons_self, List.mem_singleton.mp hf, hall⟩
        · refine .inr ⟨l', List.mem_cons_of_mem l hl', rfl, fun g hg => ?_⟩
          exact hfree g (List.mem_append_left _ hg)
      · rintro (hf | ⟨l', hl', rfl, hfree⟩)
        · exact .inl (List.mem_append_left _ hf)
        · obtain rfl | hl' := List.mem_cons.mp hl'
          · exact .inl (List.mem_append_right _ (List.mem_singleton.mpr rfl))
          · refine .inr ⟨l', hl', rfl, fun g hg => ?_⟩
            obtain hg | hg := List.mem_append.mp hg
            · exact hfree g hg
            · rw [List.mem_singleton.mp hg]
              exact hne l' hl'

theorem filterMap_ofEntry_ip (cmdb : List ReservedAddress) :
    (cmdb.filterMap ofEntry).map (·.ip) = cmdb.filterMap (truthy ·.ip) := by
  rw [List.map_filterMap]
  exact List.filterMap_congr fun e _ => ofEntry_ip e

theorem freshView_eq (h : Distinct cmdb live) :
    freshView cmdb live = live.foldl addLease (cmdb.filterMap ofEntry) := by
  have hnodup : (([] ++ cmdb.filterMap ofEntry).map Fresh.ip).Nodup := by
    rw [List.nil_append, filterMap_ofEntry_ip]
    exact h.1
  rw [freshView, foldl_upsert_fresh hnodup, List.nil_append]

theorem mem_freshView (h : Distinct cmdb live) : f ∈ freshView cmdb live ↔ Seen cmdb live f := by
  rw [freshView_eq h, mem_foldl_addLease h.2, List.mem_filterMap]
  refine or_congr_right (exists_congr fun l => and_congr_right fun _ => and_congr_right fun _ => ?_)
  constructor
  · intro hfree e he hip
    have hentry := ofEntry_ip e
    rw [hip, Option.map_eq_some_iff] at hentry
    obtain ⟨g, hg, hgip⟩ := hentry
    exact hfree g (List.mem_filterMap.mpr ⟨e, he, hg⟩) hgip
  · intro hfree g hg hip
    obtain ⟨e, he, hg⟩ := List.mem_filterMap.mp hg
    have hentry := ofEntry_ip e
    rw [hg] at hentry
    exact hfree e he (hentry.symm.trans (congrArg some hip))

theorem freshView_nodup (h : Distinct cmdb live) : ((freshView cmdb live).map (·.ip)).Nodup := by
  rw [freshView_eq h]
  exact foldl_addLease_nodup (filterMap_ofEntry_ip cmdb ▸ h.1)

end View

section Steps

variable {c : Scope} {f : Fresh} {db db' : Db} {n n' : Counts} {r x : Row Reservation}

/-- The row in force at the address. -/
def Stands (f : Fresh) (r : Row Reservation) : Prop :=
  r.data.status = .active ∧ r.data.ipAddress = some f.ip

def adopts (f : Fresh) (r : Reservation) : Bool :=
  f.entryId.isSome && f.sourceType = .dhcpReservation && macsMatch r f

def settle (c : Scope) (f : Fresh) (r : Row Reservation) : Reservation :=
  if isPending r then
    if adopts f r.data then
      adopt f c.subnet.discoveredBy c.scopeId (f.entryId.getD 0) c.now r.data
    else collide (collisionText f.sourceType f.mac) c.now r.data
  else if isDhcp r then applyDiff (diffOf f r.data c.now) r.data
  else r.data

theorem stands_iff (hf : f.ip ≠ "") : Stands f r ↔ liveAt r ∧ r.data.ipAddress = some f.ip := by
  simp only [Stands, liveAt, Bool.and_eq_true, decide_eq_true_eq]
  constructor
  · rintro ⟨hst, hip⟩
    exact ⟨⟨hst, by simp [hip, truthy, hf]⟩, hip⟩
  · rintro ⟨⟨hst, -⟩, hip⟩
    exact ⟨hst, hip⟩

theorem pendingByIp_some (hf : f.ip ≠ "") (h : pendingByIp c.rows f.ip = some r) :
    r ∈ c.rows ∧ Stands f r ∧ isPending r := by
  obtain ⟨hr, hp⟩ := List.mem_filter.mp (List.mem_of_getLast? h)
  simp only [Bool.and_eq_true, decide_eq_true_eq] at hp
  exact ⟨hr, (stands_iff hf).mpr ⟨hp.1.1, hp.2⟩, hp.1.2⟩

theorem pendingByIp_none (hf : f.ip ≠ "") (h : pendingByIp c.rows f.ip = none) (hr : r ∈ c.rows)
    (hs : Stands f r) : isPending r = false := by
  rw [pendingByIp, List.getLast?_eq_none_iff, List.filter_eq_nil_iff] at h
  obtain ⟨hl, hip⟩ := (stands_iff hf).mp hs
  have hnot := h r hr
  simp only [hl, hip, decide_true, Bool.true_and, Bool.and_true, Bool.not_eq_true] at hnot
  exact hnot

theorem manualByIp_iff (hf : f.ip ≠ "") :
    manualByIp c.rows f.ip = true ↔
      ∃ r ∈ c.rows, Stands f r ∧ isDhcp r = false ∧ isPending r = false := by
  rw [manualByIp, List.any_eq_true]
  refine exists_congr fun r => and_congr_right fun _ => ?_
  rw [stands_iff hf]
  simp only [Bool.and_eq_true, Bool.not_eq_true', decide_eq_true_eq]
  tauto

theorem applyDiff_empty (r : Reservation) : applyDiff {} r = r := by
  simp [applyDiff]

theorem updateRow_success {w : Writer} {id : Nat} {g : Reservation → Reservation}
    {k : Row Reservation → Counts}
    (h : ((db.updateRow w id g).1, (db.updateRow w id g).2.map k) = (db', .ok n')) :
    ∃ t, db.reservations.updateWhere (·.id = id) g = some t ∧ db' = { db with reservations := t } := by
  obtain ⟨r, t, -, ht, hc⟩ | ⟨vs, e, hc, -⟩ := Db.updateRow_cases db w id g
  · rw [hc] at h
    cases h
    exact ⟨t, ht, rfl⟩
  · rw [hc] at h
    cases h

theorem createRow_success {w : Writer} {data : Reservation} {k : Row Reservation → Counts}
    (h : ((db.createRow w data).1, (db.createRow w data).2.map k) = (db', .ok n')) :
    ∃ t, db.reservations.insert data = some t ∧ db' = { db with reservations := t } := by
  obtain ⟨t, ht, hc⟩ | ⟨-, hc⟩ := Db.createRow_cases db w data
  · rw [hc] at h
    cases h
    exact ⟨t, ht, rfl⟩
  · rw [hc] at h
    cases h

theorem upsertFresh_cases (hf : f.ip ≠ "") (h : upsertFresh c db n f = (db', .ok n')) :
    (∃ r ∈ c.rows, Stands f r ∧
      ((db' = db ∧ settle c f r = r.data) ∨
        ∃ g t, db.reservations.updateWhere (·.id = r.id) g = some t ∧
          db' = { db with reservations := t } ∧ g r.data = settle c f r)) ∨
    ((∀ r ∈ c.rows, ¬ Stands f r) ∧ ∃ t, db.reservations.insert (freshReservation c f) = some t ∧
      db' = { db with reservations := t }) := by
  unfold upsertFresh at h
  split at h
  · rename_i r hr
    obtain ⟨hmem, hs, hp⟩ := pendingByIp_some hf hr
    refine .inl ⟨r, hmem, hs, .inr ?_⟩
    have hcollide : adopts f r.data = false → reconcilePending.collided c db r f n = (db', .ok n') →
        ∃ g t, db.reservations.updateWhere (·.id = r.id) g = some t ∧
          db' = { db with reservations := t } ∧ g r.data = settle c f r := by
      intro hnot hc
      obtain ⟨t, ht, hdb⟩ := updateRow_success hc
      exact ⟨_, t, ht, hdb, by simp [settle, hp, hnot]⟩
    unfold reconcilePending at h
    split at h
    · rename_i entryId hentry
      split at h
      · rename_i hadopt
        have hadopts : adopts f r.data = true := by simp [adopts, hentry, hadopt.1, hadopt.2]
        obtain ⟨t, ht, hdb⟩ := updateRow_success h
        exact ⟨_, t, ht, hdb, by simp [settle, hp, hadopts, hentry]⟩
      · rename_i hadopt
        refine hcollide ?_ h
        simpa [adopts, hentry, not_and] using hadopt
    · rename_i hentry
      exact hcollide (by simp [adopts, hentry]) h
  · rename_i hpending
    have hp : ∀ r ∈ c.rows, Stands f r → isPending r = false :=
      fun r hr hs => pendingByIp_none hf hpending hr hs
    split at h
    · rename_i hmanual
      cases h
      obtain ⟨r, hr, hs, hd, hp⟩ := (manualByIp_iff hf).mp hmanual
      exact .inl ⟨r, hr, hs, .inl ⟨rfl, by simp [settle, hp, hd]⟩⟩
    · rename_i hmanual
      split at h
      · rename_i r hr
        obtain ⟨hmem, hd⟩ := List.mem_filter.mp (List.mem_of_find?_eq_some hr)
        have hip := List.find?_some hr
        simp only [Bool.and_eq_true, decide_eq_true_eq] at hd hip
        have hs : Stands f r := (stands_iff hf).mpr ⟨hd.1, hip⟩
        have hsettle : settle c f r = applyDiff (diffOf f r.data c.now) r.data := by
          simp [settle, hp r hmem hs, hd.2]
        refine .inl ⟨r, hmem, hs, ?_⟩
        dsimp only at h
        split at h
        · rename_i hdiff
          cases h
          exact .inl ⟨rfl, by rw [hsettle, hdiff, applyDiff_empty]⟩
        · obtain ⟨t, ht, hdb⟩ := updateRow_success h
          exact .inr ⟨_, t, ht, hdb, hsettle.symm⟩
      · rename_i hnone
        obtain ⟨t, ht, hdb⟩ := createRow_success h
        refine .inr ⟨fun r hr hs => ?_, t, ht, hdb⟩
        cases hd : isDhcp r with
        | false => exact hmanual ((manualByIp_iff hf).mpr ⟨r, hr, hs, hd, hp r hr hs⟩)
        | true =>
          obtain ⟨hl, hip⟩ := (stands_iff hf).mp hs
          have hexists : r ∈ existingRows c.rows := List.mem_filter.mpr ⟨hr, by simp [hl, hd]⟩
          exact absurd (decide_eq_true hip) (List.find?_eq_none.mp hnone r hexists)

theorem updateWhere_keeps {id : Nat} {g : Reservation → Reservation} {t : Table uniqueKey}
    (ht : db.reservations.updateWhere (·.id = id) g = some t) (hx : x ∈ db.rows) (hne : x.id ≠ id) :
    x ∈ t.rows := by
  rw [(Table.updateWhere_rows ht).1]
  exact List.mem_map.mpr ⟨x, hx, amend_of_neg (by simpa using hne) g⟩

theorem updateWhere_writes {g : Reservation → Reservation} {t : Table uniqueKey}
    (ht : db.reservations.updateWhere (·.id = r.id) g = some t) (hr : r ∈ db.rows) :
    ⟨r.id, g r.data⟩ ∈ t.rows := by
  rw [(Table.updateWhere_rows ht).1]
  exact (Table.mem_map_amend hr).mpr (.inr rfl)

theorem upsertFresh_keeps (hf : f.ip ≠ "") (h : upsertFresh c db n f = (db', .ok n')) (hx : x ∈ db.rows)
    (hne : ∀ r ∈ c.rows, Stands f r → x.id ≠ r.id) : x ∈ db'.rows := by
  obtain ⟨r, hr, hs, ⟨rfl, -⟩ | ⟨g, t, ht, rfl, -⟩⟩ | ⟨-, t, ht, rfl⟩ := upsertFresh_cases hf h
  · exact hx
  · exact updateWhere_keeps ht hx (hne r hr hs)
  · change x ∈ t.rows
    rw [(Table.insert_rows ht).1]
    exact List.mem_append_left _ hx

theorem upsertFresh_settles (hf : f.ip ≠ "") (h : upsertFresh c db n f = (db', .ok n'))
    (hone : ∀ r' ∈ c.rows, Stands f r' → r' = r) (hr : r ∈ c.rows) (hs : Stands f r)
    (hdb : r ∈ db.rows) : ⟨r.id, settle c f r⟩ ∈ db'.rows := by
  obtain ⟨r', hr', hs', h⟩ | ⟨hnone, -⟩ := upsertFresh_cases hf h
  · cases hone r' hr' hs'
    obtain ⟨rfl, hsame⟩ | ⟨g, t, ht, rfl, hg⟩ := h
    · rw [hsame]
      exact hdb
    · rw [← hg]
      exact updateWhere_writes ht hdb
  · exact absurd hs (hnone r hr)

theorem upsertFresh_creates (hf : f.ip ≠ "") (h : upsertFresh c db n f = (db', .ok n'))
    (hnone : ∀ r ∈ c.rows, ¬ Stands f r) : ∃ x ∈ db'.rows, x.data = freshReservation c f := by
  obtain ⟨r, hr, hs, -⟩ | ⟨-, t, ht, rfl⟩ := upsertFresh_cases hf h
  · exact absurd hs (hnone r hr)
  · refine ⟨⟨db.reservations.nextId, freshReservation c f⟩, ?_, rfl⟩
    change _ ∈ t.rows
    rw [(Table.insert_rows ht).1]
    exact List.mem_append_right _ (List.mem_singleton.mpr rfl)

end Steps

section Loops

variable {c : Scope} {fresh : List Fresh} {db db' : Db} {n n' : Counts}

theorem loop_rest {β : Type} {body : Db → Counts → β → Db × Except Failure Counts}
    {I : List β → Db → Prop} {bs : List β}
    (step : ∀ b bs db n db' n', I (b :: bs) db → body db n b = (db', .ok n') → I bs db')
    (h : loop body db n bs = (db', .ok n')) (hI : I bs db) : I [] db' := by
  induction bs generalizing db n with
  | nil =>
    cases h
    exact hI
  | cons b bs ih =>
    rw [loop] at h
    split at h
    · rename_i db₁ n₁ hb
      exact ih h (step b bs db n db₁ n₁ hI hb)
    · cases h

/-- The rows a run starts from, and the entries it is given. -/
structure Ready (c : Scope) (fresh : List Fresh) (db : Db) : Prop where
  rows : ∀ r, r ∈ c.rows ↔ r ∈ db.rows ∧ r.data.subnetId = c.subnet.id
  ids : (c.rows.map (·.id)).Nodup
  nodup : (fresh.map (·.ip)).Nodup
  named : ∀ f ∈ fresh, f.ip ≠ ""

theorem Ready.one (hc : Ready c fresh db) {f : Fresh} {r r' : Row Reservation} (hr : r ∈ c.rows)
    (hr' : r' ∈ c.rows) (hs : Stands f r) (hs' : Stands f r') : r' = r := by
  obtain ⟨hdb, hsub⟩ := (hc.rows r).mp hr
  obtain ⟨hdb', hsub'⟩ := (hc.rows r').mp hr'
  refine Table.eq_of_key hdb' hdb ?_ ?_
  · simp [uniqueKey, hs.1, hs.2, hs'.1, hs'.2, hsub, hsub']
  · simp [uniqueKey, hs'.2]

theorem Ready.same (hc : Ready c fresh db) {f g : Fresh} (hf : f ∈ fresh) (hg : g ∈ fresh)
    {r : Row Reservation} (hs : Stands f r) (hs' : Stands g r) : f = g :=
  List.inj_on_of_nodup_map hc.nodup hf hg (Option.some.inj (hs.2.symm.trans hs'.2))

theorem Ready.ids_ne (hc : Ready c fresh db) {r r' : Row Reservation} (hr : r ∈ c.rows)
    (hr' : r' ∈ db.rows) (hne : r' ≠ r) : r'.id ≠ r.id :=
  fun hid => hne (Table.eq_of_id hr' ((hc.rows r).mp hr).1 hid)

/-- How far the upserts have come. -/
structure Upserted (c : Scope) (fresh : List Fresh) (db : Db) (rest : List Fresh) (db' : Db) : Prop where
  tail : rest <:+ fresh
  waiting : ∀ f ∈ rest, ∀ r ∈ c.rows, Stands f r → r ∈ db'.rows
  settled : ∀ f ∈ fresh, f ∉ rest → ∀ r ∈ c.rows, Stands f r → ⟨r.id, settle c f r⟩ ∈ db'.rows
  created : ∀ f ∈ fresh, f ∉ rest → (∀ r ∈ c.rows, ¬ Stands f r) →
    ∃ x ∈ db'.rows, x.data = freshReservation c f
  others : ∀ x ∈ db.rows, (∀ f ∈ fresh, ∀ r ∈ c.rows, Stands f r → x ≠ r) → x ∈ db'.rows

theorem Upserted.step (hc : Ready c fresh db) {f : Fresh} {rest : List Fresh} {db₁ db₂ : Db}
    (hu : Upserted c fresh db (f :: rest) db₁) (h : upsertFresh c db₁ n f = (db₂, .ok n')) :
    Upserted c fresh db rest db₂ := by
  have hf : f ∈ fresh := hu.tail.subset List.mem_cons_self
  have hrest : ∀ g ∈ rest, g ≠ f := by
    have hnodup := (hu.tail.sublist.map (·.ip)).nodup hc.nodup
    rw [List.map_cons, List.nodup_cons] at hnodup
    exact fun g hg heq => hnodup.1 (heq ▸ List.mem_map_of_mem hg)
  have hkeeps : ∀ x ∈ db₁.rows, (∀ r ∈ c.rows, Stands f r → x.id ≠ r.id) → x ∈ db₂.rows :=
    fun x hx hne => upsertFresh_keeps (hc.named f hf) h hx hne
  have hother : ∀ g ∈ fresh, g ≠ f → ∀ r ∈ c.rows, Stands g r → ∀ r' ∈ c.rows, Stands f r' →
      r.id ≠ r'.id := by
    intro g hg hgf r hr hs r' hr' hs'
    refine hc.ids_ne hr' ((hc.rows r).mp hr).1 fun heq => hgf ?_
    exact hc.same hg hf hs (heq ▸ hs')
  refine ⟨(List.suffix_cons f rest).trans hu.tail, ?_, ?_, ?_, ?_⟩
  · intro g hg r hr hs
    have hg' : g ∈ f :: rest := List.mem_cons_of_mem f hg
    refine hkeeps r (hu.waiting g hg' r hr hs) ?_
    exact hother g (hu.tail.subset hg') (hrest g hg) r hr hs
  · intro g hg hnot r hr hs
    by_cases hgf : g = f
    · cases hgf
      exact upsertFresh_settles (hc.named f hf) h (fun r' hr' hs' => hc.one hr hr' hs hs') hr hs
        (hu.waiting f List.mem_cons_self r hr hs)
    · refine hkeeps _ (hu.settled g hg (fun hmem => ?_) r hr hs) (hother g hg hgf r hr hs)
      exact (List.mem_cons.mp hmem).elim hgf hnot
  · intro g hg hnot hnone
    by_cases hgf : g = f
    · cases hgf
      exact upsertFresh_creates (hc.named f hf) h hnone
    · obtain ⟨x, hx, hdata⟩ := hu.created g hg (fun hmem => (List.mem_cons.mp hmem).elim hgf hnot) hnone
      refine ⟨x, hkeeps x hx fun r hr hs hid => hgf ?_, hdata⟩
      have hxr : x = r := Table.eq_of_id hx (hu.waiting f List.mem_cons_self r hr hs) hid
      have hip : r.data.ipAddress = some g.ip := by
        rw [← hxr, hdata]
        rfl
      exact List.inj_on_of_nodup_map hc.nodup hg hf (Option.some.inj (hip.symm.trans hs.2))
  · intro x hx hne
    exact hkeeps x (hu.others x hx hne) fun r hr hs => hc.ids_ne hr hx (hne f hf r hr hs)

structure Released (c : Scope) (fresh : List Fresh) (db : Db) (rest : List (Row Reservation)) (db' : Db) :
    Prop where
  tail : rest <:+ gone c.rows fresh
  waiting : ∀ r ∈ rest, r ∈ db'.rows
  ended : ∀ r ∈ gone c.rows fresh, r ∉ rest → ⟨r.id, markReleased r.data⟩ ∈ db'.rows
  others : ∀ x ∈ db.rows, (∀ r ∈ gone c.rows fresh, x.id ≠ r.id) → x ∈ db'.rows

theorem Released.step (hids : (c.rows.map (·.id)).Nodup) {r : Row Reservation}
    {rest : List (Row Reservation)} {db₁ db₂ : Db} (hr : Released c fresh db (r :: rest) db₁)
    (h : releaseGone db₁ n r = (db₂, .ok n')) : Released c fresh db rest db₂ := by
  obtain ⟨t, ht, rfl⟩ := updateRow_success h
  have hgone : r ∈ gone c.rows fresh := hr.tail.subset List.mem_cons_self
  have hnodup : ((gone c.rows fresh).map (·.id)).Nodup :=
    ((List.filter_sublist.trans List.filter_sublist).map Row.id).nodup hids
  have hrest : ∀ x ∈ rest, x.id ≠ r.id := by
    have hcons := (hr.tail.sublist.map (·.id)).nodup hnodup
    rw [List.map_cons, List.nodup_cons] at hcons
    exact fun x hx hid => hcons.1 (List.mem_map.mpr ⟨x, hx, hid⟩)
  refine ⟨(List.suffix_cons r rest).trans hr.tail, ?_, ?_, ?_⟩
  · intro x hx
    exact updateWhere_keeps ht (hr.waiting x (List.mem_cons_of_mem r hx)) (hrest x hx)
  · intro x hx hnot
    by_cases hxr : x = r
    · rw [hxr]
      exact updateWhere_writes ht (hr.waiting r List.mem_cons_self)
    · refine updateWhere_keeps ht (hr.ended x hx fun hmem => ?_) fun hid => hxr ?_
      · exact (List.mem_cons.mp hmem).elim hxr hnot
      · exact List.inj_on_of_nodup_map hnodup hx hgone hid
  · intro x hx hne
    exact updateWhere_keeps ht (hr.others x hx hne) (hne r hgone)

/-- What a run that goes through leaves: a row for every entry, the rows of
no entry ended, and the others as they were. -/
structure Reached (c : Scope) (fresh : List Fresh) (db db' : Db) : Prop where
  settled : ∀ f ∈ fresh, ∀ r ∈ c.rows, Stands f r → ⟨r.id, settle c f r⟩ ∈ db'.rows
  created : ∀ f ∈ fresh, (∀ r ∈ c.rows, ¬ Stands f r) → ∃ x ∈ db'.rows, x.data = freshReservation c f
  ended : ∀ r ∈ gone c.rows fresh, ⟨r.id, markReleased r.data⟩ ∈ db'.rows
  others : ∀ x ∈ db.rows, (x ∈ c.rows → ∀ f ∈ fresh, ¬ Stands f x) → x ∉ gone c.rows fresh → x ∈ db'.rows

theorem mem_gone {r : Row Reservation} :
    r ∈ gone c.rows fresh ↔
      r ∈ c.rows ∧ liveAt r ∧ isDhcp r ∧ ∀ f ∈ fresh, r.data.ipAddress ≠ some f.ip := by
  simp only [gone, existingRows, List.mem_filter, Bool.and_eq_true, Bool.not_eq_true',
    List.any_eq_false, decide_eq_true_eq]
  tauto

theorem reached (hc : Ready c fresh db) (h : reconcileScope c db fresh = (db', .ok n')) :
    Reached c fresh db db' := by
  unfold reconcileScope at h
  split at h
  · cases h
  · rename_i db₁ n₁ hloop
    have hu : Upserted c fresh db [] db₁ := by
      refine loop_rest (fun _ _ _ _ _ _ hu hstep => hu.step hc hstep) hloop
        ⟨List.suffix_refl _, fun f _ r hr _ => ((hc.rows r).mp hr).1, fun f hf hnot => absurd hf hnot,
          fun f hf hnot => absurd hf hnot, fun x hx _ => hx⟩
    have hgone : ∀ r ∈ gone c.rows fresh, r ∈ c.rows ∧ ∀ f ∈ fresh, ¬ Stands f r := by
      intro r hr
      obtain ⟨hr, -, -, hnone⟩ := mem_gone.mp hr
      exact ⟨hr, fun f hf hs => hnone f hf hs.2⟩
    have hstay : ∀ r ∈ gone c.rows fresh, r ∈ db₁.rows := by
      intro r hr
      obtain ⟨hr, hnone⟩ := hgone r hr
      exact hu.others r ((hc.rows r).mp hr).1 fun f hf r' hr' hs heq => hnone f hf (heq ▸ hs)
    have hr : Released c fresh db₁ [] db' :=
      loop_rest (fun _ _ _ _ _ _ hr hstep => hr.step hc.ids hstep) h
        ⟨List.suffix_refl _, hstay, fun r hr hnot => absurd hr hnot, fun x hx _ => hx⟩
    refine ⟨?_, ?_, fun r hgone => hr.ended r hgone List.not_mem_nil, ?_⟩
    · intro f hf r hr' hs
      refine hr.others _ (hu.settled f hf List.not_mem_nil r hr' hs) fun g hg => ?_
      have hid : r.id ≠ g.id :=
        hc.ids_ne (hgone g hg).1 ((hc.rows r).mp hr').1 fun heq => (hgone g hg).2 f hf (heq ▸ hs)
      exact hid
    · intro f hf hnone
      obtain ⟨x, hx, hdata⟩ := hu.created f hf List.not_mem_nil hnone
      refine ⟨x, hr.others x hx fun g hg hid => ?_, hdata⟩
      have hxg : x = g := Table.eq_of_id hx (hstay g hg) hid
      refine (mem_gone.mp hg).2.2.2 f hf ?_
      rw [← hxg, hdata]
      rfl
    · intro x hx hnone hnot
      refine hr.others x (hu.others x hx fun f hf r hr' hs heq => ?_) fun g hg => ?_
      · exact hnone (heq ▸ hr') f hf (heq ▸ hs)
      · exact hc.ids_ne (hgone g hg).1 hx fun heq => hnot (heq ▸ hg)

end Loops

section Contract

variable {sid : String} {cmdb : List ReservedAddress} {live : List DhcpLease} {c : Scope}
  {f : Fresh} {db db' : Db} {r : Row Reservation}

/-- The run has to do with the row: it is a DHCP row of the subnet, or one at
an address the device shows that is not settled by hand. -/
def Concerned (sid : String) (cmdb : List ReservedAddress) (live : List DhcpLease)
    (r : Row Reservation) : Prop :=
  r.data.subnetId = sid ∧ r.data.status = .active ∧
    (isDhcp r ∧ r.data.ipAddress ≠ none ∨
      ∃ f, Seen cmdb live f ∧ r.data.ipAddress = some f.ip ∧
        (isPending r ∨ r.data.sourceType ≠ .manual ∧ r.data.sourceType ≠ .vip))

/-- The rows before and after a run that takes the view of the device. -/
structure ReachesView (sid : String) (cmdb : List ReservedAddress) (live : List DhcpLease)
    (db db' : Db) : Prop where
  one : ∀ f, Seen cmdb live f → ∃! r, r ∈ db'.rows ∧ activeAt sid f.ip r
  authority : ∀ f, Seen cmdb live f →
    (∀ r ∈ db.rows, activeAt sid f.ip r →
      r.data.sourceType ≠ .manual ∧ r.data.sourceType ≠ .vip ∧ isPending r = false) →
    ∀ r ∈ db'.rows, activeAt sid f.ip r →
      r.data.sourceType = f.sourceType ∧ ∀ m, truthy f.mac = some m → r.data.macAddress = some m
  gone : ∀ r ∈ db.rows, r.data.subnetId = sid → r.data.status = .active → isDhcp r →
    ∀ ip, r.data.ipAddress = some ip → (∀ f, Seen cmdb live f → f.ip ≠ ip) →
    ∃ x ∈ db'.rows, x.id = r.id ∧ x.data.status ≠ .active
  adopted : ∀ f, Seen cmdb live f → ∀ r ∈ db.rows, activeAt sid f.ip r → isPending r →
    adopts f r.data → ∃ x ∈ db'.rows, x.id = r.id ∧
      (∀ h, truthy r.data.hostname = some h → x.data.hostname = some h) ∧
      x.data.notes = r.data.notes ∧ x.data.owner = r.data.owner
  refused : ∀ f, Seen cmdb live f → ∀ r ∈ db.rows, activeAt sid f.ip r → isPending r →
    adopts f r.data = false → ∃ x ∈ db'.rows, x.id = r.id ∧
      { x.data with
        pushStatus := r.data.pushStatus, pushError := r.data.pushError,
        pushLastAttemptAt := r.data.pushLastAttemptAt } = r.data
  others : ∀ r ∈ db.rows, ¬ Concerned sid cmdb live r → r ∈ db'.rows

/-- At the addresses the device shows, the rows without a queued push are of
the four kinds, and an adopted row is shown under its own hostname. -/
structure Clear (sid : String) (cmdb : List ReservedAddress) (live : List DhcpLease) (db : Db) :
    Prop where
  kinds : ∀ f, Seen cmdb live f → ∀ r ∈ db.rows, activeAt sid f.ip r → isPending r = false →
    r.data.sourceType = .manual ∨ r.data.sourceType = .vip ∨ isDhcp r
  names : ∀ f, Seen cmdb live f → ∀ r ∈ db.rows, activeAt sid f.ip r → isPending r →
    adopts f r.data → ∀ h ∈ truthy r.data.hostname, ∀ h' ∈ truthy f.hostname, h = h'
  addressed : ∀ r ∈ db.rows, r.data.subnetId = sid → r.data.status = .active → isDhcp r →
    r.data.ipAddress ≠ some ""

theorem activeAt_iff : activeAt sid f.ip r ↔ r.data.subnetId = sid ∧ Stands f r := by
  simp only [activeAt, Stands, Bool.and_eq_true, decide_eq_true_eq]
  tauto

theorem activeAt_unique {x y : Row Reservation} {ip : String} (hx : x ∈ db.rows) (hy : y ∈ db.rows)
    (h : activeAt sid ip x) (h' : activeAt sid ip y) : x = y := by
  simp only [activeAt, Bool.and_eq_true, decide_eq_true_eq] at h h'
  refine Table.eq_of_key hx hy ?_ ?_
  · simp [uniqueKey, h.1.1, h.1.2, h.2, h'.1.1, h'.1.2, h'.2]
  · simp [uniqueKey, h.1.2]

theorem settle_place (c : Scope) (f : Fresh) (r : Row Reservation) :
    (settle c f r).subnetId = r.data.subnetId ∧ (settle c f r).ipAddress = r.data.ipAddress ∧
      (settle c f r).status = r.data.status := by
  unfold settle
  split_ifs <;> exact ⟨rfl, rfl, rfl⟩

theorem activeAt_settle (h : activeAt sid f.ip r) : activeAt sid f.ip ⟨r.id, settle c f r⟩ := by
  obtain ⟨hsub, hip, hst⟩ := settle_place c f r
  simp only [activeAt, hsub, hip, hst]
  exact h

theorem applyDiff_authority (f : Fresh) (r : Reservation) (now : Nat) :
    (applyDiff (diffOf f r now) r).sourceType = f.sourceType ∧
      ∀ m, truthy f.mac = some m → (applyDiff (diffOf f r now) r).macAddress = some m := by
  constructor
  · by_cases h : r.sourceType = f.sourceType <;> simp [applyDiff, diffOf, h]
  · intro m hm
    by_cases h : r.macAddress = some m
    · simp [applyDiff, diffOf, hm, Option.filter, h]
    · simp [applyDiff, diffOf, hm, Option.filter, h]

theorem Seen.isDhcp (h : Seen cmdb live f) :
    f.sourceType = .dhcpReservation ∨ f.sourceType = .dhcpLease := by
  obtain ⟨e, -, he⟩ | ⟨l, -, rfl, -⟩ := h
  · obtain ⟨ip, -, rfl⟩ := Option.map_eq_some_iff.mp he
    exact .inl rfl
  · cases hl : l.reserved <;> simp [ofLease, hl]

theorem Seen.named (hlive : ∀ l ∈ live, l.ip ≠ "") (h : Seen cmdb live f) : f.ip ≠ "" := by
  obtain ⟨e, -, he⟩ | ⟨l, hl, rfl, -⟩ := h
  · obtain ⟨ip, hip, rfl⟩ := Option.map_eq_some_iff.mp he
    exact (truthy_some hip).2
  · exact hlive l hl

theorem Reached.standing {fresh : List Fresh} (h : Reached c fresh db db') (hc : Ready c fresh db)
    (hf : f ∈ fresh) :
    (∃ r ∈ db.rows, activeAt c.subnet.id f.ip r ∧ ⟨r.id, settle c f r⟩ ∈ db'.rows) ∨
      ∃ x ∈ db'.rows, activeAt c.subnet.id f.ip x ∧ x.data = freshReservation c f := by
  by_cases hr : ∃ r ∈ c.rows, Stands f r
  · obtain ⟨r, hr, hs⟩ := hr
    obtain ⟨hdb, hsub⟩ := (hc.rows r).mp hr
    exact .inl ⟨r, hdb, activeAt_iff.mpr ⟨hsub, hs⟩, h.settled f hf r hr hs⟩
  · obtain ⟨x, hx, hdata⟩ := h.created f hf fun r hmem hs => hr ⟨r, hmem, hs⟩
    refine .inr ⟨x, hx, ?_, hdata⟩
    rw [activeAt_iff, Stands, hdata]
    exact ⟨rfl, rfl, rfl⟩

variable {fresh : List Fresh} (hc : Ready c fresh db) (hseen : ∀ f, f ∈ fresh ↔ Seen cmdb live f)
  (h : Reached c fresh db db')

include hc hseen h

theorem Reached.settles (hf : Seen cmdb live f) (hr : r ∈ db.rows) (hs : activeAt c.subnet.id f.ip r) :
    ⟨r.id, settle c f r⟩ ∈ db'.rows := by
  obtain ⟨hsub, hs⟩ := activeAt_iff.mp hs
  exact h.settled f ((hseen f).mpr hf) r ((hc.rows r).mpr ⟨hr, hsub⟩) hs

theorem Reached.one (hf : Seen cmdb live f) : ∃! r, r ∈ db'.rows ∧ activeAt c.subnet.id f.ip r := by
  obtain ⟨r, -, hs, hr⟩ | ⟨x, hx, hs, -⟩ := h.standing hc ((hseen f).mpr hf)
  · exact ⟨_, ⟨hr, activeAt_settle hs⟩, fun y hy => activeAt_unique hy.1 hr hy.2 (activeAt_settle hs)⟩
  · exact ⟨x, ⟨hx, hs⟩, fun y hy => activeAt_unique hy.1 hx hy.2 hs⟩

theorem Reached.authority (hclear : Clear c.subnet.id cmdb live db) (hf : Seen cmdb live f)
    (hnone : ∀ r ∈ db.rows, activeAt c.subnet.id f.ip r →
      r.data.sourceType ≠ .manual ∧ r.data.sourceType ≠ .vip ∧ isPending r = false)
    (hr : r ∈ db'.rows) (hs : activeAt c.subnet.id f.ip r) :
    r.data.sourceType = f.sourceType ∧ ∀ m, truthy f.mac = some m → r.data.macAddress = some m := by
  obtain ⟨r', hr', hs', hmem⟩ | ⟨x, hx, hs', hdata⟩ := h.standing hc ((hseen f).mpr hf)
  · obtain ⟨hmanual, hvip, hpending⟩ := hnone r' hr' hs'
    have hdhcp : isDhcp r' = true := by
      obtain hk | hk | hk := hclear.kinds f hf r' hr' hs' hpending
      · exact absurd hk hmanual
      · exact absurd hk hvip
      · exact hk
    have hsettle : settle c f r' = applyDiff (diffOf f r'.data c.now) r'.data := by
      simp [settle, hpending, hdhcp]
    rw [activeAt_unique hr hmem hs (activeAt_settle hs'), hsettle]
    exact applyDiff_authority f r'.data c.now
  · rw [activeAt_unique hr hx hs hs', hdata]
    exact ⟨rfl, fun m hm => (truthy_some hm).1⟩

theorem Reached.ends (hclear : Clear c.subnet.id cmdb live db) (hr : r ∈ db.rows)
    (hsub : r.data.subnetId = c.subnet.id) (hst : r.data.status = .active) (hd : isDhcp r) {ip : String}
    (hip : r.data.ipAddress = some ip) (hnone : ∀ f, Seen cmdb live f → f.ip ≠ ip) :
    ∃ x ∈ db'.rows, x.id = r.id ∧ x.data.status ≠ .active := by
  have hne : ip ≠ "" := fun he => hclear.addressed r hr hsub hst hd (he ▸ hip)
  refine ⟨_, h.ended r (mem_gone.mpr ⟨(hc.rows r).mpr ⟨hr, hsub⟩, ?_, hd, fun f hf he => ?_⟩), rfl, ?_⟩
  · simp [liveAt, hst, hip, truthy, hne]
  · exact hnone f ((hseen f).mp hf) (Option.some.inj (he.symm.trans hip))
  · exact fun hact => by cases hact

theorem Reached.adopted (hclear : Clear c.subnet.id cmdb live db) (hf : Seen cmdb live f)
    (hr : r ∈ db.rows) (hs : activeAt c.subnet.id f.ip r) (hp : isPending r) (ha : adopts f r.data) :
    ∃ x ∈ db'.rows, x.id = r.id ∧
      (∀ h, truthy r.data.hostname = some h → x.data.hostname = some h) ∧
      x.data.notes = r.data.notes ∧ x.data.owner = r.data.owner := by
  refine ⟨_, h.settles hc hseen hf hr hs, rfl, fun name hname => ?_, ?_, ?_⟩
  · simp only [settle, hp, ha, if_true, adopt]
    cases hshown : truthy f.hostname with
    | none => exact (truthy_some hname).1
    | some name' => rw [hclear.names f hf r hr hs hp ha name hname name' hshown, Option.some_or]
  · simp [settle, hp, ha, adopt]
  · simp [settle, hp, ha, adopt]

theorem Reached.refused (hf : Seen cmdb live f) (hr : r ∈ db.rows)
    (hs : activeAt c.subnet.id f.ip r) (hp : isPending r) (ha : adopts f r.data = false) :
    ∃ x ∈ db'.rows, x.id = r.id ∧
      { x.data with
        pushStatus := r.data.pushStatus, pushError := r.data.pushError,
        pushLastAttemptAt := r.data.pushLastAttemptAt } = r.data := by
  refine ⟨_, h.settles hc hseen hf hr hs, rfl, ?_⟩
  simp [settle, hp, ha, collide]

theorem Reached.leaves (hr : r ∈ db.rows) (hnot : ¬ Concerned c.subnet.id cmdb live r) :
    r ∈ db'.rows := by
  by_cases hstands : ∃ f, Seen cmdb live f ∧ activeAt c.subnet.id f.ip r
  · obtain ⟨f, hf, hs⟩ := hstands
    have hmem := h.settles hc hseen hf hr hs
    obtain ⟨hsub, hst, hip⟩ := activeAt_iff.mp hs
    have hd : isDhcp r = false := by
      by_contra hd
      exact hnot ⟨hsub, hst, .inl ⟨by simpa using hd, by simp [hip]⟩⟩
    have hp : isPending r = false := by
      by_contra hp
      exact hnot ⟨hsub, hst, .inr ⟨f, hf, hip, .inl (by simpa using hp)⟩⟩
    simpa [settle, hp, hd] using hmem
  · refine h.others r hr (fun hmem f hf hs => hstands ⟨f, (hseen f).mp hf, ?_⟩) fun hgone => ?_
    · exact activeAt_iff.mpr ⟨((hc.rows r).mp hmem).2, hs⟩
    · obtain ⟨hmem, hl, hd, -⟩ := mem_gone.mp hgone
      simp only [liveAt, Bool.and_eq_true, decide_eq_true_eq] at hl
      refine hnot ⟨((hc.rows r).mp hmem).2, hl.1, .inl ⟨hd, fun hip => ?_⟩⟩
      simp [hip, truthy] at hl

theorem reachesView_of_clear (hclear : Clear c.subnet.id cmdb live db) :
    ReachesView c.subnet.id cmdb live db db' where
  one _ hf := h.one hc hseen hf
  authority _ hf hnone _ hr hs := h.authority hc hseen hclear hf hnone hr hs
  gone _ hr hsub hst hd _ hip hnone := h.ends hc hseen hclear hr hsub hst hd hip hnone
  adopted _ hf _ hr hs hp ha := h.adopted hc hseen hclear hf hr hs hp ha
  refused _ hf _ hr hs hp ha := h.refused hc hseen hf hr hs hp ha
  others _ hr hnot := h.leaves hc hseen hr hnot

theorem clear_of_reachesView (hview : ReachesView c.subnet.id cmdb live db db') :
    Clear c.subnet.id cmdb live db := by
  refine ⟨fun f hf r hr hs hp => ?_, fun f hf r hr hs hp ha name hname name' hname' => ?_,
    fun r hr hsub hst hd hip => ?_⟩
  · by_contra hkind
    rw [not_or, not_or, Bool.not_eq_true] at hkind
    obtain ⟨hmanual, hvip, hd⟩ := hkind
    have hmem : r ∈ db'.rows := by simpa [settle, hp, hd] using h.settles hc hseen hf hr hs
    have hnone : ∀ r' ∈ db.rows, activeAt c.subnet.id f.ip r' →
        r'.data.sourceType ≠ .manual ∧ r'.data.sourceType ≠ .vip ∧ isPending r' = false := by
      intro r' hr' hs'
      cases activeAt_unique hr hr' hs hs'
      exact ⟨hmanual, hvip, hp⟩
    obtain ⟨hsource, -⟩ := hview.authority f hf hnone r hmem hs
    have hdhcp := hf.isDhcp
    rw [← hsource] at hdhcp
    simp only [isDhcp, Bool.or_eq_false_iff, decide_eq_false_iff_not] at hd
    exact hdhcp.elim hd.1 hd.2
  · obtain ⟨x, hx, hid, hkeep, -⟩ := hview.adopted f hf r hr hs hp ha
    have hmem := h.settles hc hseen hf hr hs
    have hxr : x = ⟨r.id, settle c f r⟩ := Table.eq_of_id hx hmem hid
    have hhost := hkeep name hname
    rw [hxr] at hhost
    rw [Option.mem_def] at hname'
    simp only [settle, hp, ha, if_true, adopt, hname', Option.some_or, Option.some.injEq] at hhost
    exact hhost.symm
  · obtain ⟨x, hx, hid, hx'⟩ := hview.gone r hr hsub hst hd "" hip
      fun f hf => hc.named f ((hseen f).mpr hf)
    have hmem : r ∈ db'.rows := by
      refine h.others r hr (fun _ f hf hs => ?_) fun hgone => ?_
      · exact hc.named f hf (Option.some.inj (hs.2.symm.trans hip))
      · have hl := (mem_gone.mp hgone).2.1
        simp [liveAt, hip, truthy] at hl
    rw [Table.eq_of_id hx hmem hid] at hx'
    exact hx' hst

end Contract

section Refresh

variable {N : Package} {w : World} {subnetId : String} {leases : List MonitorEntry}
  {faults : RefreshFaults} {subnet : Subnet} {scopeId : Nat} {cmdb : List ReservedAddress}
  {live : List DhcpLease}

variable (N w subnetId leases faults) in
def deviceLists : Except Failure (Subnet × Nat × List ReservedAddress × List DhcpLease) := do
  let (subnet, integration, deviceName) ← refreshable w.db subnetId
  buildTransportForIntegration integration deviceName faults.mgmtIp
  let g := w.gateways deviceName
  let (scopeId, _) ← findScopeIdForCidr N (← fetch faults.servers g.servers) subnet.cidr
  let cmdb ← fetch faults.list (g.reserved scopeId)
  let live ← fetchLiveLeasesForScope N (← fetch faults.leases leases) subnet.cidr
  return (subnet, scopeId, cmdb, live)

theorem readDevice_eq : readDevice N w subnetId leases faults =
    (deviceLists N w subnetId leases faults).map fun (subnet, scopeId, cmdb, live) =>
      (subnet, scopeId, freshView cmdb live) := by
  unfold readDevice deviceLists
  simp only [bind, Except.bind, pure, Except.pure]
  repeat' split
  all_goals rfl

theorem fetchLiveLeases_named {entries : List MonitorEntry} {cidr : String}
    (h : fetchLiveLeasesForScope N entries cidr = .ok live) : ∀ l ∈ live, l.ip ≠ "" := by
  intro l hl he
  have hpass := filterM_ok h l hl
  rw [if_pos (.inl he)] at hpass
  cases hpass

theorem deviceLists_ok (h : deviceLists N w subnetId leases faults = .ok (subnet, scopeId, cmdb, live)) :
    subnet.id = subnetId ∧ ∀ l ∈ live, l.ip ≠ "" := by
  obtain ⟨⟨s, integration, deviceName⟩, hs, h⟩ := bind_ok h
  obtain ⟨-, -, h⟩ := bind_ok h
  obtain ⟨servers, -, h⟩ := bind_ok h
  obtain ⟨scope, -, h⟩ := bind_ok h
  obtain ⟨entries, -, h⟩ := bind_ok h
  obtain ⟨shown, -, h⟩ := bind_ok h
  obtain ⟨found, hfound, h⟩ := bind_ok h
  cases h
  exact ⟨Db.findSubnet_id (refreshable_ok hs).1, fetchLiveLeases_named hfound⟩

theorem ready_scope (hd : Distinct cmdb live) (hid : subnet.id = subnetId)
    (hlive : ∀ l ∈ live, l.ip ≠ "") (actor : Option String) (now : Nat) :
    Ready ⟨subnet, scopeId, subnetRows w.db subnetId, actor, now⟩ (freshView cmdb live) w.db := by
  refine ⟨fun r => ?_, ?_, freshView_nodup hd, fun f hf => ((mem_freshView hd).mp hf).named hlive⟩
  · rw [subnetRows, List.mem_filter, decide_eq_true_eq, hid]
  · exact (List.filter_sublist.map Row.id).nodup w.db.reservations.ids_nodup

/-- A run that goes through takes the view of the device exactly where the
rows at its addresses are clear. -/
theorem refresh_reaches_view_iff (N : Package) (w : World) (subnetId : String) (actor : Option String)
    (now : Nat) (leases : List MonitorEntry) (faults : RefreshFaults) (subnet : Subnet) (scopeId : Nat)
    (cmdb : List ReservedAddress) (live : List DhcpLease) (counts : Counts)
    (hlists : deviceLists N w subnetId leases faults = .ok (subnet, scopeId, cmdb, live))
    (hd : Distinct cmdb live)
    (hok : (refreshSubnet N w subnetId actor now leases faults).2 = .ok counts) :
    ReachesView subnetId cmdb live w.db (refreshSubnet N w subnetId actor now leases faults).1.db ↔
      Clear subnetId cmdb live w.db := by
  obtain ⟨hid, hlive⟩ := deviceLists_ok hlists
  have hready : Ready ⟨subnet, scopeId, subnetRows w.db subnetId, actor, now⟩ (freshView cmdb live) w.db :=
    ready_scope hd hid hlive actor now
  have hread : readDevice N w subnetId leases faults = .ok (subnet, scopeId, freshView cmdb live) := by
    rw [readDevice_eq, hlists]
    rfl
  unfold refreshSubnet at hok ⊢
  rw [hread] at hok ⊢
  dsimp only at hok ⊢
  split at hok
  · cases hok
  · rename_i db' n hscope
    have hreached := reached hready hscope
    change ReachesView subnetId cmdb live w.db (touchSubnet db' subnetId now) ↔ _
    have hview : ReachesView subnetId cmdb live w.db (touchSubnet db' subnetId now) ↔
        ReachesView subnetId cmdb live w.db db' := by
      constructor <;> exact fun h => ⟨h.one, h.authority, h.gone, h.adopted, h.refused, h.others⟩
    rw [hview, ← hid]
    exact ⟨clear_of_reachesView hready (fun f => mem_freshView hd) hreached,
      reachesView_of_clear hready (fun f => mem_freshView hd) hreached⟩

end Refresh

section Clinic

def scanner : ReservedAddress :=
  { id := 1, ip := some "10.0.0.5", mac := some "aa:bb:cc:dd:ee:01", description := "Polaris/alice: scanner" }

def tablet : DhcpLease := { ip := "10.0.0.6", mac := some "aa:bb:cc:dd:ee:02" }

def clinic (rows : List Reservation) : World where
  db := { integrations := [{ id := "fmg" }], subnets := [plantSubnet]
          reservations := rows.foldl (fun t r => (t.insert r).getD t) (Table.empty uniqueKey) }
  gateways := fun _ => ((Gateway.empty [{ id := 1, startIp := some "10.0.0.100" }]).create 1 scanner).1

/-- The queued scanner, a manual row the lease stays away from, and a lease
that has ended. -/
def clinicRows : List Reservation :=
  [{ subnetId := "lan", ipAddress := some "10.0.0.5", hostname := some "scanner",
     macAddress := some "AA-BB-CC-DD-EE-01", pushStatus := some .pending },
   { subnetId := "lan", ipAddress := some "10.0.0.6" },
   { subnetId := "lan", ipAddress := some "10.0.0.7", sourceType := .dhcpLease }]

theorem refresh_reaches_view_clinic :
    ReachesView "lan" [scanner] [tablet] (clinic clinicRows).db
      (refreshSubnet reference (clinic clinicRows) "lan" none 5 [.lease tablet] {}).1.db := by
  have hd : Distinct [scanner] [tablet] := by decide
  refine (refresh_reaches_view_iff reference (clinic clinicRows) "lan" none 5 [.lease tablet] {}
    plantSubnet 1 [scanner] [tablet] { updated := 1, released := 1, skipped := 1 } (by rfl) hd
    (by rfl)).mpr ?_
  refine ⟨fun f hf => ?_, fun f hf => ?_, by decide +kernel⟩
  · rw [← mem_freshView hd] at hf
    revert f
    decide +kernel
  · rw [← mem_freshView hd] at hf
    revert f
    decide +kernel

def fallbackRow : Reservation :=
  { subnetId := "lan", ipAddress := some "10.0.0.5", hostname := some "scanner",
    sourceType := .dnsResolved, createdBy := some systemActor }

/-- A fallback row keeps the reserved address of the device out. -/
theorem fallback_keeps_entry_out :
    deviceLists reference (clinic [fallbackRow]) "lan" [] {} = .ok (plantSubnet, 1, [scanner], []) ∧
      Distinct [scanner] [] ∧
      (refreshSubnet reference (clinic [fallbackRow]) "lan" none 5 [] {}).2 = .ok { skipped := 1 } ∧
      ¬ ReachesView "lan" [scanner] [] (clinic [fallbackRow]).db
        (refreshSubnet reference (clinic [fallbackRow]) "lan" none 5 [] {}).1.db := by
  refine ⟨by rfl, by decide, by rfl, fun h => ?_⟩
  have hseen : ∀ f ∈ ofEntry scanner, Seen [scanner] [] f :=
    fun f hf => .inl ⟨scanner, List.mem_singleton.mpr rfl, hf⟩
  have hauthority := fun f hf hnone r hr hs => (h.authority f (hseen f hf) hnone r hr hs).1
  revert hauthority
  decide +kernel

end Clinic

end Polaris.RefreshView
