import Polaris.ReservationService
import Polaris.ReservationDescription
import Polaris.RefreshView
import Polaris.Lib.Runs

namespace Polaris.HostnameEdits

open Polaris.Lib.Text Polaris.Lib.Store Polaris.Lib.Rollup Polaris.Lib.Runs Polaris.Lib.Faults
  Polaris.Lib.Checks
  Polaris.Netmask  Polaris.Transport Polaris.ReservationPush Polaris.Reservations Polaris.ReservationService
  Polaris.SubnetRefresh Polaris.ReservationDescription

section Descriptions

/-- What a description shows of a hostname is the one given. -/
def Agrees (description : String) (hostname : Option String) : Prop :=
  ∀ name ∈ truthy (extractHostnameFromDescription description), hostname = some name

instance (description : String) (hostname : Option String) : Decidable (Agrees description hostname) :=
  inferInstanceAs (Decidable (∀ name ∈ truthy (extractHostnameFromDescription description), _))

variable (hostname createdBy : Option String) (fallback : String) (notes : Option String)

/-- What stands behind the colon is empty, breaks off at a line end, ends in
brackets around the hostname or a blank, or is the hostname. -/
def Readable : Prop :=
  ∀ v, shown hostname createdBy fallback notes = some v →
    v = [] ∨ (∃ c ∈ v, lineTerminator c = true) ∨
      (∃ w, Closes v w ∧ (trimChars w = [] ∨ hostname = some (String.ofList (trimChars w)))) ∨
      (∀ w, ¬ Closes v w) ∧ hostname = some (String.ofList v)

theorem truthy_ofList (cs : List Char) :
    truthy (some (String.ofList cs)) = if cs = [] then none else some (String.ofList cs) := by
  by_cases h : cs = []
  · subst h
    rfl
  · have hne : String.ofList cs ≠ "" := fun he => h (by simpa using congrArg String.toList he)
    rw [if_neg h]
    simp [truthy, hne]

theorem readBody_agrees {v : List Char} (hv : trimChars v = v) :
    (∀ name ∈ truthy (readBody v), hostname = some name) ↔
      v = [] ∨ (∃ c ∈ v, lineTerminator c = true) ∨
        (∃ w, Closes v w ∧ (trimChars w = [] ∨ hostname = some (String.ofList (trimChars w)))) ∨
        (∀ w, ¬ Closes v w) ∧ hostname = some (String.ofList v) := by
  unfold readBody
  by_cases hunread : v = [] ∨ v.any lineTerminator = true
  · rw [if_pos hunread]
    rw [List.any_eq_true] at hunread
    refine iff_of_true (fun name hname => by cases hname) ?_
    obtain hnil | hline := hunread
    · exact .inl hnil
    · exact .inr (.inl hline)
  · rw [if_neg hunread]
    rw [List.any_eq_true, not_or] at hunread
    simp only [hunread.1, hunread.2, false_or]
    cases hb : bracketed v with
    | none =>
      have hnone : ∀ w, ¬ Closes v w := fun w hw => by
        rw [← bracketed_eq_some, hb] at hw
        cases hw
      simp [hnone, trim_ofList, hv, truthy_ofList, hunread.1]
    | some w =>
      have honly : ∀ x, Closes v x ↔ x = w := by
        intro x
        rw [← bracketed_eq_some, hb, Option.some.injEq]
        exact eq_comm
      by_cases hw : trimChars w = []
      · simp [honly, trim_ofList, truthy, hw]
      · simp [honly, trim_ofList, truthy_ofList, hw]

theorem agrees_buildDescription :
    Agrees (buildDescription hostname createdBy fallback notes) hostname ↔
      Readable hostname createdBy fallback notes := by
  rw [Agrees, extract_buildDescription, Readable]
  cases hshown : shown hostname createdBy fallback notes with
  | none => exact iff_of_true (fun name hname => by cases hname) (fun v hv => by cases hv)
  | some v =>
    simp only [Option.bind_some, Option.some.injEq, forall_eq']
    exact readBody_agrees hostname (shown_trimmed hshown)

end Descriptions

section Sites

/-- Where a reservation lives: its subnet, its address, the device and the
entry there. -/
structure Site where
  subnetId : String
  cidr : String
  ip : String
  target : PushTarget
  scopeId : Nat
  entryId : Nat

structure SyncedRow (site : Site) (r : Reservation) : Prop where
  active : r.status = .active
  subnet : r.subnetId = site.subnetId
  address : r.ipAddress = some site.ip
  source : r.sourceType = .dhcpReservation
  synced : r.pushStatus = some .synced
  scope : r.pushedScopeId = some site.scopeId
  entry : r.pushedEntryId = some site.entryId

/-- The entry is the one the device has for the address. -/
structure SyncedEntry (N : Package) (site : Site) (g : Gateway) (e : ReservedAddress) : Prop where
  scope : ∃ ifc, findScopeIdForCidr N g.servers site.cidr = .ok (site.scopeId, ifc)
  mem : e ∈ g.reserved site.scopeId
  id : e.id = site.entryId
  ip : e.ip = some site.ip
  alone : ∀ a ∈ g.reserved site.scopeId, a.ip = some site.ip → a = e

def Placed (site : Site) (db : Db) : Prop :=
  ∃ s, db.findSubnet site.subnetId = some s ∧ s.cidr = site.cidr ∧
    updatePushTarget db s (some site.ip) = some (site.target, site.ip)

/-- The row is synced with the entry, and the entry's description shows no
other hostname. -/
structure Synced (N : Package) (site : Site) (id : Nat) (w : World) (r : Reservation) (e : ReservedAddress) :
    Prop where
  found : w.db.reservations.find id = some ⟨id, r⟩
  row : SyncedRow site r
  placed : Placed site w.db
  entry : SyncedEntry N site (w.gateways site.target.deviceName) e
  agrees : Agrees e.description r.hostname

variable {N : Package} {site : Site} {db db' : Db}

theorem updatePushTarget_congr {s s' : Subnet} (hint : db'.integrations = db.integrations)
    (hby : s'.discoveredBy = s.discoveredBy) (hdev : s'.fortigateDevice = s.fortigateDevice)
    (ip : Option String) :
    updatePushTarget db' s' ip = updatePushTarget db s ip := by
  unfold updatePushTarget Db.integrationOf Db.findIntegration
  rw [hint, hby, hdev]

theorem placed_of_tables (h : Placed site db)
    (htables : db'.subnets = db.subnets ∧ db'.integrations = db.integrations) : Placed site db' := by
  obtain ⟨s, hs, hcidr, htarget⟩ := h
  refine ⟨s, ?_, hcidr, (updatePushTarget_congr htables.2 rfl rfl _).trans htarget⟩
  rw [Db.findSubnet, htables.1]
  exact hs

theorem placed_touch (h : Placed site db) (subnetId : String) (now : Nat) :
    Placed site (touchSubnet db subnetId now) := by
  obtain ⟨s, hs, hcidr, htarget⟩ := h
  have hfind : (touchSubnet db subnetId now).findSubnet site.subnetId =
      (db.findSubnet site.subnetId).map fun s =>
        if s.id = subnetId then { s with lastDiscoveredAt := some now } else s :=
    Db.findSubnet_map (fun s => by by_cases h : s.id = subnetId <;> simp [h]) site.subnetId
  rw [hs, Option.map_some] at hfind
  by_cases hid : s.id = subnetId
  · rw [if_pos hid] at hfind
    exact ⟨_, hfind, hcidr, (updatePushTarget_congr rfl rfl rfl _).trans htarget⟩
  · rw [if_neg hid] at hfind
    exact ⟨_, hfind, hcidr, (updatePushTarget_congr rfl rfl rfl _).trans htarget⟩

end Sites

section Views

variable {cmdb : List ReservedAddress} {live : List DhcpLease} {fresh : List Fresh} {f : Fresh} {ip : String}

theorem subset_foldl_addLease (live : List DhcpLease) (fresh : List Fresh) :
    fresh ⊆ live.foldl addLease fresh := by
  induction live generalizing fresh with
  | nil => exact List.Subset.refl fresh
  | cons l live ih =>
    refine List.Subset.trans ?_ (ih (addLease fresh l))
    unfold addLease
    split_ifs
    · exact List.Subset.refl fresh
    · exact List.subset_append_left _ _

theorem mem_of_mem_foldl_addLease (htaken : f.ip ∈ fresh.map (·.ip)) (hf : f ∈ live.foldl addLease fresh) :
    f ∈ fresh := by
  induction live generalizing fresh with
  | nil => exact hf
  | cons l live ih =>
    rw [List.foldl_cons, addLease] at hf
    split_ifs at hf with hany
    · exact ih htaken hf
    · have hmem := ih (by simp [htaken]) hf
      obtain hmem | hmem := List.mem_append.mp hmem
      · exact hmem
      · obtain ⟨g, hg, hgip⟩ := List.mem_map.mp htaken
        rw [List.mem_singleton.mp hmem] at hgip
        exact absurd (List.any_eq_true.mpr ⟨g, hg, decide_eq_true hgip⟩) hany

variable {e : ReservedAddress} (he : e ∈ cmdb) (hip : truthy e.ip = some ip)

include he hip

theorem cmdb_shown : ip ∈ ((cmdb.filterMap ofEntry).foldl (fun fresh f => upsert Fresh.ip f fresh) []).map
    (·.ip) := by
  rw [key_mem_foldl_upsert, RefreshView.filterMap_ofEntry_ip, List.mem_filterMap]
  exact .inl ⟨e, he, hip⟩

theorem freshView_shows : ∃ f ∈ freshView cmdb live, f.ip = ip := by
  obtain ⟨f, hf, hfip⟩ := List.mem_map.mp (cmdb_shown he hip)
  exact ⟨f, subset_foldl_addLease live _ hf, hfip⟩

theorem freshView_alone (halone : ∀ a ∈ cmdb, truthy a.ip = some ip → a = e)
    (hf : f ∈ freshView cmdb live) (hfip : f.ip = ip) : ofEntry e = some f := by
  subst hfip
  have hmem := mem_of_mem_foldl_addLease (cmdb_shown he hip) hf
  obtain hmem | hmem := mem_of_mem_foldl_upsert Fresh.ip hmem
  · obtain ⟨a, ha, hfa⟩ := List.mem_filterMap.mp hmem
    have hentry := RefreshView.ofEntry_ip a
    rw [hfa] at hentry
    rw [← halone a ha hentry.symm]
    exact hfa
  · cases hmem

end Views

section Refreshes

variable {N : Package} {site : Site} {id : Nat} {r : Reservation} {e : ReservedAddress} {w : World} {db : Db}
  {c : Scope} {fresh : List Fresh} {n : Counts}

theorem tables_upsertFresh (c : Scope) (db : Db) (n : Counts) (f : Fresh) :
    (upsertFresh c db n f).1.subnets = db.subnets ∧
      (upsertFresh c db n f).1.integrations = db.integrations := by
  rw [upsertFresh]
  split
  · rw [reconcilePending]
    split
    · split
      · exact Db.tables_updateRow db _ _ _
      · exact Db.tables_updateRow db _ _ _
    · exact Db.tables_updateRow db _ _ _
  · split
    · exact ⟨rfl, rfl⟩
    · split
      · dsimp only
        split
        · exact ⟨rfl, rfl⟩
        · exact Db.tables_updateRow db _ _ _
      · exact Db.tables_createRow db _ _

/-- The row is still synced, with its hostname, and the subnets are as they
were. -/
structure Keeps (site : Site) (id : Nat) (r : Reservation) (db : Db) : Prop where
  row : ∃ r', db.reservations.find id = some ⟨id, r'⟩ ∧ SyncedRow site r' ∧ r'.hostname = r.hostname
  placed : Placed site db

theorem keeps_updateRow {writer : Writer} {f : Reservation → Reservation} (h : Keeps site id r db)
    (hf : ∀ r', SyncedRow site r' → SyncedRow site (f r') ∧ (f r').hostname = r'.hostname) :
    Keeps site id r (db.updateRow writer id f).1 := by
  obtain ⟨⟨r', hr', hrow, hhost⟩, hplaced⟩ := h
  refine ⟨?_, placed_of_tables hplaced (Db.tables_updateRow db writer id f)⟩
  obtain ⟨hrow', hhost'⟩ := hf r' hrow
  obtain hfind | hfind := Db.find_updateRow_self (w := writer) (f := f) hr'
  · exact ⟨f r', hfind, hrow', hhost'.trans hhost⟩
  · exact ⟨r', hfind, hrow, hhost⟩

theorem ofEntry_some {f : Fresh} (hf : ofEntry e = some f) : f.sourceType = .dhcpReservation ∧
    ∀ name ∈ truthy f.hostname, name ∈ truthy (extractHostnameFromDescription e.description) := by
  obtain ⟨ip, -, rfl⟩ := Option.map_eq_some_iff.mp hf
  refine ⟨rfl, fun name hname => ?_⟩
  dsimp only at hname
  split_ifs at hname
  · cases hname
  · exact hname

theorem applyDiff_keeps {f : Fresh} (hrow : SyncedRow site r) (hagrees : Agrees e.description r.hostname)
    (hf : ofEntry e = some f) (now : Nat) (r' : Reservation) (hrow' : SyncedRow site r') :
    SyncedRow site (applyDiff (diffOf f r now) r') ∧
      (applyDiff (diffOf f r now) r').hostname = r'.hostname := by
  obtain ⟨hfsource, hfhost⟩ := ofEntry_some hf
  have hsource : (diffOf f r now).sourceType = none := by
    simp [diffOf, hrow.source, hfsource]
  have hhost : (diffOf f r now).hostname = none := by
    refine Option.filter_eq_none_iff.mpr fun name hname => ?_
    simp [hagrees name (hfhost name hname)]
  refine ⟨⟨hrow'.active, hrow'.subnet, hrow'.address, ?_, hrow'.synced, hrow'.scope, hrow'.entry⟩, ?_⟩
  · exact (congrArg (·.getD r'.sourceType) hsource).trans hrow'.source
  · exact congrArg (·.or r'.hostname) hhost

section Rows

variable {subnetId : String} (hrows : c.rows = subnetRows db subnetId) (hrow : SyncedRow site r)

include hrows

theorem own_of_id {x : Row Reservation} (hfound : db.reservations.find id = some ⟨id, r⟩) (hx : x ∈ c.rows)
    (hid : x.id = id) : x = ⟨id, r⟩ := by
  rw [hrows] at hx
  exact Table.eq_of_id (List.mem_filter.mp hx).1 (Table.mem_of_find hfound).1 hid

include hrow

theorem own_of_address {x : Row Reservation} (hown : ⟨id, r⟩ ∈ c.rows) (hx : x ∈ c.rows)
    (hlive : liveAt x) (hip : x.data.ipAddress = some site.ip) : x = ⟨id, r⟩ := by
  rw [hrows] at hown hx
  obtain ⟨hmem, hsub⟩ := List.mem_filter.mp hown
  obtain ⟨hxmem, hxsub⟩ := List.mem_filter.mp hx
  have hactive : x.data.status = .active := by
    simp only [liveAt, Bool.and_eq_true, decide_eq_true_eq] at hlive
    exact hlive.1
  have hsubnet : x.data.subnetId = r.subnetId :=
    (of_decide_eq_true hxsub).trans (of_decide_eq_true hsub).symm
  refine Table.eq_of_key hxmem hmem ?_ ?_
  · simp [uniqueKey, hip, hrow.address, hsubnet, hactive, hrow.active]
  · simp [uniqueKey, hip]

/-- The row is neither queued nor kept by hand, and it is the one the view's
entry is matched with. -/
theorem upsertFresh_own (db' : Db) {f : Fresh} (hown : ⟨id, r⟩ ∈ c.rows) (hip : f.ip = site.ip)
    (hne : site.ip ≠ "") (n : Counts) :
    (upsertFresh c db' n f).1 = db' ∨
      (upsertFresh c db' n f).1 = (db'.updateRow .refreshUpsert id (applyDiff (diffOf f r c.now))).1 := by
  have hlive : liveAt ⟨id, r⟩ = true := by
    simp [liveAt, hrow.active, hrow.address, truthy, hne]
  have hdhcp : isDhcp ⟨id, r⟩ = true := by simp [isDhcp, hrow.source]
  have hpending : pendingByIp c.rows f.ip = none := by
    rw [pendingByIp, List.getLast?_eq_none_iff, List.filter_eq_nil_iff]
    intro x hx hp
    simp only [Bool.and_eq_true, decide_eq_true_eq, isPending] at hp
    rw [own_of_address hrows hrow hown hx hp.1.1 (hip ▸ hp.2)] at hp
    exact absurd (hp.1.2.symm.trans hrow.synced) (by simp)
  have hmanual : manualByIp c.rows f.ip = false := by
    rw [manualByIp, List.any_eq_false]
    intro x hx hm
    simp only [Bool.and_eq_true, decide_eq_true_eq, Bool.not_eq_true'] at hm
    rw [own_of_address hrows hrow hown hx hm.1.1.1 (hip ▸ hm.2)] at hm
    simp [hdhcp] at hm
  have hmatched : (existingRows c.rows).find? (·.data.ipAddress = some f.ip) = some ⟨id, r⟩ := by
    cases hm : (existingRows c.rows).find? (·.data.ipAddress = some f.ip) with
    | none =>
      have hmem : ⟨id, r⟩ ∈ existingRows c.rows := List.mem_filter.mpr ⟨hown, by simp [hlive, hdhcp]⟩
      have := List.find?_eq_none.mp hm _ hmem
      simp [hrow.address, hip] at this
    | some x =>
      have hx := List.mem_of_find?_eq_some hm
      obtain ⟨hxc, hxl⟩ := List.mem_filter.mp hx
      rw [Bool.and_eq_true] at hxl
      exact congrArg some (own_of_address hrows hrow hown hxc hxl.1 (hip ▸ (find_existing hm).2))
  rw [upsertFresh, hpending, hmanual, hmatched]
  simp only [Bool.false_eq_true, if_false]
  split
  · exact .inl rfl
  · exact .inr rfl

variable (hfound : db.reservations.find id = some ⟨id, r⟩) (hagrees : Agrees e.description r.hostname)
  (hne : site.ip ≠ "") (hshown : ⟨id, r⟩ ∈ c.rows → ∃ f ∈ fresh, f.ip = site.ip)
  (hview : ⟨id, r⟩ ∈ c.rows → ∀ f ∈ fresh, f.ip = site.ip → ofEntry e = some f)

include hfound hagrees hne hview

theorem keeps_upsertFresh {db' : Db} {f : Fresh} (hf : f ∈ fresh) (h : Keeps site id r db') :
    Keeps site id r (upsertFresh c db' n f).1 := by
  by_cases hown : ⟨id, r⟩ ∈ c.rows ∧ f.ip = site.ip
  · obtain ⟨hown, hip⟩ := hown
    have hentry := hview hown f hf hip
    obtain heq | heq := upsertFresh_own hrows hrow db' hown hip hne n
    · rw [heq]
      exact h
    · rw [heq]
      exact keeps_updateRow h (applyDiff_keeps hrow hagrees hentry c.now)
  · obtain ⟨⟨r', hr', hkeep⟩, hplaced⟩ := h
    refine ⟨⟨r', upsertFresh_other (fun x hx hip hid => hown ?_) hr', hkeep⟩,
      placed_of_tables hplaced (tables_upsertFresh c db' n f)⟩
    cases own_of_id hrows hfound hx hid
    exact ⟨hx, Option.some.inj (hip.symm.trans hrow.address)⟩

include hshown

theorem keeps_reconcileScope (h : Keeps site id r db) : Keeps site id r (reconcileScope c db fresh).1 := by
  have hupsert : Keeps site id r (loop (upsertFresh c) db {} fresh).1 :=
    loop_invariant (fun _ _ f hf h => keeps_upsertFresh hrows hrow hfound hagrees hne hview hf h) h
  rw [reconcileScope]
  split
  · next heq =>
    rw [heq] at hupsert
    exact hupsert
  · next heq =>
    rw [heq] at hupsert
    refine loop_invariant (fun db' n x hx h => ?_) hupsert
    obtain ⟨hx, hgone⟩ := List.mem_filter.mp hx
    have hxc := (List.mem_filter.mp hx).1
    have hid : x.id ≠ id := by
      intro hid
      cases own_of_id hrows hfound hxc hid
      obtain ⟨f, hf, hip⟩ := hshown hxc
      rw [Bool.not_eq_true', List.any_eq_false] at hgone
      exact hgone f hf (by simp [hrow.address, hip])
    obtain ⟨⟨r', hr', hkeep⟩, hplaced⟩ := h
    exact ⟨⟨r', Db.find_updateRow_ne hid hr', hkeep⟩,
      placed_of_tables hplaced (Db.tables_updateRow db' .refreshRelease x.id DnsResolved.markReleased)⟩

end Rows

variable {subnetId : String} {actor : Option String} {now : Nat} {leases : List MonitorEntry}
  {faults : RefreshFaults}

theorem Placed.named (h : Placed site db) : truthy (some site.ip) = some site.ip := by
  obtain ⟨_, -, -, htarget⟩ := h
  exact (updatePushTarget_some htarget).2.2

theorem readDevice_site {subnet : Subnet} {scopeId : Nat} (hplaced : Placed site w.db)
    (hentry : SyncedEntry N site (w.gateways site.target.deviceName) e)
    (h : readDevice N w site.subnetId leases faults = .ok (subnet, scopeId, fresh)) :
    ∃ live, fresh = freshView ((w.gateways site.target.deviceName).reserved site.scopeId) live := by
  obtain ⟨s, hs, hcidr, htarget⟩ := hplaced
  obtain ⟨ifc, hscope⟩ := hentry.scope
  obtain ⟨⟨s', integration, deviceName⟩, hs', h⟩ := bind_ok h
  obtain ⟨hfind, hdev⟩ := refreshable_ok hs'
  cases hs.symm.trans hfind
  cases (updatePushTarget_some htarget).2.1.symm.trans hdev
  obtain ⟨-, -, h⟩ := bind_ok h
  obtain ⟨servers, hservers, h⟩ := bind_ok h
  obtain ⟨scope, hfound, h⟩ := bind_ok h
  obtain ⟨entries, hentries, h⟩ := bind_ok h
  obtain ⟨shown, -, h⟩ := bind_ok h
  obtain ⟨live, -, h⟩ := bind_ok h
  cases h
  cases fetch_ok hservers
  rw [hcidr] at hfound
  cases hscope.symm.trans hfound
  cases fetch_ok hentries
  exact ⟨live, rfl⟩

theorem synced_refresh (h : Synced N site id w r e) :
    ∃ r', Synced N site id (refreshSubnet N w subnetId actor now leases faults).1 r' e ∧
      r'.hostname = r.hostname := by
  have hip := h.placed.named
  have hne : site.ip ≠ "" := (truthy_some hip).2
  rw [refreshSubnet]
  split
  · exact ⟨r, h, rfl⟩
  · next subnet scopeId fresh hread =>
    have hview : ⟨id, r⟩ ∈ subnetRows w.db subnetId → (∃ f ∈ fresh, f.ip = site.ip) ∧
        ∀ f ∈ fresh, f.ip = site.ip → ofEntry e = some f := by
      intro hown
      have hsub : subnetId = site.subnetId :=
        (of_decide_eq_true (List.mem_filter.mp hown).2).symm.trans h.row.subnet
      subst hsub
      obtain ⟨live, rfl⟩ := readDevice_site h.placed h.entry hread
      have hshown : truthy e.ip = some site.ip := h.entry.ip ▸ hip
      exact ⟨freshView_shows h.entry.mem hshown, fun f => freshView_alone h.entry.mem hshown
        fun a ha haip => h.entry.alone a ha (truthy_some haip).1⟩
    have hkeeps : Keeps site id r (reconcileScope ⟨subnet, scopeId, subnetRows w.db subnetId, actor, now⟩
        w.db fresh).1 :=
      keeps_reconcileScope rfl h.row h.found h.agrees hne (fun hown => (hview hown).1)
        (fun hown => (hview hown).2) ⟨⟨r, h.found, h.row, rfl⟩, h.placed⟩
    split
    · next heq =>
      rw [heq] at hkeeps
      obtain ⟨⟨r', hfound, hrow, hhost⟩, hplaced⟩ := hkeeps
      exact ⟨r', ⟨hfound, hrow, hplaced, h.entry, hhost ▸ h.agrees⟩, hhost⟩
    · next heq =>
      rw [heq] at hkeeps
      obtain ⟨⟨r', hfound, hrow, hhost⟩, hplaced⟩ := hkeeps
      exact ⟨r', ⟨hfound, hrow, placed_touch hplaced subnetId now, h.entry, hhost ▸ h.agrees⟩, hhost⟩

end Refreshes

section Updates

variable {N : Package} {site : Site} {id : Nat} {r : Reservation} {e : ReservedAddress} {w : World}
  {input : UpdateReservationInput} {actor : Option String} {now : Nat} {faults : UpdateFaults}

theorem applyInput_row (hrow : SyncedRow site r) (changedMac : Option (Option String)) :
    SyncedRow site (applyInput input actor changedMac r) :=
  ⟨hrow.active, hrow.subnet, hrow.address, hrow.source, hrow.synced, hrow.scope, hrow.entry⟩

theorem findEntry_site {g : Gateway} {p : UpdateParams} {entry : ReservedAddress}
    (hentry : SyncedEntry N site g e) (hp : p.entryId = some site.entryId)
    (h : findEntry (g.reserved site.scopeId) p = some entry) : entry = e := by
  have hfind := Gateway.find_of_id hentry.mem
  rw [hentry.id] at hfind
  rw [findEntry, hp, Option.bind_some, hfind, Option.some_or] at h
  exact (Option.some.inj h).symm

theorem syncedEntry_modify {g : Gateway} {p : UpdateParams} (hentry : SyncedEntry N site g e) :
    SyncedEntry N site (g.modify site.scopeId e.id (updateEntry p)) (updateEntry p e) := by
  have hself : Gateway.amendEntry e.id (updateEntry p) e = updateEntry p e := if_pos rfl
  refine ⟨hentry.scope, ?_, hentry.id, hentry.ip, fun a ha hip => ?_⟩
  · exact Gateway.mem_modify.mpr ⟨e, hentry.mem, by rw [if_pos rfl, hself]⟩
  · obtain ⟨b, hb, rfl⟩ := Gateway.mem_modify.mp ha
    rw [if_pos rfl] at hip ⊢
    have hbip : b.ip = some site.ip := by
      unfold Gateway.amendEntry at hip
      split_ifs at hip
      · exact hip
      · exact hip
    rw [hentry.alone b hb hbip, hself]

/-- The device's description goes along with the new hostname: it is written
anew when the MAC changes, and else is the one that is there. -/
def Clear (site : Site) (w : World) (r : Reservation) (input : UpdateReservationInput) : Prop :=
  ∀ newMac, parseNewMac input = .ok newMac →
    if macChange r newMac = none then
      ∀ e ∈ (w.gateways site.target.deviceName).reserved site.scopeId, e.id = site.entryId →
        Agrees e.description (input.hostname.or r.hostname)
    else Readable (input.hostname.or r.hostname) r.createdBy site.ip (input.notes.or r.notes)

theorem synced_update {updated : Row Reservation} (h : Synced N site id w r e)
    (hok : (updateReservation N w id input actor now faults).2 = .ok updated)
    (hclear : Clear site w r input) :
    ∃ r' e', Synced N site id (updateReservation N w id input actor now faults).1 r' e' ∧
      r'.hostname = input.hostname.or r.hostname := by
  obtain ⟨row, subnet, newMac, w', stamp, hfound, -, hmac, hpush, hw, hres⟩ := updateReservation_ok hok
  obtain ⟨hrow, hsubnet⟩ := Db.findReservation_ok hfound
  cases h.found.symm.trans hrow
  obtain ⟨s, hs, hcidr, htarget⟩ := h.placed
  rw [← h.row.subnet] at hs
  cases hs.symm.trans hsubnet
  have hclear := hclear newMac hmac
  have hfind := Db.find_of_updateRow_ok hres
  obtain ⟨_, hold, hupdated⟩ := Db.updateRow_ok hres
  have hplaced : ∀ db, Placed site db → Placed site (db.updateRow .update id
      (stamp ∘ applyInput input actor (macChange r newMac))).1 := fun db hdb =>
    placed_of_tables hdb (Db.tables_updateRow db _ _ _)
  rw [hw]
  obtain ⟨hskip, rfl, rfl⟩ | ⟨target, ip, mac, res, htarget', hchanged, hpushed, rfl, rfl⟩ :=
    pushUpdate_ok hpush
  · have hnone : macChange r newMac = none := by
      obtain hskip | hskip | hskip := hskip
      · rw [h.row.address, htarget] at hskip
        cases hskip
      · exact hskip
      · exact absurd (hskip.symm.trans h.row.synced) (by simp)
    rw [if_pos hnone] at hclear
    cases h.found.symm.trans hold
    refine ⟨_, e, ⟨hfind.trans (congrArg some hupdated), applyInput_row h.row _, hplaced _ h.placed,
      h.entry, ?_⟩, rfl⟩
    exact hclear e h.entry.mem h.entry.id
  · rw [h.row.address, htarget] at htarget'
    cases htarget'
    rw [if_neg (by simp [hchanged])] at hclear
    cases h.found.symm.trans hold
    obtain ⟨-, hscope, entry, hentry, hid, hg⟩ := updatePushedReservation_ok hpushed
    have hscope : res.scopeId = site.scopeId := hscope _ h.row.scope
    rw [hscope] at hentry hg
    obtain rfl : entry = e := findEntry_site h.entry h.row.entry hentry
    refine ⟨_, updateEntry (updateParams input ⟨id, r⟩ subnet site.target site.ip mac) entry,
      ⟨hfind.trans (congrArg some hupdated), ?_, hplaced _ h.placed, ?_, ?_⟩, rfl⟩
    · exact ⟨h.row.active, h.row.subnet, h.row.address, h.row.source, rfl, congrArg some hscope,
        congrArg some (hid.trans h.entry.id)⟩
    · change SyncedEntry N site (Function.update w.gateways _ _ _) _
      rw [Function.update_self, hg]
      exact syncedEntry_modify h.entry
    · exact (agrees_buildDescription _ _ _ _).mpr hclear

end Updates

section Runs

inductive Call
  | update (input : UpdateReservationInput) (actor : Option String) (faults : UpdateFaults)
  | refresh (subnetId : String) (actor : Option String) (leases : List MonitorEntry) (faults : RefreshFaults)

structure Event where
  time : Nat
  call : Call

variable (N : Package) (site : Site) (id : Nat)

def step (w : World) (event : Event) : World :=
  match event.call with
  | .update input actor faults => (updateReservation N w id input actor event.time faults).1
  | .refresh subnetId actor leases faults => (refreshSubnet N w subnetId actor event.time leases faults).1

def run (w : World) (events : List Event) : World := events.foldl (step N id) w

def hostnameOf (w : World) : Option (Option String) := (w.db.reservations.find id).map (·.data.hostname)

def edited (hostname : Option String) (event : Event) : Option String :=
  match event.call with
  | .update input _ _ => input.hostname.or hostname
  | .refresh _ _ _ _ => hostname

def lastSet (hostname : Option String) (events : List Event) : Option String := events.foldl edited hostname

/-- After each refresh the row has the hostname that was last set. -/
def Survives (w : World) (hostname : Option String) (events : List Event) : Prop :=
  ∀ pre post now subnetId actor leases faults,
    events = pre ++ ⟨now, .refresh subnetId actor leases faults⟩ :: post →
      hostnameOf id (run N id w (pre ++ [⟨now, .refresh subnetId actor leases faults⟩])) =
        some (lastSet hostname pre)

def Successful (w : World) (event : Event) : Prop :=
  match event.call with
  | .update input actor faults => (updateReservation N w id input actor event.time faults).2.isOk
  | .refresh _ _ _ _ => True

instance : ∀ (w : World) (event : Event), Decidable (Successful N id w event)
  | w, ⟨now, .update input actor faults⟩ =>
    inferInstanceAs (Decidable ((updateReservation N w id input actor now faults).2.isOk = true))
  | _, ⟨_, .refresh _ _ _ _⟩ => isTrue trivial

def Kept (w : World) (event : Event) : Prop :=
  match event.call with
  | .update input _ _ => ∀ r ∈ w.db.reservations.find id, Clear site w r.data input
  | .refresh _ _ _ _ => True

variable {N site id} {w : World} {r : Reservation} {e : ReservedAddress}

theorem synced_step {event : Event} (h : Synced N site id w r e) (hok : Successful N id w event)
    (hkept : Kept site id w event) :
    ∃ r' e', Synced N site id (step N id w event) r' e' ∧ r'.hostname = edited r.hostname event := by
  obtain ⟨now, call⟩ := event
  cases call with
  | update input actor faults =>
    obtain ⟨updated, hupdated⟩ : ∃ updated,
      (updateReservation N w id input actor now faults).2 = .ok updated := by
      change (updateReservation N w id input actor now faults).2.isOk = true at hok
      cases hres : (updateReservation N w id input actor now faults).2 with
      | error e => simp [hres, Except.isOk, Except.toBool] at hok
      | ok updated => exact ⟨updated, rfl⟩
    exact synced_update h hupdated (hkept _ h.found)
  | refresh subnetId actor leases faults =>
    obtain ⟨r', hr', hhost⟩ := synced_refresh h
    exact ⟨r', e, hr', hhost⟩

theorem synced_run {events : List Event} (h : Synced N site id w r e)
    (hok : Along (step N id) (Successful N id) w events) (hkept : Along (step N id) (Kept site id) w events) :
    ∃ r' e', Synced N site id (run N id w events) r' e' ∧ r'.hostname = lastSet r.hostname events := by
  induction events generalizing w r e with
  | nil => exact ⟨r, e, h, rfl⟩
  | cons event events ih =>
    obtain ⟨r', e', h', hhost⟩ := synced_step h hok.1 hkept.1
    obtain ⟨r'', e'', h'', hhost'⟩ := ih h' hok.2 hkept.2
    refine ⟨r'', e'', h'', hhost'.trans ?_⟩
    rw [hhost]
    rfl

/-- The hostname survives when every edit of it goes along with the device's
description. -/
theorem edits_survive_refresh (N : Package) (site : Site) (id : Nat) (w : World) (r : Reservation)
    (e : ReservedAddress) (events : List Event) (h : Synced N site id w r e)
    (hok : Along (step N id) (Successful N id) w events)
    (hkept : Along (step N id) (Kept site id) w events) : Survives N id w r.hostname events := by
  intro pre post now subnetId actor leases faults hevents
  subst hevents
  obtain ⟨r', e', h', hhost⟩ := synced_run h (along_append.mp hok).1 (along_append.mp hkept).1
  obtain ⟨r'', h'', hhost'⟩ : ∃ r'', Synced N site id
      (refreshSubnet N (run N id w pre) subnetId actor now leases faults).1 r'' e' ∧
        r''.hostname = r'.hostname :=
    synced_refresh h'
  have hrun : run N id w (pre ++ [⟨now, .refresh subnetId actor leases faults⟩]) =
      (refreshSubnet N (run N id w pre) subnetId actor now leases faults).1 := List.foldl_append
  rw [hrun, hostnameOf, h''.found, Option.map_some, hhost', hhost]

end Runs

section Scanner

def scannerRow : Reservation :=
  { subnetId := "lan", ipAddress := some "10.0.0.5", hostname := some "scanner", createdBy := some "alice",
    macAddress := some "aa:bb:cc:dd:ee:01", sourceType := .dhcpReservation, pushedToId := some "fmg",
    pushedScopeId := some 1, pushedEntryId := some 1, pushStatus := some .synced }

def scannerSite : Site :=
  { subnetId := "lan", cidr := "10.0.0.0/24", ip := "10.0.0.5", target := ⟨{ id := "fmg" }, "fg1"⟩,
    scopeId := 1, entryId := 1 }

theorem synced_scanner :
    Synced reference scannerSite 0 (RefreshView.clinic [scannerRow]) scannerRow RefreshView.scanner where
  found := rfl
  row := ⟨rfl, rfl, rfl, rfl, rfl, rfl, rfl⟩
  placed := ⟨Reservations.plantSubnet, rfl, rfl, rfl⟩
  entry := ⟨⟨none, by rfl⟩, by decide, rfl, rfl, by decide⟩
  agrees := by decide +kernel

def renamed (mac : Option String) : List Event :=
  [⟨1, .update { hostname := some "front-desk", macAddress := mac } none {}⟩, ⟨2, .refresh "lan" none [] {}⟩]

theorem edits_survive_refresh_scanner :
    Survives reference 0 (RefreshView.clinic [scannerRow]) (some "scanner")
      (renamed (some "AA-BB-CC-DD-EE-02")) := by
  refine edits_survive_refresh reference scannerSite 0 _ scannerRow RefreshView.scanner _ synced_scanner
    ⟨by decide +kernel, trivial, trivial⟩ ⟨fun r hr => ?_, trivial, trivial⟩
  cases hr
  intro newMac hmac
  cases hmac
  rw [if_neg (by decide +kernel)]
  exact (agrees_buildDescription _ _ _ _).mp (by decide +kernel)

/-- Without a new MAC the device keeps the old name, and the refresh brings it
back. -/
theorem refresh_reverts_hostname :
    Synced reference scannerSite 0 (RefreshView.clinic [scannerRow]) scannerRow RefreshView.scanner ∧
      Along (step reference 0) (Successful reference 0) (RefreshView.clinic [scannerRow]) (renamed none) ∧
      lastSet (some "scanner") (renamed none) = some "front-desk" ∧
      hostnameOf 0 (run reference 0 (RefreshView.clinic [scannerRow]) (renamed none)) =
        some (some "scanner") ∧
      ¬ Survives reference 0 (RefreshView.clinic [scannerRow]) (some "scanner") (renamed none) := by
  have hreverted : hostnameOf 0 (run reference 0 (RefreshView.clinic [scannerRow]) (renamed none)) =
      some (some "scanner") := by decide +kernel
  refine ⟨synced_scanner, ⟨by decide +kernel, trivial, trivial⟩, rfl, hreverted, fun h => ?_⟩
  have hset := h [⟨1, .update { hostname := some "front-desk" } none {}⟩] [] 2 "lan" none [] {} rfl
  exact absurd (hreverted.symm.trans hset) (by decide)

end Scanner

end Polaris.HostnameEdits
