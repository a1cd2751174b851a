import Polaris.GatewayKnowledge
import Polaris.Lib.Batches

namespace Polaris.MacBatches

open Polaris.AssetLookup Polaris.GatewaySync Polaris.GatewayKnowledge Polaris.Lib.Batches Polaris.Lib.Store
  Polaris.Netmask
open Polaris.ClusterSync hiding Db
open Polaris.ConflictResolution (MacEntry)
open Polaris.DhcpAssociation (DhcpEntry attributed mergeMac seen)

section Tables

variable {key id i : Nat} {s : SubnetDiscovery.Source} {db : Db} {rows : List MacRow} {macs : List MacEntry}
  {mac : String}
  {w : Write} {u : AssetUpdate} {reported : Option String} {ip : Option String}

def Lists (rows : List MacRow) (i : Nat) (mac : String) : Prop := ∃ r ∈ rows, r.assetId = i ∧
    r.entry.mac = mac

/-- A MAC of an asset in its table. -/
def Stored (db : Db) (i : Nat) (mac : String) : Prop := Lists db.macRows i mac

def Addressed (db : Db) (i : Nat) (ip : Option String) : Prop := ∀ r ∈ db.assets.rows, r.id = i →
    r.data.ipAddress = ip

theorem lists_upsertMac {m : MacEntry} : Lists (upsertMac key id rows m) i mac ↔ Lists rows i mac ∨ i = id ∧
    mac = m.mac := by
  rw [upsertMac]
  split
  · next hany =>
    obtain ⟨q, hq, hmac⟩ := List.any_eq_true.mp hany
    simp only [isMac, Bool.and_eq_true, decide_eq_true_eq] at hmac
    have hsame : ∀ r : MacRow, (if isMac id m.mac r then { r with entry := m } else r).assetId = r.assetId ∧
        (if isMac id m.mac r then { r with entry := m } else r).entry.mac = r.entry.mac := by
      intro r
      split
      · next hr =>
        simp only [isMac, Bool.and_eq_true, decide_eq_true_eq] at hr
        exact ⟨rfl, hr.2.symm⟩
      · exact ⟨rfl, rfl⟩
    constructor
    · rintro ⟨x, hx, hid, hm⟩
      obtain ⟨r, hr, rfl⟩ := List.mem_map.mp hx
      exact .inl ⟨r, hr, (hsame r).1.symm.trans hid, (hsame r).2.symm.trans hm⟩
    · rintro (⟨r, hr, hid, hm⟩ | ⟨rfl, rfl⟩)
      · exact ⟨_, List.mem_map_of_mem hr, (hsame r).1.trans hid, (hsame r).2.trans hm⟩
      · exact ⟨_, List.mem_map_of_mem hq, (hsame q).1.trans hmac.1, (hsame q).2.trans hmac.2⟩
  · simp only [Lists, List.mem_append, List.mem_singleton, or_and_right, exists_or, exists_eq_left]
    exact or_congr_right (and_congr eq_comm eq_comm)

theorem lists_upsertMacs : Lists (macs.foldl (upsertMac key id) rows) i mac ↔ Lists rows i mac ∨ i = id ∧
    mac ∈ macsOf macs := by
  induction macs generalizing rows with
  | nil => simp [macsOf]
  | cons m macs ih =>
    rw [List.foldl_cons, ih, lists_upsertMac, or_assoc, ← and_or_left, macsOf, macsOf, List.map_cons,
      List.mem_cons]

theorem stored_upsertMacs : Stored (db.write key s (.upsertMacs id macs)) i mac ↔ Stored db i mac ∨ i = id ∧
    mac ∈ macsOf macs :=
  lists_upsertMacs

theorem stored_deleteMacs :
    Stored (db.write key s (.deleteMacs id macs)) i mac ↔ Stored db i mac ∧ (i = id → mac ∈ macsOf macs) := by
  simp only [Stored, Lists, Db.write, unlisted, List.mem_filter, Bool.not_eq_true', Bool.and_eq_false_iff,
    decide_eq_false_iff_not,
    not_not]
  constructor
  · rintro ⟨r, ⟨hr, hkeep⟩, rfl, rfl⟩
    exact ⟨⟨r, hr, rfl, rfl⟩, fun he => hkeep.resolve_left fun hne => hne he⟩
  · rintro ⟨⟨r, hr, rfl, rfl⟩, hkeep⟩
    exact ⟨r, ⟨hr, (Decidable.em (r.assetId = id)).symm.imp_right hkeep⟩, rfl, rfl⟩

theorem stored_updateAsset : Stored (db.write key s (.updateAsset id reported u)) i mac ↔
    Stored db i mac := Iff.rfl

theorem Addressed.updateAsset (h : Addressed db i ip) (hu : id = i → u.ipAddress = none ∨
    u.ipAddress = some ip) :
    Addressed (db.write key s (.updateAsset id reported u)) i ip := by
  refine Table.forall_amendWhere (P := fun r : Row AssetRow => r.id = i →
    r.data.ipAddress = ip) (fun r hr _ => h r hr) fun r hr hp hi => ?_
  change u.ipAddress.getD r.data.ipAddress = ip
  obtain hn | hs := hu ((of_decide_eq_true hp).symm.trans hi)
  · rw [hn]
    exact h r hr hi
  · rw [hs]
    rfl

theorem addressed_updateAsset (hu : u.ipAddress = some ip) :
    Addressed (db.write key s (.updateAsset i reported u)) i ip := by
  refine Table.forall_amendWhere (P := fun r : Row AssetRow => r.id = i →
    r.data.ipAddress = ip) (fun r hr hp hi => ?_) fun r hr hp hi => ?_
  · exact absurd hi (of_decide_eq_false hp)
  · change u.ipAddress.getD r.data.ipAddress = ip
    rw [hu]
    rfl

theorem ids_write (w : Write) : (db.write key s w).assets.rows.map Row.id = db.assets.rows.map Row.id := by
  cases w with
  | updateAsset id reported u =>
    refine (congrArg (List.map Row.id) (Table.amendWhere_rows _ _ _).1).trans ?_
    exact Table.map_amend_id _ _ _
  | updateSubnet | upsertSource | deleteSources | deleteMacs | upsertMacs => rfl

theorem row_foldl (key : Nat) (s : SubnetDiscovery.Source) (ws : List Write)
    (h : ∃ r ∈ db.assets.rows, r.id = i) :
    ∃ r ∈ (ws.foldl (Db.write key s) db).assets.rows, r.id = i := by
  have hids : i ∈ (ws.foldl (Db.write key s) db).assets.rows.map Row.id :=
    List.foldlRecOn (motive := fun db : Db => i ∈ db.assets.rows.map Row.id) ws _ (List.mem_map.mpr h)
      fun db hdb w _ => (ids_write w).symm ▸ hdb
  exact List.mem_map.mp hids

end Tables

section Queue

variable (C : Casing) (N : Package) (c : Sync)

/-- A lease, and the asset it belongs to as the call has it then. -/
structure Match where
  entry : DhcpEntry
  asset : AssetLookup.Asset

def Match.mac (m : Match) : String := macKey C m.entry.macAddress

/-- The leases that belong to an asset, in order. -/
def matched (mem : Memory) : List DhcpEntry → List Match
  | [] => []
  | entry :: rest =>
    match attributed C mem.idx entry with
    | none => matched mem rest
    | some a => ⟨entry, a⟩ :: matched (planLease C N c { memory := mem } entry).memory rest

/-- What is queued for a lease. -/
def assetUpdate (mem : Memory) (m : Match) : List Write :=
  .updateAsset m.asset.id none (dhcpUpdate C N c mem m.entry m.asset) ::
    reconcileMacAddresses m.asset.id (seen C N (mem.allSubnets.map lan) c.now m.entry m.asset).macAddresses

variable {C N c} {mem mem' : Memory} {m : Match} {mac : String} {entry : DhcpEntry} {entries : List DhcpEntry}
  {plan : Plan}
  {a : AssetLookup.Asset} {i : Nat} {w : Write}

theorem planLease_none (h : attributed C plan.memory.idx entry = none) :
    planLease C N c plan entry = plan := by
  rw [planLease, h]

theorem planLease_some (h : attributed C plan.memory.idx entry = some a) :
    planLease C N c plan entry =
      { plan with
        memory := (planLease C N c { memory := plan.memory } entry).memory
        batch := plan.batch ++ [assetUpdate C N c plan.memory ⟨entry, a⟩] } := by
  rw [planLease, planLease]
  simp only [h]
  rfl

theorem leased (h : attributed C mem.idx entry = some a) :
    (planLease C N c { memory := mem } entry).memory.allSubnets = mem.allSubnets ∧
      ∀ i, findById (planLease C N c { memory := mem } entry).memory.idx i =
        if i = a.id then some (seen C N (mem.allSubnets.map lan) c.now entry a) else findById mem.idx i := by
  rw [planLease]
  simp only [h]
  split
  · exact ⟨rfl, fun i => findById_add⟩
  · exact ⟨rfl, fun i => findById_add⟩

theorem assetUpdate_congr (h : mem.allSubnets = mem'.allSubnets) :
    assetUpdate C N c mem = assetUpdate C N c mem' := by
  funext m
  rw [assetUpdate, assetUpdate, dhcpUpdate, dhcpUpdate, h]

theorem foldl_planLease : (entries.foldl (planLease C N c) plan).batch =
    plan.batch ++ (matched C N c plan.memory entries).map (assetUpdate C N c plan.memory) := by
  induction entries generalizing plan with
  | nil => exact (List.append_nil _).symm
  | cons entry rest ih =>
    rw [List.foldl_cons, matched]
    cases h : attributed C plan.memory.idx entry with
    | none => rw [planLease_none h, ih]
    | some a =>
      rw [planLease_some h, ih, List.append_assoc, List.singleton_append, List.map_cons,
        assetUpdate_congr (leased h).1]

theorem planDhcp_batch : (planDhcp C N c mem).batch = (matched C N c mem c.result.dhcpEntries).map
    (assetUpdate C N c mem) := by
  rw [planDhcp, foldl_planLease, List.nil_append]

theorem mem_seen_iff {subnets : List DhcpAssociation.Subnet} : mac ∈
    macsOf (seen C N subnets c.now entry a).macAddresses ↔
    mac ∈ macsOf a.macAddresses ∨ mac = macKey C entry.macAddress := by
  change mac ∈ macsOf (mergeMac _ _ _ _ _) ↔ _
  rw [mergeMac, mem_macsOf_mergeSort]
  split
  · next hany =>
    obtain ⟨m, hm, hmac⟩ := List.any_eq_true.mp hany
    rw [mem_amendFirst]
    · refine (or_iff_left_of_imp ?_).symm
      rintro rfl
      exact List.mem_map.mpr ⟨m, hm, of_decide_eq_true hmac⟩
    · exact fun _ => rfl
  · rw [macsOf, macsOf, List.map_append, List.mem_append]
    exact or_congr_right List.mem_singleton

def Holds (mem : Memory) (i : Nat) (mac : String) : Prop := ∃ a, findById mem.idx i = some a ∧
    mac ∈ macsOf a.macAddresses

theorem holds_iff (h : findById mem.idx i = some a) : Holds mem i mac ↔ mac ∈ macsOf a.macAddresses := by
  simp [Holds, h]

theorem findById_of_attributed (h : attributed C mem.idx entry = some a) :
    findById mem.idx a.id = some a := by
  rw [attributed] at h
  split at h
  · cases h
  · exact findById_of_findByEntry h

theorem holds_leased (h : attributed C mem.idx entry = some a) :
    Holds (planLease C N c { memory := mem } entry).memory i mac ↔
      Holds mem i mac ∨ a.id = i ∧ macKey C entry.macAddress = mac := by
  by_cases hi : i = a.id
  · subst hi
    rw [holds_iff (((leased h).2 _).trans (if_pos rfl)), holds_iff (findById_of_attributed h), mem_seen_iff]
    simp [eq_comm]
  · have hfind := ((leased (N := N) (c := c) h).2 i).trans (if_neg hi)
    simp [Holds, hfind, Ne.symm hi]

/-- The asset of a lease has the MACs it began with and those of its leases
before, and it is of the type it began with. -/
theorem matched_asset {pre post : List Match} (h : matched C N c mem entries = pre ++ m :: post) :
    (∃ a, findById mem.idx m.asset.id = some a ∧ a.isInfra = m.asset.isInfra) ∧
      ∀ mac, mac ∈ macsOf m.asset.macAddresses ↔
        Holds mem m.asset.id mac ∨ ∃ m' ∈ pre, m'.asset.id = m.asset.id ∧ m'.mac C = mac := by
  induction entries generalizing mem pre with
  | nil => simp [matched] at h
  | cons entry rest ih =>
    rw [matched] at h
    cases ha : attributed C mem.idx entry with
    | none =>
      simp only [ha] at h
      exact ih h
    | some a =>
      simp only [ha] at h
      cases pre with
      | nil =>
        obtain ⟨rfl, -⟩ := List.cons.inj h
        have hfind := findById_of_attributed ha
        refine ⟨⟨a, hfind, rfl⟩, fun mac => ?_⟩
        rw [holds_iff hfind]
        simp
      | cons p pre =>
        obtain ⟨rfl, htail⟩ := List.cons.inj ((List.cons_append ..).symm.trans h.symm)
        obtain ⟨⟨b, hb, htype⟩, hmacs⟩ := ih htail.symm
        refine ⟨?_, fun mac => ?_⟩
        · rw [(leased ha).2] at hb
          split at hb
          · next hid =>
            obtain rfl := Option.some.inj hb
            exact ⟨a, hid ▸ findById_of_attributed ha, htype⟩
          · exact ⟨b, hb, htype⟩
        · rw [hmacs, holds_leased ha, or_assoc]
          simp only [List.mem_cons, exists_eq_or_imp]
          exact Iff.rfl

end Queue

section Members

variable {C : Casing} {N : Package} {c : Sync} {key i : Nat} {s : SubnetDiscovery.Source} {db : Db}
  {mem : Memory}
  {m : Match}
  {mac : String} {w : Write} {ws : List Write} {ms : List Match} {ip : Option String}

/-- The MACs that an update goes on to reconcile. -/
def brought (C : Casing) (N : Package) (c : Sync) (mem : Memory) (m : Match) : List MacEntry :=
  (seen C N (mem.allSubnets.map lan) c.now m.entry m.asset).macAddresses.filter (·.mac ≠ "")

theorem mem_brought : mac ∈ macsOf (brought C N c mem m) ↔ mac ≠ "" ∧ (mac ∈ macsOf m.asset.macAddresses ∨
    mac = m.mac C) := by
  have hseen : mac ∈ macsOf (seen C N (mem.allSubnets.map lan) c.now m.entry m.asset).macAddresses ↔
      mac ∈ macsOf m.asset.macAddresses ∨ mac = macKey C m.entry.macAddress := mem_seen_iff
  rw [Match.mac, ← hseen, macsOf, brought, macsOf]
  simp only [List.mem_map, List.mem_filter, decide_eq_true_eq]
  constructor
  · rintro ⟨e, ⟨he, hne⟩, rfl⟩
    exact ⟨hne, e, he, rfl⟩
  · rintro ⟨hne, e, he, rfl⟩
    exact ⟨e, ⟨he, hne⟩, rfl⟩

theorem mem_reconcileMacAddresses {id : Nat} {macs : List MacEntry} : w ∈ reconcileMacAddresses id macs ↔
    w = .deleteMacs id (macs.filter (·.mac ≠ "")) ∨
      macs.filter (·.mac ≠ "") ≠ [] ∧ w = .upsertMacs id (macs.filter (·.mac ≠ "")) := by
  rw [reconcileMacAddresses]
  generalize macs.filter (·.mac ≠ "") = newMacs
  split
  · next hnil => simp [hnil]
  · next hne => simp [hne]

theorem mem_assetUpdate : w ∈ assetUpdate C N c mem m ↔
    w = .updateAsset m.asset.id none (dhcpUpdate C N c mem m.entry m.asset) ∨
      w = .deleteMacs m.asset.id (brought C N c mem m) ∨
        brought C N c mem m ≠ [] ∧ w = .upsertMacs m.asset.id (brought C N c mem m) :=
  List.mem_cons.trans (or_congr_right mem_reconcileMacAddresses)

theorem dhcpUpdate_ipAddress : (dhcpUpdate C N c mem m.entry m.asset).ipAddress =
    if m.asset.isInfra then none else some (some m.entry.ipAddress) := rfl

theorem stored_foreign (hw : w ∈ assetUpdate C N c mem m) (hne : m.asset.id ≠ i) :
    Stored (db.write key s w) i mac ↔ Stored db i mac := by
  obtain rfl | rfl | ⟨-, rfl⟩ := mem_assetUpdate.mp hw
  · exact stored_updateAsset
  · rw [stored_deleteMacs]
    exact and_iff_left fun he => absurd he.symm hne
  · rw [stored_upsertMacs]
    exact or_iff_left fun h => hne h.1.symm

theorem Addressed.kept (h : Addressed db i ip) (hw : w ∈ assetUpdate C N c mem m)
    (hu : m.asset.id = i → m.asset.isInfra = true ∨ some m.entry.ipAddress = ip) :
    Addressed (db.write key s w) i ip := by
  obtain rfl | rfl | ⟨-, rfl⟩ := mem_assetUpdate.mp hw
  · refine h.updateAsset fun hi => ?_
    rw [dhcpUpdate_ipAddress]
    split
    · exact .inl rfl
    · next hinfra => exact .inr (congrArg some ((hu hi).resolve_left hinfra))
  · exact h
  · exact h

theorem mem_upsert_of_mem (h : mac ∈ macsOf (brought C N c mem m)) :
    .upsertMacs m.asset.id (brought C N c mem m) ∈ assetUpdate C N c mem m := by
  refine mem_assetUpdate.mpr (.inr (.inr ⟨fun hnil => ?_, rfl⟩))
  rw [hnil] at h
  exact List.not_mem_nil h

/-- Where the updates of an asset in a batch agree on its MACs, the batch leaves
just those, in whatever order its steps happen. -/
theorem stored_batch {P : String → Prop} (hhas : ∃ m ∈ ms, m.asset.id = i)
    (hws : ∀ w, w ∈ ws ↔ ∃ m ∈ ms, w ∈ assetUpdate C N c mem m)
    (hagree : ∀ m ∈ ms, m.asset.id = i → ∀ mac, mac ∈ macsOf (brought C N c mem m) ↔ P mac) :
    Stored (ws.foldl (Db.write key s) db) i mac ↔ P mac := by
  obtain ⟨m, hm, hid⟩ := hhas
  constructor
  · have hdelete : .deleteMacs i (brought C N c mem m) ∈ ws :=
      (hws _).mpr ⟨m, hm, mem_assetUpdate.mpr (.inr (.inl (hid ▸ rfl)))⟩
    refine foldl_established (I := fun db => Stored db i mac →
      P mac) hdelete (fun db hs => ?_) (fun w hw db hI hs => ?_) db
    · exact (hagree m hm hid mac).mp ((stored_deleteMacs.mp hs).2 rfl)
    · obtain ⟨m', hm', hw⟩ := (hws w).mp hw
      by_cases hne : m'.asset.id = i
      · obtain rfl | rfl | ⟨-, rfl⟩ := mem_assetUpdate.mp hw
        · exact hI hs
        · exact hI (stored_deleteMacs.mp hs).1
        · obtain hs | ⟨-, hmac⟩ := stored_upsertMacs.mp hs
          · exact hI hs
          · exact (hagree m' hm' hne mac).mp hmac
      · exact hI ((stored_foreign hw hne).mp hs)
  · intro hP
    have hmac := (hagree m hm hid mac).mpr hP
    have hupsert : .upsertMacs i (brought C N c mem m) ∈ ws :=
      (hws _).mpr ⟨m, hm, hid ▸ mem_upsert_of_mem hmac⟩
    refine foldl_established (I := fun db => Stored db i mac) hupsert (fun db => ?_) (fun w hw db hI => ?_) db
    · exact stored_upsertMacs.mpr (.inr ⟨rfl, hmac⟩)
    · obtain ⟨m', hm', hw⟩ := (hws w).mp hw
      by_cases hne : m'.asset.id = i
      · obtain rfl | rfl | ⟨-, rfl⟩ := mem_assetUpdate.mp hw
        · exact hI
        · exact stored_deleteMacs.mpr ⟨hI, fun _ => (hagree m' hm' hne mac).mpr hP⟩
        · exact stored_upsertMacs.mpr (.inl hI)
      · exact (stored_foreign hw hne).mpr hI

theorem addressed_batch
    (hhas : ∃ m ∈ ms, m.asset.id = i ∧ m.asset.isInfra = false ∧ some m.entry.ipAddress = ip)
    (hws : ∀ w, w ∈ ws ↔ ∃ m ∈ ms, w ∈ assetUpdate C N c mem m)
    (hagree : ∀ m ∈ ms, m.asset.id = i → some m.entry.ipAddress = ip) :
    Addressed (ws.foldl (Db.write key s) db) i ip := by
  obtain ⟨m, hm, rfl, hinfra, rfl⟩ := hhas
  have hupdate := (hws _).mpr ⟨m, hm, mem_assetUpdate.mpr (.inl rfl)⟩
  refine foldl_established (I := fun db => Addressed db m.asset.id _) hupdate (fun db => ?_)
    (fun w hw db hI => ?_) db
  · exact addressed_updateAsset (by rw [dhcpUpdate_ipAddress, hinfra]; rfl)
  · obtain ⟨m', hm', hw⟩ := (hws w).mp hw
    exact hI.kept hw fun hi => .inr (hagree m' hm' hi)

theorem foldl_foreign (key : Nat) (s : SubnetDiscovery.Source) (db : Db)
    (hws : ∀ w ∈ ws, ∃ m, m.asset.id ≠ i ∧ w ∈ assetUpdate C N c mem m) :
    (∀ mac, Stored (ws.foldl (Db.write key s) db) i mac ↔ Stored db i mac) ∧
      ∀ ip, Addressed db i ip → Addressed (ws.foldl (Db.write key s) db) i ip := by
  induction ws generalizing db with
  | nil => exact ⟨fun mac => Iff.rfl, fun ip => id⟩
  | cons w ws ih =>
    obtain ⟨m, hne, hw⟩ := hws w List.mem_cons_self
    obtain ⟨hstored, haddressed⟩ := ih (db.write key s w) fun w hw => hws w (List.mem_cons_of_mem _ hw)
    exact ⟨fun mac => (hstored mac).trans (stored_foreign hw hne),
      fun ip h => haddressed ip (h.kept hw fun hi => absurd hi hne)⟩

end Members

section Phase

variable (C : Casing) (N : Package) (c : Sync) (db : Db) (mem : Memory) (q : List Match)

def BATCH_SIZE : Nat := 50

theorem batch_pos : 0 < BATCH_SIZE := by decide

/-- The call has the assets with the MACs that are stored. -/
structure Mirrors (db : Db) (mem : Memory) : Prop where
  row : ∀ i a, findById mem.idx i = some a → ∃ r ∈ db.assets.rows, r.id = i
  macs : ∀ i a, findById mem.idx i = some a → ∀ mac, mac ∈ macsOf a.macAddresses ↔ Stored db i mac

/-- The last lease of its asset, and its place. -/
def LastOf (k : Nat) (m : Match) : Prop := q[k]? = some m ∧ ∀ l m', q[l]? = some m' →
    m'.asset.id = m.asset.id → l ≤ k

/-- A MAC that an asset had before, or that one of its leases up to here has. -/
def Known (j i : Nat) (mac : String) : Prop :=
  Stored db i mac ∨ ∃ l ≤ j, ∃ m, q[l]? = some m ∧ m.asset.id = i ∧ m.mac C = mac

/-- Every MAC is kept, and the last lease has set the address. -/
structure AllKept (db' : Db) : Prop where
  macs : ∀ i mac, mac ≠ "" → (Stored db' i mac ↔ Stored db i mac ∨ ∃ m ∈ q, m.asset.id = i ∧ m.mac C = mac)
  addresses : ∀ k m, LastOf q k m → m.asset.isInfra = false →
    Addressed db' m.asset.id (some m.entry.ipAddress)

/-- In the batch of the last lease of an asset, none of its leases comes before
a new MAC, and they agree on the address. -/
def Agree : Prop :=
  ∀ k m, LastOf q k m → ∀ j m', q[j]? = some m' → m'.asset.id = m.asset.id → j / BATCH_SIZE = k / BATCH_SIZE →
    (∀ m'' ∈ q, m''.asset.id = m.asset.id → m''.mac C ≠ "" → Known C db q j m.asset.id (m''.mac C)) ∧
      (m.asset.isInfra = false → m'.entry.ipAddress = m.entry.ipAddress)

variable {C N c db mem q} {key i j k : Nat} {s : SubnetDiscovery.Source} {m m' : Match} {mac : String}
  {w : List Write}
  {entries : List DhcpEntry}

theorem exists_last (hm : m ∈ q) : ∃ k m', LastOf q k m' ∧ m'.asset.id = m.asset.id := by
  classical
  have hbound : ∀ k, (∃ m', q[k]? = some m' ∧ m'.asset.id = m.asset.id) → k ≤ q.length := by
    rintro k ⟨m', hk, -⟩
    exact Nat.le_of_lt (List.getElem?_eq_some_iff.mp hk).1
  obtain ⟨k, hk⟩ := List.mem_iff_getElem?.mp hm
  have hhas : ∃ m', q[k]? = some m' ∧ m'.asset.id = m.asset.id := ⟨m, hk, rfl⟩
  obtain ⟨m', hm', hid⟩ := Nat.findGreatest_spec (P := fun k => ∃ m', q[k]? = some m' ∧
    m'.asset.id = m.asset.id)
    (hbound k hhas) hhas
  exact ⟨_, m', ⟨hm', fun l m'' hl hlid => Nat.le_findGreatest (hbound l ⟨m'', hl, hlid.trans hid⟩) ⟨m'', hl,
    hlid.trans hid⟩⟩, hid⟩

theorem split_at (hj : q[j]? = some m) : q = q.take j ++ m :: q.drop (j + 1) := by
  obtain ⟨hlt, rfl⟩ := List.getElem?_eq_some_iff.mp hj
  rw [← List.drop_eq_getElem_cons hlt, List.take_append_drop]

theorem mem_take_iff : m ∈ q.take j ↔ ∃ l, l < j ∧ q[l]? = some m := by
  rw [List.mem_iff_getElem?]
  refine exists_congr fun l => ?_
  rw [List.getElem?_take, Option.ite_none_right_eq_some]

theorem mem_brought_iff (mac : String) (h : Mirrors db mem) (hj : (matched C N c mem entries)[j]? = some m) :
    mac ∈ macsOf (brought C N c mem m) ↔ mac ≠ "" ∧
      Known C db (matched C N c mem entries) j m.asset.id mac := by
  obtain ⟨⟨a, ha, -⟩, hmacs⟩ := matched_asset (split_at hj)
  rw [mem_brought, hmacs, holds_iff ha, h.macs _ a ha, Known, or_assoc]
  refine and_congr_right fun _ => or_congr_right ⟨?_, ?_⟩
  · rintro (⟨m', hm', hid, hmac⟩ | rfl)
    · obtain ⟨l, hl, hm'⟩ := mem_take_iff.mp hm'
      exact ⟨l, Nat.le_of_lt hl, m', hm', hid, hmac⟩
    · exact ⟨j, Nat.le_refl j, m, hj, rfl, rfl⟩
  · rintro ⟨l, hl, m', hm', hid, hmac⟩
    obtain hl | rfl := Nat.lt_or_eq_of_le hl
    · exact .inl ⟨m', mem_take_iff.mpr ⟨l, hl, hm'⟩, hid, hmac⟩
    · cases Option.some.inj (hm'.symm.trans hj)
      exact .inr hmac.symm

theorem LastOf.known_iff (h : LastOf q k m) :
    Known C db q k m.asset.id mac ↔ Stored db m.asset.id mac ∨ ∃ m' ∈ q, m'.asset.id = m.asset.id ∧
      m'.mac C = mac := by
  refine or_congr_right ⟨?_, ?_⟩
  · rintro ⟨l, -, m', hl, hm'⟩
    exact ⟨m', List.mem_of_getElem? hl, hm'⟩
  · rintro ⟨m', hm', hid, hmac⟩
    obtain ⟨l, hl⟩ := List.mem_iff_getElem?.mp hm'
    exact ⟨l, h.2 l m' hl hid, m', hl, hid, hmac⟩

theorem Known.mono (h : Known C db q j i mac) (hjk : j ≤ k) : Known C db q k i mac :=
  h.imp_right fun ⟨l, hl, hm⟩ => ⟨l, Nat.le_trans hl hjk, hm⟩

theorem queued_iff {t : List Write} : ((q.map (assetUpdate C N c mem))[j]? = some t) ↔ ∃ m, q[j]? = some m ∧
    assetUpdate C N c mem m = t := by
  rw [List.getElem?_map, Option.map_eq_some_iff]

theorem last_batch (hlast : LastOf q k m) (hw : Batched BATCH_SIZE (q.map (assetUpdate C N c mem)) w) :
    ∃ w₁ w₂ w₃, w = w₁ ++ (w₂ ++ w₃) ∧
      (∀ x, x ∈ w₂ ↔ ∃ m' ∈ (q.drop (BATCH_SIZE * (k / BATCH_SIZE))).take BATCH_SIZE,
        x ∈ assetUpdate C N c mem m') ∧
        ∀ x ∈ w₃, ∃ m', m'.asset.id ≠ m.asset.id ∧ x ∈ assetUpdate C N c mem m' := by
  obtain ⟨w₁, w₂, w₃, rfl, hbatch, hrest⟩ := hw.around batch_pos (k / BATCH_SIZE)
  refine ⟨w₁, w₂, w₃, rfl, fun x => ?_, fun x hx => ?_⟩
  · rw [hbatch]
    constructor
    · rintro ⟨j, t, hj, ht, hx⟩
      obtain ⟨m', hm', rfl⟩ := queued_iff.mp ht
      exact ⟨m', (mem_batch batch_pos).mpr ⟨j, hj, hm'⟩, hx⟩
    · rintro ⟨m', hm', hx⟩
      obtain ⟨j, hj, hm'⟩ := (mem_batch batch_pos).mp hm'
      exact ⟨j, _, hj, queued_iff.mpr ⟨m', hm', rfl⟩, hx⟩
  · obtain ⟨j, t, hj, ht, hx⟩ := hrest x hx
    obtain ⟨m', hm', rfl⟩ := queued_iff.mp ht
    refine ⟨m', fun hid => ?_, hx⟩
    have hle := Nat.div_le_div_right (c := BATCH_SIZE) (hlast.2 j m' hm' hid)
    exact absurd hj (Nat.not_lt.mpr hle)

theorem kept_of_agree (h : Mirrors db mem) (hq : q = matched C N c mem entries) (hagree : Agree C db q)
    (hw : Batched BATCH_SIZE (q.map (assetUpdate C N c mem)) w) :
    AllKept C db q (w.foldl (Db.write key s) db) := by
  have hblock : ∀ k m, LastOf q k m → ∀ m' ∈ (q.drop (BATCH_SIZE * (k / BATCH_SIZE))).take BATCH_SIZE,
    m'.asset.id = m.asset.id →
      (∀ mac, mac ∈ macsOf (brought C N c mem m') ↔ mac ≠ "" ∧ Known C db q k m.asset.id mac) ∧
        (m.asset.isInfra = false → m'.entry.ipAddress = m.entry.ipAddress) := by
    intro k m hlast m' hm' hid
    obtain ⟨j, hj, hm'⟩ := (mem_batch batch_pos).mp hm'
    obtain ⟨hmacs, hip⟩ := hagree k m hlast j m' hm' hid hj
    refine ⟨fun mac => ?_, hip⟩
    have hbrought := mem_brought_iff mac h (hq ▸ hm')
    rw [hbrought, hid, ← hq]
    refine and_congr_right fun hne => ⟨fun hknown => hknown.mono (hlast.2 j m' hm' hid), fun hknown => ?_⟩
    obtain hs | ⟨m'', hm'', hid'', rfl⟩ := hlast.known_iff.mp hknown
    · exact .inl hs
    · exact hmacs m'' hm'' hid'' hne
  have hself : ∀ k m, LastOf q k m → m ∈ (q.drop (BATCH_SIZE * (k / BATCH_SIZE))).take BATCH_SIZE :=
    fun k m hlast =>
    (mem_batch batch_pos).mpr ⟨k, rfl, hlast.1⟩
  constructor
  · intro i mac hne
    by_cases hmatched : ∃ m ∈ q, m.asset.id = i
    · obtain ⟨m₀, hm₀, rfl⟩ := hmatched
      obtain ⟨k, m, hlast, hid⟩ := exists_last hm₀
      obtain ⟨w₁, w₂, w₃, rfl, hbatch, hrest⟩ := last_batch hlast hw
      rw [List.foldl_append, List.foldl_append, ← hid, (foldl_foreign key s _ hrest).1,
        stored_batch ⟨m, hself k m hlast, rfl⟩ hbatch fun m' hm' hid' => (hblock k m hlast m' hm' hid').1,
          hlast.known_iff]
      exact and_iff_right hne
    · have hforeign : ∀ x ∈ w, ∃ m, m.asset.id ≠ i ∧ x ∈ assetUpdate C N c mem m := by
        intro x hx
        obtain ⟨t, ht, hx⟩ := hw.mem_iff.mp hx
        obtain ⟨m, hm, rfl⟩ := List.mem_map.mp ht
        exact ⟨m, fun hid => hmatched ⟨m, hm, hid⟩, hx⟩
      rw [(foldl_foreign key s _ hforeign).1]
      exact (or_iff_left fun ⟨m, hm, hid, _⟩ => hmatched ⟨m, hm, hid⟩).symm
  · intro k m hlast hinfra
    obtain ⟨w₁, w₂, w₃, rfl, hbatch, hrest⟩ := last_batch hlast hw
    rw [List.foldl_append, List.foldl_append]
    refine (foldl_foreign key s _ hrest).2 _ (addressed_batch ⟨m, hself k m hlast, rfl, hinfra,
      rfl⟩ hbatch fun m' hm' hid => ?_)
    exact congrArg some ((hblock k m hlast m' hm' hid).2 hinfra)

theorem agree_of_kept (h : Mirrors db mem) (hq : q = matched C N c mem entries)
    (hall : ∀ w, Batched BATCH_SIZE (q.map (assetUpdate C N c mem)) w →
      AllKept C db q (w.foldl (Db.write key s) db)) :
    Agree C db q := by
  intro k m hlast j m' hm' hid hj
  -- the update of the lease has the last word in its batch
  obtain ⟨w₁, w₃, hw, hrest⟩ := batched_last batch_pos (queued_iff.mpr ⟨m', hm', rfl⟩)
  have hforeign : ∀ x ∈ w₃, ∃ m'', m''.asset.id ≠ m'.asset.id ∧ x ∈ assetUpdate C N c mem m'' := by
    intro x hx
    obtain ⟨l, t, hl, ht, hx⟩ := hrest x hx
    obtain ⟨m'', hm'', rfl⟩ := queued_iff.mp ht
    refine ⟨m'', fun hid'' => ?_, hx⟩
    have hle := Nat.div_le_div_right (c := BATCH_SIZE) (hlast.2 l m'' hm'' (hid''.trans hid))
    omega
  have hone : ∀ x, x ∈ assetUpdate C N c mem m' ↔ ∃ m'' ∈ [m'], x ∈ assetUpdate C N c mem m'' := by simp
  have hkept := hall _ hw
  obtain ⟨⟨a, ha, htype⟩, -⟩ := matched_asset (split_at (hq ▸ hlast.1))
  obtain ⟨r, hr, hrid⟩ := row_foldl key s (w₁ ++ (assetUpdate C N c mem m' ++ w₃)) (h.row _ a ha)
  rw [List.foldl_append, List.foldl_append] at hkept hr
  generalize w₁.foldl (Db.write key s) db = db₁ at hkept hr
  obtain ⟨hstored, haddressed⟩ :=
    foldl_foreign key s ((assetUpdate C N c mem m').foldl (Db.write key s) db₁) hforeign
  refine ⟨fun m'' hm'' hid'' hne => ?_, fun hinfra => ?_⟩
  · have hafter := (hkept.macs m'.asset.id (m''.mac C) hne).mpr (.inr ⟨m'', hm'', hid''.trans hid.symm, rfl⟩)
    rw [hstored, stored_batch ⟨m', List.mem_singleton_self m', rfl⟩ hone fun m₁ hm₁ _ mac => by
      rw [List.mem_singleton.mp hm₁], mem_brought_iff _ h (hq ▸ hm'), ← hq, hid] at hafter
    exact hafter.2
  · obtain ⟨⟨a', ha', htype'⟩, -⟩ := matched_asset (split_at (hq ▸ hm'))
    have hinfra' : m'.asset.isInfra = false := by
      rw [hid, ha] at ha'
      rw [← htype', ← Option.some.inj ha', htype, hinfra]
    have hip' := haddressed _ (addressed_batch ⟨m', List.mem_singleton_self m', rfl, hinfra',
      rfl⟩ hone fun m₁ hm₁ _ => by
      rw [List.mem_singleton.mp hm₁])
    exact Option.some.inj ((hip' r hr (hrid.trans hid.symm)).symm.trans
      (hkept.addresses k m hlast hinfra r hr hrid))

theorem mirrors_preload (db : Db) : Mirrors db (preload C db) := by
  have hids : (db.assets.rows.map (hydrated db.macRows)).map (·.id) = db.assets.rows.map Row.id := by
    rw [List.map_map]
    rfl
  have hbuilt : Built (db.assets.rows.map (hydrated db.macRows))
    (build C (db.assets.rows.map (hydrated db.macRows))) :=
    built_build (hids ▸ db.assets.ids_nodup)
  have hrow : ∀ i a, findById (preload C db).idx i = some a → ∃ r ∈ db.assets.rows,
    hydrated db.macRows r = a ∧
    r.id = i := by
    intro i a ha
    obtain ⟨hmem, hid⟩ := mem_findById ha
    obtain ⟨r, hr, rfl⟩ := List.mem_map.mp (hbuilt.byId a hmem)
    exact ⟨r, hr, rfl, hid⟩
  refine ⟨fun i a ha => ?_, fun i a ha mac => ?_⟩
  · obtain ⟨r, hr, -, hid⟩ := hrow i a ha
    exact ⟨r, hr, hid⟩
  · obtain ⟨r, hr, rfl, rfl⟩ := hrow i a ha
    change mac ∈ macsOf (shapeMacRows r.id db.macRows) ↔ _
    rw [shapeMacRows, mem_macsOf_newestFirst, macsOf, List.map_map, List.mem_map, Stored, Lists]
    simp only [List.mem_filter, decide_eq_true_eq, Function.comp_apply, and_assoc]

/-- Whatever the order of the steps, Phase 6 keeps every MAC and ends with the
last address, just where the leases agree. -/
theorem leases_kept (h : Mirrors db mem) :
    (∀ w, Batched BATCH_SIZE (planDhcp C N c mem).batch w →
      AllKept C db (matched C N c mem c.result.dhcpEntries) (w.foldl (Db.write key s) db)) ↔
      Agree C db (matched C N c mem c.result.dhcpEntries) := by
  rw [planDhcp_batch]
  exact ⟨agree_of_kept h rfl, fun hagree w hw => kept_of_agree h rfl hagree hw⟩

end Phase

section Laptop

/-- A laptop, known with its cable. -/
def office : Db where
  blocks := []
  subnets := Table.empty _
  assets := (Table.empty _).append { hostname := some "pc", status := .active }
  macRows := [⟨0, { mac := "00:00:00:00:00:01", lastSeen := 1, source := "dhcp-lease" }, none⟩]

def leases : Sync where
  integration := ⟨"fg", "fortigate", "FG"⟩
  now := 2
  result :=
    { dhcpEntries :=
        [{ device := "fg1", ipAddress := "10.0.0.5", macAddress := "00-00-00-00-00-01", hostname := "pc",
           type := .dhcpLease },
          { device := "fg1", ipAddress := "10.0.1.5", macAddress := "00-00-00-00-00-02", hostname := "pc",
            type := .dhcpLease }] }

def officeLeases : List Match :=
    matched asciiCasing Netmask.reference leases (preload asciiCasing office) leases.result.dhcpEntries

theorem leases_kept_office :
    (∀ w, Batched BATCH_SIZE
      (planDhcp asciiCasing Netmask.reference leases (preload asciiCasing office)).batch w →
      AllKept asciiCasing office officeLeases (w.foldl (Db.write 0 leases.source) office)) ↔
      Agree asciiCasing office officeLeases :=
  leases_kept (mirrors_preload office)

/-- Where the update of the first lease ends last, the MAC that the second one
brings is deleted again. -/
theorem radio_lost :
    ¬∀ w, Batched BATCH_SIZE (planDhcp asciiCasing Netmask.reference leases
      (preload asciiCasing office)).batch w →
      AllKept asciiCasing office officeLeases (w.foldl (Db.write 0 leases.source) office) := by
  intro hall
  rw [planDhcp_batch] at hall
  have hagree : Agree asciiCasing office officeLeases := agree_of_kept (mirrors_preload office) rfl hall
  have hleases : officeLeases.map (fun m => (m.asset.id, m.mac asciiCasing)) =
      [(0, "00:00:00:00:00:01"), (0, "00:00:00:00:00:02")] := by decide +kernel
  generalize officeLeases = q at hagree hleases
  obtain ⟨m₀, q, rfl, h₀, hleases⟩ := List.map_eq_cons_iff.mp hleases
  obtain ⟨m₁, q, rfl, h₁, hleases⟩ := List.map_eq_cons_iff.mp hleases
  obtain rfl := List.map_eq_nil_iff.mp hleases
  obtain ⟨hid₀, hmac₀⟩ := Prod.mk.inj h₀
  obtain ⟨hid₁, hmac₁⟩ := Prod.mk.inj h₁
  have hlast : LastOf [m₀, m₁] 1 m₁ := by
    refine ⟨rfl, fun l m' hl _ => ?_⟩
    exact Nat.le_of_lt_succ (List.getElem?_eq_some_iff.mp hl).1
  have hknown := (hagree 1 m₁ hlast 0 m₀ rfl (hid₀.trans hid₁.symm) rfl).1 m₁ (by simp) rfl
    (by rw [hmac₁]; decide)
  rw [hmac₁, hid₁] at hknown
  obtain ⟨r, hr, -, hmac⟩ | ⟨l, hl, m', hl', -, hmac⟩ := hknown
  · rw [List.mem_singleton.mp hr] at hmac
    exact absurd hmac (by decide)
  · obtain rfl := Nat.le_zero.mp hl
    rw [← Option.some.inj hl', hmac₀] at hmac
    exact absurd hmac (by decide)

end Laptop

end Polaris.MacBatches
