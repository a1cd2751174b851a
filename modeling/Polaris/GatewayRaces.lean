import Polaris.GatewayKnowledge
import Polaris.Lib.Runs

namespace Polaris.GatewayRaces

open Polaris.AssetLookup Polaris.GatewayKnowledge Polaris.GatewaySync Polaris.Lib.Runs Polaris.Lib.Store
  Polaris.Netmask
open Polaris.ClusterSync hiding Db
open Polaris.ConflictResolution (MacEntry)
open Polaris.Reservations (truthy truthy_some)
open Polaris.SubnetDiscovery (Subnet Disjoint apart_iff)
open Polaris.Cidr (cidrOverlaps)

section Shared

variable {N : Package} {C : Casing} {order : List Source → List Source} {db db' : Db} {mem : Memory}
  {t : Call}
  {key : Nat}
  {c : SubnetDiscovery.Source}

def Distinct (assets : Table (Table.noKey (α := AssetRow))) : Prop :=
  ∀ a ∈ assets.rows, ∀ b ∈ assets.rows, ∀ serial, truthy a.data.serialNumber = some serial →
    truthy b.data.serialNumber = some serial → a = b

/-- What the calls are to keep between them. -/
structure Sane (N : Package) (db : Db) : Prop where
  subnets : Disjoint N ⟨db.blocks, db.subnets⟩
  serials : Distinct db.assets
  kept : db.lost = []
  macs : ∀ r ∈ db.macRows, r.assetId < db.assets.nextId

/-- Each other asset that carries the serial is one that the call knows under
the serial it looked up. -/
def Claimed (db : Db) (idx : AssetIndex) (self : Option Nat) (reported written : Option String) : Prop :=
  ∀ serial ∈ truthy written, ∀ b ∈ db.assets.rows, some b.id ≠ self →
    truthy b.data.serialNumber = some serial →
    reported = some serial ∧ idx.bySerial serial = some b.id

/-- Each MAC that another call added to the asset was there at the preload, or
the call lists it itself. -/
def Listed (db : Db) (key : Nat) (mem : Memory) (id : Nat) (macs : List MacEntry) : Prop :=
  ∀ r ∈ db.macRows, r.assetId = id → r.addedBy.any (· ≠ key) = true →
    (r.entry.mac ≠ "" ∧ ∃ p ∈ mem.preloaded, p.assetId = id ∧ p.entry.mac = r.entry.mac) ∨
      r.entry.mac ∈ macsOf macs

/-- Each live subnet of the block that overlaps the new one is known to the
call. -/
def Seen (N : Package) (db : Db) (mem : Memory) (subnet : Subnet) : Prop :=
  ∀ b ∈ db.subnets.rows, b.data.live = true → b.data.blockId = subnet.blockId →
    cidrOverlaps N b.data.cidr subnet.cidr = true →
    ∃ s ∈ mem.allSubnets, s.id = b.id ∧ s.data.live = true

def WriteMeets (db : Db) (key : Nat) (mem : Memory) : Write → Prop
  | .updateAsset id reported u => Claimed db mem.idx (some id) reported u.serialNumber
  | .deleteMacs id macs => Listed db key mem id macs
  | _ => True

def StmtMeets (N : Package) (db : Db) (key : Nat) (mem : Memory) : Stmt → Prop
  | .write w => WriteMeets db key mem w
  | .createSubnet subnet => Seen N db mem subnet
  | .createAsset reported row _ _ _ => Claimed db mem.idx none reported row.serialNumber
  | _ => True

/-- A call knows what other calls have written about the entity that its next
statement writes. -/
def Meets (N : Package) (j : Nat) (db : Db) (t : Call) : Prop :=
  ∀ mem ∈ t.memory, (∀ s ∈ t.seq.head?, StmtMeets N db t.key mem s) ∧
    (t.seq = [] → ∀ ws ∈ t.batch[j]?, ∀ w ∈ ws.head?, WriteMeets db t.key mem w)

/-- The rows only move forward: none goes, none dies. -/
structure Grows (db db' : Db) : Prop where
  subnets : ∀ b ∈ db.subnets.rows, ∃ b' ∈ db'.subnets.rows, b'.id = b.id ∧ b'.data.blockId = b.data.blockId ∧
    b'.data.cidr = b.data.cidr ∧ (b.data.live = true → b'.data.live = true)
  assets : db.assets.nextId ≤ db'.assets.nextId

theorem Grows.refl (db : Db) : Grows db db := ⟨fun b hb => ⟨b, hb, rfl, rfl, rfl, fun h => h⟩, Nat.le_refl _⟩

structure Remembers (db : Db) (mem : Memory) : Prop where
  subnets : ∀ s ∈ mem.allSubnets, ∃ b ∈ db.subnets.rows, b.id = s.id ∧ b.data.blockId = s.data.blockId ∧
    b.data.cidr = s.data.cidr ∧ (s.data.live = true → b.data.live = true)
  preloaded : ∀ r ∈ mem.preloaded, r.assetId < db.assets.nextId

theorem Remembers.grows (h : Remembers db mem) (hgrows : Grows db db') : Remembers db' mem := by
  refine ⟨fun s hs => ?_, fun r hr => Nat.lt_of_lt_of_le (h.preloaded r hr) hgrows.assets⟩
  obtain ⟨b, hb, hid, hblock, hcidr, hlive⟩ := h.subnets s hs
  obtain ⟨b', hb', hid', hblock', hcidr', hlive'⟩ := hgrows.subnets b hb
  exact ⟨b', hb', hid'.trans hid, hblock'.trans hblock, hcidr'.trans hcidr, fun hs => hlive' (hlive hs)⟩

theorem live_applyUpdate {u : SubnetDiscovery.SubnetUpdate} {s : Subnet}
    (h : s.live = true) : (c.applyUpdate u s).live = true := by
  rw [Subnet.live, SubnetDiscovery.Source.applyUpdate]
  dsimp only
  split
  · rfl
  · exact h

theorem grows_write (w : Write) : Grows db (db.write key c w) := by
  cases w with
  | updateSubnet u =>
    refine ⟨fun b hb => ?_, Nat.le_refl _⟩
    refine ⟨amend (·.id = u.id) (c.applyUpdate u) b, ?_, amend_id _ _ _, ?_⟩
    · change _ ∈ (db.subnets.amendWhere _ _).rows
      rw [(Table.amendWhere_rows _ _ _).1]
      exact List.mem_map_of_mem hb
    · rw [amend]
      split
      · exact ⟨rfl, rfl, live_applyUpdate⟩
      · exact ⟨rfl, rfl, fun h => h⟩
  | updateAsset id reported u =>
    exact ⟨(Grows.refl db).subnets, Nat.le_of_eq (Table.amendWhere_rows db.assets _ _).2.symm⟩
  | upsertSource row confirm => exact ⟨(Grows.refl db).subnets, Nat.le_refl _⟩
  | deleteSources drop => exact ⟨(Grows.refl db).subnets, Nat.le_refl _⟩
  | deleteMacs id macs => exact ⟨(Grows.refl db).subnets, Nat.le_refl _⟩
  | upsertMacs id macs => exact ⟨(Grows.refl db).subnets, Nat.le_refl _⟩

theorem disjoint_updateSubnet {u : SubnetDiscovery.SubnetUpdate} (h : Sane N db) (hmem : Remembers db mem)
    (hw : ∃ s ∈ mem.allSubnets, s.id = u.id ∧ s.data.live = true) :
    Disjoint N ⟨db.blocks, db.subnets.amendWhere (·.id = u.id) (c.applyUpdate u)⟩ := by
  obtain ⟨s, hs, hsu, hlive⟩ := hw
  obtain ⟨b, hb, hid, -, -, hblive⟩ := hmem.subnets s hs
  refine h.subnets.amendWhere (fun _ => ⟨rfl, rfl⟩) fun r hr hp _ => ?_
  have hru : r.id = u.id := by simpa using hp
  rw [Table.eq_of_id hr hb (hru.trans (hsu.symm.trans hid.symm))]
  exact hblive hlive

theorem serial_apply {u : AssetUpdate} {a : AssetRow} {serial : String}
    (h : truthy (u.apply a).serialNumber = some serial) :
    truthy u.serialNumber = some serial ∨ truthy a.serialNumber = some serial := by
  rw [AssetUpdate.apply] at h
  cases hu : u.serialNumber with
  | none =>
    rw [hu, Option.none_or] at h
    exact .inr h
  | some s =>
    rw [hu, Option.some_or] at h
    exact .inl h

theorem alone_of_claimed {self : Option Nat} {reported written : Option String} {serial : String}
    {b : Row AssetRow}
    (hclaimed : Claimed db mem.idx self reported written)
    (hmatched : ∀ s ∈ reported, ∀ i, mem.idx.bySerial s = some i → some i = self)
    (hs : truthy written = some serial) (hb : b ∈ db.assets.rows)
    (hbs : truthy b.data.serialNumber = some serial) : some b.id = self := by
  by_contra hne
  obtain ⟨hr, hi⟩ := hclaimed serial hs b hb hne hbs
  exact hne (hmatched serial hr b.id hi)

theorem Distinct.update {id : Nat} {reported : Option String} {u : AssetUpdate} (h : Distinct db.assets)
    (hclaimed : Claimed db mem.idx (some id) reported u.serialNumber)
    (hmatched : Matched mem.idx id reported) :
    Distinct (db.assets.amendWhere (·.id = id) u.apply) := by
  have halone : ∀ serial, truthy u.serialNumber = some serial → ∀ b ∈ db.assets.rows,
    truthy b.data.serialNumber = some serial → b.id = id :=
    fun serial hs b hb hbs => Option.some.inj
      (alone_of_claimed hclaimed (fun s hs i hi => congrArg some (hmatched s hs i hi)) hs hb hbs)
  have hcarried : ∀ b ∈ db.assets.rows, ∀ serial,
    truthy (amend (·.id = id) u.apply b).data.serialNumber = some serial →
      truthy b.data.serialNumber = some serial ∨ (b.id = id ∧ truthy u.serialNumber = some serial) := by
    intro b _ serial hs
    rw [amend] at hs
    split at hs
    · next hid => exact (serial_apply hs).symm.imp_right fun hu => ⟨by simpa using hid, hu⟩
    · exact .inl hs
  intro a ha b hb serial has hbs
  rw [(Table.amendWhere_rows _ _ _).1] at ha hb
  obtain ⟨a₀, ha₀, rfl⟩ := List.mem_map.mp ha
  obtain ⟨b₀, hb₀, rfl⟩ := List.mem_map.mp hb
  have heq : a₀ = b₀ := by
    obtain has | ⟨hai, has⟩ := hcarried a₀ ha₀ serial has
    · obtain hbs | ⟨hbi, hbs⟩ := hcarried b₀ hb₀ serial hbs
      · exact h a₀ ha₀ b₀ hb₀ serial has hbs
      · exact Table.eq_of_id ha₀ hb₀ ((halone serial hbs a₀ ha₀ has).trans hbi.symm)
    · obtain hbs | ⟨hbi, -⟩ := hcarried b₀ hb₀ serial hbs
      · exact Table.eq_of_id ha₀ hb₀ (hai.trans (halone serial has b₀ hb₀ hbs).symm)
      · exact Table.eq_of_id ha₀ hb₀ (hai.trans hbi.symm)
  rw [heq]

theorem Distinct.create {reported : Option String} {row : AssetRow} (h : Distinct db.assets)
    (hclaimed : Claimed db mem.idx none reported row.serialNumber)
    (hmatched : ∀ s ∈ reported, mem.idx.bySerial s = none) :
    Distinct (db.assets.append row) := by
  have halone : ∀ serial, truthy row.serialNumber = some serial → ∀ b ∈ db.assets.rows,
    truthy b.data.serialNumber ≠ some serial := by
    intro serial hs b hb hbs
    have hnone := alone_of_claimed hclaimed (fun s hs i hi => nomatch (hmatched s hs).symm.trans hi) hs hb hbs
    cases hnone
  intro a ha b hb serial has hbs
  rw [(Table.append_rows _ _).1] at ha hb
  obtain ha | ha := List.mem_append.mp ha
  · obtain hb | hb := List.mem_append.mp hb
    · exact h a ha b hb serial has hbs
    · obtain rfl := List.mem_singleton.mp hb
      exact absurd has (halone serial hbs a ha)
  · obtain rfl := List.mem_singleton.mp ha
    obtain hb | hb := List.mem_append.mp hb
    · exact absurd hbs (halone serial has b hb)
    · exact (List.mem_singleton.mp hb).symm

theorem assetId_upsertMac {key id n : Nat} {rows : List MacRow} (macs : List MacEntry) (hid : id < n)
    (h : ∀ r ∈ rows, r.assetId < n) :
    ∀ r ∈ macs.foldl (upsertMac key id) rows, r.assetId < n := by
  induction macs generalizing rows with
  | nil => exact h
  | cons m macs ih =>
    refine ih fun r hr => ?_
    rw [upsertMac] at hr
    split at hr
    · obtain ⟨q, hq, rfl⟩ := List.mem_map.mp hr
      split
      · exact h q hq
      · exact h q hq
    · obtain hr | hr := List.mem_append.mp hr
      · exact h r hr
      · obtain rfl := List.mem_singleton.mp hr
        exact hid

/-- A statement whose call knows enough keeps the tables sane. -/
theorem Sane.write (h : Sane N db) (hmem : Remembers db mem) {w : Write}
    (hw : SoundWrite db.assets.nextId mem w)
    (hmeets : WriteMeets db key mem w) : Sane N (db.write key c w) := by
  cases w with
  | updateSubnet u => exact ⟨disjoint_updateSubnet h hmem hw, h.serials, h.kept, h.macs⟩
  | updateAsset id reported u =>
    refine ⟨h.subnets, h.serials.update hmeets hw, h.kept, fun r hr => ?_⟩
    exact Nat.lt_of_lt_of_eq (h.macs r hr) (Table.amendWhere_rows db.assets _ _).2.symm
  | upsertSource row confirm => exact ⟨h.subnets, h.serials, h.kept, h.macs⟩
  | deleteSources drop => exact ⟨h.subnets, h.serials, h.kept, h.macs⟩
  | upsertMacs id macs => exact ⟨h.subnets, h.serials, h.kept, assetId_upsertMac macs hw h.macs⟩
  | deleteMacs id macs =>
    refine ⟨h.subnets, h.serials, ?_, fun r hr => h.macs r (List.mem_filter.mp hr).1⟩
    change db.lost ++ _ = []
    rw [h.kept, List.nil_append, List.filter_eq_nil_iff]
    intro r hr hlost
    rw [Bool.and_eq_true, unlisted, Bool.and_eq_true, decide_eq_true_eq, decide_eq_true_eq] at hlost
    obtain ⟨⟨hid, hnot⟩, hother⟩ := hlost
    obtain ⟨hne, p, hp, hpid, hpmac⟩ | hlisted := hmeets r hr hid hother
    · exact hnot (hpmac ▸ hw p hp hpid (hpmac ▸ hne))
    · exact hnot hlisted

end Shared

section Steps

variable {N : Package} {C : Casing} {order : List Source → List Source} {db db' : Db} {mem mem' : Memory}
  {t t' : Call} {n n' : Nat}

/-- What a call holds: a memory that agrees with the tables as far as it goes,
and statements that are sound in it. -/
structure Held (N : Package) (db : Db) (t : Call) (mem : Memory) : Prop where
  remembers : Remembers db mem
  coherent : Coherent db.assets.nextId mem
  seq : SoundSeq N db.assets.nextId mem t.seq
  batch : SoundBatch db.assets.nextId mem t.batch
  lone : t.seq ≠ [] → ∀ ws ∈ t.batch, ws = []

def Follows (N : Package) (db : Db) (t : Call) : Prop :=
  (t.memory = none → t.seq = [] ∧ t.batch = []) ∧ ∀ mem ∈ t.memory, Held N db t mem

theorem Follows.grows (h : Follows N db t) (hgrows : Grows db db') : Follows N db' t := by
  refine ⟨h.1, fun mem hmem => ?_⟩
  obtain ⟨hr, hc, hs, hb, hl⟩ := h.2 mem hmem
  exact ⟨hr.grows hgrows, hc.mono hgrows.assets, hs.mono hgrows.assets, hb.mono hgrows.assets, hl⟩

theorem follows_start (key : Nat) (c : Sync) : Follows N db (Call.start key c) :=
  ⟨fun _ => ⟨rfl, rfl⟩, fun _ hmem => nomatch hmem⟩

theorem follows_of_held (hmem : t.memory = some mem) (h : Held N db t mem) : Follows N db t :=
  ⟨fun hnone => (nomatch hmem.symm.trans hnone), fun _ hm => Option.some.inj (hmem.symm.trans hm) ▸ h⟩

theorem held_preload (h : Sane N db) (ht : t.seq = []) (hb : t.batch = []) (mem : Memory)
    (hmem : mem = preload C db) :
    Held N db t mem := by
  subst hmem
  have hids : (db.assets.rows.map (hydrated db.macRows)).map (·.id) = db.assets.rows.map Row.id := by
    rw [List.map_map]
    rfl
  have hbuilt : Built (db.assets.rows.map (hydrated db.macRows))
    (build C (db.assets.rows.map (hydrated db.macRows))) :=
    built_build (hids ▸ db.assets.ids_nodup)
  have hcoherent : Coherent db.assets.nextId (preload C db) := by
    refine ⟨fun u hu => absurd hu List.not_mem_nil, fun serial i hi => ?_, fun a ha => ?_,
      fun r hr _ a ha hid => ?_⟩
    · obtain ⟨a, ha, -, hai⟩ := hbuilt.owner serial i hi
      exact ⟨a, hai ▸ hbuilt.found a ha⟩
    · obtain ⟨q, hq, rfl⟩ := List.mem_map.mp (hbuilt.byId a ha)
      exact db.assets.ids_lt q hq
    · obtain ⟨q, -, rfl⟩ := List.mem_map.mp (hbuilt.byId a ha)
      change _ ∈ macsOf (shapeMacRows q.id db.macRows)
      rw [shapeMacRows, mem_macsOf_newestFirst]
      refine List.mem_map.mpr ⟨r.entry, List.mem_map.mpr ⟨r, List.mem_filter.mpr ⟨hr, ?_⟩, rfl⟩, rfl⟩
      exact decide_eq_true hid.symm
  refine ⟨⟨fun s hs => ⟨s, hs, rfl, rfl, rfl, fun hl => hl⟩, h.macs⟩, hcoherent, ?_, ?_,
    fun hne => absurd ht hne⟩
  · rw [ht]
    exact soundSeq_nil
  · rw [hb]
    exact soundBatch_nil

/-- What a step of a call comes to. -/
def Kept (N : Package) (db : Db) (next : Db × Call) : Prop := Sane N next.1 ∧ Follows N next.1 next.2 ∧
    Grows db next.1

variable {s : Stmt} {rest : List Stmt}

theorem kept_write (t' : Call) (h : Sane N db) (hh : Held N db t mem) (hmem : t'.memory = some mem)
    {w : Write}
    (hw : SoundWrite db.assets.nextId mem w) (hmeets : WriteMeets db t.key mem w)
    (hseq : SoundSeq N db.assets.nextId mem t'.seq)
    (hbatch : SoundBatch db.assets.nextId mem t'.batch) (hlone : t'.seq ≠ [] → ∀ ws ∈ t'.batch, ws = []) :
    Kept N db (db.write t.key t.sync.source w, t') := by
  have hgrows : Grows db (db.write t.key t.sync.source w) := grows_write w
  have hheld : Held N db t' mem := ⟨hh.remembers, hh.coherent, hseq, hbatch, hlone⟩
  exact ⟨h.write hh.remembers hw hmeets, (follows_of_held hmem hheld).grows hgrows, hgrows⟩

theorem kept_createSubnet {subnet : Subnet} (h : Sane N db) (hh : Held N db t mem)
    (hseq : t.seq = [.createSubnet subnet])
    (hmeets : Seen N db mem subnet) : Kept N db ((Stmt.createSubnet subnet).run C order db t mem []) := by
  obtain ⟨hrows, hnext⟩ := Table.append_rows db.subnets subnet
  have hsound : Sound N db.assets.nextId mem (.createSubnet subnet) := (hseq ▸ hh.seq).1
  have hgrows : Grows db { db with subnets := db.subnets.append subnet } := by
    refine ⟨fun b hb => ⟨b, ?_, rfl, rfl, rfl, fun h => h⟩, Nat.le_refl _⟩
    change b ∈ (db.subnets.append subnet).rows
    rw [hrows]
    exact List.mem_append_left _ hb
  refine ⟨⟨h.subnets.append fun b hb hblock hlive => ?_, h.serials, h.kept, h.macs⟩, ?_, hgrows⟩
  · cases hover : cidrOverlaps N b.data.cidr subnet.cidr with
    | false => rfl
    | true =>
      obtain ⟨s, hs, hsid, hslive⟩ := hmeets b hb hlive hblock hover
      obtain ⟨b', hb', hid, hblock', hcidr, -⟩ := hh.remembers.subnets s hs
      obtain rfl := Table.eq_of_id hb' hb (hid.trans hsid)
      have hfree := hsound s hs hslive (hblock'.symm.trans hblock)
      rw [← hcidr, hover] at hfree
      cases hfree
  · have hlone : ∀ ws ∈ t.batch, ws = [] := hh.lone (by rw [hseq]; exact List.cons_ne_nil _ _)
    have hr := hh.remembers.grows hgrows
    refine follows_of_held rfl ⟨⟨fun s hs => ?_, hr.preloaded⟩, ⟨fun u hu => ?_, hh.coherent.known,
      hh.coherent.stored, hh.coherent.macs⟩,
      soundSeq_nil, fun ws hws w hw => ?_, fun hne => absurd rfl hne⟩
    · obtain hs | hs := List.mem_append.mp hs
      · exact hr.subnets s hs
      · obtain rfl := List.mem_singleton.mp hs
        refine ⟨_, ?_, rfl, rfl, rfl, fun hl => hl⟩
        change _ ∈ (db.subnets.append subnet).rows
        rw [hrows]
        exact List.mem_append_right _ List.mem_cons_self
    · obtain ⟨s, hs, hsu⟩ := hh.coherent.updates u hu
      exact ⟨s, List.mem_append_left _ hs, hsu⟩
    · rw [hlone ws hws] at hw
      exact absurd hw List.not_mem_nil

theorem kept_createAsset {reported : Option String} {row : AssetRow} {macs : List MacEntry}
    {source : Option Source} {endpoint : Bool}
    (h : Sane N db) (hh : Held N db t mem) (hseq : t.seq = [.createAsset reported row macs source endpoint])
    (hmeets : Claimed db mem.idx none reported row.serialNumber) :
    Kept N db ((Stmt.createAsset reported row macs source endpoint).run C order db t mem []) := by
  obtain ⟨-, hnext⟩ := Table.append_rows db.assets row
  have hsound : ∀ serial ∈ reported, mem.idx.bySerial serial = none := (hseq ▸ hh.seq).1
  have hlone : ∀ ws ∈ t.batch, ws = [] := hh.lone (by rw [hseq]; exact List.cons_ne_nil _ _)
  have hle : db.assets.nextId ≤ (db.assets.append row).nextId := by omega
  have hgrows : Grows db (db.createAsset t.key row macs) := ⟨(Grows.refl db).subnets, hle⟩
  have hcoherent : Coherent (db.assets.append row).nextId
    (mem.reindex C (indexed ⟨db.assets.nextId, row⟩)) := by
    refine ⟨hh.coherent.updates, fun serial i hi => ?_, fun b hb => ?_, fun r hr hne b hb hbr => ?_⟩
    · change (add C mem.idx _).bySerial serial = some i at hi
      change ∃ b, findById (add C mem.idx _) i = some b
      rw [findById_add]
      by_cases hia : i = (indexed ⟨db.assets.nextId, row⟩).id
      · exact ⟨_, if_pos hia⟩
      · rw [if_neg hia]
        rw [bySerial_add] at hi
        split at hi
        · exact absurd (Option.some.inj hi).symm hia
        · exact hh.coherent.known serial i hi
    · obtain rfl | hb := mem_setId hb
      · exact hnext ▸ Nat.lt_succ_self db.assets.nextId
      · exact Nat.lt_of_lt_of_le (hh.coherent.stored b hb) hle
    · obtain rfl | hb := mem_setId hb
      · exact absurd (hh.remembers.preloaded r hr) (hbr ▸ Nat.lt_irrefl _)
      · exact hh.coherent.macs r hr hne b hb hbr
  refine ⟨⟨h.subnets, h.serials.create hmeets hsound, h.kept, fun r hr => ?_⟩, ?_, hgrows⟩
  · obtain hr | hr := List.mem_append.mp hr
    · exact Nat.lt_of_lt_of_le (h.macs r hr) hle
    · obtain ⟨m, -, rfl⟩ := List.mem_map.mp hr
      exact hnext ▸ Nat.lt_succ_self db.assets.nextId
  · have hr := hh.remembers.grows hgrows
    have hwrites : SoundSeq N (db.assets.append row).nextId (mem.createAsset C db.assets.nextId row endpoint)
        ((source.toList.flatMap fun s => upsertUnitSource { s with assetId := db.assets.nextId }).map .write ++
          []) := by
      rw [List.append_nil]
      refine soundSeq_of_writes fun s hs => ?_
      obtain ⟨w, hw, rfl⟩ := List.mem_map.mp hs
      obtain ⟨s, -, hw⟩ := List.mem_flatMap.mp hw
      exact ⟨sound_upsertUnitSource w hw, rfl⟩
    have hmem : Coherent (db.assets.append row).nextId (mem.createAsset C db.assets.nextId row endpoint) ∧
        Remembers (db.createAsset t.key row macs) (mem.createAsset C db.assets.nextId row endpoint) := by
      rw [Memory.createAsset]
      split
      · exact ⟨hcoherent.touch _, hr.subnets, hr.preloaded⟩
      · exact ⟨hcoherent, hr.subnets, hr.preloaded⟩
    refine follows_of_held rfl ⟨hmem.2, hmem.1, hwrites, fun ws hws w hw => ?_, fun _ => hlone⟩
    rw [hlone ws hws] at hw
    exact absurd hw List.not_mem_nil

theorem kept_run (h : Sane N db) (hh : Held N db t mem) (hmem : t.memory = some mem)
    (hseq : t.seq = s :: rest)
    (hmeets : StmtMeets N db t.key mem s) : Kept N db (s.run C order db t mem rest) := by
  obtain ⟨hsound, hlast, hrest⟩ := hseq ▸ hh.seq
  have hlone : ∀ ws ∈ t.batch, ws = [] := hh.lone (by rw [hseq]; exact List.cons_ne_nil _ _)
  cases s with
  | write w => exact kept_write { t with seq := rest } h hh hmem hsound hmeets hrest hh.batch fun _ => hlone
  | createSubnet subnet =>
    obtain rfl := hlast rfl
    exact kept_createSubnet h hh hseq hmeets
  | createAsset reported row macs source endpoint =>
    obtain rfl := hlast rfl
    exact kept_createAsset h hh hseq hmeets
  | project id reported sweep u =>
    refine ⟨h, follows_of_held hmem ⟨hh.remembers, hh.coherent, ?_, hh.batch, fun _ => hlone⟩, Grows.refl db⟩
    have hupdate : SoundSeq N db.assets.nextId mem (.write (.updateAsset id reported
        (u (projectedAsset (order (db.sources.filter (·.assetId = id)))))) :: rest) :=
      ⟨hsound, fun hc => (nomatch hc), hrest⟩
    change SoundSeq N _ mem ((if sweep = true then _ else _) ++ _)
    split
    · exact ⟨trivial, fun hc => (nomatch hc), hupdate⟩
    · exact hupdate
  | correct =>
    obtain rfl := hlast rfl
    refine ⟨h, follows_of_held hmem ⟨hh.remembers, hh.coherent, soundSeq_nil, fun ws hws w hw => ?_,
      fun hne => absurd rfl hne⟩, Grows.refl db⟩
    obtain ⟨a, -, ha⟩ := List.mem_filterMap.mp hws
    dsimp only at ha
    split at ha
    · cases ha
    · obtain rfl := Option.some.inj ha
      obtain rfl := List.mem_singleton.mp hw
      exact fun _ hs => nomatch hs

theorem kept_act {j : Nat} (h : Sane N db) (ht : Follows N db t) (hmeets : Meets N j db t) :
    Kept N db (act C N order j db t) := by
  rw [act]
  split
  · next hnone =>
    obtain ⟨hseq, hbatch⟩ := ht.1 hnone
    refine ⟨h, follows_of_held rfl ?_, Grows.refl db⟩
    exact held_preload (C := C)
      (t := { t with memory := some (preload C db), todo := jobs t.sync.result }) h hseq hbatch _ rfl
  · next mem hmem =>
    have hh := ht.2 mem hmem
    obtain ⟨hstmt, hwrite⟩ := hmeets mem hmem
    split
    · next s rest hseq =>
      exact kept_run h hh hmem hseq (hstmt s (by rw [hseq]; rfl))
    · next hseq =>
      split
      · next w ws hj =>
        have hws : SoundBatch db.assets.nextId mem (t.batch.set j ws) := by
          intro vs hvs v hv
          obtain hvs | rfl := List.mem_or_eq_of_mem_set hvs
          · exact hh.batch vs hvs v hv
          · exact hh.batch _ (List.mem_of_getElem? hj) v (List.mem_cons_of_mem w hv)
        have hw : SoundWrite db.assets.nextId mem w :=
          hh.batch _ (List.mem_of_getElem? hj) w List.mem_cons_self
        exact kept_write { t with batch := t.batch.set j ws } h hh hmem hw (hwrite hseq _ hj w rfl) hh.seq hws
          fun hne => absurd hseq hne
      · split
        · split
          · exact ⟨h, ht, Grows.refl db⟩
          · next job todo _ =>
            obtain ⟨hc, hsub, hpre, hs, hb, hlone⟩ :=
              soundPlan (N := N) (C := C) (c := t.sync) hh.coherent job
            refine ⟨h, follows_of_held rfl ⟨⟨fun s hs => ?_, fun r hr => ?_⟩, hc, hs, hb,
              fun hne ws hws => ?_⟩,
              Grows.refl db⟩
            · exact hh.remembers.subnets s (hsub ▸ hs)
            · exact hh.remembers.preloaded r (hpre ▸ hr)
            · obtain hnil | hnil := hlone
              · exact absurd hnil hne
              · change ws ∈ (job.plan C N t.sync mem).batch at hws
                rw [hnil] at hws
                exact absurd hws List.not_mem_nil
        · exact ⟨h, ht, Grows.refl db⟩

end Steps

section Runs

variable (C : Casing) (N : Package) (order : List Source → List Source)

/-- A call is dispatched under a key of its own, or one of the calls takes its
next step, in its batch on the list with the number. -/
inductive Turn
  | dispatch (c : Sync)
  | step (i j : Nat)

def Turn.move (p : Pool Db Call) : Turn → Move Call Nat
  | .dispatch c => .spawn (Call.start p.calls.length c)
  | .step i j => .advance i j

def turn (p : Pool Db Call) (e : Turn) : Pool Db Call := p.step (act C N order) (e.move p)

def Turn.Meets (p : Pool Db Call) : Turn → Prop
  | .dispatch _ => True
  | .step i j => ∀ t ∈ p.calls[i]?, GatewayRaces.Meets N j p.shared t

def finished (p : Pool Db Call) : Bool := p.calls.all Call.done

variable {C N order}

theorem guarded_move {p : Pool Db Call} {e : Turn} (h : e.Meets N p) :
    p.Guarded (fun t => ∃ key c, t = Call.start key c) (GatewayRaces.Meets N) (e.move p) := by
  cases e with
  | dispatch c => exact ⟨p.calls.length, c, rfl⟩
  | step i j => exact h

theorem holds_turn (p : Pool Db Call) (e : Turn) (h : p.Holds (Sane N) (Follows N)) (hmeets : e.Meets N p) :
    (turn C N order p e).Holds (Sane N) (Follows N) := by
  refine holds_step (act C N order) _ (GatewayRaces.Meets N) ?_ ?_ ?_ p _ h (guarded_move hmeets)
  · rintro db t ⟨key, c, rfl⟩ -
    exact follows_start key c
  · intro j db t hm hdb ht
    have hkept : Kept N db (act C N order j db t) := kept_act hdb ht hm
    exact ⟨hkept.1, hkept.2.1⟩
  · intro j db t u hm hdb ht hu
    exact hu.grows (kept_act hdb ht hm).2.2

/-- Where every call knows what the others have written about the entities it
goes on to write, the calls keep the tables sane between them. -/
theorem calls_keep_apart (C : Casing) (N : Package) (order : List Source → List Source) (db : Db)
    (h : Sane N db)
    (es : List Turn) (hmeets : Along (turn C N order) (Turn.Meets N) ⟨db, []⟩ es) :
    Sane N (es.foldl (turn C N order) ⟨db, []⟩).shared :=
  (foldl_invariant holds_turn ⟨h, fun _ ht => absurd ht List.not_mem_nil⟩ hmeets).1

end Runs

section Sites

instance (db : Db) (idx : AssetIndex) (self : Option Nat) (reported written : Option String) :
    Decidable (Claimed db idx self reported written) :=
  inferInstanceAs (Decidable (∀ serial ∈ truthy written, ∀ b ∈ db.assets.rows, some b.id ≠ self →
    truthy b.data.serialNumber = some serial → reported = some serial ∧ idx.bySerial serial = some b.id))

instance (db : Db) (key : Nat) (mem : Memory) (id : Nat) (macs : List MacEntry) :
    Decidable (Listed db key mem id macs) := by
  unfold Listed
  infer_instance

instance (N : Package) (db : Db) (mem : Memory) (subnet : Subnet) : Decidable (Seen N db mem subnet) := by
  unfold Seen
  infer_instance

instance (db : Db) (key : Nat) (mem : Memory) : ∀ w, Decidable (WriteMeets db key mem w)
  | .updateAsset id reported u =>
    inferInstanceAs (Decidable (Claimed db mem.idx (some id) reported u.serialNumber))
  | .deleteMacs id macs => inferInstanceAs (Decidable (Listed db key mem id macs))
  | .updateSubnet _ | .upsertSource _ _ | .deleteSources _ | .upsertMacs _ _ => isTrue trivial

instance (N : Package) (db : Db) (key : Nat) (mem : Memory) : ∀ s, Decidable (StmtMeets N db key mem s)
  | .write w => inferInstanceAs (Decidable (WriteMeets db key mem w))
  | .createSubnet subnet => inferInstanceAs (Decidable (Seen N db mem subnet))
  | .createAsset reported row _ _ _ =>
    inferInstanceAs (Decidable (Claimed db mem.idx none reported row.serialNumber))
  | .project _ _ _ _ | .correct => isTrue trivial

instance (N : Package) (j : Nat) (db : Db) (t : Call) : Decidable (Meets N j db t) := by
  unfold Meets
  infer_instance

instance (N : Package) (p : Pool Db Call) : ∀ e, Decidable (Turn.Meets N p e)
  | .dispatch _ => isTrue trivial
  | .step i j => inferInstanceAs (Decidable (∀ t ∈ p.calls[i]?, Meets N j p.shared t))

def siteDb : Db where
  blocks := [⟨"b", "10.0.0.0/8", .v4⟩]
  subnets := Table.empty _
  assets := (Table.empty _).append { hostname := some "pc", status := .active }
  macRows := [⟨0, { mac := "00:00:00:00:00:01", lastSeen := 1, source := "fmg-discovery" }, none⟩]

theorem siteDb_sane : Sane Netmask.reference siteDb := by
  refine ⟨fun _ ha => absurd ha List.not_mem_nil, fun a ha b hb _ _ _ => ?_, rfl, fun r hr => ?_⟩
  · exact (List.mem_singleton.mp ha).trans (List.mem_singleton.mp hb).symm
  · obtain rfl := List.mem_singleton.mp hr
    decide

def gateway (device cidr serial mac : String) : Sync where
  integration := ⟨"fmg", "fortimanager", "FMG"⟩
  now := 2
  result :=
    { subnets := [⟨cidr, "lan", device, none⟩]
      fortiSwitches := [{ device := device, name := serial, serial := serial }]
      deviceInventory := [{ device := device, macAddress := mac, hostname := "pc" }] }

/-- Two gateways with networks and switches of their own, and a client that
the second sees once the first is done with it. -/
def takingTurns : List Turn :=
  [.dispatch (gateway "fg1" "10.1.0.0/16" "S1" "00:00:00:00:00:02"),
    .dispatch (gateway "fg2" "10.2.0.0/16" "S2" "00:00:00:00:00:01"), .step 0 0, .step 1 0] ++
    (List.replicate 20 [.step 0 0, .step 1 0]).flatten

theorem calls_keep_apart_turns :
    Sane Netmask.reference (takingTurns.foldl (turn asciiCasing Netmask.reference id) ⟨siteDb, []⟩).shared :=
  calls_keep_apart asciiCasing Netmask.reference id siteDb siteDb_sane takingTurns (by decide +kernel)

/-- Two gateways that see one network, one switch and one client. Both preload
before either writes. -/
def race : List Turn :=
  [.dispatch (gateway "fg1" "10.1.0.0/16" "S1" "00:00:00:00:00:02"),
    .dispatch (gateway "fg2" "10.1.0.0/24" "S1" "00:00:00:00:00:03"), .step 0 0, .step 1 0] ++
    List.replicate 20 (.step 0 0) ++ List.replicate 20 (.step 1 0)

theorem race_collides :
    let p := race.foldl (turn asciiCasing Netmask.reference id) ⟨siteDb, []⟩
    Sane Netmask.reference siteDb ∧ finished p = true ∧ ¬ Disjoint Netmask.reference ⟨p.shared.blocks,
      p.shared.subnets⟩ ∧
      ¬ Distinct p.shared.assets ∧ p.shared.lost.map (·.entry.mac) = ["00:00:00:00:00:02"] := by
  intro p
  refine ⟨siteDb_sane, by decide +kernel, fun h => ?_, fun h => ?_, by decide +kernel⟩
  · have hrows : ∃ a ∈ p.shared.subnets.rows, ∃ b ∈ p.shared.subnets.rows, a.id ≠ b.id ∧
      a.data.blockId = b.data.blockId ∧
        a.data.live = true ∧ b.data.live = true ∧
          cidrOverlaps Netmask.reference a.data.cidr b.data.cidr = true := by
      decide +kernel
    obtain ⟨a, ha, b, hb, hid, hblock, hla, hlb, hover⟩ := hrows
    rw [apart_iff.mp (h a ha b hb hid hblock hla hlb)] at hover
    cases hover
  · have hrows : ∃ a ∈ p.shared.assets.rows, ∃ b ∈ p.shared.assets.rows, a.id ≠ b.id ∧
        truthy a.data.serialNumber = some "S1" ∧ truthy b.data.serialNumber = some "S1" := by
      decide +kernel
    obtain ⟨a, ha, b, hb, hid, hsa, hsb⟩ := hrows
    exact hid (congrArg Row.id (h a ha b hb "S1" hsa hsb))

end Sites

end Polaris.GatewayRaces
