import Polaris.GatewaySync
import Polaris.Lib.Runs

namespace Polaris.GatewayKnowledge

open Polaris.AssetLookup Polaris.GatewaySync Polaris.Lib.Runs Polaris.Lib.Store Polaris.Netmask
open Polaris.ClusterSync hiding Db
open Polaris.ConflictResolution (MacEntry)
open Polaris.DhcpAssociation (DhcpEntry amendFirst attributed mergeMac seen)
open Polaris.Reservations (truthy truthy_some)
open Polaris.SubnetDiscovery (Subnet Disjoint DiscoveredSubnet siblingsByBlockId subnetByCidr
  mem_subnetByCidr)
open Polaris.Cidr (cidrOverlaps)

section Knowledge

variable {N : Package} {C : Casing} {n n' : Nat} {mem mem' : Memory} {a a' : AssetLookup.Asset}
  {macs macs' : List MacEntry}

def macsOf (macs : List MacEntry) : List String := macs.map (·.mac)

/-- The memory of a call: what waits to be updated is live, each entry of the
serial index has its asset, and the MACs of the preload are still listed. -/
structure Coherent (n : Nat) (mem : Memory) : Prop where
  updates : ∀ u ∈ mem.subnetUpdates, ∃ s ∈ mem.allSubnets, s.id = u.id ∧ s.data.live = true
  known : ∀ serial i, mem.idx.bySerial serial = some i → ∃ a, findById mem.idx i = some a
  stored : ∀ a ∈ mem.idx.byId, a.id < n
  macs : ∀ r ∈ mem.preloaded, r.entry.mac ≠ "" → ∀ a ∈ mem.idx.byId, a.id = r.assetId →
    r.entry.mac ∈ macsOf a.macAddresses

/-- Under this serial the index has no other asset. -/
def Matched (idx : AssetIndex) (id : Nat) (reported : Option String) : Prop :=
  ∀ serial ∈ reported, ∀ i, idx.bySerial serial = some i → i = id

def SoundWrite (n : Nat) (mem : Memory) : Write → Prop
  | .updateSubnet u => ∃ s ∈ mem.allSubnets, s.id = u.id ∧ s.data.live = true
  | .updateAsset id reported _ => Matched mem.idx id reported
  | .deleteMacs id macs => ∀ r ∈ mem.preloaded, r.assetId = id → r.entry.mac ≠ "" → r.entry.mac ∈ macsOf macs
  | .upsertMacs id _ => id < n
  | .upsertSource _ _ | .deleteSources _ => True

/-- What the decision behind a statement made sure of, in the memory of its
call. -/
def Sound (N : Package) (n : Nat) (mem : Memory) : Stmt → Prop
  | .write w => SoundWrite n mem w
  | .createSubnet subnet =>
    ∀ s ∈ mem.allSubnets, s.data.live = true → s.data.blockId = subnet.blockId →
    cidrOverlaps N s.data.cidr subnet.cidr = false
  | .createAsset reported _ _ _ _ => ∀ serial ∈ reported, mem.idx.bySerial serial = none
  | .project id reported _ _ => Matched mem.idx id reported
  | .correct => True

/-- A creation comes last, as does the read that fills a batch. -/
def closes : Stmt → Bool
  | .createSubnet _ | .createAsset _ _ _ _ _ | .correct => true
  | _ => false

def SoundSeq (N : Package) (n : Nat) (mem : Memory) : List Stmt → Prop
  | [] => True
  | s :: rest => Sound N n mem s ∧ (closes s = true → rest = []) ∧ SoundSeq N n mem rest

def SoundBatch (n : Nat) (mem : Memory) (batch : List (List Write)) : Prop :=
  ∀ ws ∈ batch, ∀ w ∈ ws, SoundWrite n mem w

theorem SoundWrite.mono (hn : n ≤ n') (hsubnets : ∀ s ∈ mem.allSubnets, s ∈ mem'.allSubnets)
    (hidx : mem'.idx.bySerial = mem.idx.bySerial)
    (hpre : mem'.preloaded = mem.preloaded) {w : Write} (h : SoundWrite n mem w) : SoundWrite n' mem' w := by
  cases w with
  | updateSubnet u =>
    obtain ⟨s, hs, hu⟩ := h
    exact ⟨s, hsubnets s hs, hu⟩
  | updateAsset id reported u =>
    intro serial hs i hi
    exact h serial hs i (hidx ▸ hi)
  | deleteMacs id macs =>
    intro r hr
    exact h r (hpre ▸ hr)
  | upsertMacs id macs => exact Nat.lt_of_lt_of_le h hn
  | upsertSource row confirm => trivial
  | deleteSources drop => trivial

theorem Coherent.mono (h : Coherent n mem) (hn : n ≤ n') : Coherent n' mem :=
  ⟨h.updates, h.known, fun a ha => Nat.lt_of_lt_of_le (h.stored a ha) hn, h.macs⟩

theorem Sound.mono {s : Stmt} (h : Sound N n mem s) (hn : n ≤ n') : Sound N n' mem s := by
  cases s with
  | write w => exact SoundWrite.mono hn (fun _ h => h) rfl rfl h
  | createSubnet subnet => exact h
  | createAsset reported row macs source endpoint => exact h
  | project id reported sweep u => exact h
  | correct => trivial

theorem SoundSeq.mono {seq : List Stmt} (h : SoundSeq N n mem seq) (hn : n ≤ n') : SoundSeq N n' mem seq := by
  induction seq with
  | nil => trivial
  | cons s rest ih => exact ⟨h.1.mono hn, h.2.1, ih h.2.2⟩

theorem SoundBatch.mono {batch : List (List Write)} (h : SoundBatch n mem batch)
    (hn : n ≤ n') : SoundBatch n' mem batch :=
  fun ws hws w hw => SoundWrite.mono hn (fun _ h => h) rfl rfl (h ws hws w hw)

theorem findBySerial_eq (h : Coherent n mem) {serial : String} (hnone : findBySerial mem.idx serial = none) :
    mem.idx.bySerial serial = none := by
  cases hi : mem.idx.bySerial serial with
  | none => rfl
  | some i =>
    obtain ⟨a, ha⟩ := h.known serial i hi
    rw [findBySerial, hi, Option.bind_some, ha] at hnone
    cases hnone

theorem matched_add {idx : AssetIndex} {reported : Option String} (h : Matched idx a.id reported) :
    Matched (add C idx a) a.id reported := by
  intro serial hs i hi
  rw [bySerial_add] at hi
  split at hi
  · exact (Option.some.inj hi).symm
  · exact h serial hs i hi

theorem Coherent.reindex (h : Coherent n mem) (ha : a ∈ mem.idx.byId) (hid : a'.id = a.id)
    (hmacs : ∀ mac ∈ macsOf a.macAddresses, mac ∈ macsOf a'.macAddresses) :
    Coherent n (mem.reindex C a') := by
  refine ⟨h.updates, fun serial i hi => ?_, fun b hb => ?_, fun r hr hne b hb hbr => ?_⟩
  · change (add C mem.idx a').bySerial serial = some i at hi
    change ∃ b, findById (add C mem.idx a') i = some b
    rw [findById_add]
    by_cases hia : i = a'.id
    · exact ⟨a', if_pos hia⟩
    · rw [if_neg hia]
      rw [bySerial_add] at hi
      split at hi
      · exact absurd (Option.some.inj hi).symm hia
      · exact h.known serial i hi
  · obtain rfl | hb := mem_setId hb
    · exact hid ▸ h.stored a ha
    · exact h.stored b hb
  · obtain rfl | hb := mem_setId hb
    · exact hmacs _ (h.macs r hr hne a ha (hid.symm.trans hbr))
    · exact h.macs r hr hne b hb hbr

theorem Coherent.touch (h : Coherent n mem) (id : Nat) : Coherent n (mem.touch id) :=
    ⟨h.updates, h.known, h.stored, h.macs⟩

theorem sound_reconcile {id : Nat} (hlt : id < n)
    (hmacs : ∀ r ∈ mem.preloaded, r.assetId = id → r.entry.mac ≠ "" → r.entry.mac ∈ macsOf macs) :
    ∀ w ∈ reconcileMacAddresses id macs, SoundWrite n mem w := by
  have hlisted : ∀ r ∈ mem.preloaded, r.assetId = id → r.entry.mac ≠ "" →
    r.entry.mac ∈ macsOf (macs.filter (·.mac ≠ "")) := by
    intro r hr hid hne
    obtain ⟨m, hm, he⟩ := List.mem_map.mp (hmacs r hr hid hne)
    exact List.mem_map.mpr ⟨m, List.mem_filter.mpr ⟨hm, by simpa [he] using hne⟩, he⟩
  intro w hw
  rw [reconcileMacAddresses] at hw
  split at hw
  · next hnil =>
    obtain rfl := List.mem_singleton.mp hw
    rw [hnil] at hlisted
    exact hlisted
  · obtain rfl | hw := List.mem_cons.mp hw
    · exact hlisted
    · obtain rfl := List.mem_singleton.mp hw
      exact hlt

theorem mem_amendFirst {p : MacEntry → Bool} {f : MacEntry → MacEntry} (hf : ∀ m, (f m).mac = m.mac)
    (macs : List MacEntry) :
    macsOf (amendFirst p f macs) = macsOf macs := by
  induction macs with
  | nil => rfl
  | cons m macs ih =>
    rw [amendFirst]
    split
    · rw [macsOf, macsOf, List.map_cons, List.map_cons, hf]
    · rw [macsOf, macsOf, List.map_cons, List.map_cons]
      exact congrArg _ ih

theorem mem_macsOf_mergeSort {r : MacEntry → MacEntry → Bool} {mac : String} :
    mac ∈ macsOf (macs.mergeSort r) ↔ mac ∈ macsOf macs :=
  ((List.mergeSort_perm macs r).map _).mem_iff

theorem mem_macsOf_newestFirst {mac : String} : mac ∈ macsOf (newestFirst macs) ↔ mac ∈ macsOf macs :=
  ((List.perm_insertionSort _ macs).map _).mem_iff

theorem mem_mergeDeviceMac {c : Sync} {mac source device : String} {m : String} (h : m ∈ macsOf macs) :
    m ∈ macsOf (mergeDeviceMac c mac source device macs) := by
  rw [mergeDeviceMac]
  rw [mem_macsOf_newestFirst]
  split
  · rw [mem_amendFirst]
    · exact h
    · exact fun _ => rfl
  · rw [macsOf, List.map_append]
    exact List.mem_append_left _ h

theorem mem_mergeMac {now : Nat} {mac source : String} {subnet : Option DhcpAssociation.Subnet} {m : String}
    (h : m ∈ macsOf macs) :
    m ∈ macsOf (mergeMac now mac source subnet macs) := by
  rw [mergeMac]
  rw [mem_macsOf_mergeSort]
  split
  · rw [mem_amendFirst]
    · exact h
    · exact fun _ => rfl
  · rw [macsOf, List.map_append]
    exact List.mem_append_left _ h

end Knowledge

section Plans

variable {N : Package} {C : Casing} {c : Sync} {n : Nat} {mem : Memory} {plan : Plan}
  {a : AssetLookup.Asset} {id : Nat}

/-- A phase keeps the preload, and its statements are sound in the memory
that it leaves. -/
structure SoundPlan (N : Package) (n : Nat) (mem : Memory) (plan : Plan) : Prop where
  coherent : Coherent n plan.memory
  subnets : plan.memory.allSubnets = mem.allSubnets
  preloaded : plan.memory.preloaded = mem.preloaded
  seq : SoundSeq N n plan.memory plan.seq
  batch : SoundBatch n plan.memory plan.batch
  lone : plan.seq = [] ∨ plan.batch = []

theorem soundSeq_nil : SoundSeq N n mem [] := trivial

theorem soundBatch_nil : SoundBatch n mem [] := fun _ hs => absurd hs List.not_mem_nil

theorem soundSeq_single {s : Stmt} (h : Sound N n mem s) : SoundSeq N n mem [s] := ⟨h, fun _ => rfl, trivial⟩

theorem soundSeq_of_writes {seq : List Stmt} (h : ∀ s ∈ seq, Sound N n mem s ∧ closes s = false) :
    SoundSeq N n mem seq := by
  induction seq with
  | nil => trivial
  | cons s rest ih =>
    obtain ⟨hs, hc⟩ := h s List.mem_cons_self
    refine ⟨hs, fun hcloses => ?_, ih fun s' hs' => h s' (List.mem_cons_of_mem s hs')⟩
    rw [hc] at hcloses
    cases hcloses

theorem soundPlan_idle (h : Coherent n mem) : SoundPlan N n mem { memory := mem } :=
    ⟨h, rfl, rfl, soundSeq_nil, soundBatch_nil, .inl rfl⟩

theorem SoundPlan.subnet (h : Coherent n mem) (entry : DiscoveredSubnet) :
    SoundPlan N n mem (planSubnet N c mem entry) := by
  rw [planSubnet]
  split
  · exact soundPlan_idle h
  next cidr _ =>
    split
    · next existing hexisting =>
      refine ⟨⟨fun u hu => ?_, h.known, h.stored, h.macs⟩, rfl, rfl, soundSeq_nil, soundBatch_nil, .inl rfl⟩
      obtain hu | hu := List.mem_append.mp hu
      · exact h.updates u hu
      · obtain rfl := List.mem_singleton.mp hu
        obtain ⟨hmem, hlive⟩ := mem_subnetByCidr hexisting
        exact ⟨existing, hmem, rfl, hlive⟩
    · split
      · exact soundPlan_idle h
      · next block _ =>
        split
        · exact soundPlan_idle h
        · next hnone =>
          refine ⟨h, rfl, rfl, soundSeq_single fun s hs hlive hblock => ?_, soundBatch_nil, .inr rfl⟩
          have hsib : s ∈ siblingsByBlockId mem.allSubnets block.id := by
            refine List.mem_filter.mpr ⟨hs, ?_⟩
            have hid : s.data.blockId = block.id := hblock
            rw [hlive, decide_eq_true hid]
            rfl
          change cidrOverlaps N s.data.cidr cidr = false
          simpa using List.find?_eq_none.mp hnone s hsib

theorem SoundPlan.subnetUpdates (h : Coherent n mem) : SoundPlan N n mem (planSubnetUpdates mem) := by
  refine ⟨h, rfl, rfl, soundSeq_nil, fun ws hws w hw => ?_, .inl rfl⟩
  obtain ⟨u, hu, rfl⟩ := List.mem_map.mp hws
  obtain rfl := List.mem_singleton.mp hw
  exact h.updates u hu

theorem SoundPlan.existing {reported : Option String} (after : AssetLookup.Asset) (sweep : Bool)
    (u : ProjectedAsset → AssetUpdate)
    (pre post : List Write) (h : Coherent n mem) (ha : a ∈ mem.idx.byId) (hid : after.id = a.id)
    (hmacs : ∀ mac ∈ macsOf a.macAddresses, mac ∈ macsOf after.macAddresses)
    (hmatched : Matched mem.idx a.id reported)
    (hpre : ∀ w ∈ pre, SoundWrite n (mem.reindex C after) w)
    (hpost : ∀ w ∈ post, SoundWrite n (mem.reindex C after) w) :
    SoundPlan N n mem
      { memory := mem.reindex C after,
        seq := pre.map .write ++ [.project a.id reported sweep u] ++ post.map .write } := by
  refine ⟨h.reindex ha hid hmacs, rfl, rfl, soundSeq_of_writes fun s hs => ?_, soundBatch_nil, .inr rfl⟩
  obtain hs | hs := List.mem_append.mp hs
  · obtain hs | hs := List.mem_append.mp hs
    · obtain ⟨w, hw, rfl⟩ := List.mem_map.mp hs
      exact ⟨hpre w hw, rfl⟩
    · obtain rfl := List.mem_singleton.mp hs
      refine ⟨?_, rfl⟩
      have hadd := matched_add (C := C) (a := after) (hid ▸ hmatched)
      exact hid ▸ hadd
  · obtain ⟨w, hw, rfl⟩ := List.mem_map.mp hs
    exact ⟨hpost w hw, rfl⟩

theorem sound_upsertUnitSource {row : Source} : ∀ w ∈ upsertUnitSource row, SoundWrite n mem w := by
  intro w hw
  obtain rfl | hw := List.mem_cons.mp hw
  · trivial
  · obtain rfl := List.mem_singleton.mp hw
    trivial

theorem mem_truthy {serial s : String} (h : s ∈ truthy (some serial)) : s = serial ∧ serial ≠ "" := by
  obtain ⟨he, hne⟩ := truthy_some h
  obtain rfl := Option.some.inj he
  exact ⟨rfl, hne⟩

theorem sound_unitSource {serial : String} {row : Source} :
    ∀ w ∈ if serial = "" then [] else upsertUnitSource row, SoundWrite n mem w := by
  intro w hw
  split at hw
  · exact absurd hw List.not_mem_nil
  · exact sound_upsertUnitSource w hw

theorem matched_of_lookup (h : Coherent n mem) {serial : String} {rest : Option AssetLookup.Asset}
    (hrest : rest = some a → a ∈ mem.idx.byId)
    (hfind : (if serial = "" then none else findBySerial mem.idx serial).or rest = some a) :
    a ∈ mem.idx.byId ∧ Matched mem.idx a.id (truthy (some serial)) := by
  obtain hfind | ⟨hnone, hfind⟩ := Option.or_eq_some_iff.mp hfind
  · split at hfind
    · cases hfind
    · obtain ⟨i, hi, ha⟩ := Option.bind_eq_some_iff.mp hfind
      refine ⟨(mem_findById ha).1, fun s hs j hj => ?_⟩
      obtain ⟨rfl, -⟩ := mem_truthy hs
      rw [hi] at hj
      exact (Option.some.inj hj).symm.trans (mem_findById ha).2.symm
  · refine ⟨hrest hfind, fun s hs j hj => ?_⟩
    obtain ⟨rfl, hne⟩ := mem_truthy hs
    rw [if_neg hne] at hnone
    rw [findBySerial_eq h hnone] at hj
    cases hj

theorem unmatched_of_lookup (h : Coherent n mem) {serial : String} {rest : Option AssetLookup.Asset}
    (hfind : (if serial = "" then none else findBySerial mem.idx serial).or rest = none) :
    ∀ s ∈ truthy (some serial), mem.idx.bySerial s = none := by
  intro s hs
  obtain ⟨rfl, hne⟩ := mem_truthy hs
  rw [if_neg hne] at hfind
  exact findBySerial_eq h (Option.or_eq_none_iff.mp hfind).1

theorem mem_of_findByEntry {mac hostname ip : Option String} {b : Bool}
    (h : findByEntry C mem.idx mac hostname ip b = some a) :
    a ∈ mem.idx.byId := (mem_findById (findById_of_findByEntry h)).1

theorem SoundPlan.member (h : Coherent n mem) (d : Device)
    (m : Member) : SoundPlan N n mem (planMember C c mem d m) := by
  rw [planMember]
  split
  · next a hfind =>
    obtain ⟨ha, hmatched⟩ := matched_of_lookup h (fun hrest => by
      split at hrest
      · exact mem_of_findByEntry hrest
      · cases hrest) hfind
    have hplan := SoundPlan.existing (N := N) (C := C) (mirrored d m a) false (memberUpdate c d m a)
      (if m.serial = "" then [] else upsertUnitSource (firewallSource c d m a.id)) [] h ha rfl
      (fun _ hmac => hmac) hmatched sound_unitSource fun w hw => absurd hw List.not_mem_nil
    rw [List.map_nil, List.append_nil, apply_ite (List.map Stmt.write)] at hplan
    exact hplan
  · next hfind => exact ⟨h, rfl, rfl, soundSeq_single (unmatched_of_lookup h hfind), soundBatch_nil, .inr rfl⟩

theorem mem_of_findInfra_rest {mac : Option String} {name : String} {ip : Option String}
    (h : (mac.bind (findByMac C mem.idx)).or
      (if name = "" then none else findByEntry C mem.idx none (some name) ip true) = some a) :
    a ∈ mem.idx.byId := by
  obtain h | ⟨-, h⟩ := Option.or_eq_some_iff.mp h
  · obtain ⟨mac, -, h⟩ := Option.bind_eq_some_iff.mp h
    obtain ⟨i, -, h⟩ := Option.bind_eq_some_iff.mp h
    exact (mem_findById h).1
  · split at h
    · cases h
    · exact mem_of_findByEntry h

theorem mem_swMacs {sw : FortiSwitch} {mac : String} (h : mac ∈ macsOf a.macAddresses) :
    mac ∈ macsOf (swMacs C c a sw) := by
  rw [swMacs]
  split
  · exact h
  · exact mem_mergeDeviceMac h

theorem listed_of_mem (h : Coherent n mem) (ha : a ∈ mem.idx.byId) {macs : List MacEntry}
    (hmacs : ∀ mac ∈ macsOf a.macAddresses, mac ∈ macsOf macs) :
    ∀ r ∈ mem.preloaded, r.assetId = a.id → r.entry.mac ≠ "" → r.entry.mac ∈ macsOf macs :=
  fun r hr hid hne => hmacs _ (h.macs r hr hne a ha hid.symm)

theorem SoundPlan.switch (h : Coherent n mem) (sw : FortiSwitch) :
    SoundPlan N n mem (planSwitch C c mem sw) := by
  rw [planSwitch]
  split
  · next a hfind =>
    obtain ⟨ha, hmatched⟩ := matched_of_lookup h mem_of_findInfra_rest hfind
    have hplan := SoundPlan.existing (N := N) (C := C) (switchSeen C c a sw)
      (a.assetType ≠ .switch) (switchUpdate C c a · sw)
      (if sw.serial = "" then [] else upsertUnitSource (switchSource c sw a.id))
      (if sw.baseMac = "" then [] else reconcileMacAddresses a.id (swMacs C c a sw)) h ha rfl
      (fun _ hmac => mem_swMacs hmac) hmatched sound_unitSource fun w hw => ?_
    · rw [apply_ite (List.map Stmt.write), apply_ite (List.map Stmt.write)] at hplan
      exact hplan
    · split at hw
      · exact absurd hw List.not_mem_nil
      · have hlisted : ∀ r ∈ (mem.reindex C (switchSeen C c a sw)).preloaded, r.assetId = a.id →
          r.entry.mac ≠ "" →
            r.entry.mac ∈ macsOf (swMacs C c a sw) := listed_of_mem h ha fun _ hmac => mem_swMacs hmac
        exact sound_reconcile (h.stored a ha) hlisted w hw
  · next hfind => exact ⟨h, rfl, rfl, soundSeq_single (unmatched_of_lookup h hfind), soundBatch_nil, .inr rfl⟩

theorem SoundPlan.accessPoint (h : Coherent n mem) (ap : FortiAp) :
    SoundPlan N n mem (planAp C c mem ap) := by
  rw [planAp]
  split
  · next a hfind =>
    obtain ⟨ha, hmatched⟩ := matched_of_lookup h mem_of_findInfra_rest hfind
    have hplan := SoundPlan.existing (N := N) (C := C) (apSeen C c a ap)
      (a.assetType ≠ .accessPoint) (apUpdate c a · ap)
      (if ap.serial = "" then [] else upsertUnitSource (apSource c ap a.id)) [] h ha rfl
      (fun _ hmac => hmac) hmatched sound_unitSource fun w hw => absurd hw List.not_mem_nil
    rw [List.map_nil, List.append_nil, apply_ite (List.map Stmt.write)] at hplan
    exact hplan
  · next hfind => exact ⟨h, rfl, rfl, soundSeq_single (unmatched_of_lookup h hfind), soundBatch_nil, .inr rfl⟩

theorem mem_seen {subnets : List DhcpAssociation.Subnet} {entry : DhcpEntry} {mac : String}
    (h : mac ∈ macsOf a.macAddresses) :
    mac ∈ macsOf (seen C N subnets c.now entry a).macAddresses := mem_mergeMac h

/-- A phase that only fills a batch, as far as it has come. -/
structure Filling (n : Nat) (mem : Memory) (plan : Plan) : Prop where
  coherent : Coherent n plan.memory
  subnets : plan.memory.allSubnets = mem.allSubnets
  preloaded : plan.memory.preloaded = mem.preloaded
  seq : plan.seq = []
  batch : ∀ ws ∈ plan.batch, ∀ w ∈ ws, ∀ mem' : Memory, mem'.preloaded = mem.preloaded → SoundWrite n mem' w

theorem Filling.soundPlan (h : Filling n mem plan) : SoundPlan N n mem plan := by
  refine ⟨h.coherent, h.subnets, h.preloaded, ?_, fun ws hws w hw => h.batch ws hws w hw _ h.preloaded,
    .inl h.seq⟩
  rw [h.seq]
  exact soundSeq_nil

theorem filling_start (h : Coherent n mem) : Filling n mem { memory := mem } :=
  ⟨h, rfl, rfl, rfl, fun _ hws => absurd hws List.not_mem_nil⟩

theorem Filling.lease (h : Filling n mem plan) (entry : DhcpEntry) :
    Filling n mem (planLease C N c plan entry) := by
  rw [planLease]
  split
  · exact h
  · next a hfind =>
    have ha : a ∈ plan.memory.idx.byId := by
      rw [attributed] at hfind
      split at hfind
      · cases hfind
      · exact mem_of_findByEntry hfind
    have hre : Coherent n (plan.memory.reindex C (seen C N (plan.memory.allSubnets.map lan) c.now entry a)) :=
      h.coherent.reindex ha rfl fun _ hmac => mem_seen hmac
    have hbatch : ∀ ws ∈ plan.batch ++ [.updateAsset a.id none (dhcpUpdate C N c plan.memory entry a) ::
        reconcileMacAddresses a.id (seen C N (plan.memory.allSubnets.map lan) c.now entry a).macAddresses],
        ∀ w ∈ ws, ∀ mem' : Memory, mem'.preloaded = mem.preloaded → SoundWrite n mem' w := by
      intro ws hws w hw mem' hpre
      obtain hws | hws := List.mem_append.mp hws
      · exact h.batch ws hws w hw mem' hpre
      · obtain rfl := List.mem_singleton.mp hws
        obtain rfl | hw := List.mem_cons.mp hw
        · exact fun _ hs => nomatch hs
        · have hlisted := listed_of_mem h.coherent ha fun _ hmac => show _ ∈
            macsOf (seen C N (plan.memory.allSubnets.map lan) c.now entry a).macAddresses from mem_seen hmac
          rw [h.preloaded, ← hpre] at hlisted
          exact sound_reconcile (h.coherent.stored a ha) hlisted w hw
    dsimp only
    split
    · exact ⟨hre.touch a.id, h.subnets, h.preloaded, h.seq, hbatch⟩
    · exact ⟨hre, h.subnets, h.preloaded, h.seq, hbatch⟩

theorem SoundPlan.dhcp (h : Coherent n mem) : SoundPlan N n mem (planDhcp C N c mem) := by
  have hfold : ∀ (entries : List DhcpEntry) (plan : Plan), Filling n mem plan →
    Filling n mem (entries.foldl (planLease C N c) plan) := by
    intro entries
    induction entries with
    | nil => exact fun _ h => h
    | cons entry entries ih => exact fun plan h => ih _ (h.lease entry)
  exact (hfold c.result.dhcpEntries _ (filling_start h)).soundPlan

theorem mem_inventoryMacs {inv : InventoryDevice} {mac : String} (h : mac ∈ macsOf a.macAddresses) :
    mac ∈ macsOf (inventoryMacs C c inv a) := by
  rw [inventoryMacs]
  split
  · exact h
  · exact mem_mergeDeviceMac h

theorem SoundPlan.inventory (h : Coherent n mem) (inv : InventoryDevice) :
    SoundPlan N n mem (planInventory C c mem inv) := by
  rw [planInventory]
  split
  · exact soundPlan_idle h
  split
  · next a hfind =>
    have ha := mem_of_findByEntry hfind
    have hre : Coherent n (mem.reindex C (inventorySeen C c inv a)) := h.reindex ha rfl fun _ hmac =>
      mem_inventoryMacs hmac
    have hseq : ∀ mem' : Memory, mem'.preloaded = mem.preloaded → SoundSeq N n mem'
        (.write (.updateAsset a.id none (inventoryUpdate C c inv a)) ::
          if inv.macAddress = "" ∨ handledByDhcp C c inv = true then []
          else (reconcileMacAddresses a.id (inventorySeen C c inv a).macAddresses).map .write) := by
      intro mem' hpre
      refine soundSeq_of_writes fun s hs => ?_
      obtain rfl | hs := List.mem_cons.mp hs
      · exact ⟨fun _ hs => (nomatch hs), rfl⟩
      · split at hs
        · exact absurd hs List.not_mem_nil
        · obtain ⟨w, hw, rfl⟩ := List.mem_map.mp hs
          have hlisted := listed_of_mem h ha fun _ hmac => show _ ∈ macsOf (inventoryMacs C c inv a) from
            mem_inventoryMacs hmac
          rw [← hpre] at hlisted
          exact ⟨sound_reconcile (h.stored a ha) hlisted w hw, rfl⟩
    dsimp only
    split
    · exact ⟨hre, rfl, rfl, hseq _ rfl, soundBatch_nil, .inr rfl⟩
    · exact ⟨hre.touch a.id, rfl, rfl, hseq _ rfl, soundBatch_nil, .inr rfl⟩
  · split
    · exact soundPlan_idle h
    · exact ⟨h, rfl, rfl, soundSeq_single fun _ hs => (nomatch hs), soundBatch_nil, .inr rfl⟩

theorem macsOf_cleared : macsOf (cleared C c a).macAddresses = macsOf a.macAddresses := by
  rw [macsOf, cleared, List.map_map, macsOf]
  refine List.map_congr_left fun m _ => ?_
  rw [Function.comp_apply, clearStamp]
  split <;> rfl

theorem SoundPlan.sweep (h : Coherent n mem) : SoundPlan N n mem (planSweep C c mem) := by
  rw [planSweep]
  refine ⟨⟨h.updates, fun serial i hi => ?_, fun b hb => ?_, fun r hr hne b hb hbr => ?_⟩, rfl, rfl,
    soundSeq_nil,
    ?_, .inl rfl⟩
  · obtain ⟨a, ha⟩ := h.known serial i hi
    refine ⟨cleared C c a, ?_⟩
    change (mem.idx.byId.map (cleared C c)).find? (·.id = i) = _
    rw [List.find?_map]
    exact congrArg (Option.map _) ha
  · obtain ⟨a, ha, rfl⟩ := List.mem_map.mp hb
    exact h.stored a ha
  · obtain ⟨a, ha, rfl⟩ := List.mem_map.mp hb
    rw [macsOf_cleared]
    exact h.macs r hr hne a ha hbr
  · intro ws hws w hw
    obtain ⟨a, ha, rfl⟩ := List.mem_map.mp hws
    have ha := (List.mem_filter.mp ha).1
    have hlisted := listed_of_mem h ha fun _ hmac => show _ ∈ macsOf (cleared C c a).macAddresses from
      macsOf_cleared.symm ▸ hmac
    exact sound_reconcile (h.stored a ha) hlisted w hw

theorem Coherent.switchPorts (h : Coherent n mem) (rows : List SwitchMacEntry) :
    Coherent n (rows.foldl (planSwitchPort C) mem) ∧
      (rows.foldl (planSwitchPort C) mem).allSubnets = mem.allSubnets ∧
      (rows.foldl (planSwitchPort C) mem).preloaded = mem.preloaded := by
  induction rows generalizing mem with
  | nil => exact ⟨h, rfl, rfl⟩
  | cons row rows ih =>
    have hstep : Coherent n (planSwitchPort C mem row) ∧
      (planSwitchPort C mem row).allSubnets = mem.allSubnets ∧
        (planSwitchPort C mem row).preloaded = mem.preloaded := by
      rw [planSwitchPort]
      split
      · exact ⟨h, rfl, rfl⟩
      split
      · exact ⟨h, rfl, rfl⟩
      split
      · exact ⟨h, rfl, rfl⟩
      · exact ⟨h.touch _, rfl, rfl⟩
    obtain ⟨hc, hs, hp⟩ := ih hstep.1
    exact ⟨hc, hs.trans hstep.2.1, hp.trans hstep.2.2⟩

theorem Filling.arp (h : Filling n mem plan) (row : ArpEntry) : Filling n mem (planArp C plan row) := by
  rw [planArp]
  split
  · exact h
  split
  · exact h
  · next a hfind =>
    obtain ⟨i, -, ha⟩ := Option.bind_eq_some_iff.mp hfind
    have ha := (mem_findById ha).1
    split
    · exact h
    · have hre : Coherent n (plan.memory.reindex C { a with ipAddress := some row.ip }) :=
        h.coherent.reindex ha rfl fun _ hmac => hmac
      have hbatch : ∀ ws ∈ plan.batch ++
          [[Write.updateAsset a.id none { ipAddress := some (some row.ip),
                                          ipSource := some (some (row.fortigateDevice ++ ":arp")) }]],
          ∀ w ∈ ws, ∀ mem' : Memory, mem'.preloaded = mem.preloaded → SoundWrite n mem' w := by
        intro ws hws w hw mem' hpre
        obtain hws | hws := List.mem_append.mp hws
        · exact h.batch ws hws w hw mem' hpre
        · obtain rfl := List.mem_singleton.mp hws
          obtain rfl := List.mem_singleton.mp hw
          exact fun _ hs => nomatch hs
      dsimp only
      split
      · exact ⟨hre, h.subnets, h.preloaded, h.seq, hbatch⟩
      · exact ⟨hre.touch a.id, h.subnets, h.preloaded, h.seq, hbatch⟩

theorem SoundPlan.enrichment (h : Coherent n mem) : SoundPlan N n mem (planEnrichment C c mem) := by
  obtain ⟨hc, hs, hp⟩ := h.switchPorts (C := C) c.result.switchMacTable
  have hfold : ∀ (rows : List ArpEntry) (plan : Plan), Filling n mem plan →
    Filling n mem (rows.foldl (planArp C) plan) := by
    intro rows
    induction rows with
    | nil => exact fun _ h => h
    | cons row rows ih => exact fun plan h => ih _ (h.arp row)
  have hstart : Filling n mem { memory := c.result.switchMacTable.foldl (planSwitchPort C) mem } :=
    ⟨hc, hs, hp, rfl, fun _ hws => absurd hws List.not_mem_nil⟩
  exact (hfold c.result.arpTable _ hstart).soundPlan

theorem mem_upsertFortigateEndpointSource {w : Write} (h : w ∈ upsertFortigateEndpointSource C c a) :
    ∃ mac, w = .upsertSource (endpointSource C c a mac) false ∨
      w = .deleteSources fun s => s.assetId = a.id && s.sourceKind = .manual := by
  rw [upsertFortigateEndpointSource] at h
  split at h
  · exact absurd h List.not_mem_nil
  · next mac _ =>
    split at h
    · exact absurd h List.not_mem_nil
    · obtain rfl | h := List.mem_cons.mp h
      · exact ⟨mac, .inl rfl⟩
      · exact ⟨mac, .inr (List.mem_singleton.mp h)⟩

theorem SoundPlan.endpointSources (h : Coherent n mem) : SoundPlan N n mem (planEndpointSources C c mem) := by
  refine ⟨h, rfl, rfl, soundSeq_nil, fun ws hws w hw => ?_, .inl rfl⟩
  obtain ⟨a, -, rfl⟩ := List.mem_map.mp hws
  obtain ⟨mac, rfl | rfl⟩ := mem_upsertFortigateEndpointSource hw
  · trivial
  · trivial

/-- Every phase decides soundly on what the call knows. -/
theorem soundPlan (h : Coherent n mem) (job : Job) : SoundPlan N n mem (job.plan C N c mem) := by
  cases job with
  | subnet entry => exact SoundPlan.subnet h entry
  | subnetUpdates => exact SoundPlan.subnetUpdates h
  | member d m => exact SoundPlan.member h d m
  | switch sw => exact SoundPlan.switch h sw
  | accessPoint ap => exact SoundPlan.accessPoint h ap
  | dhcp => exact SoundPlan.dhcp h
  | inventory inv => exact SoundPlan.inventory h inv
  | sweep => exact SoundPlan.sweep h
  | enrichment => exact SoundPlan.enrichment h
  | endpointSources => exact SoundPlan.endpointSources h
  | corrections => exact ⟨h, rfl, rfl, soundSeq_single trivial, soundBatch_nil, .inr rfl⟩

end Plans

end Polaris.GatewayKnowledge
