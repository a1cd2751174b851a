import Polaris.ClusterSync
import Polaris.Lib.Runs

namespace Polaris.DecommissionEvidence

open Polaris.AssetLookup Polaris.ClusterSync Polaris.Lib.Runs Polaris.Lib.Store Polaris.Lib.Text
open Polaris.Reservations hiding Db
open Polaris.ConflictResolution (AssetType AssetStatus)

section Merge

/-- A switch or an access point as a controller lists it. -/
structure Managed where
  serial : String
  name : String

structure Chunk where
  device : Device
  fortiSwitches : List Managed := []
  fortiAps : List Managed := []
  cmdbSwitchSerials : List String := []
  cmdbApSerials : List String := []
  didSwitchQuery : Bool := false
  didApQuery : Bool := false

structure Result where
  devices : List Device := []
  knownDeviceNames : List String
  fortiSwitches : List Managed := []
  fortiAps : List Managed := []
  cmdbSwitchSerials : List String := []
  cmdbApSerials : List String := []
  switchInventoriedDevices : List String := []
  apInventoriedDevices : List String := []

def Result.merge (r : Result) (c : Chunk) : Result where
  devices := r.devices ++ [c.device]
  knownDeviceNames := r.knownDeviceNames
  fortiSwitches := r.fortiSwitches ++ c.fortiSwitches
  fortiAps := r.fortiAps ++ c.fortiAps
  cmdbSwitchSerials := r.cmdbSwitchSerials ++ c.cmdbSwitchSerials
  cmdbApSerials := r.cmdbApSerials ++ c.cmdbApSerials
  switchInventoriedDevices := if c.didSwitchQuery then r.switchInventoriedDevices.insert c.device.name
    else r.switchInventoriedDevices
  apInventoriedDevices := if c.didApQuery then r.apInventoriedDevices.insert c.device.name
    else r.apInventoriedDevices

/-- The devices that are configured upstream, and what those reached in this
run have reported, in the order in which they finished. The others are offline,
filtered out or failed. -/
structure Upstream where
  roster : List Device
  reached : List Chunk
  listed : ∀ c ∈ reached, c.device.name ∈ roster.map (·.name) ∧ c.device.name ≠ ""

def discoverDhcpSubnets (u : Upstream) : Result :=
  u.reached.foldl Result.merge { knownDeviceNames := (u.roster.map (·.name)).filter (· ≠ "") }

def sightings (r : Result) : Discovery where
  devices := r.devices
  knownDeviceNames := r.knownDeviceNames
  switchSerials := (r.fortiSwitches.map (·.serial)).filter (· ≠ "") ++ r.cmdbSwitchSerials
  switchHostnames := (r.fortiSwitches.map (·.name)).filter (· ≠ "")
  apSerials := (r.fortiAps.map (·.serial)).filter (· ≠ "") ++ r.cmdbApSerials
  apHostnames := (r.fortiAps.map (·.name)).filter (· ≠ "")
  switchInventoriedDevices := r.switchInventoriedDevices
  apInventoriedDevices := r.apInventoriedDevices

def Upstream.discovery (u : Upstream) : Discovery := sightings (discoverDhcpSubnets u)

/-- A merge over a list of chunks, field by field. -/
structure Merged (r : Result) (cs : List Chunk) (r' : Result) : Prop where
  devices : r'.devices = r.devices ++ cs.map (·.device)
  names : r'.knownDeviceNames = r.knownDeviceNames
  switches : r'.fortiSwitches = r.fortiSwitches ++ cs.flatMap (·.fortiSwitches)
  aps : r'.fortiAps = r.fortiAps ++ cs.flatMap (·.fortiAps)
  cmdbSwitches : r'.cmdbSwitchSerials = r.cmdbSwitchSerials ++ cs.flatMap (·.cmdbSwitchSerials)
  cmdbAps : r'.cmdbApSerials = r.cmdbApSerials ++ cs.flatMap (·.cmdbApSerials)
  switchDevices : ∀ name, name ∈ r'.switchInventoriedDevices ↔
    name ∈ r.switchInventoriedDevices ∨ ∃ c ∈ cs, c.didSwitchQuery = true ∧ c.device.name = name
  apDevices : ∀ name, name ∈ r'.apInventoriedDevices ↔
    name ∈ r.apInventoriedDevices ∨ ∃ c ∈ cs, c.didApQuery = true ∧ c.device.name = name

theorem mem_insertIf {names : List String} {did : Bool} {name x : String} :
    x ∈ (if did then names.insert name else names) ↔ x ∈ names ∨ did = true ∧ name = x := by
  cases did with
  | true =>
    rw [if_pos rfl, List.mem_insert_iff]
    exact ⟨fun h => h.symm.imp_right fun h => ⟨rfl, h.symm⟩, fun h => (h.imp_right fun h => h.2.symm).symm⟩
  | false => simp

theorem merged_foldl (r : Result) (cs : List Chunk) : Merged r cs (cs.foldl Result.merge r) := by
  induction cs generalizing r with
  | nil => constructor <;> simp
  | cons c cs ih =>
    have h := ih (r.merge c)
    rw [List.foldl_cons]
    refine ⟨h.devices.trans ?_, h.names, h.switches.trans ?_, h.aps.trans ?_, h.cmdbSwitches.trans ?_,
      h.cmdbAps.trans ?_,
      fun name => (h.switchDevices name).trans ?_, fun name => (h.apDevices name).trans ?_⟩
    case refine_6 | refine_7 =>
      rw [Result.merge, mem_insertIf]
      simp only [List.mem_cons, exists_eq_or_imp, or_assoc]
    all_goals simp [Result.merge]

end Merge

section Evidence

variable (u : Upstream)

def Chunk.managed (c : Chunk) (t : AssetType) : List Managed :=
  if t = .switch then c.fortiSwitches else c.fortiAps

/-- The serials of the controller's configuration. -/
def Chunk.cmdb (c : Chunk) (t : AssetType) : List String :=
  if t = .switch then c.cmdbSwitchSerials else c.cmdbApSerials

def Chunk.answered (c : Chunk) (t : AssetType) : Bool :=
  if t = .switch then c.didSwitchQuery else c.didApQuery

def Upstream.names : List String := u.roster.map (·.name)

/-- The device the asset was discovered from is in the roster, or a cluster
there lists its serial. -/
def Configured (origin : Nat → Option String) (a : Row AssetRow) : Prop :=
  (∃ name ∈ origin a.id, name ∈ u.names) ∨
    ∃ serial ∈ truthy a.data.serialNumber, ∃ d ∈ u.roster ++ u.reached.map (·.device),
      serial ∈ d.haMembers.map (·.serial)

/-- The controller of the asset has answered. -/
def Answered (a : AssetRow) : Prop :=
  ∃ c ∈ u.reached, a.fortinetTopology.bind (·.controllerFortigate) = some c.device.name ∧
    c.answered a.assetType = true

/-- A live inventory has the serial or the hostname, or a configuration has
the serial. -/
def Sighted (a : AssetRow) : Prop :=
  ∃ c ∈ u.reached,
    (∃ serial ∈ truthy a.serialNumber, serial ∈ (c.managed a.assetType).map (·.serial) ∨
      serial ∈ c.cmdb a.assetType) ∨
      ∃ hostname ∈ truthy a.hostname, hostname ∈ (c.managed a.assetType).map (·.name)

/-- A configuration has the hostname in place of the serial. -/
def NamedInCmdb (a : AssetRow) : Prop := ∃ c ∈ u.reached, ∃ hostname ∈ truthy a.hostname,
    hostname ∈ c.cmdb a.assetType

/-- The run knows the hostname on file as a device of the roster or a member
of a cluster it reached, or the serial as one of a device it reached. -/
def Recognised (a : AssetRow) : Prop :=
  (∀ hostname ∈ truthy a.hostname, hostname ∈ u.names ∨ ∃ c ∈ u.reached,
    hostname ∈ c.device.haMembers.map (·.name)) ∨
    ∃ serial ∈ truthy a.serialNumber, ∃ c ∈ u.reached, c.device.serial = serial ∨
      serial ∈ c.device.haMembers.map (·.serial)

variable {u}

theorem mem_knownDeviceNames {name : String} (hne : name ≠ "") :
    name ∈ knownDeviceNames u.discovery ↔
      name ∈ u.names ∨ ∃ c ∈ u.reached, name ∈ c.device.haMembers.map (·.name) := by
  have h := merged_foldl { knownDeviceNames := (u.roster.map (·.name)).filter (· ≠ "") } u.reached
  rw [knownDeviceNames, Upstream.discovery, sightings, discoverDhcpSubnets, h.names, h.devices]
  simp [Upstream.names, hne]

theorem mem_knownFirewallSerials {serial : String} (hne : serial ≠ "") :
    serial ∈ knownFirewallSerials u.discovery ↔
      ∃ c ∈ u.reached, c.device.serial = serial ∨ serial ∈ c.device.haMembers.map (·.serial) := by
  have h := merged_foldl { knownDeviceNames := (u.roster.map (·.name)).filter (· ≠ "") } u.reached
  rw [knownFirewallSerials, Upstream.discovery, sightings, discoverDhcpSubnets, h.devices]
  simp only [List.nil_append, List.mem_flatMap, List.mem_map, exists_exists_and_eq_and, List.mem_append,
    List.mem_filter]
  refine exists_congr fun c => and_congr_right fun _ => or_congr ?_ (by simp [hne])
  split
  · next he => exact ⟨fun h => absurd h List.not_mem_nil, fun h => absurd (h.symm.trans he) hne⟩
  · rw [List.mem_singleton, eq_comm]

end Evidence

/-- The database, and the device that each asset was last discovered from. -/
structure State where
  db : Db
  origin : Nat → Option String

section Finalize

variable {i : Integration} {r : Discovery} {u : Upstream} {db : Db} {a b : Row AssetRow} {x : AssetRow}

theorem staleFirewall_iff : staleFirewall i u.discovery x = true ↔
    x.discoveredByIntegrationId = some i.id ∧ x.assetType = .firewall ∧ x.status ≠ .decommissioned ∧
      ¬Recognised u x := by
  have hnames : (truthy x.hostname).any (· ∉ knownDeviceNames u.discovery) = true ↔
      ¬∀ hostname ∈ truthy x.hostname, hostname ∈ u.names ∨ ∃ c ∈ u.reached,
        hostname ∈ c.device.haMembers.map (·.name) := by
    rw [Option.any_eq_true, not_forall]
    refine exists_congr fun hostname => ?_
    rw [Classical.not_imp]
    refine and_congr_right fun h => ?_
    rw [decide_eq_true_eq, mem_knownDeviceNames (truthy_some h).2]
  have hserials : (truthy x.serialNumber).any (· ∈ knownFirewallSerials u.discovery) = true ↔
      ∃ serial ∈ truthy x.serialNumber, ∃ c ∈ u.reached, c.device.serial = serial ∨
        serial ∈ c.device.haMembers.map (·.serial) := by
    rw [Option.any_eq_true]
    refine exists_congr fun serial => and_congr_right fun h => ?_
    rw [decide_eq_true_eq, mem_knownFirewallSerials (truthy_some h).2]
  simp only [staleFirewall, Bool.and_eq_true, decide_eq_true_eq, Bool.not_eq_true', ← Bool.not_eq_true,
    hnames,
    hserials,
    Recognised, not_or, and_assoc]

theorem mem_inventoried {name : String} : name ∈ inventoried u.discovery x ↔
    ∃ c ∈ u.reached, c.device.name = name ∧ c.answered x.assetType = true := by
  have h := merged_foldl { knownDeviceNames := (u.roster.map (·.name)).filter (· ≠ "") } u.reached
  rw [inventoried, Upstream.discovery, sightings, discoverDhcpSubnets]
  simp only [Chunk.answered]
  split
  · rw [h.switchDevices]
    simp [and_comm]
  · rw [h.apDevices]
    simp [and_comm]

theorem answered_iff :
    (truthy (x.fortinetTopology.bind (·.controllerFortigate))).any (· ∈ inventoried u.discovery x) = true ↔
      Answered u x := by
  simp only [Option.any_eq_true, decide_eq_true_eq, mem_inventoried, Answered]
  constructor
  · rintro ⟨name, hname, c, hc, rfl, hans⟩
    exact ⟨c, hc, (truthy_some hname).1, hans⟩
  · rintro ⟨c, hc, hname, hans⟩
    refine ⟨c.device.name, ?_, c, hc, rfl, hans⟩
    rw [hname, truthy, Option.filter_some, if_pos (decide_eq_true (u.listed c hc).2)]

theorem mem_seenSerials {serial : String} (hne : serial ≠ "") :
    serial ∈ (if x.assetType = .switch then u.discovery.switchSerials else u.discovery.apSerials) ↔
      ∃ c ∈ u.reached, serial ∈ (c.managed x.assetType).map (·.serial) ∨ serial ∈ c.cmdb x.assetType := by
  have h := merged_foldl { knownDeviceNames := (u.roster.map (·.name)).filter (· ≠ "") } u.reached
  rw [Upstream.discovery, sightings, discoverDhcpSubnets]
  simp only [Chunk.managed, Chunk.cmdb, and_or_left, exists_or]
  split
  · rw [h.switches, h.cmdbSwitches, List.nil_append, List.nil_append, List.mem_append, List.mem_flatMap,
      List.map_flatMap]
    simp [hne]
  · rw [h.aps, h.cmdbAps, List.nil_append, List.nil_append, List.mem_append, List.mem_flatMap,
      List.map_flatMap]
    simp [hne]

theorem mem_seenHostnames {hostname : String} (hne : hostname ≠ "") :
    hostname ∈ (if x.assetType = .switch then u.discovery.switchHostnames else u.discovery.apHostnames) ↔
      ∃ c ∈ u.reached, hostname ∈ (c.managed x.assetType).map (·.name) := by
  have h := merged_foldl { knownDeviceNames := (u.roster.map (·.name)).filter (· ≠ "") } u.reached
  rw [Upstream.discovery, sightings, discoverDhcpSubnets]
  simp only [Chunk.managed]
  split
  · rw [h.switches, List.nil_append, List.map_flatMap]
    simp [hne]
  · rw [h.aps, List.nil_append, List.map_flatMap]
    simp [hne]

theorem seenOnController_iff : seenOnController u.discovery x = true ↔ Sighted u x := by
  simp only [seenOnController, Bool.or_eq_true, Option.any_eq_true, decide_eq_true_eq]
  constructor
  · rintro (⟨serial, hs, hseen⟩ | ⟨hostname, hs, hseen⟩)
    · obtain ⟨c, hc, hseen⟩ := (mem_seenSerials (truthy_some hs).2).mp hseen
      exact ⟨c, hc, .inl ⟨serial, hs, hseen⟩⟩
    · obtain ⟨c, hc, hseen⟩ := (mem_seenHostnames (truthy_some hs).2).mp hseen
      exact ⟨c, hc, .inr ⟨hostname, hs, hseen⟩⟩
  · rintro ⟨c, hc, ⟨serial, hs, hseen⟩ | ⟨hostname, hs, hseen⟩⟩
    · exact .inl ⟨serial, hs, (mem_seenSerials (truthy_some hs).2).mpr ⟨c, hc, hseen⟩⟩
    · exact .inr ⟨hostname, hs, (mem_seenHostnames (truthy_some hs).2).mpr ⟨c, hc, hseen⟩⟩

theorem staleInfra_iff : staleInfra i u.discovery x = true ↔
    x.discoveredByIntegrationId = some i.id ∧ (x.assetType = .switch ∨ x.assetType = .accessPoint) ∧
      x.status ≠ .decommissioned ∧ Answered u x ∧ ¬Sighted u x := by
  simp only [staleInfra, Bool.and_eq_true, Bool.or_eq_true, decide_eq_true_eq, Bool.not_eq_true',
    ← Bool.not_eq_true,
    answered_iff, seenOnController_iff, and_assoc]

/-- The pass over the firewalls is made. -/
def Sweeps (i : Integration) (r : Discovery) : Prop :=
  knownDeviceNames r ≠ [] ∧ (i.type = "fortimanager" ∨ i.type = "fortigate")

instance Sweeps.decidable (i : Integration) (r : Discovery) : Decidable (Sweeps i r) :=
  inferInstanceAs (Decidable (_ ∧ _))

def stale (i : Integration) (r : Discovery) (a : Row AssetRow) : Bool :=
  decide (Sweeps i r) && staleFirewall i r a.data || staleInfra i r a.data

theorem stale_iff : stale i r a = true ↔ Sweeps i r ∧ staleFirewall i r a.data = true ∨
    staleInfra i r a.data = true := by
  rw [stale, Bool.or_eq_true, Bool.and_eq_true, decide_eq_true_eq]

theorem inventoried_nonempty (h : staleInfra i r x = true) :
    r.switchInventoriedDevices ≠ [] ∨ r.apInventoriedDevices ≠ [] := by
  simp only [staleInfra, Bool.and_eq_true, Option.any_eq_true, inventoried] at h
  obtain ⟨⟨-, name, -, hmem⟩, -⟩ := h
  split at hmem
  · exact .inl (List.ne_nil_of_mem (of_decide_eq_true hmem))
  · exact .inr (List.ne_nil_of_mem (of_decide_eq_true hmem))

theorem amend_amend (p q : Row AssetRow → Bool) :
    amend p decommission (amend q decommission a) = amend (fun a => q a || p a) decommission a := by
  cases hq : q a with
  | false =>
    rw [amend_of_neg hq, amend, amend, hq]
    rfl
  | true =>
    rw [amend_of_pos hq, amend_of_pos (r := a) (by rw [hq, Bool.true_or]), amend]
    split <;> rfl

theorem map_amend_false {p : Row AssetRow → Bool} {f : AssetRow → AssetRow} {rows : List (Row AssetRow)}
    (h : ∀ a, p a = false) : rows.map (amend p f) = rows := by
  rw [List.map_congr_left fun a _ => amend_of_neg (h a) f]
  exact List.map_id' rows

theorem firewallPass_rows :
    (if knownDeviceNames r ≠ [] ∧ (i.type = "fortimanager" ∨ i.type = "fortigate") then
      { db with assets := db.assets.amendWhere (staleFirewall i r ·.data) decommission }
        else db).assets.rows =
      db.assets.rows.map (amend (fun a => decide (Sweeps i r) && staleFirewall i r a.data) decommission) := by
  split
  · next hon =>
    have hon : Sweeps i r := hon
    simp only [hon, decide_true, Bool.true_and, (Table.amendWhere_rows _ _ _).1]
  · next hoff =>
    have hoff : ¬Sweeps i r := hoff
    exact (map_amend_false fun a => by rw [decide_eq_false hoff, Bool.false_and]).symm

theorem infraPass_rows :
    (if r.switchInventoriedDevices ≠ [] ∨ r.apInventoriedDevices ≠ [] then
      { db with assets := db.assets.amendWhere (staleInfra i r ·.data) decommission } else db).assets.rows =
      db.assets.rows.map (amend (staleInfra i r ·.data) decommission) := by
  split
  · exact (Table.amendWhere_rows _ _ _).1
  · next hnone => exact (map_amend_false fun a => Bool.eq_false_iff.mpr fun h => hnone
      (inventoried_nonempty h)).symm

/-- The two passes are one over the assets that either finds stale. -/
theorem finalize_rows : (finalize i r db).assets.rows = db.assets.rows.map
    (amend (stale i r) decommission) := by
  rw [finalize, infraPass_rows, firewallPass_rows, List.map_map]
  exact List.map_congr_left fun a _ => amend_amend _ _

theorem amend_status {p : Row AssetRow → Bool} :
    (amend p decommission a).data.status = .decommissioned ↔ p a = true ∨
      a.data.status = .decommissioned := by
  cases hp : p a with
  | true => simp [amend_of_pos hp, decommission]
  | false => simp [amend_of_neg hp]

theorem decommissioned_iff (ha : a ∈ db.assets.rows) (hs : a.data.status ≠ .decommissioned) :
    (∃ b ∈ (finalize i r db).assets.rows, b.id = a.id ∧ b.data.status = .decommissioned) ↔
      stale i r a = true := by
  rw [finalize_rows]
  constructor
  · rintro ⟨b, hb, hba, hdec⟩
    obtain ⟨c, hc, rfl⟩ := List.mem_map.mp hb
    rw [amend_id] at hba
    rw [← Table.eq_of_id ha hc hba.symm, amend_status] at hdec
    exact hdec.resolve_right hs
  · exact fun h => ⟨_, List.mem_map_of_mem ha, amend_id _ _ _, amend_status.mpr (.inl h)⟩

end Finalize

section Runs

variable (C : Casing) (order : List Source → List Source) (i : Integration) {now : Nat} {d : Device}
  {s : State}
  {u : Upstream}

def writtenId (d : Device) (p : Phase) (m : Member) : Nat :=
  ((findExisting C p.idx d m).map (·.id)).getD p.db.assets.nextId

def discoverMember (now : Nat) (d : Device) (t : Phase × (Nat → Option String)) (m : Member) : Phase × (Nat →
    Option String) :=
  (syncMember C order i now d t.1 m, Function.update t.2 (writtenId C d t.1 m) (some d.name))

def discoverDevice (now : Nat) (d : Device) (s : State) : State :=
  let t := (members d).foldl (discoverMember C order i now d)
    (⟨s.db, build C (s.db.assets.rows.map indexed)⟩, s.origin)
  ⟨t.1.db, t.2⟩

/-- Keeping the origins leaves the sync as it is. -/
theorem discoverDevice_db : (discoverDevice C order i now d s).db = syncDevice C order i now d s.db := by
  have hfst : ∀ (ms : List Member) (t : Phase × (Nat → Option String)),
      (ms.foldl (discoverMember C order i now d) t).1 = ms.foldl (syncMember C order i now d) t.1 := by
    intro ms
    induction ms with
    | nil => exact fun t => rfl
    | cons m ms ih => exact fun t => ih (discoverMember C order i now d t m)
  exact congrArg Phase.db (hfst (members d) _)

/-- A row is as it was, or its asset was discovered from the device. -/
def Traced (d : Device) (db : Db) (origin : Nat → Option String) (t : Phase × (Nat → Option String)) : Prop :=
  ∀ a ∈ t.1.db.assets.rows, (a ∈ db.assets.rows ∧ t.2 a.id = origin a.id) ∨ t.2 a.id = some d.name

theorem mem_syncMember {p : Phase} {m : Member} {a : Row AssetRow}
    (ha : a ∈ (syncMember C order i now d p m).db.assets.rows) (hid : a.id ≠ writtenId C d p m) : a ∈
      p.db.assets.rows := by
  rw [syncMember] at ha
  rw [writtenId] at hid
  cases hf : findExisting C p.idx d m with
  | some b =>
    rw [hf, Option.map_some, Option.getD_some] at hid
    simp only [hf, syncExisting, Db.updateAsset] at ha
    obtain ⟨c, hc, rfl⟩ := Table.mem_amendWhere.mp ha
    rw [amend_id] at hid
    rw [amend_of_neg (decide_eq_false hid)]
    split at hc
    · exact hc
    · exact hc
  | none =>
    rw [hf, Option.map_none, Option.getD_none] at hid
    simp only [hf, syncNew] at ha
    have ⟨created, ha⟩ : ∃ created, a ∈ (p.db.assets.append created).rows := by
      split at ha
      · exact ⟨_, ha⟩
      · exact ⟨_, ha⟩
    exact (Table.mem_append.mp ha).resolve_right fun h => hid (congrArg Row.id h)

theorem discoverMember_traced {db : Db} {origin : Nat → Option String} {t : Phase × (Nat → Option String)}
    {m : Member}
    (h : Traced d db origin t) : Traced d db origin (discoverMember C order i now d t m) := by
  intro a ha
  by_cases hid : a.id = writtenId C d t.1 m
  · refine .inr ?_
    simp only [discoverMember, hid, Function.update_self]
  · have hold := h a (mem_syncMember C order i ha hid)
    simpa only [discoverMember, Function.update_of_ne hid] using hold

/-- The origin of a row that a sync has changed or added is its device. -/
theorem discoverDevice_traced : ∀ a ∈ (discoverDevice C order i now d s).db.assets.rows,
    (a ∈ s.db.assets.rows ∧ (discoverDevice C order i now d s).origin a.id = s.origin a.id) ∨
      (discoverDevice C order i now d s).origin a.id = some d.name := by
  have hrun : ∀ (ms : List Member) (t : Phase × (Nat → Option String)), Traced d s.db s.origin t →
      Traced d s.db s.origin (ms.foldl (discoverMember C order i now d) t) := by
    intro ms
    induction ms with
    | nil => exact fun t h => h
    | cons m ms ih => exact fun t h => ih _ (discoverMember_traced C order i h)
  exact hrun (members d) _ fun a ha => .inl ⟨ha, rfl⟩

/-- The steps of an integration. Between them anything may happen to the
database. -/
inductive Op
  | sync (d : Device) (now : Nat)
  | finalize (u : Upstream)
  | other (db : Db)

def step (s : State) : Op → State
  | .sync d now => discoverDevice C order i now d s
  | .finalize u => { s with db := ClusterSync.finalize i u.discovery s.db }
  | .other db => { s with db := db }

/-- A finalize pass decommissions firewalls whose devices are gone, and
switches and access points that a controller that answered has no more. -/
def Evident (s : State) : Op → Prop
  | .finalize u => ∀ a ∈ s.db.assets.rows, a.data.status ≠ .decommissioned →
      (∃ b ∈ (step C order i s (.finalize u)).db.assets.rows, b.id = a.id ∧ b.data.status = .decommissioned) →
        (a.data.assetType = .firewall ∧ ¬Configured u s.origin a) ∨
          ((a.data.assetType = .switch ∨ a.data.assetType = .accessPoint) ∧
            Answered u a.data ∧ ¬Sighted u a.data ∧ ¬NamedInCmdb u a.data)
  | _ => True

/-- The firewalls that are still configured are recognised, and a configuration
that has the hostname of a switch or an access point has its serial. -/
def Known (s : State) : Op → Prop
  | .finalize u => ∀ a ∈ s.db.assets.rows, a.data.discoveredByIntegrationId = some i.id →
    a.data.status ≠ .decommissioned →
      (a.data.assetType = .firewall → Sweeps i u.discovery → Configured u s.origin a → Recognised u a.data) ∧
        (a.data.assetType = .switch ∨ a.data.assetType = .accessPoint →
          Answered u a.data → NamedInCmdb u a.data → Sighted u a.data)
  | _ => True

theorem evident_iff (s : State) (op : Op) : Evident C order i s op ↔ Known i s op := by
  cases op with
  | sync | other => exact Iff.rfl
  | finalize u =>
    refine forall₂_congr fun a ha => ?_
    have hdec : a.data.status ≠ .decommissioned →
        ((∃ b ∈ (step C order i s (.finalize u)).db.assets.rows, b.id = a.id ∧
          b.data.status = .decommissioned) ↔
          stale i u.discovery a = true) := decommissioned_iff ha
    constructor
    · intro h hby hs
      refine ⟨fun hfw hsweeps hconf => ?_, fun hinfra hans hnamed => ?_⟩
      · by_contra hrec
        have hstale := stale_iff.mpr (.inl ⟨hsweeps, staleFirewall_iff.mpr ⟨hby, hfw, hs, hrec⟩⟩)
        obtain ⟨-, hgone⟩ | ⟨hinfra, -⟩ := h hs ((hdec hs).mpr hstale)
        · exact hgone hconf
        · simp [hfw] at hinfra
      · by_contra hseen
        have hstale := stale_iff.mpr (.inr (staleInfra_iff.mpr ⟨hby, hinfra, hs, hans, hseen⟩))
        obtain ⟨hfw, -⟩ | ⟨-, -, -, hgone⟩ := h hs ((hdec hs).mpr hstale)
        · simp [hfw] at hinfra
        · exact hgone hnamed
    · intro h hs hstale
      obtain ⟨hsweeps, hfw⟩ | hinfra := stale_iff.mp ((hdec hs).mp hstale)
      · obtain ⟨hby, hfw, -, hrec⟩ := staleFirewall_iff.mp hfw
        exact .inl ⟨hfw, fun hconf => hrec ((h hby hs).1 hfw hsweeps hconf)⟩
      · obtain ⟨hby, hinfra, -, hans, hseen⟩ := staleInfra_iff.mp hinfra
        exact .inr ⟨hinfra, hans, hseen, fun hnamed => hseen ((h hby hs).2 hinfra hans hnamed)⟩

/-- Where the evidence is there, a device that was not reached keeps its
status, and so do the switches and access points behind it. -/
theorem Evident.offline {a : Row AssetRow} (h : Evident C order i s (.finalize u)) (hd : d ∈ u.roster)
    (hoff : ∀ c ∈ u.reached, c.device.name ≠ d.name) (ha : a ∈ s.db.assets.rows)
    (hs : a.data.status ≠ .decommissioned)
    (hof : a.data.assetType = .firewall ∧ s.origin a.id = some d.name ∨
      a.data.assetType ≠ .firewall ∧ a.data.fortinetTopology.bind (·.controllerFortigate) = some d.name) :
    ¬∃ b ∈ (step C order i s (.finalize u)).db.assets.rows, b.id = a.id ∧
      b.data.status = .decommissioned := by
  intro hdec
  obtain ⟨hfw, hgone⟩ | ⟨hinfra, ⟨c, hc, hname, -⟩, -⟩ := h a ha hs hdec
  · obtain ⟨-, horigin⟩ | ⟨hnot, -⟩ := hof
    · exact hgone (.inl ⟨d.name, horigin, List.mem_map_of_mem hd⟩)
    · exact hnot hfw
  · obtain ⟨hfw, -⟩ | ⟨-, hctl⟩ := hof
    · simp [hfw] at hinfra
    · exact hoff c hc (Option.some.inj (hname.symm.trans hctl))

/-- In every run, a finalize pass has the evidence just where it knows the
assets. -/
theorem decommission_evidence (s : State) (ops : List Op) :
    Along (step C order i) (Evident C order i) s ops ↔ Along (step C order i) (Known i) s ops :=
  ⟨Along.mono fun s op => (evident_iff C order i s op).mp,
    Along.mono fun s op => (evident_iff C order i s op).mpr⟩

section Branch

def manager : Integration := ⟨"int-1", "fortimanager", "Manager"⟩

/-- A gate under another name in the manager than its own. -/
def branch : Device := { name := "branch-7", hostname := "BR7-FW", serial := "FG7", mgmtIp := "10.7.0.1" }

def offline : Upstream := ⟨[branch], [], fun _ hc => absurd hc List.not_mem_nil⟩

def start : State := ⟨⟨Table.empty _, []⟩, fun _ => none⟩

def found : State := step asciiCasing id manager start (.sync branch 1)

theorem found_row : ∃ a ∈ found.db.assets.rows, a.id = 0 ∧ a.data.assetType = .firewall ∧
    a.data.status ≠ .decommissioned ∧ found.origin 0 = some "branch-7" ∧
      stale manager offline.discovery a = true := by
  decide +kernel

/-- The gate is on file under its hostname. While it is offline it is in the
roster only under its name, and it is decommissioned. -/
theorem offline_decommissioned :
    ¬Along (step asciiCasing id manager) (Evident asciiCasing id manager) start [.sync branch 1,
      .finalize offline] := by
  intro h
  obtain ⟨a, ha, hid, hfw, hs, horigin, hstale⟩ := found_row
  have hev : Evident asciiCasing id manager found (.finalize offline) := h.2.1
  refine hev.offline asciiCasing id manager (d := branch) List.mem_cons_self
    (fun _ hc => absurd hc List.not_mem_nil) ha hs
    (.inl ⟨hfw, hid ▸ horigin⟩) ((decommissioned_iff ha hs).mpr hstale)

end Branch

end Runs

end Polaris.DecommissionEvidence
