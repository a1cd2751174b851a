import Mathlib.Data.List.Sort
import Polaris.Lib.Store
import Polaris.SubnetRuns

namespace Polaris.SubnetDiscovery

open Polaris.Lib.Checks Polaris.Lib.Runs Polaris.Lib.Store Polaris.Lib.Text Polaris.Netmask Polaris.Cidr
open Polaris.CidrPlacement Polaris.SubnetService Polaris.SubnetRuns

section Data

structure Subnet extends SubnetData where
  discoveredBy : Option String := none
  fortigateDevice : Option String := none
  lastDiscoveredAt : Option Nat := none
  deriving DecidableEq

structure Db where
  blocks : List IpBlock
  subnets : Table (Table.noKey (α := Subnet))

def Subnet.live (s : Subnet) : Bool := s.status ≠ .deprecated

def Db.view (db : Db) : SubnetService.Db :=
  ⟨db.blocks, db.subnets.rows.map fun r => ⟨r.id, r.data.toSubnetData⟩, db.subnets.nextId⟩

end Data

section Services

variable (N : Package) (db : Db)

def createSubnet (input : CreateSubnetInput) : Except Failure Db := do
  let normalizedCidr ← admitCidr N input.cidr
  let block ← db.view.findBlock input.blockId
  checkBlock N block normalizedCidr
  checkSiblings N (db.view.cidrsOf input.blockId) normalizedCidr
  return { db with subnets := db.subnets.append { toSubnetData := input.row normalizedCidr } }

def deleteSubnet (id activeCount : Nat) : Except Failure Db :=
  match db.subnets.find id with
  | none => .error (.app 404 s!"Subnet {id} not found")
  | some s =>
    if 0 < activeCount then
      .error (.app 409 ("Cannot delete subnet " ++ s.data.cidr ++ " — it has " ++ toString activeCount ++
        " active reservation(s)"))
    else .ok { db with subnets := db.subnets.deleteWhere (·.id = id) }

structure UpdateSubnetInput where
  name : Option String := none
  purpose : Option String := none
  status : Option SubnetStatus := none
  vlan : Option Nat := none
  tags : Option (List String) := none
  convertToManual : Bool := false

def UpdateSubnetInput.apply (input : UpdateSubnetInput) (s : Subnet) : Subnet :=
  { s with
    name := input.name.getD s.name
    purpose := input.purpose.or s.purpose
    status := input.status.getD s.status
    vlan := input.vlan.or s.vlan
    tags := input.tags.getD s.tags
    discoveredBy := if input.convertToManual then none else s.discoveredBy
    fortigateDevice := if input.convertToManual then none else s.fortigateDevice }

def updateSubnet (id : Nat) (input : UpdateSubnetInput) : Except Failure Db :=
  match db.subnets.find id with
  | none => .error (.app 404 s!"Subnet {id} not found")
  | some _ => .ok { db with subnets := db.subnets.amendWhere (·.id = id) input.apply }

end Services

section Discovery

structure DiscoveredSubnet where
  cidr : String
  name : String
  fortigateDevice : String
  vlan : Option Nat := none

structure DiscoveredDevice where
  name : String
  haMembers : List String := []

structure DiscoveryResult where
  subnets : List DiscoveredSubnet := []
  knownDeviceNames : List String := []
  devices : List DiscoveredDevice := []

def DiscoveryResult.known (result : DiscoveryResult) : List String :=
  result.knownDeviceNames ++ (result.devices.flatMap (·.haMembers)).filter (· ≠ "")

structure Source where
  integrationId : String
  integrationType : String
  now : Nat := 0

def Source.label (c : Source) : String :=
  if c.integrationType = "windowsserver" then "Windows Server"
  else if c.integrationType = "fortigate" then "FortiGate"
  else "FortiManager"

structure Claim where
  name : String
  tags : List String
  purpose : Option String

structure SubnetUpdate where
  id : Nat
  fortigateDevice : String
  vlan : Option Nat
  claim : Option Claim

/-- The loop of Phase 1: the store, the rows in memory and the updates that
wait for its end. -/
structure Phase1 where
  db : Db
  allSubnets : List (Row Subnet)
  subnetUpdates : List SubnetUpdate := []
  created : List String := []
  updated : List String := []
  skipped : List String := []

variable (N : Package) (c : Source)

def subnetName (entry : DiscoveredSubnet) : String :=
  "DHCP: " ++ entry.name ++ " (" ++ entry.fortigateDevice ++ ")"

def Source.purpose : String := "Discovered from " ++ c.label ++ " DHCP"

def Source.updateOf (existing : Row Subnet) (entry : DiscoveredSubnet) : SubnetUpdate where
  id := existing.id
  fortigateDevice := entry.fortigateDevice
  vlan := entry.vlan
  claim :=
    if existing.data.discoveredBy = none then
      some {
        name := subnetName entry
        tags := (existing.data.tags ++ ["dhcp-discovered", c.integrationType]).eraseDups
        purpose := if existing.data.purpose.getD "" = "" then some c.purpose else none }
    else none

def Source.newSubnet (block : IpBlock) (cidr : String) (entry : DiscoveredSubnet) : Subnet where
  blockId := block.id
  cidr := cidr
  name := subnetName entry
  purpose := some c.purpose
  vlan := entry.vlan
  tags := ["dhcp-discovered", c.integrationType]
  status := .available
  createdBy := none
  discoveredBy := some c.integrationId
  fortigateDevice := some entry.fortigateDevice
  lastDiscoveredAt := some c.now

def prefixBits (cidr : String) : Option Int := ((split '/' cidr)[1]?).bind parseInt

def blocksSorted (blocks : List IpBlock) : List IpBlock :=
  blocks.insertionSort fun a b => ∀ pa ∈ prefixBits a.cidr, ∀ pb ∈ prefixBits b.cidr, pb ≤ pa

def findParentBlock (blocks : List IpBlock) (cidr : String) : Option IpBlock :=
  (blocksSorted blocks).find? fun b => cidrContains N b.cidr cidr

def subnetByCidr (rows : List (Row Subnet)) (cidr : String) : Option (Row Subnet) :=
  rows.reverse.find? fun r => r.data.live && r.data.cidr = cidr

def siblingsByBlockId (rows : List (Row Subnet)) (blockId : String) : List (Row Subnet) :=
  rows.filter fun r => r.data.live && r.data.blockId = blockId

def Phase1.skip (p : Phase1) (note : String) : Phase1 := { p with skipped := p.skipped ++ [note] }

def Phase1.create (p : Phase1) (subnet : Subnet) : Phase1 :=
  { p with
    db := { p.db with subnets := p.db.subnets.append subnet }
    allSubnets := p.allSubnets ++ [⟨p.db.subnets.nextId, subnet⟩]
    created := p.created ++ [subnet.cidr] }

def phase1Entry (refused : String → Bool) (p : Phase1) (entry : DiscoveredSubnet) : Phase1 :=
  match normalizeCidr N entry.cidr with
  | .error _ => p.skip (entry.cidr ++ " (invalid CIDR)")
  | .ok cidr =>
    match subnetByCidr p.allSubnets cidr with
    | some existing =>
      { p with
        subnetUpdates := p.subnetUpdates ++ [c.updateOf existing entry]
        updated := p.updated ++ [cidr] }
    | none =>
      match findParentBlock N p.db.blocks cidr with
      | none => p.skip (cidr ++ " (no matching parent block)")
      | some matchingBlock =>
        match (siblingsByBlockId p.allSubnets matchingBlock.id).find? fun s =>
          cidrOverlaps N s.data.cidr cidr with
        | some overlap => p.skip (cidr ++ " (overlaps " ++ overlap.data.cidr ++ ")")
        | none =>
          if refused cidr then p.skip (cidr ++ " (create failed)")
          else p.create (c.newSubnet matchingBlock cidr entry)

def Source.applyUpdate (u : SubnetUpdate) (s : Subnet) : Subnet :=
  { s with
    name := (u.claim.map Claim.name).getD s.name
    status := if u.claim.isSome then .available else s.status
    tags := (u.claim.map Claim.tags).getD s.tags
    purpose := (u.claim.bind Claim.purpose).or s.purpose
    vlan := u.vlan.or s.vlan
    discoveredBy := some c.integrationId
    fortigateDevice := some u.fortigateDevice
    lastDiscoveredAt := some c.now }

def Source.writeUpdate (lost : SubnetUpdate → Bool) (db : Db) (u : SubnetUpdate) : Db :=
  if lost u then db else { db with subnets := db.subnets.amendWhere (·.id = u.id) (c.applyUpdate u) }

/-- Some writes of the batch may be lost. -/
def phase1 (refused : String → Bool) (lost : SubnetUpdate → Bool) (subnets : List DiscoveredSubnet)
    (db : Db) : Phase1 :=
  let p := subnets.foldl (phase1Entry N c refused) { db := db, allSubnets := db.subnets.rows }
  { p with db := p.subnetUpdates.foldl (c.writeUpdate lost) p.db }

def Source.stale (known : List String) (s : Subnet) : Bool :=
  s.discoveredBy = some c.integrationId && s.live && s.fortigateDevice.getD "" ≠ "" &&
    s.fortigateDevice.getD "" ∉ known

def Subnet.deprecate (s : Subnet) : Subnet := { s with status := .deprecated }

def phase2 (known : List String) (p : Phase1) : Db :=
  let staleIds := (p.allSubnets.filter fun r => c.stale known r.data).map Row.id
  if known = [] then p.db
  else { p.db with subnets := p.db.subnets.amendWhere (fun r => r.id ∈ staleIds) Subnet.deprecate }

inductive SyncMode
  | full | skipDeprecation | deprecationOnly | finalize
  deriving DecidableEq

/-- The phases of `syncDhcpSubnets` that write subnets. -/
def syncDhcpSubnets (mode : SyncMode) (refused : String → Bool) (lost : SubnetUpdate → Bool)
    (result : DiscoveryResult) (db : Db) : Db :=
  let p :=
    if mode = .full ∨ mode = .skipDeprecation then phase1 N c refused lost result.subnets db
    else { db := db, allSubnets := db.subnets.rows }
  if mode = .skipDeprecation then p.db else phase2 c result.known p

end Discovery

section Runs

inductive Op
  | createSubnet (input : CreateSubnetInput)
  | deleteSubnet (id activeCount : Nat)
  | updateSubnet (id : Nat) (input : UpdateSubnetInput)
  | sync (c : Source) (mode : SyncMode) (refused : String → Bool) (lost : SubnetUpdate → Bool)
    (result : DiscoveryResult)

def Op.exec (N : Package) (db : Db) : Op → Except Failure Db
  | .createSubnet input => SubnetDiscovery.createSubnet N db input
  | .deleteSubnet id activeCount => SubnetDiscovery.deleteSubnet db id activeCount
  | .updateSubnet id input => SubnetDiscovery.updateSubnet db id input
  | .sync c mode refused lost result => .ok (syncDhcpSubnets N c mode refused lost result db)

def step (N : Package) (db : Db) (op : Op) : Db :=
  match op.exec N db with
  | .ok db' => db'
  | .error _ => db

end Runs

section View

variable {N : Package}

theorem view_append (db : Db) (subnet : Subnet) :
    Db.view { db with subnets := db.subnets.append subnet } = db.view.create subnet.toSubnetData := by
  obtain ⟨hrows, hnext⟩ := Table.append_rows db.subnets subnet
  rw [Db.view, Db.view, SubnetService.Db.create, hrows, hnext, List.map_append]
  rfl

/-- The creation is the one of the service over subnets alone. -/
theorem view_createSubnet (db : Db) (input : CreateSubnetInput) :
    (createSubnet N db input).map Db.view = SubnetService.createSubnet N db.view input := by
  unfold createSubnet SubnetService.createSubnet SubnetService.Reading.createSubnet
  change _ = (admitCidr N input.cidr >>= fun _ => _)
  cases admitCidr N input.cidr with
  | error e => rfl
  | ok cidr =>
    cases db.view.findBlock input.blockId with
    | error e => rfl
    | ok block =>
      change Except.map Db.view (checkBlock N block cidr >>= fun _ => _) =
        (checkBlock N block cidr >>= fun _ => _)
      cases checkBlock N block cidr with
      | error e => rfl
      | ok _ =>
        change Except.map Db.view (checkSiblings N (db.view.cidrsOf input.blockId) cidr >>= fun _ => _) =
          (checkSiblings N (db.view.cidrsOf input.blockId) cidr >>= fun _ => _)
        cases checkSiblings N (db.view.cidrsOf input.blockId) cidr with
        | error e => rfl
        | ok _ => exact congrArg Except.ok (view_append db _)

theorem view_find (db : Db) (id : Nat) :
    db.view.subnets.find? (·.id = id) = (db.subnets.find id).map fun r => ⟨r.id, r.data.toSubnetData⟩ := by
  rw [Db.view, Table.find, List.find?_map]
  rfl

theorem view_deleteSubnet (db : Db) (id activeCount : Nat) :
    (deleteSubnet db id activeCount).map Db.view = SubnetService.deleteSubnet db.view id activeCount := by
  rw [deleteSubnet, SubnetService.deleteSubnet, view_find]
  cases db.subnets.find id with
  | none => rfl
  | some s =>
    dsimp only [Option.map_some]
    split
    · rfl
    · simp only [Except.map, Db.view, Table.deleteWhere, List.filter_map]
      congr 3
      simp [Function.comp_def]

end View

section Plan

/-- Any two live subnets of a block have disjoint address sets. -/
def Disjoint (N : Package) (db : Db) : Prop :=
  ∀ a ∈ db.subnets.rows, ∀ b ∈ db.subnets.rows, a.id ≠ b.id → a.data.blockId = b.data.blockId →
    a.data.live = true → b.data.live = true → Apart N a.data.cidr b.data.cidr

/-- An address has one answer among the live subnets of a block. -/
def OneAnswer (N : Package) (db : Db) : Prop :=
  ∀ ip, ∀ a ∈ db.subnets.rows, ∀ b ∈ db.subnets.rows, a.data.blockId = b.data.blockId →
    a.data.live = true → b.data.live = true → ipInCidr N ip a.data.cidr = true →
      ipInCidr N ip b.data.cidr = true → a = b

structure LivePlan (N : Package) (db : Db) : Prop where
  disjoint : Disjoint N db
  oneAnswer : OneAnswer N db

variable {N : Package} {db db' : Db}

theorem ipInCidr_mem {ip cidr : String} (h : ipInCidr N ip cidr = true) :
    ∃ c x, N.parse cidr = some c ∧ N.ip2long ip = some x ∧ x ∈ c.addrs := by
  unfold ipInCidr at h
  split at h
  next c hc =>
    rw [Netmask.contains] at h
    cases hx : N.ip2long ip with
    | none =>
      rw [hx] at h
      cases h
    | some x =>
      rw [hx] at h
      refine ⟨c, x, hc, rfl, ?_⟩
      rw [Netmask.Cidr.addrs, Lib.PrefixBlock.mem_block_iff_clear c.netLong_dvd]
      simpa using h
  next => cases h

theorem Disjoint.livePlan (h : Disjoint N db) : LivePlan N db := by
  refine ⟨h, fun ip a ha b hb hblock hla hlb hia hib => ?_⟩
  by_contra hne
  obtain ⟨ca, x, hca, hx, hxa⟩ := ipInCidr_mem hia
  obtain ⟨cb, y, hcb, hy, hyb⟩ := ipInCidr_mem hib
  cases hx.symm.trans hy
  have hid : a.id ≠ b.id := fun hid => hne (Table.eq_of_id ha hb hid)
  exact Set.disjoint_left.mp (h a ha b hb hid hblock hla hlb ca cb hca hcb) hxa hyb

theorem Disjoint.append {subnet : Subnet} (h : Disjoint N db)
    (hnew : ∀ r ∈ db.subnets.rows, r.data.blockId = subnet.blockId → r.data.live = true →
      cidrOverlaps N r.data.cidr subnet.cidr = false) :
    Disjoint N { db with subnets := db.subnets.append subnet } := by
  intro a ha b hb hid hblock hla hlb
  rw [(Table.append_rows db.subnets subnet).1] at ha hb
  obtain ha | ha := List.mem_append.mp ha
  · obtain hb | hb := List.mem_append.mp hb
    · exact h a ha b hb hid hblock hla hlb
    · obtain rfl := List.mem_singleton.mp hb
      exact apart_of_not_overlaps (hnew a ha hblock hla)
  · obtain rfl := List.mem_singleton.mp ha
    obtain hb | hb := List.mem_append.mp hb
    · exact (apart_of_not_overlaps (hnew b hb hblock.symm hlb)).symm
    · obtain rfl := List.mem_singleton.mp hb
      exact absurd rfl hid

theorem Disjoint.amendWhere {p : Row Subnet → Bool} {f : Subnet → Subnet} (h : Disjoint N db)
    (hf : ∀ s, (f s).blockId = s.blockId ∧ (f s).cidr = s.cidr)
    (hlive : ∀ r ∈ db.subnets.rows, p r = true → (f r.data).live = true → r.data.live = true) :
    Disjoint N { db with subnets := db.subnets.amendWhere p f } := by
  have hkept : ∀ r ∈ db.subnets.rows, (amend p f r).data.blockId = r.data.blockId ∧
      (amend p f r).data.cidr = r.data.cidr ∧ ((amend p f r).data.live = true → r.data.live = true) := by
    intro r hr
    cases hp : p r with
    | false =>
      rw [amend_of_neg hp]
      exact ⟨rfl, rfl, fun hl => hl⟩
    | true =>
      rw [amend_of_pos hp]
      exact ⟨(hf r.data).1, (hf r.data).2, hlive r hr hp⟩
  intro a ha b hb hid hblock hla hlb
  rw [(Table.amendWhere_rows db.subnets p f).1] at ha hb
  obtain ⟨r, hr, rfl⟩ := List.mem_map.mp ha
  obtain ⟨q, hq, rfl⟩ := List.mem_map.mp hb
  obtain ⟨hbr, hcr, hlr⟩ := hkept r hr
  obtain ⟨hbq, hcq, hlq⟩ := hkept q hq
  rw [amend_id, amend_id] at hid
  rw [hbr, hbq] at hblock
  rw [hcr, hcq]
  exact h r hr q hq hid hblock (hlr hla) (hlq hlb)

theorem Disjoint.deleteWhere (h : Disjoint N db) (p : Row Subnet → Bool) :
    Disjoint N { db with subnets := db.subnets.deleteWhere p } :=
  fun a ha b hb => h a (Table.mem_deleteWhere.mp ha).1 b (Table.mem_deleteWhere.mp hb).1

end Plan

section Steps

variable {N : Package} {db db' : Db} {c : Source} {refused : String → Bool} {lost : SubnetUpdate → Bool}

theorem Disjoint.createSubnet {input : CreateSubnetInput} (h : Disjoint N db)
    (hok : createSubnet N db input = .ok db') : Disjoint N db' := by
  obtain ⟨cidr, -, hok⟩ := bind_ok hok
  obtain ⟨block, -, hok⟩ := bind_ok hok
  obtain ⟨⟨⟩, -, hok⟩ := bind_ok hok
  obtain ⟨⟨⟩, hsib, hok⟩ := bind_ok hok
  cases hok
  refine h.append fun r hr hblock _ => ?_
  unfold checkSiblings SubnetService.Reading.checkSiblings at hsib
  split at hsib
  next => cases hsib
  next hnone =>
    have hmem : r.data.cidr ∈ db.view.cidrsOf input.blockId :=
      List.mem_map.mpr ⟨⟨r.id, r.data.toSubnetData⟩,
        List.mem_filter.mpr ⟨List.mem_map_of_mem hr, decide_eq_true hblock⟩, rfl⟩
    exact Bool.eq_false_iff.mpr (List.find?_eq_none.mp hnone _ hmem)

theorem Disjoint.deleteSubnet {id activeCount : Nat} (h : Disjoint N db)
    (hok : deleteSubnet db id activeCount = .ok db') : Disjoint N db' := by
  unfold SubnetDiscovery.deleteSubnet at hok
  split at hok
  next => cases hok
  next =>
    split at hok
    next => cases hok
    next =>
      cases hok
      exact h.deleteWhere _

/-- Through the loop of Phase 1 the memory shows the store, and what waits to
be updated is live. -/
structure Phase1.Sound (N : Package) (p : Phase1) : Prop where
  disjoint : Disjoint N p.db
  memory : p.allSubnets = p.db.subnets.rows
  updates : ∀ u ∈ p.subnetUpdates, ∀ r ∈ p.db.subnets.rows, r.id = u.id → r.data.live = true

theorem Phase1.Sound.skip {p : Phase1} (h : p.Sound N) (note : String) : (p.skip note).Sound N :=
  ⟨h.disjoint, h.memory, h.updates⟩

theorem mem_subnetByCidr {rows : List (Row Subnet)} {cidr : String} {r : Row Subnet}
    (h : subnetByCidr rows cidr = some r) : r ∈ rows ∧ r.data.live = true := by
  have hp := List.find?_some h
  rw [Bool.and_eq_true] at hp
  exact ⟨List.mem_reverse.mp (List.mem_of_find?_eq_some h), hp.1⟩

theorem Phase1.Sound.entry {p : Phase1} (h : p.Sound N) (entry : DiscoveredSubnet) :
    (phase1Entry N c refused p entry).Sound N := by
  unfold phase1Entry
  split
  next => exact h.skip _
  next cidr _ =>
    split
    next existing hexisting =>
      obtain ⟨hmem, hlive⟩ := mem_subnetByCidr hexisting
      rw [h.memory] at hmem
      refine ⟨h.disjoint, h.memory, fun u hu r hr hid => ?_⟩
      obtain hu | hu := List.mem_append.mp hu
      · exact h.updates u hu r hr hid
      · obtain rfl := List.mem_singleton.mp hu
        rw [Table.eq_of_id hr hmem hid]
        exact hlive
    next =>
      split
      next => exact h.skip _
      next block _ =>
        split
        next => exact h.skip _
        next hnone =>
          split
          next => exact h.skip _
          next =>
            obtain ⟨hrows, -⟩ := Table.append_rows p.db.subnets (c.newSubnet block cidr entry)
            refine ⟨h.disjoint.append fun r hr hblock hlive => ?_, ?_, fun u hu r hr hid => ?_⟩
            · have hid : r.data.blockId = block.id := hblock
              have hsib : r ∈ siblingsByBlockId p.allSubnets block.id := by
                rw [h.memory]
                refine List.mem_filter.mpr ⟨hr, ?_⟩
                rw [hlive, decide_eq_true hid]
                rfl
              change cidrOverlaps N r.data.cidr cidr = false
              simpa using List.find?_eq_none.mp hnone r hsib
            · change p.allSubnets ++ _ = _
              rw [h.memory]
              exact hrows.symm
            · obtain hr | hr := List.mem_append.mp (hrows ▸ hr)
              · exact h.updates u hu r hr hid
              · obtain rfl := List.mem_singleton.mp hr
                rfl

theorem Phase1.Sound.foldl {p : Phase1} (h : p.Sound N) (entries : List DiscoveredSubnet) :
    (entries.foldl (phase1Entry N c refused) p).Sound N := by
  induction entries generalizing p with
  | nil => exact h
  | cons entry entries ih => exact ih (h.entry entry)

theorem live_writeUpdate {id : Nat} {u : SubnetUpdate} (h : ∀ r ∈ db.subnets.rows, r.id = id →
    r.data.live = true) :
    ∀ r ∈ (c.writeUpdate lost db u).subnets.rows, r.id = id → r.data.live = true := by
  unfold Source.writeUpdate
  split
  next => exact h
  next =>
    intro r hr hid
    obtain ⟨q, hq, rfl⟩ := List.mem_map.mp ((Table.amendWhere_rows db.subnets _ _).1 ▸ hr)
    rw [amend_id] at hid
    have hlive := h q hq hid
    cases hp : decide (q.id = u.id) with
    | false =>
      rw [amend_of_neg (p := fun r => decide (r.id = u.id)) hp]
      exact hlive
    | true =>
      rw [amend_of_pos (p := fun r => decide (r.id = u.id)) hp, Subnet.live, Source.applyUpdate]
      dsimp only
      split
      · rfl
      · exact hlive

theorem Disjoint.writeUpdate {u : SubnetUpdate} (h : Disjoint N db)
    (hlive : ∀ r ∈ db.subnets.rows, r.id = u.id → r.data.live = true) :
    Disjoint N (c.writeUpdate lost db u) := by
  unfold Source.writeUpdate
  split
  next => exact h
  next => exact h.amendWhere (fun _ => ⟨rfl, rfl⟩) fun r hr hp _ => hlive r hr (by simpa using hp)

theorem Disjoint.writeUpdates {updates : List SubnetUpdate} (h : Disjoint N db)
    (hlive : ∀ u ∈ updates, ∀ r ∈ db.subnets.rows, r.id = u.id → r.data.live = true) :
    Disjoint N (updates.foldl (c.writeUpdate lost) db) := by
  induction updates generalizing db with
  | nil => exact h
  | cons u updates ih =>
    exact ih (h.writeUpdate (hlive u List.mem_cons_self)) fun v hv =>
      live_writeUpdate (hlive v (List.mem_cons_of_mem u hv))

theorem Disjoint.phase1 (h : Disjoint N db) (subnets : List DiscoveredSubnet) :
    Disjoint N (phase1 N c refused lost subnets db).db := by
  have hstart : Phase1.Sound N { db := db, allSubnets := db.subnets.rows } :=
    ⟨h, rfl, fun u hu => absurd hu List.not_mem_nil⟩
  have hsound : Phase1.Sound N (subnets.foldl (phase1Entry N c refused) _) := hstart.foldl subnets
  exact hsound.disjoint.writeUpdates hsound.updates

theorem Disjoint.phase2 {p : Phase1} (h : Disjoint N p.db) (known : List String) :
    Disjoint N (phase2 c known p) := by
  unfold SubnetDiscovery.phase2
  dsimp only
  split
  next => exact h
  next => exact h.amendWhere (fun _ => ⟨rfl, rfl⟩) fun _ _ _ hlive => nomatch hlive

theorem Disjoint.sync (h : Disjoint N db) (mode : SyncMode) (result : DiscoveryResult) :
    Disjoint N (syncDhcpSubnets N c mode refused lost result db) := by
  unfold syncDhcpSubnets
  dsimp only
  have hphase1 : Disjoint N (if mode = .full ∨ mode = .skipDeprecation then
      SubnetDiscovery.phase1 N c refused lost result.subnets db
        else { db := db, allSubnets := db.subnets.rows }).db := by
    split
    next => exact h.phase1 result.subnets
    next => exact h
  split
  next => exact hphase1
  next => exact hphase1.phase2 result.known

end Steps

section Claims

variable {N : Package} {db db' : Db}

/-- A status edit that brings a deprecated subnet back. -/
def Revives (input : UpdateSubnetInput) (s : Subnet) : Prop := s.live = false ∧ (input.apply s).live = true

/-- A subnet is brought back only beside live subnets it does not overlap. -/
def Clear (N : Package) (db : Db) : Op → Prop
  | .updateSubnet id input =>
    ∀ r ∈ db.subnets.rows, r.id = id → Revives input r.data →
      ∀ b ∈ db.subnets.rows, b.data.blockId = r.data.blockId → b.data.live = true →
        cidrOverlaps N r.data.cidr b.data.cidr = false
  | _ => True

theorem apart_iff {s t : String} : Apart N s t ↔ cidrOverlaps N s t = false := by
  refine ⟨fun h => ?_, apart_of_not_overlaps⟩
  cases hs : N.parse s with
  | none =>
    refine Bool.eq_false_iff.mpr fun h => ?_
    obtain ⟨_, _, hread, -⟩ := cidrOverlaps_read h
    cases hs.symm.trans hread
  | some cs =>
    cases ht : N.parse t with
    | none =>
      refine Bool.eq_false_iff.mpr fun h => ?_
      obtain ⟨_, _, -, hread⟩ := cidrOverlaps_read h
      cases ht.symm.trans hread
    | some ct => exact not_overlaps_of_disjoint hs ht (h cs ct hs ht)

theorem disjoint_updateSubnet {id : Nat} {input : UpdateSubnetInput} (h : Disjoint N db)
    (hok : updateSubnet db id input = .ok db') : Disjoint N db' ↔ Clear N db (.updateSubnet id input) := by
  unfold updateSubnet at hok
  split at hok
  next => cases hok
  next =>
    cases hok
    obtain ⟨hrows, -⟩ := Table.amendWhere_rows db.subnets (·.id = id) input.apply
    constructor
    · intro hdisjoint r hr hid hrevives b hb hblock hlive
      subst hid
      have hne : b.id ≠ r.id := by
        intro hid
        rw [Table.eq_of_id hb hr hid, hrevives.1] at hlive
        cases hlive
      have hr' : (⟨r.id, input.apply r.data⟩ : Row Subnet) ∈
        (db.subnets.amendWhere (·.id = r.id) input.apply).rows := by
        rw [hrows, Table.mem_map_amend hr]
        exact .inr rfl
      have hb' : b ∈ (db.subnets.amendWhere (·.id = r.id) input.apply).rows := by
        rw [hrows, Table.mem_map_amend hr]
        exact .inl ⟨hb, fun heq => hne (congrArg Row.id heq)⟩
      exact apart_iff.mp (hdisjoint _ hr' b hb' hne.symm hblock.symm hrevives.2 hlive)
    · intro hclear
      have hkept : ∀ x ∈ db.subnets.rows, (amend (·.id = id) input.apply x).data.blockId = x.data.blockId ∧
          (amend (·.id = id) input.apply x).data.cidr = x.data.cidr := by
        intro x _
        unfold amend
        split <;> exact ⟨rfl, rfl⟩
      have hback : ∀ x ∈ db.subnets.rows, (amend (·.id = id) input.apply x).data.live = true →
          x.data.live = true ∨ x.id = id ∧ Revives input x.data := by
        intro x _ hl
        cases hx : x.data.live with
        | true => exact .inl rfl
        | false =>
          refine .inr ?_
          unfold amend at hl
          split at hl
          next hp => exact ⟨by simpa using hp, hx, hl⟩
          next =>
            rw [hx] at hl
            cases hl
      intro a ha b hb hid hblock hla hlb
      rw [hrows] at ha hb
      obtain ⟨x, hx, rfl⟩ := List.mem_map.mp ha
      obtain ⟨y, hy, rfl⟩ := List.mem_map.mp hb
      rw [amend_id, amend_id] at hid
      rw [(hkept x hx).1, (hkept y hy).1] at hblock
      rw [(hkept x hx).2, (hkept y hy).2]
      obtain hlx | ⟨hxid, hrx⟩ := hback x hx hla
      · obtain hly | ⟨hyid, hry⟩ := hback y hy hlb
        · exact h x hx y hy hid hblock hlx hly
        · exact (apart_iff.mpr (hclear y hy hyid hry x hx hblock hlx)).symm
      · obtain hly | ⟨hyid, -⟩ := hback y hy hlb
        · exact apart_iff.mpr (hclear x hx hxid hrx y hy hblock.symm hly)
        · exact absurd (hxid.trans hyid.symm) hid

theorem updateSubnet_missing {id : Nat} {input : UpdateSubnetInput} {e : Failure}
    (he : updateSubnet db id input = .error e) : Clear N db (.updateSubnet id input) := by
  intro r hr hid
  unfold updateSubnet at he
  rw [← hid, Table.find_of_mem hr] at he
  cases he

theorem disjoint_step (h : Disjoint N db) (op : Op) : Disjoint N (step N db op) ↔ Clear N db op := by
  cases hexec : op.exec N db with
  | error e =>
    simp only [step, hexec]
    refine ⟨fun _ => ?_, fun _ => h⟩
    cases op with
    | updateSubnet id input => exact updateSubnet_missing hexec
    | createSubnet | deleteSubnet | sync => trivial
  | ok db' =>
    simp only [step, hexec]
    cases op with
    | createSubnet input => exact iff_of_true (h.createSubnet hexec) trivial
    | deleteSubnet id activeCount => exact iff_of_true (h.deleteSubnet hexec) trivial
    | updateSubnet id input => exact disjoint_updateSubnet h hexec
    | sync c mode refused lost result =>
      cases hexec
      exact iff_of_true (h.sync mode result) trivial

theorem livePlan_iff : LivePlan N db ↔ Disjoint N db := ⟨LivePlan.disjoint, Disjoint.livePlan⟩

/-- The live subnets of every block stay disjoint through a run just when no
status edit of it brings an overlapping subnet back. -/
theorem live_subnets_stay_disjoint (N : Package) (db : Db) (h : LivePlan N db) (ops : List Op) :
    (∀ k, LivePlan N ((ops.take k).foldl (step N) db)) ↔ Along (step N) (Clear N) db ops := by
  refine along_iff_reached (fun db op h => ?_) h
  rw [livePlan_iff, disjoint_step h.disjoint]

def siteDb : Db := ⟨[⟨"b", "10.0.0.0/16", .v4⟩], Table.empty _⟩

def fortiManager : Source := { integrationId := "fmg", integrationType := "fortimanager" }

def siteSync (cidr device : String) : Op :=
  .sync fortiManager .skipDeprecation (fun _ => false) (fun _ => false)
    { subnets := [⟨cidr, "lan", device, none⟩] }

/-- The subnet of fg1 found and deprecated, that of fg2 found, and the first
set back to available. -/
def siteRun (second : String) : List Op :=
  [siteSync "10.0.1.0/24" "fg1",
    .sync fortiManager .finalize (fun _ => false) (fun _ => false) { knownDeviceNames := ["fg2"] },
    siteSync second "fg2", .updateSubnet 0 { status := some .available }]

theorem site_plan : LivePlan Netmask.reference siteDb := livePlan_iff.mpr fun _ ha =>
    absurd ha List.not_mem_nil

theorem live_subnets_stay_disjoint_site :
    LivePlan Netmask.reference ((siteRun "10.0.2.0/23").foldl (step Netmask.reference) siteDb) := by
  refine (live_subnets_stay_disjoint Netmask.reference siteDb site_plan (siteRun "10.0.2.0/23")).mpr
    ⟨trivial, trivial, trivial, ?_, trivial⟩ 4
  dsimp only [Clear, Revives]
  decide +kernel

/-- Discovery creates over a deprecated subnet, which then comes back. -/
theorem revived_subnet_overlaps :
    ¬ Disjoint Netmask.reference ((siteRun "10.0.0.0/23").foldl (step Netmask.reference) siteDb) := by
  intro h
  let db := (siteRun "10.0.0.0/23").foldl (step Netmask.reference) siteDb
  have hrows : ∃ a ∈ db.subnets.rows, ∃ b ∈ db.subnets.rows, a.id ≠ b.id ∧ a.data.blockId = b.data.blockId ∧
      a.data.live = true ∧ b.data.live = true ∧
        cidrOverlaps Netmask.reference a.data.cidr b.data.cidr = true := by
    decide +kernel
  obtain ⟨a, ha, b, hb, hid, hblock, hla, hlb, hover⟩ := hrows
  rw [apart_iff.mp (h a ha b hb hid hblock hla hlb)] at hover
  cases hover

end Claims

end Polaris.SubnetDiscovery
