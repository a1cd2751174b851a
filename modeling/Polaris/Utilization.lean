import Mathlib.Data.List.Sort
import Mathlib.Data.Rat.Floor
import Polaris.CidrValidation
import Polaris.Lib.Aggregates
import Polaris.Lib.Packing
import Polaris.ReservationService
import Polaris.SubnetRuns

namespace Polaris.Utilization

open Polaris.Lib.Text Polaris.Lib.Checks Polaris.Lib.Runs Polaris.Lib.Store Polaris.Netmask Polaris.Cidr
open Polaris.CidrPlacement Polaris.SubnetService Polaris.Reservations Polaris.ReservationService
open Polaris.ReservationPush (PushFaults)
open Polaris.CidrValidation (colon_not_mem_dottedQuad)

section Tables

/-- The tables of the address plan and those of the reservations. The columns
of a subnet that reservations read and write lie with the latter. -/
structure Site where
  plan : SubnetService.Db
  world : World

def subnetKey (id : Nat) : String := toString id

def Site.rows (s : Site) : List (Row Reservation) := s.world.db.rows

def Site.subnetsOf (s : Site) (blockId : String) : List SubnetService.Subnet :=
  s.plan.subnets.filter (·.data.blockId = blockId)

def Site.status (s : Site) (x : SubnetService.Subnet) : SubnetStatus :=
  (s.world.db.findSubnet (subnetKey x.id)).elim x.data.status (·.status)

def Site.discoveredBy (s : Site) (x : SubnetService.Subnet) : Option String :=
  (s.world.db.findSubnet (subnetKey x.id)).bind (·.discoveredBy)

def activeRows (s : Site) : List (Row Reservation) := s.rows.filter (·.data.status = .active)

end Tables

section Global

structure RecentReservation where
  id : Nat
  subnetCidr : String
  subnetName : String
  subnetPurpose : Option String
  vlan : Option Nat
  ipAddress : Option String
  owner : Option String
  projectRef : Option String
  expiresAt : Option Nat

structure BlockUtilizationSummary where
  id : String
  cidr : String
  totalSubnets : Nat
  availableSubnets : Nat
  discoveredSubnets : Nat
  reservedSubnets : Nat
  deprecatedSubnets : Nat
  blockAddresses : Option ℚ
  allocatedAddresses : Option ℚ
  usedPercent : Option Int

structure GlobalUtilization where
  totalBlocks : Nat
  totalSubnets : Nat
  subnetsByStatus : SubnetStatus → Nat
  totalActiveReservations : Nat
  recentReservations : List RecentReservation
  blockUtilization : List BlockUtilizationSummary

def maxSafeInteger : ℚ := 2 ^ 53 - 1

/-- Nothing stands for a number that is none. -/
def cidrAddressCount (cidr : String) : Option ℚ :=
  (((split '/' cidr)[1]?).bind parseInt).map fun p =>
    if ':' ∈ cidr.toList then
      if 53 ≤ 128 - p then maxSafeInteger else (2 : ℚ) ^ (128 - p)
    else (2 : ℚ) ^ (32 - p)

def addCount (sum : Option ℚ) (x : SubnetService.Subnet) : Option ℚ :=
  sum.bind fun sum => (cidrAddressCount x.data.cidr).map fun count => sum + count

def percent (allocated block : ℚ) : Int := if block = 0 then 0 else ⌊allocated / block * 100 + 1 / 2⌋

def summarize (s : Site) (block : IpBlock) : BlockUtilizationSummary :=
  let subnets := s.subnetsOf block.id
  let available := subnets.filter (s.status · = .available)
  let allocated := (subnets.filter (s.status · ≠ .deprecated)).foldl addCount (some 0)
  { id := block.id
    cidr := block.cidr
    totalSubnets := subnets.length
    availableSubnets := (available.filter (s.discoveredBy · = none)).length
    discoveredSubnets := (available.filter (s.discoveredBy · ≠ none)).length
    reservedSubnets := (subnets.filter (s.status · = .reserved)).length
    deprecatedSubnets := (subnets.filter (s.status · = .deprecated)).length
    blockAddresses := cidrAddressCount block.cidr
    allocatedAddresses := allocated
    usedPercent := (cidrAddressCount block.cidr).bind fun b => allocated.map fun a => percent a b }

def recent (s : Site) : List RecentReservation :=
  ((activeRows s).mergeSort (fun a b => decide (b.id ≤ a.id)) |>.take 10).filterMap fun r =>
    (s.plan.subnets.find? (subnetKey ·.id = r.data.subnetId)).map fun x =>
      { id := r.id, subnetCidr := x.data.cidr, subnetName := x.data.name, subnetPurpose := x.data.purpose,
        vlan := x.data.vlan, ipAddress := r.data.ipAddress, owner := r.data.owner,
        projectRef := r.data.projectRef, expiresAt := r.data.expiresAt }

def getGlobalUtilization (s : Site) : GlobalUtilization where
  totalBlocks := s.plan.blocks.length
  totalSubnets := s.plan.subnets.length
  subnetsByStatus := fun status => (s.plan.subnets.filter (s.status · = status)).length
  totalActiveReservations := (activeRows s).length
  recentReservations := recent s
  blockUtilization := (s.plan.blocks.insertionSort (·.cidr ≤ ·.cidr)).map (summarize s)

end Global

section Block

structure SubnetUtilization where
  id : Nat
  cidr : String
  name : String
  purpose : Option String
  vlan : Option Nat
  status : SubnetStatus
  tags : List String
  usableHosts : Nat
  activeReservations : Nat

variable (N : Package)

def usableHostCount (cidr : String) : Except Failure Nat :=
  match N.parse cidr with
  | none => .error (.thrown "Invalid net address")
  | some c => .ok (if c.bitmask = 32 then 1 else if c.bitmask = 31 then 2 else c.size - 2)

def reservationCount (s : Site) (x : SubnetService.Subnet) : Nat :=
  (s.rows.filter (·.data.subnetId = subnetKey x.id)).length

def subnetUtilization (s : Site) (x : SubnetService.Subnet) : Except Failure SubnetUtilization :=
  (usableHostCount N x.data.cidr).map fun usableHosts =>
    { id := x.id, cidr := x.data.cidr, name := x.data.name, purpose := x.data.purpose, vlan := x.data.vlan,
      status := s.status x, tags := x.data.tags, usableHosts := usableHosts,
      activeReservations := reservationCount s x }

def getBlockUtilization (s : Site) (blockId : String) :
    Except Failure (Option (IpBlock × List SubnetUtilization)) :=
  match s.plan.blocks.find? (·.id = blockId) with
  | none => .ok none
  | some block => do
    let subnets ← ((s.subnetsOf blockId).insertionSort (·.data.cidr ≤ ·.data.cidr)).mapM
      (subnetUtilization N s)
    return some (block, subnets)

def reportedReservations (s : Site) : Except Failure Nat := do
  let reports ← s.plan.blocks.mapM fun b => getBlockUtilization N s b.id
  return (reports.map fun r => ((r.elim [] (·.2)).map (·.activeReservations)).sum).sum

end Block

section Runs

inductive Op
  | createBlock (id cidr : String)
  | createSubnet (input : CreateSubnetInput)
  | deleteSubnet (id : Nat)
  | createReservation (input : CreateReservationInput) (now : Nat) (faults : PushFaults)
  | releaseReservation (id : Nat) (faults : ReleaseFaults)
  | expireStaleReservations (now : Nat)

variable (N : Package)

def createBlock (db : SubnetService.Db) (id cidr : String) : Except Failure SubnetService.Db := do
  let normalizedCidr ← admitCidr N cidr
  if db.blocks.any (·.cidr = normalizedCidr) then
    throw (.app 409 ("IP Block with CIDR " ++ normalizedCidr ++ " already exists"))
  return { db with blocks := db.blocks ++ [⟨id, normalizedCidr, detectIpVersion normalizedCidr⟩] }

def opened (x : SubnetService.Subnet) : Reservations.Subnet :=
  { id := subnetKey x.id, cidr := x.data.cidr, status := x.data.status }

def dropSubnet (w : World) (id : String) : World :=
  { w with db := { w.db.deleteRows (·.data.subnetId = id) with subnets := w.db.subnets.filter (·.id ≠ id) } }

def step (s : Site) : Op → Site
  | .createBlock id cidr =>
    if s.plan.blocks.any (·.id = id) then s
    else
      match createBlock N s.plan id cidr with
      | .error _ => s
      | .ok plan => { s with plan := plan }
  | .createSubnet input =>
    match SubnetService.createSubnet N s.plan input with
    | .error _ => s
    | .ok plan =>
      { plan := plan
        world := { s.world with
          db := { s.world.db with
            subnets := s.world.db.subnets ++ (plan.subnets.drop s.plan.subnets.length).map opened } } }
  | .deleteSubnet id =>
    match SubnetService.deleteSubnet s.plan id
        ((activeRows s).filter (·.data.subnetId = subnetKey id)).length with
    | .error _ => s
    | .ok plan => { plan := plan, world := dropSubnet s.world (subnetKey id) }
  | .createReservation input now faults =>
    { s with world := (ReservationService.createReservation N s.world input now faults).1 }
  | .releaseReservation id faults =>
    { s with world := (ReservationService.releaseReservation s.world id faults).1 }
  | .expireStaleReservations now =>
    { s with world := { s.world with db := (ReservationService.expireStaleReservations s.world.db now).1 } }

def start (w : World) : Site :=
  { plan := ⟨[], [], 0⟩
    world := { w with db := { w.db with subnets := [], reservations := Table.empty uniqueKey } } }

def run (w : World) (ops : List Op) : Site := ops.foldl (step N) (start w)

end Runs

section Counts

variable {N : Package} {s : Site}

theorem subnetKey_injective : Function.Injective subnetKey := by
  intro a b h
  have hdigits : Nat.toDigits 10 a = Nat.toDigits 10 b := by
    have := congrArg String.toList h
    simpa [subnetKey, Nat.repr] using this
  rw [← @Nat.ofDigitChars_ten_toDigits a, ← @Nat.ofDigitChars_ten_toDigits b, hdigits]

theorem exists_mapM {α β ε : Type} {P : α → β → Prop} {f : α → Except ε β} {l : List α}
    (h : ∀ x ∈ l, ∃ y, f x = .ok y ∧ P x y) : ∃ ys, l.mapM f = .ok ys ∧ List.Forall₂ P l ys := by
  induction l with
  | nil => exact ⟨[], rfl, List.Forall₂.nil⟩
  | cons x l ih =>
    obtain ⟨y, hy, hp⟩ := h x List.mem_cons_self
    obtain ⟨ys, hys, hall⟩ := ih fun z hz => h z (List.mem_cons_of_mem _ hz)
    refine ⟨y :: ys, ?_, List.Forall₂.cons hp hall⟩
    rw [List.mapM_cons, hy, hys]
    rfl

theorem usableHostCount_ok {cidr : String} (h : (N.parse cidr).isSome) :
    ∃ n, usableHostCount N cidr = .ok n := by
  obtain ⟨c, hc⟩ := Option.isSome_iff_exists.mp h
  rw [usableHostCount, hc]
  exact ⟨_, rfl⟩

theorem find_of_nodup {blocks : List IpBlock} {b : IpBlock} (h : (blocks.map (·.id)).Nodup)
    (hb : b ∈ blocks) :
    blocks.find? (·.id = b.id) = some b := by
  induction blocks with
  | nil => exact absurd hb List.not_mem_nil
  | cons c blocks ih =>
    rw [List.map_cons, List.nodup_cons] at h
    obtain rfl | hb := List.mem_cons.mp hb
    · exact List.find?_cons_of_pos (decide_eq_true rfl)
    · have hne : c.id ≠ b.id := fun he => h.1 (he ▸ List.mem_map_of_mem hb)
      rw [List.find?_cons_of_neg (by simpa using hne)]
      exact ih h.2 hb

theorem cidrAddressCount_text {n p : Nat} (hp : p ≤ 32) :
    cidrAddressCount (cidrText n p) = some ((2 ^ (32 - p) : Nat) : ℚ) := by
  have hsplit : split '/' (cidrText n p) = [(dottedQuad n).toList, Nat.toDigits 10 p] := by
    have hjoin : cidrText n p = join '/' [(dottedQuad n).toList, Nat.toDigits 10 p] := by
      simp [cidrText, intToIp, join, Nat.repr, String.append_assoc]
    rw [hjoin, split_join '/' _ (by simp)]
    intro q hq
    simp only [List.mem_cons, List.not_mem_nil, or_false] at hq
    obtain rfl | rfl := hq
    · exact slash_not_mem_dottedQuad n
    · exact not_mem_decimal rfl
  have hcolon : ':' ∉ (cidrText n p).toList := by
    rw [cidrText, intToIp, String.toList_append, String.toList_append, List.mem_append, List.mem_append]
    rintro ((h | h) | h)
    · exact colon_not_mem_dottedQuad n h
    · exact absurd h (by decide)
    · have hdigits : (toString p).toList = Nat.toDigits 10 p := by simp [Nat.repr]
      rw [hdigits] at h
      exact not_mem_decimal rfl h
  rw [cidrAddressCount, hsplit]
  simp only [List.getElem?_cons_succ, List.getElem?_cons_zero, Option.bind_some, parseInt_digits,
    Option.map_some,
    hcolon, if_false]
  have hsub : (32 : Int) - p = ((32 - p : Nat) : Int) := by omega
  rw [hsub, zpow_natCast]
  push_cast
  rfl

theorem foldl_addCount {xs : List SubnetService.Subnet} {bits : SubnetService.Subnet → Nat}
    (h : ∀ x ∈ xs, cidrAddressCount x.data.cidr = some ((2 ^ bits x : Nat) : ℚ)) (q : ℚ) :
    xs.foldl addCount (some q) = some (q + ((xs.map fun x => 2 ^ bits x).sum : Nat)) := by
  induction xs generalizing q with
  | nil => simp
  | cons x xs ih =>
    rw [List.foldl_cons, addCount, h x List.mem_cons_self, Option.bind_some, Option.map_some,
      ih fun y hy => h y (List.mem_cons_of_mem _ hy), List.map_cons, List.sum_cons]
    push_cast
    rw [add_assoc]

theorem percent_le {a b : ℚ} (ha : 0 ≤ a) (hab : a ≤ b) (hb : 0 < b) :
    0 ≤ percent a b ∧ percent a b ≤ 100 := by
  rw [percent, if_neg hb.ne']
  have hratio : a / b ≤ 1 := (div_le_one hb).mpr hab
  have hzero : 0 ≤ a / b := div_nonneg ha hb.le
  constructor
  · refine Int.floor_nonneg.mpr ?_
    linarith
  · have hlt : ⌊a / b * 100 + 1 / 2⌋ < 101 := by
      refine Int.floor_lt.mpr ?_
      push_cast
      linarith
    omega

end Counts

section Sane

/-- The block's subnets form an address plan, and its own text is normalized. -/
def Blocked (N : Package) (plan : SubnetService.Db) (b : IpBlock) : Prop :=
  ∃ parent, N.parse b.cidr = some parent ∧ b.cidr = cidrText parent.netLong parent.bitmask ∧
    Placed N parent (plan.cidrsOf b.id)

/-- Every row has its subnet and every subnet its block, and ids are not
used twice. -/
structure Sane (N : Package) (s : Site) : Prop where
  blockIds : (s.plan.blocks.map (·.id)).Nodup
  blocks : ∀ b ∈ s.plan.blocks, Blocked N s.plan b
  subnetIds : (s.plan.subnets.map (·.id)).Nodup
  fresh : ∀ x ∈ s.plan.subnets, x.id < s.plan.nextId
  parents : ∀ x ∈ s.plan.subnets, x.data.blockId ∈ s.plan.blocks.map (·.id)
  columns : s.world.db.subnets.map (·.id) = s.plan.subnets.map (subnetKey ·.id)
  rows : ∀ r ∈ s.rows, r.data.subnetId ∈ s.world.db.subnets.map (·.id)

variable {N : Package} {s : Site}

theorem Sane.parse (h : Sane N s) {x : SubnetService.Subnet} (hx : x ∈ s.plan.subnets) :
    ∃ b ∈ s.plan.blocks, ∃ parent, b.id = x.data.blockId ∧ N.parse b.cidr = some parent ∧
      Inside N parent x.data.cidr := by
  obtain ⟨b, hb, hid⟩ := List.mem_map.mp (h.parents x hx)
  obtain ⟨parent, hparent, -, hplaced⟩ := h.blocks b hb
  refine ⟨b, hb, parent, hid, hparent, hplaced.1 _ (List.mem_map_of_mem (List.mem_filter.mpr ⟨hx, ?_⟩))⟩
  exact decide_eq_true hid.symm

theorem Sane.subnetUtilization (h : Sane N s) {x : SubnetService.Subnet} (hx : x ∈ s.plan.subnets) :
    ∃ u, subnetUtilization N s x = .ok u ∧ u.activeReservations = reservationCount s x := by
  obtain ⟨b, -, parent, -, -, c, hc, -⟩ := h.parse hx
  obtain ⟨n, hn⟩ := @usableHostCount_ok N x.data.cidr (by rw [hc]; rfl)
  rw [Utilization.subnetUtilization, hn]
  exact ⟨_, rfl, rfl⟩

theorem reservationCount_sum (h : Sane N s) :
    (s.plan.subnets.map (reservationCount s)).sum = s.rows.length := by
  have hnodup : (s.plan.subnets.map (subnetKey ·.id)).Nodup := by
    have := h.subnetIds.map subnetKey_injective
    rwa [List.map_map] at this
  have hparts : ((s.plan.subnets.map (subnetKey ·.id)).map fun k =>
      ((Lib.Rollup.group (fun r : Row Reservation => r.data.subnetId) k s.rows).map fun _ => 1).sum).sum =
      (s.rows.map fun _ => 1).sum :=
    Lib.Aggregates.sum_parts hnodup (fun r hr => h.columns ▸ h.rows r hr) fun _ => 1
  simp only [List.map_map, Function.comp_def, Lib.Rollup.group, List.map_const', List.sum_replicate,
    smul_eq_mul,
    mul_one] at hparts
  exact hparts

theorem getBlockUtilization_ok (h : Sane N s) {b : IpBlock} (hb : b ∈ s.plan.blocks) :
    ∃ r, getBlockUtilization N s b.id = .ok r ∧
      ((r.elim [] (·.2)).map (·.activeReservations)).sum =
        ((s.subnetsOf b.id).map (reservationCount s)).sum := by
  have hfind : s.plan.blocks.find? (·.id = b.id) = some b := find_of_nodup h.blockIds hb
  have hperm := List.perm_insertionSort
    (fun x y : SubnetService.Subnet => x.data.cidr ≤ y.data.cidr) (s.subnetsOf b.id)
  have hmem : ∀ x ∈ (s.subnetsOf b.id).insertionSort (·.data.cidr ≤ ·.data.cidr), x ∈ s.plan.subnets :=
    fun x hx =>
    (List.mem_filter.mp (hperm.mem_iff.mp hx)).1
  obtain ⟨us, hus, hall⟩ := exists_mapM fun x hx => h.subnetUtilization (hmem x hx)
  refine ⟨some (b, us), ?_, ?_⟩
  · rw [getBlockUtilization, hfind]
    exact (congrArg (· >>= _) hus).trans rfl
  · refine Eq.trans ?_ (hperm.map (reservationCount s)).sum_eq
    exact congrArg List.sum (forall₂_map_eq hall fun _ _ _ he => he)

theorem reportedReservations_eq (h : Sane N s) : reportedReservations N s = .ok s.rows.length := by
  obtain ⟨reports, hreports, hall⟩ := exists_mapM fun b hb => getBlockUtilization_ok h hb
  have hparts : ((s.plan.blocks.map (·.id)).map fun k =>
      ((Lib.Rollup.group (fun x : SubnetService.Subnet => x.data.blockId) k s.plan.subnets).map
        (reservationCount s)).sum).sum = (s.plan.subnets.map (reservationCount s)).sum :=
    Lib.Aggregates.sum_parts h.blockIds h.parents (reservationCount s)
  rw [reservationCount_sum h, List.map_map] at hparts
  rw [reportedReservations, hreports]
  refine congrArg Except.ok (Eq.trans ?_ hparts)
  exact congrArg List.sum (forall₂_map_eq hall fun _ _ _ he => he)

def extent (N : Package) (x : SubnetService.Subnet) : Nat × Nat :=
  (N.parse x.data.cidr).elim (0, 0) fun c => (32 - c.bitmask, c.netLong)

theorem extent_inside {parent : Netmask.Cidr} {x : SubnetService.Subnet} (h : Inside N parent x.data.cidr) :
    cidrAddressCount x.data.cidr = some ((2 ^ (extent N x).1 : Nat) : ℚ) ∧
      Lib.PrefixBlock.block (extent N x).1 (extent N x).2 ⊆ parent.addrs := by
  obtain ⟨c, hc, -, hnormal, hsub⟩ := h
  have htext : cidrText c.netLong c.bitmask = x.data.cidr :=
    Except.ok.inj ((normalizeCidr_of_parse hc).symm.trans hnormal)
  rw [extent, hc]
  refine ⟨?_, hsub⟩
  rw [← htext]
  exact cidrAddressCount_text c.bitmask_le

theorem usedPercent_le (h : Sane N s) {b : IpBlock} (hb : b ∈ s.plan.blocks) :
    ∃ p, (summarize s b).usedPercent = some p ∧ 0 ≤ p ∧ p ≤ 100 := by
  obtain ⟨parent, hparse, htext, hin, hapart⟩ := h.blocks b hb
  let xs := (s.subnetsOf b.id).filter (s.status · ≠ .deprecated)
  have hxs : ∀ x ∈ xs, Inside N parent x.data.cidr := fun x hx =>
    hin _ (List.mem_map_of_mem (List.mem_filter.mp hx).1)
  have hpair : xs.Pairwise fun x y => Apart N x.data.cidr y.data.cidr :=
    (List.pairwise_map.mp hapart).sublist List.filter_sublist
  have hallocated := foldl_addCount (fun x hx => (extent_inside (hxs x hx)).1) 0
  have hsum : (xs.map fun x => 2 ^ (extent N x).1).sum ≤ 2 ^ (32 - parent.bitmask) := by
    have hle := @Lib.Packing.sum_blocks_le (32 - parent.bitmask) parent.netLong (xs.map (extent N)) ?_ ?_
    · rwa [List.map_map] at hle
    · intro e he
      obtain ⟨x, hx, rfl⟩ := List.mem_map.mp he
      exact (extent_inside (hxs x hx)).2
    · refine List.pairwise_map.mpr ?_
      refine hpair.imp_of_mem fun {x y} hx hy h => ?_
      obtain ⟨c, hc, -⟩ := hxs x hx
      obtain ⟨d, hd, -⟩ := hxs y hy
      rw [extent, extent, hc, hd]
      exact h c d hc hd
  have hblock : cidrAddressCount b.cidr = some ((2 ^ (32 - parent.bitmask) : Nat) : ℚ) := by
    rw [htext]
    exact cidrAddressCount_text parent.bitmask_le
  refine ⟨percent (0 + ((xs.map fun x => 2 ^ (extent N x).1).sum : Nat))
    ((2 ^ (32 - parent.bitmask) : Nat) : ℚ),
    ?_, ?_⟩
  · rw [summarize]
    dsimp only
    rw [hblock, hallocated]
    rfl
  · refine percent_le ?_ ?_ ?_
    · positivity
    · rw [zero_add]
      exact_mod_cast hsum
    · positivity

end Sane

section Steps

variable {N : Package} {s : Site}

theorem sane_start (N : Package) (w : World) : Sane N (start w) :=
  ⟨List.nodup_nil, fun _ hb => absurd hb List.not_mem_nil, List.nodup_nil,
    fun _ hx => absurd hx List.not_mem_nil,
    fun _ hx => absurd hx List.not_mem_nil, rfl, fun _ hr => absurd hr List.not_mem_nil⟩

theorem admitCidr_text {cidr normalized : String} (h : admitCidr N cidr = .ok normalized) :
    ∃ c, N.parse normalized = some c ∧ normalized = cidrText c.netLong c.bitmask := by
  unfold admitCidr Reading.admitCidr at h
  split at h
  next =>
    cases hc : N.parse cidr with
    | none =>
      cases (normalizeCidr_unread hc).symm.trans h
    | some c =>
      have htext := Except.ok.inj ((normalizeCidr_of_parse hc).symm.trans h)
      rw [← htext, parse_cidrText c.netLong_lt c.bitmask_le]
      exact ⟨_, rfl, congrArg (cidrText · c.bitmask) (Lib.PrefixBlock.clear_of_dvd c.netLong_dvd).symm⟩
  next => cases h

theorem Sane.createBlock (h : Sane N s) (id cidr : String) : Sane N (step N s (.createBlock id cidr)) := by
  rw [step]
  split
  next => exact h
  next hnew =>
    have hnew : ∀ b ∈ s.plan.blocks, b.id ≠ id := by simpa using hnew
    split
    next => exact h
    next plan hplan =>
      obtain ⟨normalized, hadmit, hplan⟩ := bind_ok hplan
      split at hplan
      · cases hplan
      · cases hplan
        have hfresh : ∀ x ∈ s.plan.subnets, x.data.blockId ≠ id := by
          intro x hx he
          obtain ⟨b, hb, hid⟩ := List.mem_map.mp (h.parents x hx)
          exact hnew b hb (hid.trans he)
        refine ⟨?_, fun b hb => ?_, h.subnetIds, h.fresh, fun x hx => ?_, h.columns, h.rows⟩
        · rw [List.map_append, List.nodup_append]
          refine ⟨h.blockIds, List.nodup_singleton _, fun a ha c hc => ?_⟩
          obtain ⟨b, hb, rfl⟩ := List.mem_map.mp ha
          obtain rfl := List.mem_singleton.mp hc
          exact hnew b hb
        · obtain hb | hb := List.mem_append.mp hb
          · exact h.blocks b hb
          · obtain rfl := List.mem_singleton.mp hb
            obtain ⟨c, hc, htext⟩ := admitCidr_text hadmit
            have hnone : s.plan.cidrsOf id = [] := by
              rw [SubnetService.Db.cidrsOf, List.filter_eq_nil_iff.mpr fun x hx => by simpa using hfresh x hx]
              rfl
            exact ⟨c, hc, htext, hnone ▸ placed_nil⟩
        · rw [List.map_append]
          exact List.mem_append_left _ (h.parents x hx)

theorem Sane.planned (h : Sane N s) {b : IpBlock} (hb : b ∈ s.plan.blocks) :
    s.plan.findBlock b.id = .ok b := by
  rw [SubnetService.Db.findBlock, find_of_nodup h.blockIds hb]

theorem Sane.createSubnet (h : Sane N s) (input : CreateSubnetInput) :
    Sane N (step N s (.createSubnet input)) := by
  rw [step]
  split
  next => exact h
  next plan hplan =>
    have hblocks : ∀ b ∈ s.plan.blocks, Blocked N plan b := by
      intro b hb
      obtain ⟨parent, hparse, htext, hplaced⟩ := h.blocks b hb
      exact ⟨parent, hparse, htext,
        (SubnetRuns.createSubnet_planned hparse ⟨h.planned hb, hplaced⟩ hplan).placed⟩
    obtain ⟨normalized, -, hplan⟩ := bind_ok hplan
    obtain ⟨block, hblock, hplan⟩ := bind_ok hplan
    obtain ⟨⟨⟩, -, hplan⟩ := bind_ok hplan
    obtain ⟨⟨⟩, -, hplan⟩ := bind_ok hplan
    cases hplan
    have hparent : input.blockId ∈ s.plan.blocks.map (·.id) := by
      rw [SubnetService.Db.findBlock] at hblock
      split at hblock
      next b hb =>
        have hid : b.id = input.blockId := by simpa using List.find?_some hb
        exact hid ▸ List.mem_map_of_mem (List.mem_of_find?_eq_some hb)
      next => cases hblock
    refine ⟨h.blockIds, hblocks, ?_, fun x hx => ?_, fun x hx => ?_, ?_, fun r hr => ?_⟩
    · rw [SubnetService.Db.create, List.map_append, List.nodup_append]
      refine ⟨h.subnetIds, List.nodup_singleton _, fun a ha c hc => ?_⟩
      obtain ⟨x, hx, rfl⟩ := List.mem_map.mp ha
      obtain rfl := List.mem_singleton.mp hc
      exact (h.fresh x hx).ne
    · obtain hx | hx := List.mem_append.mp hx
      · exact Nat.lt_succ_of_lt (h.fresh x hx)
      · obtain rfl := List.mem_singleton.mp hx
        exact Nat.lt_succ_self _
    · obtain hx | hx := List.mem_append.mp hx
      · exact h.parents x hx
      · obtain rfl := List.mem_singleton.mp hx
        exact hparent
    · change (s.world.db.subnets ++ _).map (·.id) = (s.plan.subnets ++ _).map (subnetKey ·.id)
      rw [SubnetService.Db.create, List.drop_left, List.map_append, List.map_append, h.columns]
      rfl
    · change r.data.subnetId ∈ (s.world.db.subnets ++ _).map (·.id)
      rw [List.map_append]
      exact List.mem_append_left _ (h.rows r hr)

theorem Sane.deleteSubnet (h : Sane N s) (id : Nat) : Sane N (step N s (.deleteSubnet id)) := by
  rw [step]
  split
  next => exact h
  next plan hplan =>
    have hblocks : ∀ b ∈ s.plan.blocks, Blocked N plan b := by
      intro b hb
      obtain ⟨parent, hparse, htext, hplaced⟩ := h.blocks b hb
      have hplanned : SubnetRuns.Planned N b.id b parent plan :=
        SubnetRuns.deleteSubnet_planned ⟨h.planned hb, hplaced⟩ hplan
      exact ⟨parent, hparse, htext, hplanned.placed⟩
    unfold SubnetService.deleteSubnet at hplan
    split at hplan
    · cases hplan
    · split_ifs at hplan
      cases hplan
      have hcolumns : (s.world.db.subnets.filter (·.id ≠ subnetKey id)).map (·.id) =
          (s.plan.subnets.filter (·.id ≠ id)).map (subnetKey ·.id) := by
        have hkey : ∀ x : SubnetService.Subnet,
          decide (subnetKey x.id ≠ subnetKey id) = decide (x.id ≠ id) := by
          intro x
          simp [subnetKey_injective.eq_iff]
        have hleft : (s.world.db.subnets.filter (·.id ≠ subnetKey id)).map (·.id) =
            (s.world.db.subnets.map (·.id)).filter (· ≠ subnetKey id) := by rw [List.filter_map]; rfl
        rw [hleft, h.columns, List.filter_map]
        refine congrArg _ (List.filter_congr fun x _ => hkey x)
      refine ⟨h.blockIds, hblocks, ?_, fun x hx => h.fresh x (List.mem_filter.mp hx).1,
        fun x hx => h.parents x (List.mem_filter.mp hx).1, hcolumns, fun r hr => ?_⟩
      · exact h.subnetIds.sublist (List.filter_sublist.map _)
      · obtain ⟨hr, hne⟩ := List.mem_filter.mp hr
        obtain ⟨x, hx, hid⟩ := List.mem_map.mp (h.rows r hr)
        refine List.mem_map.mpr ⟨x, List.mem_filter.mpr ⟨hx, ?_⟩, hid⟩
        rw [hid]
        simpa using hne

def subnetKeys (db : Reservations.Db) : List String := db.subnets.map (·.id)

theorem subnetKeys_status (db : Reservations.Db) (id : String) (status : SubnetStatus) :
    subnetKeys (db.setSubnetStatus id status) = subnetKeys db := by
  rw [subnetKeys, subnetKeys, Reservations.Db.setSubnetStatus, List.map_map]
  refine List.map_congr_left fun x _ => ?_
  rw [Function.comp]
  split
  · rfl
  · rfl

variable {w : World}

theorem subnetKeys_insert (db : Reservations.Db) (input : CreateReservationInput) :
    subnetKeys (insertReservation db input).1 = subnetKeys db := by
  unfold insertReservation
  cases truthy input.ipAddress with
  | some ip =>
    have hrelease := Reservations.Db.tables_updateRows db .dnsReleaseAt
      (DnsResolved.dnsResolvedAt input.subnetId ip)
      DnsResolved.markReleased
    have hcreate :=
      Reservations.Db.tables_createRow (DnsResolved.releaseDnsResolvedAt db input.subnetId ip) .create
      (newReservation input)
    rw [subnetKeys, subnetKeys]
    exact congrArg _ (hcreate.1.trans hrelease.1)
  | none =>
    have hcreate := Reservations.Db.tables_createRow db .create (newReservation input)
    revert hcreate
    rcases db.createRow .create (newReservation input) with ⟨db', res⟩
    intro hcreate
    cases res with
    | error e => exact congrArg (List.map _) hcreate.1
    | ok r => exact (subnetKeys_status _ _ _).trans (congrArg (List.map _) hcreate.1)

theorem subnetKeys_createReservation (input : CreateReservationInput) (now : Nat) (faults : PushFaults) :
    subnetKeys (ReservationService.createReservation N w input now faults).1.db = subnetKeys w.db := by
  unfold ReservationService.createReservation
  cases checkCreate N w.db input with
  | error e => rfl
  | ok c =>
    have hinsert := subnetKeys_insert w.db input
    revert hinsert
    rcases insertReservation w.db input with ⟨db, res⟩
    intro hinsert
    have hstamp : ∀ id (f : Reservation → Reservation),
      subnetKeys (db.updateRow .push id f).1 = subnetKeys w.db :=
      fun id f => (congrArg (List.map _) (Reservations.Db.tables_updateRow db .push id f).1).trans hinsert
    cases res with
    | error e => exact hinsert
    | ok row =>
      dsimp only
      split
      · unfold pushCreated settleCreate
        split_ifs
        · exact hstamp _ _
        · dsimp only
          split
          · exact hstamp _ _
          · split
            · exact hstamp _ _
            · exact hinsert
      · exact hinsert

theorem subnetKeys_releaseReservation (id : Nat) (faults : ReleaseFaults) :
    subnetKeys (ReservationService.releaseReservation w id faults).1.db = subnetKeys w.db := by
  unfold ReservationService.releaseReservation
  cases w.db.findReservation id with
  | error e => rfl
  | ok found =>
    obtain ⟨row, subnet⟩ := found
    dsimp only
    split_ifs
    · rfl
    · have hupdate := Reservations.Db.tables_updateRow (w.db.deleteRows (releasedTwin row)) .release row.id
        stampReleased
      rw [← unpushReleased_db w row.data subnet faults.unpush] at hupdate ⊢
      revert hupdate
      unfold commitRelease
      rcases (Reservations.Db.deleteRows _ (releasedTwin row)).updateRow .release row.id
        stampReleased with ⟨db', res⟩
      intro hupdate
      cases res with
      | error e => rfl
      | ok released =>
        dsimp only
        split_ifs
        · exact congrArg (List.map _) hupdate.1
        · exact (subnetKeys_status _ _ _).trans (congrArg (List.map _) hupdate.1)

theorem kept_subnet (keys : List String) : Kept fun r => r.data.subnetId ∈ keys :=
  ⟨fun _ _ h => h, fun _ _ _ _ _ h => h, fun _ _ _ _ _ _ _ h => h, fun _ _ h => h⟩

theorem Sane.world (h : Sane N s) {w : World} (hkeys : subnetKeys w.db = subnetKeys s.world.db)
    (hrows : ∀ r ∈ w.db.rows, r.data.subnetId ∈ subnetKeys s.world.db) : Sane N { s with world := w } :=
  ⟨h.blockIds, h.blocks, h.subnetIds, h.fresh, h.parents, hkeys.trans h.columns,
    fun r hr => (congrArg (r.data.subnetId ∈ ·) hkeys).mpr (hrows r hr)⟩

theorem openSubnet_key {db : Reservations.Db} {subnetId : String} {subnet : Reservations.Subnet}
    (h : openSubnet db subnetId = .ok subnet) : subnetId ∈ subnetKeys db := by
  unfold openSubnet at h
  split at h
  next => cases h
  next x hx =>
    exact Reservations.Db.findSubnet_id hx ▸ List.mem_map_of_mem (List.mem_of_find?_eq_some hx)

theorem sane_step (h : Sane N s) (op : Op) : Sane N (step N s op) := by
  cases op with
  | createBlock id cidr => exact h.createBlock id cidr
  | createSubnet input => exact h.createSubnet input
  | deleteSubnet id => exact h.deleteSubnet id
  | createReservation input now faults =>
    refine h.world (subnetKeys_createReservation input now faults) ?_
    refine forall_createReservation (kept_subnet _) h.rows fun c hc _ => ?_
    exact openSubnet_key (checkCreate_ok hc).1
  | releaseReservation id faults =>
    exact h.world (subnetKeys_releaseReservation id faults) (forall_releaseReservation (kept_subnet _) h.rows)
  | expireStaleReservations now =>
    have htables := Reservations.Db.tables_updateRows s.world.db .expire (stale now) markExpired
    refine h.world (congrArg (List.map _) htables.1) ?_
    exact Reservations.Db.forall_updateRows _ h.rows fun r hr _ => h.rows r hr

theorem sane_run (N : Package) (w : World) (ops : List Op) : Sane N (run N w ops) := by
  rw [run]
  exact foldl_invariant (I := Sane N) (fun _ op h _ => sane_step h op) (sane_start N w) along_true

end Steps

section Claims

variable {N : Package} {s : Site}

/-- The blocks' reports add up to the global number. -/
def Agree (N : Package) (s : Site) : Prop :=
  reportedReservations N s = .ok (getGlobalUtilization s).totalActiveReservations

def Bounded (s : Site) : Prop :=
  ∀ b ∈ s.plan.blocks, b.ipVersion = .v4 → ∃ p, (summarize s b).usedPercent = some p ∧ 0 ≤ p ∧ p ≤ 100

theorem agree_iff (h : Sane N s) : Agree N s ↔ ∀ r ∈ s.rows, r.data.status = .active := by
  rw [Agree, reportedReservations_eq h, getGlobalUtilization, activeRows]
  constructor
  · intro he r hr
    have hall := List.length_filter_eq_length_iff.mp (Except.ok.inj he).symm r hr
    exact of_decide_eq_true hall
  · intro hall
    rw [List.filter_eq_self.mpr fun r hr => decide_eq_true (hall r hr)]

/-- In every state that is reached no block is more than full, and the two
views of the reservations agree just when every row is active. -/
theorem views_agree_iff (N : Package) (w : World) (ops : List Op) :
    (Agree N (run N w ops) ∧ Bounded (run N w ops)) ↔ ∀ r ∈ (run N w ops).rows, r.data.status = .active := by
  have hsane := sane_run N w ops
  rw [← agree_iff hsane]
  exact and_iff_left fun b hb _ => usedPercent_le hsane hb

def idle : World := ⟨{}, fun _ => .empty []⟩

def released : List Op :=
  [.createBlock "b" "10.0.0.0/24", .createSubnet { blockId := "b", cidr := "10.0.0.0/26", name := "lan" },
    .createReservation { subnetId := "0", ipAddress := some "10.0.0.5" } 0 {}, .releaseReservation 0 {}]

theorem released_still_reported : ¬ Agree reference (run reference idle released) := by
  intro h
  have hrow : ∃ r ∈ (run reference idle released).rows, r.data.status = .released := by decide +kernel
  obtain ⟨r, hr, hstatus⟩ := hrow
  have hactive := (agree_iff (sane_run reference idle released)).mp h r hr
  rw [hstatus] at hactive
  cases hactive

end Claims

end Polaris.Utilization
