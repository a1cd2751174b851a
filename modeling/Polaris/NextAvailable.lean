import Polaris.Lib.Paging
import Polaris.CidrPlacement
import Polaris.ReservationService

namespace Polaris.NextAvailable

open Polaris.Lib.Checks Polaris.Lib.Paging Polaris.Netmask Polaris.Cidr Polaris.CidrAllocation
  Polaris.CidrEnumeration
open Polaris.CidrPlacement Polaris.Reservations Polaris.ReservationService

section Pages

/-- What an address of a block is for: a block of one or two addresses has
hosts only. -/
def addressKind (c : Netmask.Cidr) (x : Nat) : AddressType :=
  if 31 ≤ c.bitmask then .host
  else if x = c.netLong then .network
  else if x = c.netLong + c.size - 1 then .broadcast
  else .host

def addresses (c : Netmask.Cidr) : List EnumeratedIp :=
  (List.range' c.netLong c.size).map fun x => ⟨dottedQuad x, addressKind c x⟩

/-- The pages of a subnet, one after another, are its addresses in order. -/
def PagesExact (N : Package) (cidr : String) (c : Netmask.Cidr) : Prop :=
  ∀ pageSize, 1 ≤ pageSize → ∃ pages : List (List EnumeratedIp),
    ((List.range' 1 (pageCount c.size pageSize)).mapM fun page => enumerateSubnetIps N cidr page pageSize) =
      .ok (pages.map fun addresses => (addresses, c.size)) ∧ pages.flatten = addresses c

variable {N : Package} {cidr : String} {c : Netmask.Cidr}

theorem length_addresses : (addresses c).length = c.size := by
  rw [addresses, List.length_map, List.length_range']

theorem addressType_kind (i : Nat) : addressType c.bitmask c.size i = addressKind c (c.netLong + i) := by
  have hpos : 0 < c.size := Nat.two_pow_pos _
  have hfirst : (i = 0) = (c.netLong + i = c.netLong) := propext ⟨by omega, by omega⟩
  have hlast : (i = c.size - 1) = (c.netLong + i = c.netLong + c.size - 1) := propext ⟨by omega, by omega⟩
  simp only [addressType, addressKind, hfirst, hlast]

theorem parentRange_of_small (hp : N.parse cidr = some c) (hsmall : c.bitmask ≤ 30) :
    parentRange N cidr = .ok (c, c.netLong, c.netLong + c.size - 1) := by
  have hsize : 0 < c.size := Nat.two_pow_pos _
  have hlast := c.last_lt
  simp only [parentRange, hp, Netmask.Cidr.broadcast, if_pos hsmall]
  rw [Netmask.Cidr.base, ipToInt_dottedQuad c.netLong_lt, ipToInt_dottedQuad (by omega)]

theorem parentRange_of_large (hp : N.parse cidr = some c) (hlarge : ¬ c.bitmask ≤ 30) :
    parentRange N cidr = .error (.thrown "Cannot read properties of undefined") := by
  simp only [parentRange, hp, Netmask.Cidr.broadcast, if_neg hlarge]

theorem enumerate_page (hp : N.parse cidr = some c) (hsmall : c.bitmask ≤ 30) (p pageSize : Nat) :
    enumerateSubnetIps N cidr p pageSize = .ok (page pageSize (addresses c) p, c.size) := by
  have hsize : 0 < c.size := Nat.two_pow_pos _
  have htotal : c.netLong + c.size - 1 - c.netLong + 1 = c.size := by omega
  simp only [enumerateSubnetIps, parentRange_of_small hp hsmall, bind, Except.bind, htotal]
  refine congrArg (fun as => Except.ok (as, c.size)) ?_
  have hpage : page pageSize (addresses c) p = (List.range' (c.netLong + (p - 1) * pageSize)
      (min ((p - 1) * pageSize + pageSize) c.size - (p - 1) * pageSize)).map fun x => ⟨dottedQuad x,
        addressKind c x⟩ := by
    rw [page, addresses, ← List.map_drop, ← List.map_take, List.drop_range', Nat.mul_one]
    congr 1
    obtain hle | hge := Nat.le_total (c.size - (p - 1) * pageSize) pageSize
    · rw [List.take_range'_of_length_le hle]
      congr 1
      omega
    · rw [List.take_range'_of_length_ge hge]
      congr 1
      omega
  rw [hpage, ← List.map_add_range', List.map_map]
  refine List.map_congr_left fun i _ => ?_
  rw [Function.comp_apply, ← addressType_kind]
  rfl

theorem pagesExact_iff (hp : N.parse cidr = some c) : PagesExact N cidr c ↔ c.bitmask ≤ 30 := by
  have hpos : 0 < c.size := Nat.two_pow_pos _
  constructor
  · intro h
    by_contra hlarge
    obtain ⟨pages, hpages, hflat⟩ := h 1 (Nat.le_refl 1)
    have hcount : 1 ≤ pageCount c.size 1 := by
      rw [pageCount, Nat.div_one]
      omega
    obtain ⟨n, hn⟩ := Nat.exists_eq_add_of_le hcount
    have hthrown : enumerateSubnetIps N cidr 1 1 = .error
      (.thrown "Cannot read properties of undefined") := by
      simp only [enumerateSubnetIps, parentRange_of_large hp hlarge, bind, Except.bind]
    rw [hn, Nat.add_comm, List.range'_succ, List.mapM_cons, hthrown] at hpages
    cases hpages
  · intro hsmall pageSize hsize
    refine ⟨(List.range' 1 (pageCount c.size pageSize)).map (page pageSize (addresses c)), ?_, ?_⟩
    · rw [List.map_map]
      generalize List.range' 1 (pageCount c.size pageSize) = ps
      induction ps with
      | nil => rfl
      | cons p ps ih =>
        rw [List.mapM_cons, ih, enumerate_page hp hsmall]
        rfl
    · rw [← List.flatMap_def]
      exact length_addresses ▸ flatMap_pages hsize (addresses c)

end Pages

section Search

variable {N : Package} {cidr : String} {c : Netmask.Cidr} {reserved : List String} {x : Nat}

/-- An address that can be handed out: any of a /31 or /32, and otherwise
neither the first nor the last. -/
def Host (c : Netmask.Cidr) (x : Nat) : Prop :=
  x ∈ c.addrs ∧ (c.bitmask ≤ 30 → x ≠ c.netLong ∧ x ≠ c.netLong + c.size - 1)

def offered (reserved : List String) (a : EnumeratedIp) : Bool := a.type = .host && a.address ∉ reserved

theorem kind_host_iff : addressKind c x = .host ↔
    (c.bitmask ≤ 30 → x ≠ c.netLong ∧ x ≠ c.netLong + c.size - 1) := by
  rw [addressKind]
  split_ifs with hlarge hfirst hlast
  · exact iff_of_true rfl fun h => absurd h (by omega)
  · exact iff_of_false nofun fun h => (h (by omega)).1 hfirst
  · exact iff_of_false nofun fun h => (h (by omega)).2 hlast
  · exact iff_of_true rfl fun _ => ⟨hfirst, hlast⟩

theorem offered_iff (h : x ∈ c.addrs) :
    offered reserved ⟨dottedQuad x, addressKind c x⟩ = true ↔ Host c x ∧ dottedQuad x ∉ reserved := by
  rw [offered, Bool.and_eq_true, decide_eq_true_eq, decide_eq_true_eq, kind_host_iff, Host]
  exact and_congr_left fun _ => (and_iff_right h).symm

theorem findFree_eq (hp : N.parse cidr = some c) (hsmall : c.bitmask ≤ 30) (fuel p : Nat) :
    findFree N cidr reserved fuel p =
      .ok ((findPaged pageSize (addresses c) (offered reserved) fuel p).map EnumeratedIp.address) := by
  induction fuel generalizing p with
  | zero => rfl
  | succ fuel ih =>
    rw [findFree, enumerate_page hp hsmall, findPaged, ← length_addresses]
    simp only [bind, Except.bind]
    cases hfind : (page pageSize (addresses c) p).find? (offered reserved) with
    | some a =>
      unfold offered at hfind
      rw [hfind]
      rfl
    | none =>
      unfold offered at hfind
      rw [hfind]
      dsimp only
      split_ifs with hend
      · rfl
      · exact ih (p + 1)

/-- The loop finds the first address that is offered. -/
theorem findFree_first (hp : N.parse cidr = some c) (hsmall : c.bitmask ≤ 30) :
    findFree N cidr reserved (2 ^ 32 / pageSize + 1) 1 =
      .ok (((addresses c).find? (offered reserved)).map EnumeratedIp.address) := by
  have hsize : c.size ≤ 2 ^ 32 := Nat.pow_le_pow_right (by decide) (Nat.sub_le 32 _)
  rw [findFree_eq hp hsmall, findPaged_eq (Nat.le_refl 1)]
  · rfl
  · rw [length_addresses, pageSize]
    omega

theorem mem_addresses {a : EnumeratedIp} :
    a ∈ addresses c ↔ ∃ x ∈ c.addrs, a = ⟨dottedQuad x, addressKind c x⟩ := by
  rw [addresses, List.mem_map]
  refine exists_congr fun x => and_congr ?_ eq_comm
  rw [List.mem_range'_1]
  exact Iff.rfl

theorem first_offered {a : EnumeratedIp} (h : (addresses c).find? (offered reserved) = some a) :
    ∃ x, a.address = dottedQuad x ∧ Host c x ∧ dottedQuad x ∉ reserved ∧
      ∀ y, Host c y → dottedQuad y ∉ reserved → x ≤ y := by
  obtain ⟨ha, i, hi, hget, hbefore⟩ := List.find?_eq_some_iff_getElem.mp h
  have hi' : i < c.size := length_addresses ▸ hi
  have hin : c.netLong + i ∈ c.addrs := ⟨Nat.le_add_right _ _, Nat.add_lt_add_left hi' _⟩
  have hentry : ∀ j (hj : j < (addresses c).length),
      (addresses c)[j] = ⟨dottedQuad (c.netLong + j), addressKind c (c.netLong + j)⟩ := by
    intro j hj
    simp only [addresses, List.getElem_map, List.getElem_range', Nat.one_mul]
  rw [hentry] at hget
  rw [← hget, offered_iff hin] at ha
  refine ⟨c.netLong + i, hget ▸ rfl, ha.1, ha.2, fun y hy hfree => ?_⟩
  by_contra hlt
  obtain ⟨hlow, hhigh⟩ := hy.1
  have hj : y - c.netLong < i := by omega
  have hmiss := hbefore (y - c.netLong) hj
  have hsum : c.netLong + (y - c.netLong) = y := by omega
  rw [hentry, hsum, (offered_iff hy.1).mpr ⟨hy, hfree⟩] at hmiss
  cases hmiss

theorem none_offered (h : (addresses c).find? (offered reserved) = none) {y : Nat} (hy : Host c y) :
    dottedQuad y ∈ reserved := by
  by_contra hfree
  exact List.find?_eq_none.mp h _ (mem_addresses.mpr ⟨y, hy.1, rfl⟩) ((offered_iff hy.1).mpr ⟨hy, hfree⟩)

end Search

section Selection

variable {N : Package} {db : Db} {subnetId : String} {subnet : Subnet} {c : Netmask.Cidr}

/-- The least host address without an active reservation is selected, and
the request is refused just when there is none. -/
def SelectsFirst (N : Package) (db : Db) (subnetId : String) (subnet : Subnet) (c : Netmask.Cidr) : Prop :=
  (∃ x, Host c x ∧ dottedQuad x ∉ reservedIps db subnetId ∧
    (∀ y, Host c y → dottedQuad y ∉ reservedIps db subnetId → x ≤ y) ∧
    selectAddress N db subnetId = .ok (dottedQuad x)) ∨
  ((∀ y, Host c y → dottedQuad y ∈ reservedIps db subnetId) ∧
    selectAddress N db subnetId = .error (.app 409 ("No available IP addresses in subnet " ++ subnet.cidr)))

theorem selectAddress_open (hopen : openSubnet db subnetId = .ok subnet)
    (hv4 : detectIpVersion subnet.cidr = .v4) :
    selectAddress N db subnetId =
      (findFree N subnet.cidr (reservedIps db subnetId) (2 ^ 32 / pageSize + 1) 1).bind fun found =>
        match found with
        | some ip => .ok ip
        | none => .error (.app 409 ("No available IP addresses in subnet " ++ subnet.cidr)) := by
  rw [selectAddress, hopen]
  simp only [bind, Except.bind, hv4, ne_eq, not_true_eq_false, if_false]
  rfl

theorem selectsFirst_iff (hopen : openSubnet db subnetId = .ok subnet)
    (hv4 : detectIpVersion subnet.cidr = .v4)
    (hp : N.parse subnet.cidr = some c) : SelectsFirst N db subnetId subnet c ↔ c.bitmask ≤ 30 := by
  rw [SelectsFirst, selectAddress_open hopen hv4]
  by_cases hsmall : c.bitmask ≤ 30
  · refine iff_of_true ?_ hsmall
    rw [findFree_first hp hsmall]
    cases hfind : (addresses c).find? (offered (reservedIps db subnetId)) with
    | some a =>
      obtain ⟨x, hx, hhost, hfree, hleast⟩ := first_offered hfind
      exact .inl ⟨x, hhost, hfree, hleast, congrArg Except.ok hx⟩
    | none => exact .inr ⟨fun y hy => none_offered hfind hy, rfl⟩
  · have hthrown : findFree N subnet.cidr (reservedIps db subnetId) (2 ^ 32 / pageSize + 1) 1 =
        .error (.thrown "Cannot read properties of undefined") := by
      simp only [findFree, enumerateSubnetIps, parentRange_of_large hp hsmall, bind, Except.bind]
    rw [hthrown]
    refine iff_of_false ?_ hsmall
    rintro (⟨x, -, -, -, h⟩ | ⟨-, h⟩) <;> cases h

/-- Both the pages of a subnet and the address picked from them are exact
just when the package gives the subnet's last address. -/
theorem next_available_exact (hopen : openSubnet db subnetId = .ok subnet)
    (hv4 : detectIpVersion subnet.cidr = .v4)
    (hp : N.parse subnet.cidr = some c) :
    (SelectsFirst N db subnetId subnet c ∧ PagesExact N subnet.cidr c) ↔ c.bitmask ≤ 30 := by
  rw [selectsFirst_iff hopen hv4 hp, pagesExact_iff hp, and_self]

def oneSubnet (cidr : String) : Db := { subnets := [{ id := "lan", cidr := cidr }] }

theorem next_available_exact_lan :
    SelectsFirst reference (oneSubnet "10.0.0.0/29") "lan" { id := "lan", cidr := "10.0.0.0/29" }
      ⟨0x0a000000, 29, by decide, by decide⟩ ∧
    PagesExact reference "10.0.0.0/29" ⟨0x0a000000, 29, by decide, by decide⟩ := by
  have hparse : reference.parse "10.0.0.0/29" =
    some ⟨0x0a000000, 29, by decide, by decide⟩ := by decide +kernel
  have hv4 : detectIpVersion "10.0.0.0/29" = .v4 := by decide +kernel
  have hopen : openSubnet (oneSubnet "10.0.0.0/29") "lan" = .ok { id := "lan", cidr := "10.0.0.0/29" } := rfl
  exact (next_available_exact hopen hv4 hparse).mpr (by decide)

/-- Both addresses of a /31 are free, and the request fails otherwise. -/
theorem link_has_no_next_address : ¬ ∀ (db : Db) (subnetId : String) (subnet : Subnet) (c : Netmask.Cidr),
    openSubnet db subnetId = .ok subnet → detectIpVersion subnet.cidr = .v4 →
    reference.parse subnet.cidr = some c →
    SelectsFirst reference db subnetId subnet c := by
  intro h
  have hparse : reference.parse "10.0.0.0/31" =
    some ⟨0x0a000000, 31, by decide, by decide⟩ := by decide +kernel
  have hv4 : detectIpVersion "10.0.0.0/31" = .v4 := by decide +kernel
  have hopen : openSubnet (oneSubnet "10.0.0.0/31") "lan" = .ok { id := "lan", cidr := "10.0.0.0/31" } := rfl
  have hsmall := (selectsFirst_iff hopen hv4 hparse).mp (h _ _ _ _ hopen hv4 hparse)
  revert hsmall
  decide

end Selection

end Polaris.NextAvailable
