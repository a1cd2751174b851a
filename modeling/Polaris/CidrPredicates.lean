import Polaris.Cidr

namespace Polaris.CidrPredicates

open Polaris.Lib.PrefixBlock Polaris.Netmask Polaris.Cidr

variable {N : Package} {a b : String} {ca cb : Netmask.Cidr}

theorem contains_getD_dottedQuad (c : Netmask.Cidr) {n : Nat} (h : n < 2 ^ 32) :
    (contains N c (dottedQuad n)).getD false = true ↔ n ∈ c.addrs := by
  rw [← contains_dottedQuad N c h, contains, ip2long_dottedQuad N h, Option.map_some, Option.getD_some,
    Option.some.injEq]

theorem cidrContains_iff (ha : N.parse a = some ca) (hb : N.parse b = some cb) :
    cidrContains N a b = true ↔ cb.bitmask ≤ 30 ∧ cb.addrs ⊆ ca.addrs := by
  have hpos : 0 < cb.size := Nat.two_pow_pos _
  have hlast := cb.last_lt
  have hend : cb.netLong + cb.size - 1 ∈ cb.addrs := ⟨by omega, Nat.sub_lt (by omega) Nat.one_pos⟩
  constructor
  · intro h
    obtain ⟨o, i, ho, hi, hsub⟩ := cidrContains_subset h
    cases ha.symm.trans ho
    cases hb.symm.trans hi
    refine ⟨?_, hsub⟩
    by_contra hbits
    have hnone : cb.broadcast = none := if_neg hbits
    rw [cidrContains_of_parse ha hb] at h
    split at h
    next last _ hsome => cases hnone.symm.trans hsome
    next => cases h
  · rintro ⟨hbits, hsub⟩
    have hbase := (contains_dottedQuad N ca cb.netLong_lt).mpr (hsub (base_mem_block _ _))
    have hbroadcast : cb.broadcast = some (dottedQuad (cb.netLong + cb.size - 1)) := if_pos hbits
    simp only [cidrContains_of_parse ha hb, Netmask.Cidr.base, hbase, hbroadcast]
    exact (contains_getD_dottedQuad ca (by omega)).mpr (hsub hend)

theorem cidrOverlaps_iff (ha : N.parse a = some ca) (hb : N.parse b = some cb) :
    cidrOverlaps N a b = true ↔ (ca.addrs ∩ cb.addrs).Nonempty := by
  rw [← Set.not_disjoint_iff_nonempty_inter]
  constructor
  · intro h hd
    rw [not_overlaps_of_disjoint ha hb hd] at h
    cases h
  · intro h
    by_contra hnot
    exact h (disjoint_of_not_overlaps ha hb (Bool.eq_false_iff.mpr hnot))

theorem ipInCidr_iff (ha : N.parse a = some ca) (ip : String) :
    ipInCidr N ip a = true ↔ ∃ x ∈ ca.addrs, N.ip2long ip = some x := by
  simp only [ipInCidr, ha, contains]
  cases hip : N.ip2long ip with
  | none =>
    constructor
    · intro h
      cases h
    · rintro ⟨x, -, hx⟩
      cases hx
  | some x =>
    have hmem : x ∈ ca.addrs ↔ clear (32 - ca.bitmask) x = ca.netLong := mem_block_iff_clear ca.netLong_dvd
    rw [Option.map_some, Option.getD_some, beq_iff_eq, ← hmem]
    constructor
    · exact fun h => ⟨x, h, rfl⟩
    · rintro ⟨y, hy, heq⟩
      exact Option.some.inj heq ▸ hy

/-- The three predicates are those of the address sets just when the inner
CIDR is large enough for the package to give its last address, or is not
inside the outer one anyway. -/
theorem predicates_are_set_semantics (ha : N.parse a = some ca) (hb : N.parse b = some cb) :
    ((cidrContains N a b = true ↔ cb.addrs ⊆ ca.addrs) ∧
      (cidrOverlaps N a b = true ↔ (ca.addrs ∩ cb.addrs).Nonempty) ∧ cidrOverlaps N a b = cidrOverlaps N b a ∧
      (∀ ip, ipInCidr N ip a = true ↔ ∃ x ∈ ca.addrs, N.ip2long ip = some x) ∧
      ∀ x < 2 ^ 32, ipInCidr N (dottedQuad x) a = true ↔ x ∈ ca.addrs) ↔
    (cb.bitmask ≤ 30 ∨ ¬ cb.addrs ⊆ ca.addrs) := by
  have hsymm : cidrOverlaps N a b = cidrOverlaps N b a := by
    refine Bool.eq_iff_iff.mpr ?_
    rw [cidrOverlaps_iff ha hb, cidrOverlaps_iff hb ha, Set.inter_comm]
  have hquad : ∀ x < 2 ^ 32, ipInCidr N (dottedQuad x) a = true ↔ x ∈ ca.addrs := by
    intro x hx
    rw [ipInCidr_iff ha, ip2long_dottedQuad N hx]
    constructor
    · rintro ⟨y, hy, heq⟩
      exact Option.some.inj heq ▸ hy
    · exact fun h => ⟨x, h, rfl⟩
  rw [cidrContains_iff ha hb]
  constructor
  · rintro ⟨hcontains, -⟩
    by_cases hsub : cb.addrs ⊆ ca.addrs
    · exact .inl (hcontains.mpr hsub).1
    · exact .inr hsub
  · intro h
    refine ⟨⟨And.right, fun hsub => ⟨h.resolve_right (not_not_intro hsub), hsub⟩⟩, cidrOverlaps_iff ha hb,
      hsymm,
      ipInCidr_iff ha, hquad⟩

/-- A /30 with host bits in a /24. -/
theorem predicates_are_set_semantics_link :
    cidrContains reference "10.0.0.0/24" "10.0.0.7/30" = true ↔
      (⟨0x0a000007, 30, by decide, by decide⟩ : Netmask.Cidr).addrs ⊆
        (⟨0x0a000000, 24, by decide, by decide⟩ : Netmask.Cidr).addrs :=
  ((predicates_are_set_semantics (by decide +kernel) (by decide +kernel)).mpr (.inl (by decide))).1

/-- A host route is not found inside its own subnet. -/
theorem host_route_not_contained : ¬ ∀ (a b : String) (ca cb : Netmask.Cidr), reference.parse a = some ca →
    reference.parse b = some cb → (cidrContains reference a b = true ↔ cb.addrs ⊆ ca.addrs) := by
  intro h
  have hsub : (⟨0x0a000005, 32, by decide, by decide⟩ : Netmask.Cidr).addrs ⊆
      (⟨0x0a000000, 24, by decide, by decide⟩ : Netmask.Cidr).addrs := by
    refine block_subset_of_ends ?_ ?_ <;> exact ⟨by decide, by decide⟩
  have hyes := (h "10.0.0.0/24" "10.0.0.5/32" _ _ (by decide +kernel) (by decide +kernel)).mpr hsub
  revert hyes
  decide +kernel

end Polaris.CidrPredicates
