import Polaris.CidrAllocation

namespace Polaris.CidrPlacement

open Polaris.Lib.PrefixBlock Polaris.Netmask Polaris.Cidr Polaris.CidrAllocation

variable {N : Package} {parent : Netmask.Cidr}

/-- A stored CIDR text: it parses, its host bits are zero, normalizing
changes nothing, and its addresses lie in the parent. -/
def Inside (N : Package) (parent : Netmask.Cidr) (s : String) : Prop :=
  ∃ c, N.parse s = some c ∧ c.addr = c.netLong ∧ normalizeCidr N s = .ok s ∧ c.addrs ⊆ parent.addrs

/-- A CIDR text, in any spelling, whose addresses lie in the parent. -/
def Within (N : Package) (parent : Netmask.Cidr) (s : String) : Prop :=
  ∃ c, N.parse s = some c ∧ c.addrs ⊆ parent.addrs

def Apart (N : Package) (s t : String) : Prop :=
  ∀ cs ct, N.parse s = some cs → N.parse t = some ct → Disjoint cs.addrs ct.addrs

/-- The address plan of one block: every CIDR inside it, any two disjoint. -/
def Placed (N : Package) (parent : Netmask.Cidr) (cidrs : List String) : Prop :=
  (∀ s ∈ cidrs, Inside N parent s) ∧ cidrs.Pairwise (Apart N)

theorem Inside.within {s : String} (h : Inside N parent s) : Within N parent s := by
  obtain ⟨c, hc, -, -, hsub⟩ := h
  exact ⟨c, hc, hsub⟩

theorem Apart.symm {s t : String} (h : Apart N s t) : Apart N t s :=
  fun cs ct hs ht => (h ct cs ht hs).symm

theorem placed_nil : Placed N parent [] := ⟨by simp, List.Pairwise.nil⟩

theorem Placed.append {xs ys : List String} (hx : Placed N parent xs) (hy : Placed N parent ys)
    (hxy : ∀ s ∈ xs, ∀ t ∈ ys, Apart N s t) : Placed N parent (xs ++ ys) := by
  refine ⟨fun s hs => ?_, List.pairwise_append.mpr ⟨hx.2, hy.2, hxy⟩⟩
  obtain hs | hs := List.mem_append.mp hs
  · exact hx.1 s hs
  · exact hy.1 s hs

theorem Placed.sublist {xs ys : List String} (hy : Placed N parent ys) (h : xs.Sublist ys) :
    Placed N parent xs := ⟨fun s hs => hy.1 s (h.subset hs), hy.2.sublist h⟩

theorem placed_singleton {s : String} (h : Inside N parent s) : Placed N parent [s] :=
  ⟨by simpa using h, by simp⟩

theorem apart_of_not_overlaps {s t : String} (h : cidrOverlaps N s t = false) : Apart N s t :=
  fun _ _ hs ht => disjoint_of_not_overlaps hs ht h

theorem inside_of_contains {outer s : String} {text : String} (hn : normalizeCidr N text = .ok s)
    (ho : N.parse outer = some parent) (hc : cidrContains N outer s = true) :
    Inside N parent s := by
  obtain ⟨o, i, hpo, hpi, hsub⟩ := cidrContains_subset hc
  cases ho.symm.trans hpo
  cases ht : N.parse text with
  | none => cases (normalizeCidr_unread ht).symm.trans hn
  | some c =>
    rw [normalizeCidr_of_parse ht] at hn
    cases hn
    have hp := parse_cidrText (N := N) c.netLong_lt c.bitmask_le
    cases hp.symm.trans hpi
    have hz : (⟨c.netLong, c.bitmask, c.netLong_lt, c.bitmask_le⟩ : Netmask.Cidr).netLong =
        c.netLong := clear_of_dvd c.netLong_dvd
    refine ⟨_, hp, hz.symm, ?_, hsub⟩
    rw [normalizeCidr_of_parse hp, hz]

theorem inside_of_aligned {n p : Nat} (hn : n < 2 ^ 32) (hp : p ≤ 32) (hd : 2 ^ (32 - p) ∣ n)
    (hl : parent.netLong ≤ n) (hr : n + 2 ^ (32 - p) ≤ parent.netLong + parent.size) :
    Inside N parent (cidrText n p) := by
  have hparse := parse_cidrText (N := N) hn hp
  have hz : (⟨n, p, hn, hp⟩ : Netmask.Cidr).netLong = n := clear_of_dvd hd
  refine ⟨_, hparse, hz.symm, ?_, ?_⟩
  · rw [normalizeCidr_of_parse hparse, hz]
  · rintro x ⟨h1, h2⟩
    rw [hz] at h1 h2
    exact ⟨hl.trans h1, h2.trans_le hr⟩

theorem parentRange_ok {s : String} {r : Netmask.Cidr × Nat × Nat} (hs : N.parse s = some parent)
    (h : parentRange N s = .ok r) :
    r = (parent, parent.netLong, parent.netLong + parent.size - 1) := by
  simp only [parentRange, hs, Netmask.Cidr.broadcast] at h
  split_ifs at h with hb
  cases h
  have hlast := parent.last_lt
  have hsize : 0 < parent.size := Nat.two_pow_pos _
  rw [Netmask.Cidr.base, ipToInt_dottedQuad parent.netLong_lt, ipToInt_dottedQuad (by omega)]

end Polaris.CidrPlacement
