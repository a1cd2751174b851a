import Polaris.CidrPredicates
import Polaris.SubnetPlan

namespace Polaris.CidrFirstFit

open Polaris.Lib.PrefixBlock Polaris.Netmask Polaris.Cidr Polaris.CidrPredicates
open Polaris.CidrAllocation Polaris.CidrPlacement Polaris.SubnetPlan

section Scan

variable {size endInt : Nat} {free : Nat → Bool} {fuel start c d : Nat}

theorem scan_first (h : scan size endInt free fuel start = some c) (hs : start ≤ d) (hd : d < c)
    (hdvd : size ∣ d - start) : free d = false := by
  induction fuel generalizing start with
  | zero => cases h
  | succ fuel ih =>
    rw [scan] at h
    split_ifs at h with hend hfree
    · cases h
      omega
    · obtain heq | hlt := Nat.eq_or_lt_of_le hs
      · exact heq ▸ Bool.eq_false_iff.mpr hfree
      · have hnext : start + size ≤ d := by
          have hle := Nat.le_of_dvd (by omega) hdvd
          omega
        refine ih h hnext ?_
        have hsub : d - (start + size) = d - start - size := by omega
        rw [hsub]
        exact Nat.dvd_sub hdvd (Nat.dvd_refl size)

theorem scan_none (hsize : 0 < size) (hfuel : endInt < start + fuel)
    (h : scan size endInt free fuel start = none)
    (hs : start ≤ d) (hdvd : size ∣ d - start) (hend : d + size - 1 ≤ endInt) : free d = false := by
  induction fuel generalizing start with
  | zero => omega
  | succ fuel ih =>
    rw [scan, if_pos (by omega)] at h
    split_ifs at h with hfree
    obtain heq | hlt := Nat.eq_or_lt_of_le hs
    · exact heq ▸ Bool.eq_false_iff.mpr hfree
    · have hnext : start + size ≤ d := by
        have hle := Nat.le_of_dvd (by omega) hdvd
        omega
      refine ih (by omega) h hnext ?_
      have hsub : d - (start + size) = d - start - size := by omega
      rw [hsub]
      exact Nat.dvd_sub hdvd (Nat.dvd_refl size)

end Scan

section FirstFit

variable {N : Package} {parentCidr : String} {parent : Netmask.Cidr} {allocated : List String} {bits n : Nat}

/-- An aligned block inside the parent, clear of everything allocated. -/
structure Fits (N : Package) (parent : Netmask.Cidr) (allocated : List String) (bits n : Nat) : Prop where
  aligned : 2 ^ (32 - bits) ∣ n
  inside : block (32 - bits) n ⊆ parent.addrs
  free : ∀ s ∈ allocated, ∀ c, N.parse s = some c → Disjoint (block (32 - bits) n) c.addrs

/-- The block with the least base that fits, or nothing when none does. -/
def FirstFit (N : Package) (parent : Netmask.Cidr) (allocated : List String) (bits : Nat)
    (result : Except Failure (Option String)) : Prop :=
  (∃ n, result = .ok (some (cidrText n bits)) ∧ Fits N parent allocated bits n ∧
    ∀ m, Fits N parent allocated bits m → n ≤ m) ∨
  (result = .ok none ∧ ∀ n, ¬ Fits N parent allocated bits n)

theorem subset_parent_iff : block (32 - bits) n ⊆ parent.addrs ↔
    parent.netLong ≤ n ∧ n + 2 ^ (32 - bits) ≤ parent.netLong + parent.size := by
  have hpos : 0 < 2 ^ (32 - bits) := Nat.two_pow_pos _
  constructor
  · intro h
    have hfirst := h (base_mem_block _ n)
    have hlast := h (show n + 2 ^ (32 - bits) - 1 ∈ block (32 - bits) n from ⟨by omega, by omega⟩)
    exact ⟨hfirst.1, by have := hlast.2; unfold Netmask.Cidr.size; omega⟩
  · rintro ⟨hl, hr⟩ x ⟨h1, h2⟩
    exact ⟨hl.trans h1, h2.trans_le hr⟩

theorem free_iff (hall : ∀ s ∈ allocated, (N.parse s).isSome) (hbits : bits ≤ 32) (hn : n < 2 ^ 32)
    (hdvd : 2 ^ (32 - bits) ∣ n) : (!allocated.any (cidrOverlaps N (cidrText n bits))) = true ↔
      ∀ s ∈ allocated, ∀ c, N.parse s = some c → Disjoint (block (32 - bits) n) c.addrs := by
  have hparse := parse_cidrText (N := N) hn hbits
  have haddrs : (⟨n, bits, hn, hbits⟩ : Netmask.Cidr).addrs = block (32 - bits) n :=
    congrArg (block (32 - bits)) (clear_of_dvd hdvd)
  rw [Bool.not_eq_true', List.any_eq_false]
  refine forall₂_congr fun s hs => ?_
  obtain ⟨c, hc⟩ := Option.isSome_iff_exists.mp (hall s hs)
  rw [cidrOverlaps_iff hparse hc, ← Set.not_disjoint_iff_nonempty_inter, not_not, haddrs]
  refine ⟨fun h c' hc' => ?_, fun h => h c hc⟩
  cases hc.symm.trans hc'
  exact h

theorem Fits.dvd_sub (h : Fits N parent allocated bits n) :
    2 ^ (32 - bits) ∣ n - parent.netLong := by
  obtain ⟨-, hle⟩ := subset_parent_iff.mp h.inside
  have hnet := (subset_parent_iff.mp h.inside).1
  have hpow : 2 ^ (32 - bits) ≤ 2 ^ (32 - parent.bitmask) := by
    unfold Netmask.Cidr.size at hle
    omega
  have hexp := (Nat.pow_le_pow_iff_right (a := 2) (by decide)).mp hpow
  exact Nat.dvd_sub h.aligned ((Nat.pow_dvd_pow 2 hexp).trans parent.netLong_dvd)

/-- The search is an exact first fit just when the parent is large enough for
the package to give its last address. -/
theorem first_fit_exact (hp : N.parse parentCidr = some parent) (hall : ∀ s ∈ allocated, (N.parse s).isSome)
    (hbits : bits ≤ 32) :
    FirstFit N parent allocated bits (findNextAvailableSubnet N parentCidr allocated bits) ↔
      parent.bitmask ≤ 30 := by
  have hpos : 0 < 2 ^ (32 - bits) := Nat.two_pow_pos _
  have hsize : 0 < parent.size := Nat.two_pow_pos _
  have hlast := parent.last_lt
  cases hr : parentRange N parentCidr with
  | error e =>
    have hthrown : findNextAvailableSubnet N parentCidr allocated bits = .error e := by
      rw [findNextAvailableSubnet, hr]
      rfl
    have hbig : ¬ parent.bitmask ≤ 30 := by
      intro hle
      simp only [parentRange, hp, Netmask.Cidr.broadcast, if_pos hle] at hr
      cases hr
    rw [hthrown]
    refine iff_of_false ?_ hbig
    rintro (⟨n, hn, -⟩ | ⟨hn, -⟩) <;> cases hn
  | ok range =>
    have hsmall : parent.bitmask ≤ 30 := by
      by_contra hle
      simp only [parentRange, hp, Netmask.Cidr.broadcast, if_neg hle] at hr
      cases hr
    cases parentRange_ok hp hr
    refine iff_of_true ?_ hsmall
    cases hscan : scan (2 ^ (32 - bits)) (parent.netLong + parent.size - 1)
        (fun candidate => !allocated.any (cidrOverlaps N (cidrText candidate bits)))
        (parent.netLong + parent.size - 1 + 1) parent.netLong with
    | none =>
      refine .inr ⟨?_, fun n hn => ?_⟩
      · simp only [findNextAvailableSubnet, hr, bind, Except.bind, hscan]
      · obtain ⟨hnet, hle⟩ := subset_parent_iff.mp hn.inside
        have hmiss := scan_none hpos (by omega) hscan hnet hn.dvd_sub (by omega)
        rw [(free_iff hall hbits (by omega) hn.aligned).mpr hn.free] at hmiss
        cases hmiss
    | some c =>
      obtain ⟨hend, hfree, hstart, hdvd⟩ := scan_some hscan
      have hexp : 32 - bits ≤ 32 - parent.bitmask := by
        refine (Nat.pow_le_pow_iff_right (a := 2) (by decide)).mp ?_
        unfold Netmask.Cidr.size at *
        omega
      have haligned : 2 ^ (32 - bits) ∣ c :=
        hdvd _ (Nat.dvd_refl _) ((Nat.pow_dvd_pow 2 hexp).trans parent.netLong_dvd)
      refine .inl ⟨c, ?_, ⟨haligned, subset_parent_iff.mpr ⟨hstart, by omega⟩, ?_⟩, fun m hm => ?_⟩
      · obtain ⟨t, ht, heq⟩ := normalizeCidr_cidrText (N := N) c hbits
        simp only [findNextAvailableSubnet, hr, bind, Except.bind, hscan, ht]
        rw [heq.mpr haligned]
        rfl
      · exact (free_iff hall hbits (by omega) haligned).mp hfree
      · by_contra hlt
        obtain ⟨hnet, hle⟩ := subset_parent_iff.mp hm.inside
        have hmiss := scan_first hscan hnet (Nat.lt_of_not_le hlt) hm.dvd_sub
        rw [(free_iff hall hbits (by omega) hm.aligned).mpr hm.free] at hmiss
        cases hmiss

theorem first_fit_exact_office :
    FirstFit reference ⟨0x0a000000, 22, by decide, by decide⟩ ["10.0.0.0/24", "10.0.1.9/32"] 24
    (findNextAvailableSubnet reference "10.0.0.0/22" ["10.0.0.0/24", "10.0.1.9/32"] 24) :=
  (first_fit_exact (by decide +kernel) (by decide +kernel) (by decide)).mpr (by decide)

/-- A /31 has room for a /32, and the search throws. -/
theorem link_search_throws : ¬ ∀ (parentCidr : String) (parent : Netmask.Cidr) (bits : Nat),
    reference.parse parentCidr = some parent → 8 ≤ bits → bits ≤ 32 →
    FirstFit reference parent [] bits (findNextAvailableSubnet reference parentCidr [] bits) := by
  intro h
  have hfit := h "10.0.0.0/31" ⟨0x0a000000, 31, by decide, by decide⟩ 32 (by decide +kernel)
    (by decide) (by decide)
  have hthrown : findNextAvailableSubnet reference "10.0.0.0/31" [] 32 =
      .error (.thrown "Cannot read properties of undefined") := by
    decide +kernel
  rw [hthrown] at hfit
  obtain ⟨n, hn, -⟩ | ⟨hn, -⟩ := hfit <;> cases hn

end FirstFit

section Packing

variable {N : Package} {T : Type} {prefixLength : T → Nat} {parentCidr : String} {parent : Netmask.Cidr}
  {allocated : List String} {entries : List T} {requested : Nat}

theorem alignUp_le {cursor size limit : Nat} (hsize : 0 < size) (hdvd : size ∣ limit) (h : cursor ≤ limit) :
    alignUp cursor size ≤ limit := by
  rw [alignUp]
  split_ifs with hmod
  · obtain ⟨k, rfl⟩ := hdvd
    have hdiv : (cursor + size - 1) / size ≤ k := by
      rw [← Nat.lt_succ_iff, Nat.div_lt_iff_lt_mul hsize, Nat.succ_mul, Nat.mul_comm k size]
      omega
    calc (cursor + size - 1) / size * size ≤ k * size := Nat.mul_le_mul_right _ hdiv
      _ = size * k := Nat.mul_comm _ _
  · exact h

/-- Entries that run past a block hold one that starts right at its end, or
one that is larger than it. -/
theorem packFrom_exceeds {k cursor : Nat} (es : List T) (hcursor : cursor ≤ 2 ^ k)
    (h : 2 ^ k < (packFrom prefixLength cursor es).2) :
    ∃ p ∈ (packFrom prefixLength cursor es).1, (p.offset = 2 ^ k ∧ p.size ∣ 2 ^ k) ∨ 2 ^ k < p.size := by
  induction es generalizing cursor with
  | nil => exact absurd h (Nat.not_lt.mpr hcursor)
  | cons e es ih =>
    have hpos : 0 < 2 ^ (32 - prefixLength e) := Nat.two_pow_pos _
    obtain hbig | hsmall := Nat.lt_or_ge (2 ^ k) (2 ^ (32 - prefixLength e))
    · exact ⟨_, List.mem_cons_self, .inr hbig⟩
    · have hdvd : 2 ^ (32 - prefixLength e) ∣ 2 ^ k :=
        Nat.pow_dvd_pow 2 ((Nat.pow_le_pow_iff_right (a := 2) (by decide)).mp hsmall)
      have hoffset := alignUp_le hpos hdvd hcursor
      obtain heq | hlt := Nat.eq_or_lt_of_le hoffset
      · exact ⟨_, List.mem_cons_self, .inl ⟨heq, hdvd⟩⟩
      · obtain ⟨p, hp, hcase⟩ := ih (add_le_of_lt alignUp_dvd hdvd hlt) h
        exact ⟨p, List.mem_cons_of_mem _ hp, hcase⟩

/-- What a packing promises: every entry in its order has an aligned block
of its own size inside the anchor and the parent, clear of every other and
of everything allocated. -/
structure Packed (N : Package) (prefixLength : T → Nat) (parent : Netmask.Cidr) (allocated : List String)
    (entries : List T) (result : AnchoredPackResult T) : Prop where
  entries : result.assignments.map Prod.fst = entries
  prefixes : ∀ a ∈ result.assignments, ∃ c, N.parse a.2 = some c ∧ c.bitmask = prefixLength a.1
  anchored : ∃ anchor, N.parse result.anchorCidr = some anchor ∧ ∀ a ∈ result.assignments, Inside N anchor a.2
  inside : ∀ a ∈ result.assignments, Inside N parent a.2
  apart : result.assignments.Pairwise fun a b => Apart N a.2 b.2
  free : ∀ a ∈ result.assignments, ∀ s ∈ allocated, Apart N a.2 s

theorem packed_of_region (r : Region N parent allocated) (hbits : ∀ e ∈ entries, prefixLength e ≤ 32)
    (hspan : (packFrom prefixLength 0 entries).2 ≤ 2 ^ (32 - r.bits)) :
    Packed N prefixLength parent allocated entries
      ⟨(packFrom prefixLength 0 entries).1.map fun p => (p.entry,
        cidrText (r.start + p.offset) p.prefixLength),
        cidrText r.start r.bits, r.bits⟩ := by
  obtain ⟨hspec, hpair, -⟩ := packFrom_spec prefixLength 0 entries
  have hend := r.end_le
  have hpos : 0 < 2 ^ (32 - r.bits) := Nat.two_pow_pos _
  have hps : ∀ p ∈ (packFrom prefixLength 0 entries).1, p.prefixLength ≤ 32 ∧
    2 ^ (32 - p.prefixLength) ∣ r.start + p.offset ∧
      r.start + p.offset + 2 ^ (32 - p.prefixLength) ≤ r.start + 2 ^ (32 - r.bits) := by
    intro p hp
    obtain ⟨hmem, hpl, hdvd, -, hle⟩ := hspec p hp
    have hle : p.offset + 2 ^ (32 - p.prefixLength) ≤ 2 ^ (32 - r.bits) := hle.trans hspan
    have hpow : 32 - p.prefixLength ≤ 32 - r.bits := by
      refine (Nat.pow_le_pow_iff_right (a := 2) (by decide)).mp ?_
      exact (Nat.le_add_left _ _).trans hle
    exact ⟨hpl ▸ hbits p.entry hmem, Nat.dvd_add ((Nat.pow_dvd_pow 2 hpow).trans r.dvd) hdvd, by omega⟩
  have hstart : r.start < 2 ^ 32 := by omega
  let anchor : Netmask.Cidr := ⟨r.start, r.bits, hstart, r.bits_le⟩
  have hanchor : anchor.netLong = r.start := clear_of_dvd r.dvd
  constructor
  · rw [List.map_map]
    exact packFrom_entries prefixLength 0 entries
  · intro a ha
    obtain ⟨p, hp, rfl⟩ := List.mem_map.mp ha
    obtain ⟨hb, -, hle⟩ := hps p hp
    have hsize : 0 < 2 ^ (32 - p.prefixLength) := Nat.two_pow_pos _
    exact ⟨_, parse_cidrText (by omega) hb, (hspec p hp).2.1⟩
  · refine ⟨anchor, parse_cidrText hstart r.bits_le, fun a ha => ?_⟩
    obtain ⟨p, hp, rfl⟩ := List.mem_map.mp ha
    obtain ⟨hb, hdvd, hle⟩ := hps p hp
    have hsize : 0 < 2 ^ (32 - p.prefixLength) := Nat.two_pow_pos _
    refine inside_of_aligned (by omega) hb hdvd (hanchor ▸ Nat.le_add_right _ _) ?_
    rw [hanchor]
    exact hle
  · intro a ha
    obtain ⟨p, hp, rfl⟩ := List.mem_map.mp ha
    obtain ⟨hb, hdvd, hle⟩ := hps p hp
    exact r.inside hb hdvd (Nat.le_add_right _ _) hle
  · rw [List.pairwise_map]
    refine hpair.imp_of_mem fun {p q} hp hq hpq => ?_
    obtain ⟨hb, hdvd, -⟩ := hps p hp
    obtain ⟨hb', hdvd', hle'⟩ := hps q hq
    have hsize : 0 < 2 ^ (32 - q.prefixLength) := Nat.two_pow_pos _
    have hpq : p.offset + 2 ^ (32 - p.prefixLength) ≤ q.offset := hpq
    exact apart_of_le hb hb' hdvd hdvd' (by omega) (by omega)
  · intro a ha s hs
    obtain ⟨p, hp, rfl⟩ := List.mem_map.mp ha
    obtain ⟨hb, hdvd, hle⟩ := hps p hp
    exact (r.apart hb hdvd (Nat.le_add_right _ _) hle hs).symm

theorem packFrom_zero (e : T) (es : List T) : (packFrom prefixLength 0 (e :: es)).1 =
    ⟨e, 0, prefixLength e⟩ :: (packFrom prefixLength (2 ^ (32 - prefixLength e)) es).1 := by
  have hfirst : alignUp 0 (2 ^ (32 - prefixLength e)) = 0 := by
    rw [alignUp, Nat.zero_mod]
    exact if_neg (not_not_intro rfl)
  rw [packFrom, hfirst, Nat.zero_add]

theorem not_packed_of_exceeds {anchorCidr : String} {bits : Nat} (hbits : ∀ e ∈ entries, prefixLength e ≤ 32)
    (h : parent.size < (packFrom prefixLength 0 entries).2) : ¬ Packed N prefixLength parent allocated entries
      ⟨(packFrom prefixLength 0 entries).1.map fun p => (p.entry,
        cidrText (parent.netLong + p.offset) p.prefixLength),
        anchorCidr, bits⟩ := by
  intro hpacked
  obtain ⟨hspec, -, -⟩ := packFrom_spec prefixLength 0 entries
  have hlast := parent.last_lt
  have hsize : 0 < parent.size := Nat.two_pow_pos _
  have hparse : ∀ p ∈ (packFrom prefixLength 0 entries).1, ∃ c,
    N.parse (cidrText (parent.netLong + p.offset) p.prefixLength) =
      some c ∧ c.bitmask = p.prefixLength ∧ c.addr = (parent.netLong + p.offset) % 2 ^ 32 := by
    intro p hp
    obtain ⟨hmem, hpl, -⟩ := hspec p hp
    rw [← cidrText_mod]
    exact ⟨_, parse_cidrText (Nat.mod_lt _ (by decide)) (hpl ▸ hbits p.entry hmem), rfl, rfl⟩
  obtain ⟨p, hp, hcase⟩ := packFrom_exceeds entries (Nat.zero_le _) h
  obtain ⟨c, hc, hcb, hca⟩ := hparse p hp
  obtain ⟨c', hc', -, -, hsub⟩ := hpacked.inside _ (List.mem_map_of_mem hp)
  cases hc.symm.trans hc'
  have hcsize : c.size = p.size := by rw [Netmask.Cidr.size, hcb]; rfl
  obtain ⟨hoffset, hdvd⟩ | hbig := hcase
  · have hnet : c.netLong = (parent.netLong + p.offset) % 2 ^ 32 := by
      rw [Netmask.Cidr.netLong, hca]
      refine clear_of_dvd ((Nat.dvd_mod_iff (Nat.pow_dvd_pow 2 (Nat.sub_le 32 _))).mpr ?_)
      rw [hcb, hoffset]
      exact Nat.dvd_add (hdvd.trans parent.netLong_dvd) hdvd
    have hin : c.netLong ∈ parent.addrs := hsub (base_mem_block _ _)
    have hpow : p.offset = parent.size := hoffset
    obtain ⟨hlow, hhigh⟩ := hin
    have hhigh : c.netLong < parent.netLong + parent.size := hhigh
    obtain hlt | heq := Nat.lt_or_eq_of_le hlast
    · rw [hnet, hpow, Nat.mod_eq_of_lt hlt] at hhigh
      exact Nat.lt_irrefl _ hhigh
    · rw [hpow, heq, Nat.mod_self] at hnet
      have hzero : parent.netLong = 0 := Nat.le_zero.mp (hnet ▸ hlow)
      cases entries with
      | nil => exact absurd hp List.not_mem_nil
      | cons e es =>
        rw [packFrom_zero] at hp hparse
        have hapart := hpacked.apart
        rw [packFrom_zero, List.map_cons] at hapart
        obtain rfl | htail := List.mem_cons.mp hp
        · exact absurd hpow (Nat.ne_of_lt hsize)
        · obtain ⟨c₀, hc₀, -, ha₀⟩ := hparse _ List.mem_cons_self
          have hnet₀ : c₀.netLong = 0 := by
            rw [Netmask.Cidr.netLong, ha₀, hzero]
            exact Nat.le_zero.mp (clear_le _ _)
          have hdis := (List.pairwise_cons.mp hapart).1 _ (List.mem_map_of_mem htail) c₀ c hc₀ hc
          have hboth := Set.disjoint_left.mp hdis (base_mem_block _ c₀.netLong)
          exact hboth (hnet₀.trans hnet.symm ▸ base_mem_block _ c.netLong)
  · have hpos : 0 < c.size := Nat.two_pow_pos _
    have hend : c.netLong + c.size - 1 ∈ c.addrs := ⟨by omega, Nat.sub_lt (by omega) Nat.one_pos⟩
    have hlow := (hsub (base_mem_block _ _)).1
    have hhigh : c.netLong + c.size - 1 < parent.netLong + parent.size := (hsub hend).2
    have hbig : parent.size < p.size := hbig
    omega

theorem packIntoAnchor_some {result : AnchoredPackResult T} (hp : N.parse parentCidr = some parent)
    (hparent : parent.bitmask ≤ 30) (hne : entries ≠ []) :
    packIntoAnchor N prefixLength parentCidr allocated entries requested = .ok (some result) ↔
    ∃ c, scan (2 ^ (32 - effectiveAnchor requested
      (32 - (Nat.clog 2 (packFrom prefixLength 0 entries).2 : Int)) parent.bitmask))
        (parent.netLong + parent.size - 1)
          (fun candidate => !allocated.any (cidrOverlaps N (cidrText candidate
          (effectiveAnchor requested
            (32 - (Nat.clog 2 (packFrom prefixLength 0 entries).2 : Int)) parent.bitmask))))
        (parent.netLong + parent.size - 1 + 1) parent.netLong = some c ∧
      result = ⟨(packFrom prefixLength 0 entries).1.map fun p => (p.entry,
        cidrText (c + p.offset) p.prefixLength),
        cidrText c (effectiveAnchor requested (32 - (Nat.clog 2 (packFrom prefixLength 0 entries).2 : Int))
          parent.bitmask),
        effectiveAnchor requested (32 - (Nat.clog 2 (packFrom prefixLength 0 entries).2 : Int))
          parent.bitmask⟩ := by
  have hempty : entries.isEmpty = false := by simpa using hne
  cases hr : parentRange N parentCidr with
  | error e =>
    simp only [parentRange, hp, Netmask.Cidr.broadcast, if_pos hparent] at hr
    cases hr
  | ok range =>
    cases parentRange_ok hp hr
    simp only [packIntoAnchor, hempty, hr, bind, Except.bind, packTemplateEntries, if_neg hne,
      Bool.false_eq_true,
      if_false]
    split
    next c hc =>
      rw [hc]
      constructor
      · intro h
        cases h
        exact ⟨c, rfl, rfl⟩
      · rintro ⟨c', hc', heq⟩
        cases hc'
        rw [heq]
    next hc =>
      rw [hc]
      constructor
      · intro h
        cases h
      · rintro ⟨c', hc', -⟩
        cases hc'

/-- A packing keeps its promises just when the template fits the parent, or
the parent is not free to be the anchor anyway. -/
theorem packing_sound (hp : N.parse parentCidr = some parent) (hparent : parent.bitmask ≤ 30)
    (hall : ∀ s ∈ allocated, (N.parse s).isSome) (hne : entries ≠ [])
    (hbits : ∀ e ∈ entries, prefixLength e ≤ 32)
    (hrequested : requested ≤ 32) :
    (∀ result, packIntoAnchor N prefixLength parentCidr allocated entries requested = .ok (some result) →
      Packed N prefixLength parent allocated entries result) ↔
    ((packTemplateEntries prefixLength entries).totalSpan ≤ parent.size ∨
      ∃ s ∈ allocated, cidrOverlaps N parentCidr s = true) := by
  have hspan : (packTemplateEntries prefixLength entries).totalSpan =
    (packFrom prefixLength 0 entries).2 := by
    rw [packTemplateEntries, if_neg hne]
  have hanchor := effectiveAnchor_cases requested (packFrom prefixLength 0 entries).2 parent.bitmask_le
  have hsize : 0 < parent.size := Nat.two_pow_pos _
  have hbase : (!allocated.any (cidrOverlaps N (cidrText parent.netLong parent.bitmask))) = true ↔
      ∀ s ∈ allocated, cidrOverlaps N parentCidr s = false := by
    rw [free_iff hall parent.bitmask_le parent.netLong_lt parent.netLong_dvd]
    refine forall₂_congr fun s hs => ?_
    obtain ⟨c, hc⟩ := Option.isSome_iff_exists.mp (hall s hs)
    refine ⟨fun h => not_overlaps_of_disjoint hp hc (h c hc),
      fun h c' hc' => disjoint_of_not_overlaps hp hc' h⟩
  rw [hspan]
  constructor
  · intro h
    by_contra hnot
    obtain ⟨hlong, hclear⟩ := not_or.mp hnot
    have hclamped := hanchor.resolve_left fun hle => hlong (hle.trans ?_)
    · have hfree := hbase.mpr fun s hs => Bool.eq_false_iff.mpr fun ho => hclear ⟨s, hs, ho⟩
      refine not_packed_of_exceeds hbits (Nat.lt_of_not_le hlong)
        (h _ ((packIntoAnchor_some hp hparent hne).mpr
        ⟨parent.netLong, ?_, rfl⟩))
      have hend : parent.netLong + 2 ^ (32 - parent.bitmask) - 1 ≤ parent.netLong + parent.size - 1 :=
        Nat.le_refl _
      rw [hclamped, scan, if_pos hend]
      exact if_pos hfree
    · exact Nat.pow_le_pow_right (by decide) (Nat.sub_le_sub_left (le_effectiveAnchor _ _ _) 32)
  · intro h result hresult
    obtain ⟨c, hscan, rfl⟩ := (packIntoAnchor_some hp hparent hne).mp hresult
    obtain ⟨r, rfl, hrbits⟩ := region_of_scan (le_effectiveAnchor _ _ _)
      (effectiveAnchor_le hrequested parent.bitmask_le) rfl hscan
    rw [← hrbits]
    refine packed_of_region r hbits ?_
    obtain hle | hclamped := hanchor
    · exact hrbits ▸ hle
    · rw [hrbits, hclamped]
      refine h.resolve_right ?_
      rintro ⟨s, hs, ho⟩
      have hstart : r.start = parent.netLong := by
        have habove := r.above
        have hbelow := r.below
        rw [hrbits, hclamped] at hbelow
        unfold Netmask.Cidr.size at hbelow
        omega
      have hfree := (scan_some hscan).2.1
      rw [hclamped, hstart] at hfree
      rw [hbase.mp hfree s hs] at ho
      cases ho

theorem packing_sound_site : Packed reference id ⟨0x0a000000, 22, by decide, by decide⟩ ["10.0.0.0/24"]
    [25, 26]
    ⟨[(25, "10.0.1.0/25"), (26, "10.0.1.128/26")], "10.0.1.0/24", 24⟩ :=
  (packing_sound (by decide +kernel) (by decide) (by decide +kernel) (by decide) (by decide) (by decide)).mpr
    (.inl (by decide +kernel)) _ (show
      packIntoAnchor reference id "10.0.0.0/22" ["10.0.0.0/24"] [25, 26] 24 = _ by decide +kernel)

/-- Two blocks of the size of the parent are put in it side by side. -/
theorem oversized_group_leaves_parent : ¬ ∀ (parentCidr : String) (parent : Netmask.Cidr) (entries : List Nat)
    (requested : Nat), reference.parse parentCidr = some parent → parent.bitmask ≤ 30 → entries ≠ [] →
    (∀ e ∈ entries, 8 ≤ e ∧ e ≤ 32) → 8 ≤ requested → requested ≤ 32 →
    ∀ result, packIntoAnchor reference id parentCidr [] entries requested = .ok (some result) →
      Packed reference id parent [] entries result := by
  intro h
  have hpacked := h "10.0.0.0/24" ⟨0x0a000000, 24, by decide, by decide⟩ [24, 24] 24 (by decide +kernel)
    (by decide) (by decide) (by decide) (by decide) (by decide)
    ⟨[(24, "10.0.0.0/24"), (24, "10.0.1.0/24")], "10.0.0.0/24", 24⟩ (by decide +kernel)
  obtain ⟨c, hc, -, -, hsub⟩ := hpacked.inside (24, "10.0.1.0/24") (by decide)
  have hparse : reference.parse "10.0.1.0/24" = some ⟨0x0a000100, 24, by decide, by decide⟩ := by
    decide +kernel
  cases hc.symm.trans hparse
  have hin := hsub (base_mem_block _ _)
  revert hin
  simp only [Netmask.Cidr.addrs, Netmask.Cidr.netLong, block, clear, Set.mem_Ico]
  decide

end Packing

end Polaris.CidrFirstFit
