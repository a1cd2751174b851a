import Polaris.CidrPlacement
import Polaris.SubnetService
import Polaris.Lib.Checks

namespace Polaris.SubnetPlan

open Polaris.Lib.Checks Polaris.Lib.PrefixBlock Polaris.Netmask Polaris.Cidr
open Polaris.CidrAllocation Polaris.CidrPlacement Polaris.SubnetService

variable {N : Package} {parent : Netmask.Cidr}

theorem apart_of_le {m n p q : Nat} (hp : p ≤ 32) (hq : q ≤ 32) (hm : 2 ^ (32 - p) ∣ m)
    (hn : 2 ^ (32 - q) ∣ n) (hlt : n < 2 ^ 32) (h : m + 2 ^ (32 - p) ≤ n) :
    Apart N (cidrText m p) (cidrText n q) := by
  have hpos : 0 < 2 ^ (32 - p) := Nat.two_pow_pos _
  intro cs ct hcs hct
  rw [parse_cidrText (by omega) hp] at hcs
  rw [parse_cidrText hlt hq] at hct
  cases hcs
  cases hct
  rw [Set.disjoint_left]
  rintro x ⟨_, h1⟩ ⟨h2, _⟩
  simp only [Netmask.Cidr.netLong, clear_of_dvd hm] at h1
  simp only [Netmask.Cidr.netLong, clear_of_dvd hn] at h2
  omega

/-- The region a template was placed in: one aligned block of the parent
that no existing CIDR overlaps. -/
structure Region (N : Package) (parent : Netmask.Cidr) (existing : List String) where
  start : Nat
  bits : Nat
  bits_le : bits ≤ 32
  dvd : 2 ^ (32 - bits) ∣ start
  above : parent.netLong ≤ start
  below : start + 2 ^ (32 - bits) ≤ parent.netLong + parent.size
  free : ∀ s ∈ existing, cidrOverlaps N (cidrText start bits) s = false

namespace Region

variable {existing : List String} (r : Region N parent existing)

theorem end_le : r.start + 2 ^ (32 - r.bits) ≤ 2 ^ 32 := r.below.trans parent.last_lt

/-- A block inside the region is inside the parent and clear of every
existing CIDR. -/
theorem apart {n p : Nat} (hp : p ≤ 32) (hd : 2 ^ (32 - p) ∣ n) (hl : r.start ≤ n)
    (hr : n + 2 ^ (32 - p) ≤ r.start + 2 ^ (32 - r.bits)) {s : String} (hs : s ∈ existing) :
    Apart N s (cidrText n p) := by
  have hend := r.end_le
  have hpos : 0 < 2 ^ (32 - p) := Nat.two_pow_pos _
  have hpos' : 0 < 2 ^ (32 - r.bits) := Nat.two_pow_pos _
  have hstart : r.start < 2 ^ 32 := by omega
  intro cs ct hcs hct
  rw [parse_cidrText (by omega) hp] at hct
  cases hct
  have hdis := disjoint_of_not_overlaps (parse_cidrText hstart r.bits_le) hcs (r.free s hs)
  refine (hdis.mono_left ?_).symm
  rintro x ⟨h1, h2⟩
  simp only [Netmask.Cidr.netLong, clear_of_dvd hd] at h1 h2
  simp only [Netmask.Cidr.addrs, Netmask.Cidr.netLong, clear_of_dvd r.dvd]
  exact ⟨by omega, by omega⟩

theorem inside {n p : Nat} (hp : p ≤ 32) (hd : 2 ^ (32 - p) ∣ n) (hl : r.start ≤ n)
    (hr : n + 2 ^ (32 - p) ≤ r.start + 2 ^ (32 - r.bits)) : Inside N parent (cidrText n p) := by
  have hend := r.end_le
  have hpos : 0 < 2 ^ (32 - p) := Nat.two_pow_pos _
  exact inside_of_aligned (by omega) hp hd (r.above.trans hl) (hr.trans r.below)

def cidr (p : PackedEntry BulkAllocateEntry) : String :=
  cidrText (r.start + p.offset) p.prefixLength

/-- Packed entries that end inside the region form a plan of their own,
clear of the existing one. -/
theorem placed {ps : List (PackedEntry BulkAllocateEntry)}
    (hps : ∀ p ∈ ps, p.prefixLength ≤ 32 ∧ p.size ∣ p.offset ∧ p.offset + p.size ≤ 2 ^ (32 - r.bits))
    (hpair : ps.Pairwise (fun p q => p.offset + p.size ≤ q.offset)) :
    Placed N parent (ps.map r.cidr) ∧ ∀ s ∈ existing, ∀ t ∈ ps.map r.cidr, Apart N s t := by
  have hend := r.end_le
  have hdvd : ∀ p ∈ ps, p.size ∣ r.start + p.offset := by
    intro p hp
    obtain ⟨_, hd, hle⟩ := hps p hp
    have hpow : 32 - p.prefixLength ≤ 32 - r.bits := by
      refine (Nat.pow_le_pow_iff_right (a := 2) (by decide)).mp ?_
      exact (Nat.le_add_left _ _).trans hle
    exact Nat.dvd_add ((Nat.pow_dvd_pow 2 hpow).trans r.dvd) hd
  refine ⟨⟨?_, ?_⟩, ?_⟩
  · intro s hs
    obtain ⟨p, hp, rfl⟩ := List.mem_map.mp hs
    obtain ⟨hb, _, hle⟩ := hps p hp
    unfold PackedEntry.size at hle
    exact r.inside hb (hdvd p hp) (Nat.le_add_right _ _) (by omega)
  · rw [List.pairwise_map]
    refine hpair.imp_of_mem ?_
    intro p q hp hq hpq
    have hq' := hps q hq
    have hpos : 0 < q.size := Nat.two_pow_pos _
    unfold PackedEntry.size at hpq
    exact apart_of_le (hps p hp).1 hq'.1 (hdvd p hp) (hdvd q hq) (by omega) (by omega)
  · intro s hs t ht
    obtain ⟨p, hp, rfl⟩ := List.mem_map.mp ht
    obtain ⟨hb, _, hle⟩ := hps p hp
    unfold PackedEntry.size at hle
    exact r.apart hb (hdvd p hp) (Nat.le_add_right _ _) (by omega) hs

end Region

/-- Every creatable entry of the template ends inside the block. -/
def TemplateFits (parent : Netmask.Cidr) (entries : List BulkAllocateEntry) : Prop :=
  ∀ p ∈ (packTemplateEntries BulkAllocateEntry.bits entries).packed,
    p.entry.skip = false → p.offset + p.size ≤ parent.size

instance (parent : Netmask.Cidr) (entries : List BulkAllocateEntry) :
    Decidable (TemplateFits parent entries) := by
  unfold TemplateFits
  infer_instance

theorem effectiveAnchor_le {req bits : Nat} {cp : Int} (hr : req ≤ 32) (hb : bits ≤ 32) :
    effectiveAnchor req cp bits ≤ 32 := by
  unfold effectiveAnchor
  omega

theorem le_effectiveAnchor (req bits : Nat) (cp : Int) : bits ≤ effectiveAnchor req cp bits :=
  Nat.le_max_right _ _

theorem effectiveAnchor_cases (req span : Nat) {bits : Nat} (hb : bits ≤ 32) :
    span ≤ 2 ^ (32 - effectiveAnchor req (32 - (Nat.clog 2 span : Int)) bits) ∨
      effectiveAnchor req (32 - (Nat.clog 2 span : Int)) bits = bits := by
  by_cases h : (bits : Int) ≤ 32 - Nat.clog 2 span
  · left
    have hk : Nat.clog 2 span ≤ 32 - effectiveAnchor req (32 - (Nat.clog 2 span : Int)) bits := by
      unfold effectiveAnchor
      omega
    exact (Nat.le_pow_clog (by decide) span).trans (Nat.pow_le_pow_right (by decide) hk)
  · right
    unfold effectiveAnchor
    omega

theorem region_of_scan {existing : List String} {bits endInt fuel c : Nat} (hle : parent.bitmask ≤ bits)
    (hb : bits ≤ 32) (hend : endInt = parent.netLong + parent.size - 1)
    (h : scan (2 ^ (32 - bits)) endInt
      (fun k => !existing.any (cidrOverlaps N (cidrText k bits))) fuel parent.netLong = some c) :
    ∃ r : Region N parent existing, r.start = c ∧ r.bits = bits := by
  obtain ⟨hlast, hfree, hstart, hdvd⟩ := scan_some h
  have hsize : 0 < parent.size := Nat.two_pow_pos _
  have hd : 2 ^ (32 - bits) ∣ c := hdvd _ (Nat.dvd_refl _)
    ((Nat.pow_dvd_pow 2 (by omega)).trans parent.netLong_dvd)
  refine ⟨⟨c, bits, hb, hd, hstart, by omega, ?_⟩, rfl, rfl⟩
  simpa using hfree

theorem packed_nonempty {entries : List BulkAllocateEntry} (h : entries ≠ []) :
    packTemplateEntries BulkAllocateEntry.bits entries =
      ⟨(packFrom BulkAllocateEntry.bits 0 entries).1, (packFrom BulkAllocateEntry.bits 0 entries).2,
        32 - (Nat.clog 2 (packFrom BulkAllocateEntry.bits 0 entries).2 : Int)⟩ := by
  simp only [packTemplateEntries, if_neg h]

theorem Region.bits_ne {existing : List String} (r : Region N parent existing)
    (hex : ∀ s ∈ existing, Within N parent s) (hne : existing ≠ []) : r.bits ≠ parent.bitmask := by
  intro hbits
  obtain ⟨s, hs⟩ := List.exists_mem_of_ne_nil existing hne
  obtain ⟨c, hc, hsub⟩ := hex s hs
  have hend := r.end_le
  have hpos : 0 < 2 ^ (32 - r.bits) := Nat.two_pow_pos _
  have hsz : parent.size = 2 ^ (32 - r.bits) := by rw [hbits]; rfl
  have heq : r.start = parent.netLong := by
    have h1 := r.above
    have h2 := r.below
    omega
  have hm := hsub (base_mem_block _ c.netLong)
  have hmem : c.netLong ∈ (⟨r.start, r.bits, by omega, r.bits_le⟩ : Netmask.Cidr).addrs := by
    change c.netLong ∈ block (32 - r.bits) (clear (32 - r.bits) r.start)
    rw [clear_of_dvd r.dvd, heq, hbits]
    exact hm
  have := overlaps_of_base_mem (parse_cidrText (N := N) (by omega) r.bits_le) hc hmem
  rw [r.free s hs] at this
  cases this

/-- What a successful packing placed: a free region of the parent that
contains every creatable entry at its packed offset. -/
theorem packIntoAnchor_region {blockCidr : String} {existing : List String}
    {entries : List BulkAllocateEntry} {req : Nat} {res : AnchoredPackResult BulkAllocateEntry}
    (hp : N.parse blockCidr = some parent) (hreq : req ≤ 32) (hne : entries ≠ [])
    (hex : ∀ s ∈ existing, Within N parent s) (hfit : existing = [] → TemplateFits parent entries)
    (h : packIntoAnchor N BulkAllocateEntry.bits blockCidr existing entries req = .ok (some res)) :
    ∃ r : Region N parent existing,
      res.assignments = (packFrom BulkAllocateEntry.bits 0 entries).1.map
        (fun p => (p.entry, r.cidr p)) ∧
      ∀ p ∈ (packFrom BulkAllocateEntry.bits 0 entries).1, p.entry.skip = false →
        p.offset + p.size ≤ 2 ^ (32 - r.bits) := by
  have hemp : entries.isEmpty = false := by simpa using hne
  cases hr : parentRange N blockCidr with
  | error e => simp [packIntoAnchor, hemp, hr, bind, Except.bind] at h
  | ok q =>
    cases parentRange_ok hp hr
    simp only [packIntoAnchor, hemp, hr, bind, Except.bind, packed_nonempty hne,
      Bool.false_eq_true, if_false] at h
    split at h
    · rename_i c hscan
      cases h
      obtain ⟨r, rfl, hbits⟩ := region_of_scan (le_effectiveAnchor _ _ _)
        (effectiveAnchor_le hreq parent.bitmask_le) rfl hscan
      refine ⟨r, rfl, fun p hpm hskip => ?_⟩
      obtain hspan | hclamp := effectiveAnchor_cases req
        (packFrom BulkAllocateEntry.bits 0 entries).2 parent.bitmask_le
      · rw [hbits]
        exact ((packFrom_spec BulkAllocateEntry.bits 0 entries).1 p hpm).2.2.2.2.trans hspan
      · have hpb : r.bits = parent.bitmask := hbits.trans hclamp
        have hnil : existing = [] := by
          by_contra hex'
          exact r.bits_ne hex hex' hpb
        have := hfit hnil p (by rw [packed_nonempty hne]; exact hpm) hskip
        rwa [hpb]
    · cases h

theorem checkBulk_ok {input : BulkAllocateInput} {req : Nat} (h : checkBulk input = .ok req) :
    req ≤ 32 ∧ input.entries ≠ [] ∧ ∀ e ∈ input.entries, e.bits ≤ 32 := by
  simp only [checkBulk] at h
  split_ifs at h with _ hne hreq hskip
  · obtain ⟨_, _, h⟩ := bind_ok h
    cases h
  · obtain ⟨⟨⟩, hes, h⟩ := bind_ok h
    cases h
    refine ⟨by omega, hne, fun e he => ?_⟩
    have hc := forM_ok hes e he
    unfold checkEntry at hc
    split_ifs at hc with h3 h4
    unfold BulkAllocateEntry.bits
    omega

theorem planBulk_blockId {block : IpBlock} {existing : List String} {input : BulkAllocateInput}
    {req : Nat} {rows : List SubnetData} (h : planBulk N block existing input req = .ok rows) :
    ∀ row ∈ rows, row.blockId = input.blockId := by
  intro row hrow
  obtain ⟨res, _, h⟩ := bind_ok h
  cases res with
  | none => cases h
  | some res =>
    obtain ⟨⟨⟩, _, h⟩ := bind_ok h
    obtain ⟨a, _, ha⟩ := forall₂_exists_left (mapM_ok h) hrow
    obtain ⟨_, _, hr⟩ := bind_ok ha
    cases hr
    rfl

theorem bulkRow_cidr {input : BulkAllocateInput} {a : BulkAllocateEntry × String} {row : SubnetData}
    (hn : normalizeCidr N a.2 = .ok a.2) (h : bulkRow N input a = .ok row) : row.cidr = a.2 := by
  rw [bulkRow, hn] at h
  cases h
  rfl

/-- The rows of a template are placed in the block and clear of every
subnet already there. -/
theorem planBulk_placed {block : IpBlock} {existing : List String} {input : BulkAllocateInput}
    {req : Nat} {rows : List SubnetData} (hp : N.parse block.cidr = some parent)
    (hcheck : checkBulk input = .ok req) (hex : ∀ s ∈ existing, Inside N parent s)
    (hfit : existing = [] → TemplateFits parent input.entries)
    (h : planBulk N block existing input req = .ok rows) :
    Placed N parent (rows.map (·.cidr)) ∧
      ∀ s ∈ existing, ∀ t ∈ rows.map (·.cidr), Apart N s t := by
  obtain ⟨hreq, hne, hbits⟩ := checkBulk_ok hcheck
  obtain ⟨res, hpack, h⟩ := bind_ok h
  cases res with
  | none => cases h
  | some res =>
    obtain ⟨⟨⟩, _, h⟩ := bind_ok h
    obtain ⟨r, hassign, hend⟩ := packIntoAnchor_region hp hreq hne (fun s hs => (hex s hs).within) hfit hpack
    obtain ⟨hspec, hpair, _⟩ := packFrom_spec BulkAllocateEntry.bits 0 input.entries
    let ps := (packFrom BulkAllocateEntry.bits 0 input.entries).1.filter (fun p => !p.entry.skip)
    have hps : ∀ p ∈ ps, p.prefixLength ≤ 32 ∧ p.size ∣ p.offset ∧
        p.offset + p.size ≤ 2 ^ (32 - r.bits) := by
      intro p hpm
      obtain ⟨hpm, hskip⟩ := List.mem_filter.mp hpm
      obtain ⟨hmem, hpl, hdvd, _, _⟩ := hspec p hpm
      exact ⟨hpl ▸ hbits p.entry hmem, hdvd, hend p hpm (by simpa using hskip)⟩
    have hplaced := r.placed hps (hpair.sublist List.filter_sublist)
    have hrows : res.assignments.filter (fun a => !a.1.skip) = ps.map (fun p => (p.entry, r.cidr p)) := by
      rw [hassign, List.filter_map]
      rfl
    rw [hrows] at h
    have hcidr : rows.map (·.cidr) = ps.map r.cidr := by
      rw [forall₂_map_eq (f := Prod.snd) (mapM_ok h), List.map_map]
      · rfl
      · intro a ha row hrow
        obtain ⟨p, hpm, rfl⟩ := List.mem_map.mp ha
        obtain ⟨_, _, _, hn, _⟩ := hplaced.1.1 (r.cidr p) (List.mem_map_of_mem hpm)
        exact bulkRow_cidr hn hrow
    rwa [hcidr]

end Polaris.SubnetPlan
