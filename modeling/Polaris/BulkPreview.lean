import Polaris.SubnetPlan

namespace Polaris.BulkPreview

open Polaris.Lib.Checks Polaris.Lib.PrefixBlock Polaris.Netmask Polaris.Cidr Polaris.CidrAllocation
  Polaris.CidrPlacement Polaris.SubnetService Polaris.SubnetPlan

section Results

structure CreatedSubnet where
  id : Nat
  name : String
  cidr : String

structure BulkAllocateResult where
  created : List CreatedSubnet
  anchorCidr : String
  effectiveAnchorPrefix : Nat

variable (N : Package)

def noRegion (block : IpBlock) (requestedAnchor : Nat) : Failure :=
  .app 409 s!"No free /{requestedAnchor}-aligned region in block {block.cidr} large enough to hold the template"

def createdRows (db : Db) (rows : List SubnetData) : List CreatedSubnet :=
  rows.mapIdx fun i row => ⟨db.nextId + i, row.name, row.cidr⟩

def allocatePacked (db : Db) (block : IpBlock) (input : BulkAllocateInput) (requestedAnchor : Nat) :
    Option (AnchoredPackResult BulkAllocateEntry) → Except Failure (Db × BulkAllocateResult)
  | none => .error (noRegion block requestedAnchor)
  | some packed => do
    let rows := packed.assignments.filter (fun a => !a.1.skip)
    checkAssignments N (db.cidrsOf input.blockId) rows
    let data ← rows.mapM (bulkRow N input)
    return (db.createAll data,
      ⟨createdRows db data, packed.anchorCidr, packed.effectiveAnchorPrefix⟩)

/-- `bulkAllocate` with what it returns to the caller. -/
def bulkAllocateResult (db : Db) (input : BulkAllocateInput) :
    Except Failure (Db × BulkAllocateResult) := do
  let requestedAnchor ← checkBulk input
  let block ← db.findBlock input.blockId
  checkV4 block
  let packed ← packIntoAnchor N BulkAllocateEntry.bits block.cidr (db.cidrsOf input.blockId)
    input.entries requestedAnchor
  allocatePacked N db block input requestedAnchor packed

theorem bulkAllocate_eq (db : Db) (input : BulkAllocateInput) :
    bulkAllocate N db input = Prod.fst <$> bulkAllocateResult N db input := by
  unfold bulkAllocate bulkAllocateResult planBulk allocatePacked noRegion
  cases checkBulk input with
  | error e => rfl
  | ok req =>
    cases db.findBlock input.blockId with
    | error e => rfl
    | ok block =>
      dsimp only [bind, Except.bind]
      cases checkV4 block with
      | error e => rfl
      | ok u =>
        dsimp only
        cases packIntoAnchor N BulkAllocateEntry.bits block.cidr (db.cidrsOf input.blockId)
          input.entries req with
        | error e => rfl
        | ok packed =>
          cases packed with
          | none => rfl
          | some packed =>
            dsimp only
            cases checkAssignments N (db.cidrsOf input.blockId)
              (packed.assignments.filter fun a => !a.1.skip) with
            | error e => rfl
            | ok u =>
              dsimp only
              cases (packed.assignments.filter fun a => !a.1.skip).mapM (bulkRow N input) <;> rfl

structure BulkAllocatePreviewInput where
  blockId : String
  entries : List BulkAllocateEntry
  anchorPrefix : Option Int := none

structure PreviewAssignment where
  name : Option String
  skip : Bool
  prefixLength : Int
  cidr : Option String

structure BulkAllocatePreviewResult where
  fits : Bool
  anchorCidr : Option String
  effectiveAnchorPrefix : Option Nat
  assignments : List PreviewAssignment
  totalAddresses : Nat
  slashTwentyFourCount : Nat
  blockCidr : String
  error : Option String

def totalAddresses (entries : List BulkAllocateEntry) : Nat :=
  (entries.map fun e => 2 ^ (32 - e.bits)).sum

def previewAssignment (e : BulkAllocateEntry) (cidr : Option String) : PreviewAssignment :=
  ⟨if e.skip then none else e.name, e.skip, e.prefixLength, cidr⟩

def previewEmpty (block : IpBlock) (total : Nat) (assignments : List PreviewAssignment)
    (error : Option String) : BulkAllocatePreviewResult :=
  ⟨false, none, none, assignments, total, (total + 255) / 256, block.cidr, error⟩

def previewPacked (block : IpBlock) (entries : List BulkAllocateEntry) (total : Nat) :
    Option (AnchoredPackResult BulkAllocateEntry) → BulkAllocatePreviewResult
  | none => previewEmpty block total (entries.map fun e => previewAssignment e none) none
  | some packed =>
    ⟨true, some packed.anchorCidr, some packed.effectiveAnchorPrefix,
      packed.assignments.map fun a => previewAssignment a.1 (some a.2),
      total, (total + 255) / 256, block.cidr, none⟩

def previewBulkAllocate (db : Db) (input : BulkAllocatePreviewInput) :
    Except Failure BulkAllocatePreviewResult := do
  let requestedAnchor := input.anchorPrefix.getD 24
  if requestedAnchor < 8 ∨ 32 < requestedAnchor then
    throw (.app 400 "Anchor prefix must be between /8 and /32")
  let block ← db.findBlock input.blockId
  if input.entries.any fun e => e.prefixLength < 8 || 32 < e.prefixLength then
    return previewEmpty block 0 [] (some "An entry has an invalid prefix length")
  let total := totalAddresses input.entries
  if block.ipVersion ≠ .v4 then
    return previewEmpty block total []
      (some "Auto-allocation is currently only supported for IPv4 blocks")
  if input.entries = [] then
    return previewEmpty block total [] none
  let packed ← packIntoAnchor N BulkAllocateEntry.bits block.cidr (db.cidrsOf input.blockId)
    input.entries requestedAnchor.toNat
  return previewPacked block input.entries total packed

end Results

section Agreement

variable {N : Package} {db : Db} {input : BulkAllocateInput} {req : Nat} {block : IpBlock}
  {parent : Netmask.Cidr}

def previewInput (input : BulkAllocateInput) : BulkAllocatePreviewInput :=
  ⟨input.blockId, input.entries, input.anchorPrefix⟩

variable (N db input) in
/-- The preview fits exactly when the allocation goes through, and then it
shows the CIDRs that are created and the anchor they are in. -/
def Agrees : Prop :=
  ((∃ p, previewBulkAllocate N db (previewInput input) = .ok p ∧ p.fits = true) ↔
      ∃ r, bulkAllocateResult N db input = .ok r) ∧
    ∀ p r, previewBulkAllocate N db (previewInput input) = .ok p → bulkAllocateResult N db input = .ok r →
      ((p.assignments.filter fun a => !a.skip).map (·.cidr) = r.2.created.map fun c => some c.cidr) ∧
        p.anchorCidr = some r.2.anchorCidr ∧
        p.effectiveAnchorPrefix = some r.2.effectiveAnchorPrefix

theorem checkBulk_inputs (h : checkBulk input = .ok req) :
    ¬ (input.anchorPrefix.getD 24 < 8 ∨ 32 < input.anchorPrefix.getD 24) ∧
      req = (input.anchorPrefix.getD 24).toNat ∧
      (input.entries.any fun e => e.prefixLength < 8 || 32 < e.prefixLength) = false := by
  simp only [checkBulk] at h
  split_ifs at h with _ hne hreq hskip
  · obtain ⟨_, _, h⟩ := bind_ok h
    cases h
  · obtain ⟨⟨⟩, hes, h⟩ := bind_ok h
    cases h
    refine ⟨hreq, rfl, List.any_eq_false.mpr fun e he hbad => ?_⟩
    have hc := forM_ok hes e he
    unfold checkEntry at hc
    rw [if_pos (by simpa using hbad)] at hc
    cases hc

variable (N) in
theorem preview_eq (hcheck : checkBulk input = .ok req) (hblock : db.findBlock input.blockId = .ok block)
    (hv4 : block.ipVersion = .v4) :
    previewBulkAllocate N db (previewInput input) =
      (packIntoAnchor N BulkAllocateEntry.bits block.cidr (db.cidrsOf input.blockId) input.entries
        req).map (previewPacked block input.entries (totalAddresses input.entries)) := by
  obtain ⟨hanchor, rfl, hvalid⟩ := checkBulk_inputs hcheck
  obtain ⟨-, hne, -⟩ := checkBulk_ok hcheck
  simp only [previewBulkAllocate, previewInput, if_neg hanchor, hblock, hvalid, hv4, hne,
    bind, Except.bind, pure, Except.pure, ne_eq, not_true_eq_false, if_false, Bool.false_eq_true]
  cases packIntoAnchor N BulkAllocateEntry.bits block.cidr (db.cidrsOf input.blockId) input.entries
    (input.anchorPrefix.getD 24).toNat <;> rfl

theorem checkAssignments_ok {existing : List String} {rows : List (BulkAllocateEntry × String)}
    (h : ∀ a ∈ rows, ∀ s ∈ existing, cidrOverlaps N s a.2 = false) :
    checkAssignments N existing rows = .ok () := by
  unfold checkAssignments
  induction rows with
  | nil => rfl
  | cons a rows ih =>
    have hnone : existing.find? (fun s => cidrOverlaps N s a.2) = none :=
      List.find?_eq_none.mpr fun s hs => by simp [h a (by simp) s hs]
    rw [List.forM, hnone]
    exact ih fun b hb => h b (by simp [hb])

variable (input) in
/-- Rows whose CIDRs can be normalized are all created, and under the CIDRs
they were planned with only if normalizing leaves these alone. -/
theorem mapM_bulkRow {rows : List (BulkAllocateEntry × String)}
    (h : ∀ a ∈ rows, ∃ t, normalizeCidr N a.2 = .ok t) :
    ∃ data, rows.mapM (bulkRow N input) = .ok data ∧
      (data.map (·.cidr) = rows.map (·.2) ↔ ∀ a ∈ rows, normalizeCidr N a.2 = .ok a.2) := by
  induction rows with
  | nil => exact ⟨[], rfl, by simp⟩
  | cons a rows ih =>
    obtain ⟨t, ht⟩ := h a (by simp)
    obtain ⟨data, hdata, hiff⟩ := ih fun b hb => h b (by simp [hb])
    obtain ⟨row, hrow, hcidr⟩ : ∃ row, bulkRow N input a = .ok row ∧ row.cidr = t := by
      rw [bulkRow, ht]
      exact ⟨_, rfl, rfl⟩
    refine ⟨row :: data, ?_, ?_⟩
    · rw [List.mapM_cons, hdata, hrow]
      rfl
    · rw [List.map_cons, List.map_cons, List.cons.injEq, hiff, List.forall_mem_cons, ht,
        Except.ok.injEq, hcidr]

theorem created_cidrs (db : Db) (data : List SubnetData) :
    (createdRows db data).map (fun c => some c.cidr) = data.map fun row => some row.cidr := by
  refine List.ext_getElem (by simp [createdRows]) fun i _ _ => ?_
  simp [createdRows]

theorem preview_cidrs (block : IpBlock) (entries : List BulkAllocateEntry) (total : Nat)
    (packed : AnchoredPackResult BulkAllocateEntry) :
    ((previewPacked block entries total (some packed)).assignments.filter fun a => !a.skip).map (·.cidr) =
      (packed.assignments.filter fun a => !a.1.skip).map fun a => some a.2 := by
  simp only [previewPacked, List.filter_map, List.map_map]
  rfl

section Packed

variable (hcheck : checkBulk input = .ok req) (hblock : db.findBlock input.blockId = .ok block)
  (hv4 : block.ipVersion = .v4)

include hcheck hblock hv4

variable (N) in
theorem bulkAllocateResult_eq :
    bulkAllocateResult N db input =
      packIntoAnchor N BulkAllocateEntry.bits block.cidr (db.cidrsOf input.blockId) input.entries req >>=
        allocatePacked N db block input req := by
  have hok : checkV4 block = .ok () := by simp [checkV4, hv4]
  simp only [bulkAllocateResult, hcheck, hblock, hok, bind, Except.bind]

theorem agrees_of_failure {e : Failure}
    (hpack : packIntoAnchor N BulkAllocateEntry.bits block.cidr (db.cidrsOf input.blockId) input.entries
      req = .error e) : Agrees N db input := by
  have hpreview := preview_eq N hcheck hblock hv4
  have hbulk := bulkAllocateResult_eq N hcheck hblock hv4
  rw [hpack] at hpreview hbulk
  refine ⟨⟨?_, ?_⟩, ?_⟩
  · rintro ⟨p, hp, -⟩
    rw [hpreview] at hp
    cases hp
  · rintro ⟨r, hr⟩
    rw [hbulk] at hr
    cases hr
  · intro p r hp
    rw [hpreview] at hp
    cases hp

theorem agrees_of_no_region
    (hpack : packIntoAnchor N BulkAllocateEntry.bits block.cidr (db.cidrsOf input.blockId) input.entries
      req = .ok none) : Agrees N db input := by
  have hpreview := preview_eq N hcheck hblock hv4
  have hbulk := bulkAllocateResult_eq N hcheck hblock hv4
  rw [hpack] at hpreview hbulk
  refine ⟨⟨?_, ?_⟩, ?_⟩
  · rintro ⟨p, hp, hfits⟩
    rw [hpreview] at hp
    cases hp
    cases hfits
  · rintro ⟨r, hr⟩
    rw [hbulk] at hr
    cases hr
  · intro p r _ hr
    rw [hbulk] at hr
    cases hr

theorem agrees_of_packed_iff {packed : AnchoredPackResult BulkAllocateEntry}
    (hpack : packIntoAnchor N BulkAllocateEntry.bits block.cidr (db.cidrsOf input.blockId) input.entries
      req = .ok (some packed))
    (hclear : ∀ a ∈ packed.assignments.filter (fun a => !a.1.skip), ∀ s ∈ db.cidrsOf input.blockId,
      cidrOverlaps N s a.2 = false)
    (hnorm : ∀ a ∈ packed.assignments.filter (fun a => !a.1.skip), ∃ t, normalizeCidr N a.2 = .ok t) :
    Agrees N db input ↔
      ∀ a ∈ packed.assignments.filter (fun a => !a.1.skip), normalizeCidr N a.2 = .ok a.2 := by
  obtain ⟨data, hdata, hiff⟩ := mapM_bulkRow input hnorm
  have hpreview := preview_eq N hcheck hblock hv4
  have hbulk := bulkAllocateResult_eq N hcheck hblock hv4
  rw [hpack] at hpreview hbulk
  have hbulk : bulkAllocateResult N db input = .ok (db.createAll data,
      ⟨createdRows db data, packed.anchorCidr, packed.effectiveAnchorPrefix⟩) := by
    rw [hbulk]
    simp only [bind, Except.bind, allocatePacked, checkAssignments_ok hclear, hdata]
    rfl
  have hmap : (packed.assignments.filter fun a => !a.1.skip).map (fun a => some a.2) =
      data.map (fun row => some row.cidr) ↔
        data.map (·.cidr) = (packed.assignments.filter fun a => !a.1.skip).map (·.2) := by
    have hleft : (packed.assignments.filter fun a => !a.1.skip).map (fun a => some a.2) =
        ((packed.assignments.filter fun a => !a.1.skip).map (·.2)).map some := by simp
    have hright : data.map (fun row => some row.cidr) = (data.map (·.cidr)).map some := by simp
    rw [hleft, hright, (List.map_injective_iff.mpr (Option.some_injective _)).eq_iff]
    exact eq_comm
  rw [← hiff, ← hmap]
  constructor
  · intro h
    have := (h.2 _ _ hpreview hbulk).1
    rwa [preview_cidrs, created_cidrs] at this
  · intro h
    refine ⟨⟨fun _ => ⟨_, hbulk⟩, fun _ => ⟨_, hpreview, rfl⟩⟩, fun p r hp hr => ?_⟩
    rw [hpreview] at hp
    rw [hbulk] at hr
    cases hp
    cases hr
    refine ⟨?_, rfl, rfl⟩
    rw [preview_cidrs, created_cidrs]
    exact h

end Packed

theorem parentRange_eq (hp : N.parse block.cidr = some parent) :
    (30 < parent.bitmask ∧ ∃ e, parentRange N block.cidr = .error e) ∨
      (parent.bitmask ≤ 30 ∧ parentRange N block.cidr =
        .ok (parent, parent.netLong, parent.netLong + parent.size - 1)) := by
  by_cases hb : parent.bitmask ≤ 30
  · right
    cases hr : parentRange N block.cidr with
    | error e => simp [parentRange, hp, Netmask.Cidr.broadcast, hb] at hr
    | ok q => exact ⟨hb, congrArg _ (parentRange_ok hp hr)⟩
  · left
    refine ⟨by omega, .thrown "Cannot read properties of undefined", ?_⟩
    simp only [parentRange, hp, Netmask.Cidr.broadcast, if_neg hb]

variable (req) in
/-- In an empty block the template is placed at the start of the block. -/
theorem packIntoAnchor_empty {entries : List BulkAllocateEntry} (hp : N.parse block.cidr = some parent)
    (hb : parent.bitmask ≤ 30) (hne : entries ≠ []) :
    ∃ packed, packIntoAnchor N BulkAllocateEntry.bits block.cidr [] entries req = .ok (some packed) ∧
      packed.assignments = (packFrom BulkAllocateEntry.bits 0 entries).1.map
        (fun p => (p.entry, cidrText (parent.netLong + p.offset) p.prefixLength)) := by
  obtain ⟨hbad, -⟩ | ⟨-, hr⟩ := parentRange_eq hp
  · omega
  · have hemp : entries.isEmpty = false := by simpa using hne
    have hle := le_effectiveAnchor req parent.bitmask
      (packTemplateEntries BulkAllocateEntry.bits entries).containingPrefix
    have hsize : 2 ^ (32 - effectiveAnchor req
        (packTemplateEntries BulkAllocateEntry.bits entries).containingPrefix parent.bitmask) ≤
          parent.size := Nat.pow_le_pow_right (by decide) (by omega)
    simp only [packIntoAnchor, hemp, hr, bind, Except.bind, Bool.false_eq_true, if_false, scan,
      List.any_nil, Bool.not_false, if_true]
    rw [if_pos (by omega), packed_nonempty hne]
    exact ⟨_, rfl, rfl⟩

section Block

variable (hcheck : checkBulk input = .ok req) (hblock : db.findBlock input.blockId = .ok block)
  (hv4 : block.ipVersion = .v4) (hp : N.parse block.cidr = some parent)

include hcheck hblock hv4 hp

theorem agrees_of_subnets (hex : ∀ s ∈ db.cidrsOf input.blockId, Within N parent s)
    (hne : db.cidrsOf input.blockId ≠ []) : Agrees N db input := by
  obtain ⟨hreq, hentries, hbits⟩ := checkBulk_ok hcheck
  cases hpack : packIntoAnchor N BulkAllocateEntry.bits block.cidr (db.cidrsOf input.blockId)
      input.entries req with
  | error e => exact agrees_of_failure hcheck hblock hv4 hpack
  | ok packed =>
    cases packed with
    | none => exact agrees_of_no_region hcheck hblock hv4 hpack
    | some packed =>
      obtain ⟨r, hassign, hend⟩ := packIntoAnchor_region hp hreq hentries hex (fun h => absurd h hne) hpack
      obtain ⟨hspec, hpair, -⟩ := packFrom_spec BulkAllocateEntry.bits 0 input.entries
      have hps : ∀ p ∈ (packFrom BulkAllocateEntry.bits 0 input.entries).1.filter
          (fun p => !p.entry.skip), p.prefixLength ≤ 32 ∧ p.size ∣ p.offset ∧
            p.offset + p.size ≤ 2 ^ (32 - r.bits) := by
        intro p hpm
        obtain ⟨hpm, hskip⟩ := List.mem_filter.mp hpm
        obtain ⟨hmem, hpl, hdvd, -, -⟩ := hspec p hpm
        exact ⟨hpl ▸ hbits p.entry hmem, hdvd, hend p hpm (by simpa using hskip)⟩
      obtain ⟨hplaced, hapart⟩ := r.placed hps (hpair.sublist List.filter_sublist)
      have hrow : ∀ a ∈ packed.assignments.filter (fun a => !a.1.skip), a.2 ∈
          ((packFrom BulkAllocateEntry.bits 0 input.entries).1.filter fun p => !p.entry.skip).map r.cidr := by
        rw [hassign, List.filter_map]
        intro a ha
        obtain ⟨p, hpm, rfl⟩ := List.mem_map.mp ha
        exact List.mem_map_of_mem hpm
      have hnorm : ∀ a ∈ packed.assignments.filter (fun a => !a.1.skip), normalizeCidr N a.2 = .ok a.2 := by
        intro a ha
        obtain ⟨-, -, -, hn, -⟩ := hplaced.1 a.2 (hrow a ha)
        exact hn
      refine (agrees_of_packed_iff hcheck hblock hv4 hpack ?_ fun a ha => ⟨_, hnorm a ha⟩).mpr hnorm
      intro a ha s hs
      obtain ⟨c, hc, -, -, -⟩ := hplaced.1 a.2 (hrow a ha)
      obtain ⟨cs, hcs, -⟩ := hex s hs
      exact not_overlaps_of_disjoint hcs hc (hapart s hs a.2 (hrow a ha) cs c hcs hc)

theorem agrees_of_empty_iff (hnil : db.cidrsOf input.blockId = []) (hb : parent.bitmask ≤ 30) :
    Agrees N db input ↔ ∀ e ∈ input.entries, e.skip = false → 2 ^ (32 - e.bits) ∣ parent.netLong := by
  obtain ⟨-, hentries, hbits⟩ := checkBulk_ok hcheck
  obtain ⟨packed, hpack, hassign⟩ := packIntoAnchor_empty req hp hb hentries
  rw [← hnil] at hpack
  obtain ⟨hspec, -, -⟩ := packFrom_spec BulkAllocateEntry.bits 0 input.entries
  have hrows : packed.assignments.filter (fun a => !a.1.skip) =
      ((packFrom BulkAllocateEntry.bits 0 input.entries).1.filter fun p => !p.entry.skip).map
        fun p => (p.entry, cidrText (parent.netLong + p.offset) p.prefixLength) := by
    rw [hassign, List.filter_map]
    rfl
  have hnorm : ∀ p ∈ (packFrom BulkAllocateEntry.bits 0 input.entries).1,
      ∃ t, normalizeCidr N (cidrText (parent.netLong + p.offset) p.prefixLength) = .ok t ∧
        (t = cidrText (parent.netLong + p.offset) p.prefixLength ↔
          2 ^ (32 - p.entry.bits) ∣ parent.netLong) := by
    intro p hpm
    obtain ⟨hmem, hpl, hdvd, -, -⟩ := hspec p hpm
    obtain ⟨t, ht, hiff⟩ := normalizeCidr_cidrText (N := N) (parent.netLong + p.offset)
      (hpl ▸ hbits p.entry hmem : p.prefixLength ≤ 32)
    refine ⟨t, ht, hiff.trans ?_⟩
    rw [← hpl]
    exact Nat.dvd_add_left hdvd
  rw [agrees_of_packed_iff hcheck hblock hv4 hpack (by simp [hnil]), hrows]
  · rw [List.forall_mem_map]
    constructor
    · intro h e he hskip
      rw [← packFrom_entries BulkAllocateEntry.bits 0 input.entries] at he
      obtain ⟨p, hpm, rfl⟩ := List.mem_map.mp he
      obtain ⟨t, ht, hiff⟩ := hnorm p hpm
      have hfix := h p (List.mem_filter.mpr ⟨hpm, by simp [hskip]⟩)
      rw [ht, Except.ok.injEq] at hfix
      exact hiff.mp hfix
    · intro h p hpm
      obtain ⟨hpm, hskip⟩ := List.mem_filter.mp hpm
      obtain ⟨t, ht, hiff⟩ := hnorm p hpm
      rw [ht, hiff.mpr (h p.entry (hspec p hpm).1 (by simpa using hskip))]
  · rw [hrows, List.forall_mem_map]
    intro p hpm
    obtain ⟨t, ht, -⟩ := hnorm p (List.mem_filter.mp hpm).1
    exact ⟨t, ht⟩

end Block

/-- The block has subnets, or is too small for the packer, or starts on a
multiple of the size of every entry that is created. -/
def StartsAligned (parent : Netmask.Cidr) (existing : List String) (entries : List BulkAllocateEntry) :
    Prop :=
  existing ≠ [] ∨ 30 < parent.bitmask ∨
    ∀ e ∈ entries, e.skip = false → 2 ^ (32 - e.bits) ∣ parent.netLong

theorem preview_agrees_iff (N : Package) (db : Db) (input : BulkAllocateInput) (req : Nat)
    (block : IpBlock) (parent : Netmask.Cidr) (hcheck : checkBulk input = .ok req)
    (hblock : db.findBlock input.blockId = .ok block) (hv4 : block.ipVersion = .v4)
    (hp : N.parse block.cidr = some parent)
    (hex : ∀ s ∈ db.cidrsOf input.blockId, Within N parent s) :
    Agrees N db input ↔ StartsAligned parent (db.cidrsOf input.blockId) input.entries := by
  by_cases hnil : db.cidrsOf input.blockId = []
  · obtain ⟨hbits, e, hr⟩ | ⟨hbits, -⟩ := parentRange_eq hp
    · have hentries := (checkBulk_ok hcheck).2.1
      have hpack : packIntoAnchor N BulkAllocateEntry.bits block.cidr (db.cidrsOf input.blockId)
          input.entries req = .error e := by
        simp only [packIntoAnchor, hr, List.isEmpty_iff, if_neg hentries, bind, Except.bind]
      exact iff_of_true (agrees_of_failure hcheck hblock hv4 hpack) (.inr (.inl hbits))
    · rw [agrees_of_empty_iff hcheck hblock hv4 hp hnil hbits, StartsAligned]
      simp [hnil, Nat.not_lt.mpr hbits]
  · exact iff_of_true (agrees_of_subnets hcheck hblock hv4 hp hex hnil) (.inl hnil)

def siteDb (cidr : String) (subnets : List Subnet) : Db := ⟨[⟨"b", cidr, .v4⟩], subnets, 0⟩

def template (lengths : List Int) : BulkAllocateInput where
  blockId := "b"
  sitePrefix := "site"
  entries := lengths.map fun l => { name := some "lan", prefixLength := l }

theorem preview_agrees_site : Agrees reference (siteDb "10.0.1.0/24" []) (template [25, 26]) := by
  have hparse : reference.parse "10.0.1.0/24" =
      some ⟨10 * 2 ^ 24 + 256, 24, by decide, by decide⟩ := by decide
  refine (preview_agrees_iff reference (siteDb "10.0.1.0/24" []) (template [25, 26]) 24
    ⟨"b", "10.0.1.0/24", .v4⟩ _ (by rfl) (by rfl) rfl hparse (by simp [siteDb, Db.cidrsOf])).mpr ?_
  refine .inr (.inr fun e he _ => ?_)
  revert e
  decide

/-- A /23 template in the empty block 10.0.1.0/24: the preview shows
10.0.1.0/23, and 10.0.0.0/23 is created. -/
theorem oversized_entry_moves :
    (checkBulk (template [23]) = .ok 24 ∧ (siteDb "10.0.1.0/24" []).cidrsOf "b" = []) ∧
      ((previewBulkAllocate reference (siteDb "10.0.1.0/24" []) (previewInput (template [23]))).map
        fun p => (p.fits, p.assignments.map (·.cidr))) = .ok (true, [some "10.0.1.0/23"]) ∧
      ((bulkAllocateResult reference (siteDb "10.0.1.0/24" []) (template [23])).map
        fun r => r.2.created.map (·.cidr)) = .ok ["10.0.0.0/23"] ∧
      ¬ Agrees reference (siteDb "10.0.1.0/24" []) (template [23]) := by
  have hparse : reference.parse "10.0.1.0/24" =
      some ⟨10 * 2 ^ 24 + 256, 24, by decide, by decide⟩ := by decide
  refine ⟨⟨by rfl, rfl⟩, by decide +kernel, by decide +kernel, fun h => ?_⟩
  have hcheck : checkBulk (template [23]) = .ok 24 := by rfl
  have hblock : (siteDb "10.0.1.0/24" []).findBlock "b" = .ok ⟨"b", "10.0.1.0/24", .v4⟩ := by rfl
  have hdvd := (agrees_of_empty_iff hcheck hblock rfl hparse rfl (by decide)).mp h _
    (List.mem_singleton.mpr rfl) rfl
  revert hdvd
  decide

end Agreement

end Polaris.BulkPreview
