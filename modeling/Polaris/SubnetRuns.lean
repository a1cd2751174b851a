import Polaris.SubnetPlan
import Polaris.Lib.Runs

namespace Polaris.SubnetRuns

open Polaris.Lib.Checks Polaris.Lib.Runs Polaris.Netmask Polaris.Cidr
open Polaris.CidrPlacement Polaris.SubnetService Polaris.SubnetPlan

inductive Call
  | createSubnet (input : CreateSubnetInput)
  | allocateNextSubnet (blockId : String) (prefixLength : Int) (metadata : CreateSubnetInput)
  | bulkAllocate (input : BulkAllocateInput)
  | deleteSubnet (id activeCount : Nat)

def Call.exec (N : Package) (db : Db) : Call → Except Failure Db
  | .createSubnet input => SubnetService.createSubnet N db input
  | .allocateNextSubnet blockId prefixLength metadata =>
    SubnetService.allocateNextSubnet N db blockId prefixLength metadata
  | .bulkAllocate input => SubnetService.bulkAllocate N db input
  | .deleteSubnet id activeCount => SubnetService.deleteSubnet db id activeCount

/-- One call run to completion; a call that throws leaves the store alone. -/
def step (N : Package) (db : Db) (call : Call) : Db :=
  match call.exec N db with
  | .ok db' => db'
  | .error _ => db

variable {N : Package} {parent : Netmask.Cidr} {blockId : String} {block : IpBlock}

/-- A template allocated into the empty block ends inside it. Once the block
holds a subnet an oversized template finds no free region. -/
def Fits (parent : Netmask.Cidr) (blockId : String) (db : Db) : Call → Prop
  | .bulkAllocate input =>
    input.blockId = blockId → db.cidrsOf blockId = [] → TemplateFits parent input.entries
  | _ => True

instance (parent : Netmask.Cidr) (blockId : String) (db : Db) :
    ∀ call, Decidable (Fits parent blockId db call)
  | .bulkAllocate input => inferInstanceAs (Decidable (input.blockId = blockId →
      db.cidrsOf blockId = [] → TemplateFits parent input.entries))
  | .createSubnet _ | .allocateNextSubnet _ _ _ | .deleteSubnet _ _ => isTrue trivial

theorem cidrsOf_create (db : Db) (row : SubnetData) :
    (db.create row).cidrsOf blockId =
      db.cidrsOf blockId ++ (if row.blockId = blockId then [row.cidr] else []) := by
  by_cases h : row.blockId = blockId <;> simp [Db.create, Db.cidrsOf, h]

theorem cidrsOf_createAll (db : Db) (rows : List SubnetData) :
    (db.createAll rows).cidrsOf blockId =
      db.cidrsOf blockId ++ (rows.filter (·.blockId = blockId)).map (·.cidr) := by
  induction rows generalizing db with
  | nil => simp [Db.createAll]
  | cons row rows ih =>
    change (Db.createAll (db.create row) rows).cidrsOf blockId = _
    rw [ih, cidrsOf_create]
    by_cases h : row.blockId = blockId <;> simp [h]

theorem createAll_blocks (db : Db) (rows : List SubnetData) : (db.createAll rows).blocks = db.blocks := by
  induction rows generalizing db with
  | nil => rfl
  | cons row rows ih => exact ih (db.create row)

/-- The block row is there, and its subnets form an address plan. -/
structure Planned (N : Package) (blockId : String) (block : IpBlock) (parent : Netmask.Cidr)
    (db : Db) : Prop where
  row : db.findBlock blockId = .ok block
  placed : Placed N parent (db.cidrsOf blockId)

theorem findBlock_congr {db db' : Db} (h : db'.blocks = db.blocks) (id : String) :
    db'.findBlock id = db.findBlock id := by simp only [Db.findBlock, h]

theorem checkSiblings_apart {siblings : List String} {s : String}
    (h : checkSiblings N siblings s = .ok ()) : ∀ t ∈ siblings, Apart N t s := by
  intro t ht
  unfold checkSiblings Reading.checkSiblings at h
  split at h
  · cases h
  · rename_i hnone
    exact apart_of_not_overlaps (Bool.eq_false_iff.mpr (List.find?_eq_none.mp hnone t ht))

theorem checkBlock_inside {text s : String} (hp : N.parse block.cidr = some parent)
    (hn : admitCidr N text = .ok s) (h : checkBlock N block s = .ok ()) : Inside N parent s := by
  unfold admitCidr Reading.admitCidr at hn
  split_ifs at hn
  unfold checkBlock Reading.checkBlock at h
  split_ifs at h with hc
  exact inside_of_contains hn hp (by simpa [cidrContains] using hc)

theorem createSubnet_planned {db db' : Db} {input : CreateSubnetInput}
    (hp : N.parse block.cidr = some parent) (hdb : Planned N blockId block parent db)
    (h : SubnetService.createSubnet N db input = .ok db') : Planned N blockId block parent db' := by
  obtain ⟨s, hs, h⟩ := bind_ok h
  obtain ⟨b, hb, h⟩ := bind_ok h
  obtain ⟨⟨⟩, hcb, h⟩ := bind_ok h
  obtain ⟨⟨⟩, hsib, h⟩ := bind_ok h
  cases h
  refine ⟨hdb.row, ?_⟩
  rw [cidrsOf_create]
  by_cases hid : input.blockId = blockId
  · rw [hid] at hb hsib
    cases hdb.row.symm.trans hb
    have hin := checkBlock_inside hp hs hcb
    rw [if_pos (show (input.row s).blockId = blockId from hid)]
    refine hdb.placed.append (placed_singleton hin) ?_
    intro t ht u hu
    obtain rfl := List.mem_singleton.mp hu
    exact checkSiblings_apart hsib t ht
  · rw [if_neg (show ¬ (input.row s).blockId = blockId from hid), List.append_nil]
    exact hdb.placed

theorem bulkAllocate_planned {db db' : Db} {input : BulkAllocateInput}
    (hp : N.parse block.cidr = some parent) (hdb : Planned N blockId block parent db)
    (hfit : Fits parent blockId db (.bulkAllocate input))
    (h : SubnetService.bulkAllocate N db input = .ok db') : Planned N blockId block parent db' := by
  obtain ⟨req, hreq, h⟩ := bind_ok h
  obtain ⟨b, hb, h⟩ := bind_ok h
  obtain ⟨⟨⟩, _, h⟩ := bind_ok h
  obtain ⟨rows, hrows, h⟩ := bind_ok h
  cases h
  refine ⟨by rw [findBlock_congr (createAll_blocks db rows)]; exact hdb.row, ?_⟩
  rw [cidrsOf_createAll]
  have hblock := planBulk_blockId hrows
  by_cases hid : input.blockId = blockId
  · have hall : rows.filter (·.blockId = blockId) = rows :=
      List.filter_eq_self.mpr (fun row hrow => by simp [hblock row hrow, hid])
    rw [hid] at hb hrows
    cases hdb.row.symm.trans hb
    obtain ⟨hnew, hapart⟩ :=
      planBulk_placed hp hreq hdb.placed.1 (fun hnil => hfit hid hnil) hrows
    rw [hall]
    exact hdb.placed.append hnew hapart
  · have hnone : rows.filter (·.blockId = blockId) = [] :=
      List.filter_eq_nil_iff.mpr (fun row hrow => by simp [hblock row hrow, hid])
    rw [hnone, List.map_nil, List.append_nil]
    exact hdb.placed

theorem deleteSubnet_planned {db db' : Db} {id activeCount : Nat}
    (hdb : Planned N blockId block parent db)
    (h : SubnetService.deleteSubnet db id activeCount = .ok db') : Planned N blockId block parent db' := by
  unfold SubnetService.deleteSubnet at h
  split at h
  · cases h
  · split_ifs at h
    cases h
    refine ⟨hdb.row, hdb.placed.sublist ?_⟩
    exact (List.filter_sublist.filter _).map _

theorem exec_planned {db db' : Db} {call : Call} (hp : N.parse block.cidr = some parent)
    (hdb : Planned N blockId block parent db) (hfit : Fits parent blockId db call)
    (h : call.exec N db = .ok db') : Planned N blockId block parent db' := by
  cases call with
  | createSubnet input => exact createSubnet_planned hp hdb h
  | allocateNextSubnet id prefixLength metadata =>
    obtain ⟨b, _, h⟩ := bind_ok h
    obtain ⟨⟨⟩, _, h⟩ := bind_ok h
    obtain ⟨cidr, _, h⟩ := bind_ok h
    exact createSubnet_planned hp hdb h
  | bulkAllocate input => exact bulkAllocate_planned hp hdb hfit h
  | deleteSubnet id activeCount => exact deleteSubnet_planned hdb h

theorem step_planned (hp : N.parse block.cidr = some parent) (db : Db) (call : Call)
    (hdb : Planned N blockId block parent db) (hfit : Fits parent blockId db call) :
    Planned N blockId block parent (step N db call) := by
  unfold step
  split
  · rename_i db' h
    exact exec_planned hp hdb hfit h
  · exact hdb

/-- Starting from a block without subnets, every run whose templates fit
keeps the block's subnets normalized, inside the block and disjoint. -/
theorem subnets_stay_planned (N : Package) (db : Db) (blockId : String) (block : IpBlock)
    (parent : Netmask.Cidr) (hrow : db.findBlock blockId = .ok block)
    (hp : N.parse block.cidr = some parent) (hempty : db.cidrsOf blockId = []) (calls : List Call)
    (hfits : Along (step N) (Fits parent blockId) db calls) :
    Placed N parent ((calls.foldl (step N) db).cidrsOf blockId) :=
  (foldl_invariant (step_planned hp) ⟨hrow, hempty ▸ placed_nil⟩ hfits).placed

def siteDb : Db := ⟨[⟨"b", "10.0.0.0/24", .v4⟩], [], 0⟩

def siteCidr : Netmask.Cidr := ⟨10 * 2 ^ 24, 24, by decide, by decide⟩

def template (lengths : List Int) : Call :=
  .bulkAllocate
    { blockId := "b", sitePrefix := "site",
      entries := lengths.map (fun l => { name := some "lan", prefixLength := l }) }

theorem subnets_stay_planned_site :
    siteDb.findBlock "b" = .ok ⟨"b", "10.0.0.0/24", .v4⟩ ∧ siteDb.cidrsOf "b" = [] ∧
      Netmask.reference.parse "10.0.0.0/24" = some siteCidr ∧
      Along (step Netmask.reference) (Fits siteCidr "b") siteDb [template [25, 26]] ∧
      Placed Netmask.reference siteCidr
        (([template [25, 26]].foldl (step Netmask.reference) siteDb).cidrsOf "b") := by
  have hrow : siteDb.findBlock "b" = .ok ⟨"b", "10.0.0.0/24", .v4⟩ := by rfl
  have hparse : Netmask.reference.parse "10.0.0.0/24" = some siteCidr := by decide
  have hfits : Along (step Netmask.reference) (Fits siteCidr "b") siteDb [template [25, 26]] := by
    decide
  exact ⟨hrow, rfl, hparse, hfits,
    subnets_stay_planned Netmask.reference siteDb "b" _ siteCidr hrow hparse rfl _ hfits⟩

/-- Two /24 entries in a /24 block: the clamped anchor is the block itself
and the second entry is stored outside it. -/
theorem oversized_template_escapes :
    siteDb.cidrsOf "b" = [] ∧ Netmask.reference.parse "10.0.0.0/24" = some siteCidr ∧
      ((step Netmask.reference siteDb (template [24, 24])).cidrsOf "b" =
        ["10.0.0.0/24", "10.0.1.0/24"]) ∧
      ¬ Placed Netmask.reference siteCidr
        ((step Netmask.reference siteDb (template [24, 24])).cidrsOf "b") := by
  have hcidrs : (step Netmask.reference siteDb (template [24, 24])).cidrsOf "b" =
      ["10.0.0.0/24", "10.0.1.0/24"] := by decide
  refine ⟨rfl, by decide, hcidrs, fun h => ?_⟩
  rw [hcidrs] at h
  obtain ⟨c, hc, _, _, hsub⟩ := h.1 "10.0.1.0/24" (by simp)
  have hparse : Netmask.reference.parse "10.0.1.0/24" =
      some ⟨10 * 2 ^ 24 + 256, 24, by decide, by decide⟩ := by decide
  cases hparse.symm.trans hc
  have hm := hsub (Lib.PrefixBlock.base_mem_block _ _)
  exact absurd hm.2 (by decide)

end Polaris.SubnetRuns
