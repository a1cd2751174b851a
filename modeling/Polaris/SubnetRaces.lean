import Polaris.SubnetRuns

namespace Polaris.SubnetRaces

open Polaris.Lib.Checks Polaris.Lib.Runs Polaris.Netmask Polaris.Cidr
open Polaris.CidrPlacement Polaris.SubnetService Polaris.SubnetPlan Polaris.SubnetRuns

/-- Where a call on a block stands between two of its store accesses. The
rows to insert are kept with the subnets they were checked against. -/
inductive Stage
  | createSubnet (input : CreateSubnetInput)
  | createSubnetBlock (input : CreateSubnetInput) (normalizedCidr : String) (block : IpBlock)
  | allocateNextSubnet (blockId : String) (prefixLength : Int) (metadata : CreateSubnetInput)
  | allocateNextBlock (blockId : String) (prefixLength : Int) (metadata : CreateSubnetInput)
      (block : IpBlock)
  | bulkAllocate (input : BulkAllocateInput)
  | bulkAllocateBlock (input : BulkAllocateInput) (requestedAnchor : Nat) (block : IpBlock)
  | insert (blockId : String) (existing : List String) (rows : List SubnetData)
  | done (result : Except Failure Unit)

def proceed (r : Except Failure Stage) : Stage :=
  match r with
  | .ok s => s
  | .error e => .done (.error e)

section Steps

variable (N : Package)

/-- One store access of a call, with the computation that follows it. The
inserts of `bulkAllocate` become visible together when it commits. -/
def act (_ : Unit) (db : Db) : Stage → Db × Stage
  | .createSubnet input => (db, proceed do
      let normalizedCidr ← admitCidr N input.cidr
      let block ← db.findBlock input.blockId
      checkBlock N block normalizedCidr
      return .createSubnetBlock input normalizedCidr block)
  | .createSubnetBlock input normalizedCidr _ => (db, proceed do
      let siblings := db.cidrsOf input.blockId
      checkSiblings N siblings normalizedCidr
      return .insert input.blockId siblings [input.row normalizedCidr])
  | .allocateNextSubnet blockId prefixLength metadata => (db, proceed do
      let block ← db.findBlock blockId
      checkPrefixLength block prefixLength
      return .allocateNextBlock blockId prefixLength metadata block)
  | .allocateNextBlock blockId prefixLength metadata block => (db, proceed do
      let cidr ← nextCidr N block (db.cidrsOf blockId) prefixLength
      return .createSubnet { metadata with blockId, cidr })
  | .bulkAllocate input => (db, proceed do
      let requestedAnchor ← checkBulk input
      let block ← db.findBlock input.blockId
      checkV4 block
      return .bulkAllocateBlock input requestedAnchor block)
  | .bulkAllocateBlock input requestedAnchor block => (db, proceed do
      let existing := db.cidrsOf input.blockId
      let rows ← planBulk N block existing input requestedAnchor
      return .insert input.blockId existing rows)
  | .insert _ _ rows => (db.createAll rows, .done (.ok ()))
  | .done result => (db, .done result)

end Steps

variable {N : Package} {parent : Netmask.Cidr} {blockId : String} {block : IpBlock}

def Starts : Stage → Prop
  | .createSubnet _ | .allocateNextSubnet _ _ _ | .bulkAllocate _ => True
  | _ => False

/-- The subnets a call inserts against are still the ones it read, and a
template planned for an empty block fits it. -/
def Fresh (parent : Netmask.Cidr) (blockId : String) (db : Db) : Stage → Prop
  | .insert id existing _ => id = blockId → db.cidrsOf blockId = existing
  | .bulkAllocateBlock input _ _ => Fits parent blockId db (.bulkAllocate input)
  | _ => True

instance : DecidablePred Starts
  | .createSubnet _ | .allocateNextSubnet _ _ _ | .bulkAllocate _ => isTrue trivial
  | .createSubnetBlock _ _ _ | .allocateNextBlock _ _ _ _ | .bulkAllocateBlock _ _ _
  | .insert _ _ _ | .done _ => isFalse id

instance (parent : Netmask.Cidr) (blockId : String) (db : Db) : DecidablePred (Fresh parent blockId db)
  | .insert id existing _ =>
    inferInstanceAs (Decidable (id = blockId → db.cidrsOf blockId = existing))
  | .bulkAllocateBlock input _ _ =>
    inferInstanceAs (Decidable (Fits parent blockId db (.bulkAllocate input)))
  | .createSubnet _ | .createSubnetBlock _ _ _ | .allocateNextSubnet _ _ _
  | .allocateNextBlock _ _ _ _ | .bulkAllocate _ | .done _ => isTrue trivial

/-- What a call has established so far about the block it works on. -/
def Justified (N : Package) (parent : Netmask.Cidr) (blockId : String) (block : IpBlock) :
    Stage → Prop
  | .createSubnetBlock input s b =>
    admitCidr N input.cidr = .ok s ∧ checkBlock N b s = .ok () ∧ (input.blockId = blockId → b = block)
  | .bulkAllocateBlock input req b =>
    checkBulk input = .ok req ∧ (input.blockId = blockId → b = block)
  | .insert id existing rows =>
    (∀ row ∈ rows, row.blockId = id) ∧
      (id = blockId → Placed N parent (rows.map (·.cidr)) ∧
        ∀ s ∈ existing, ∀ t ∈ rows.map (·.cidr), Apart N s t)
  | _ => True

theorem justified_proceed {r : Except Failure Stage}
    (h : ∀ s, r = .ok s → Justified N parent blockId block s) :
    Justified N parent blockId block (proceed r) := by
  cases r with
  | ok s => exact h s rfl
  | error e => trivial

theorem insert_planned {db : Db} {id : String} {existing : List String} {rows : List SubnetData}
    (hdb : Planned N blockId block parent db)
    (hj : Justified N parent blockId block (.insert id existing rows))
    (hf : Fresh parent blockId db (.insert id existing rows)) :
    Planned N blockId block parent (db.createAll rows) := by
  obtain ⟨hid, hrows⟩ := hj
  refine ⟨by rw [findBlock_congr (createAll_blocks db rows)]; exact hdb.row, ?_⟩
  rw [cidrsOf_createAll]
  by_cases h : id = blockId
  · have hall : rows.filter (·.blockId = blockId) = rows :=
      List.filter_eq_self.mpr (fun row hrow => by simp [hid row hrow, h])
    obtain ⟨hnew, hapart⟩ := hrows h
    rw [hall]
    exact hdb.placed.append hnew (hf h ▸ hapart)
  · have hnone : rows.filter (·.blockId = blockId) = [] :=
      List.filter_eq_nil_iff.mpr (fun row hrow => by simp [hid row hrow, h])
    rw [hnone, List.map_nil, List.append_nil]
    exact hdb.placed

theorem act_justified (hp : N.parse block.cidr = some parent) {db : Db} {t : Stage}
    (hdb : Planned N blockId block parent db) (hj : Justified N parent blockId block t)
    (hf : Fresh parent blockId db t) :
    Planned N blockId block parent (act N () db t).1 ∧
      Justified N parent blockId block (act N () db t).2 := by
  cases t with
  | createSubnet input =>
    refine ⟨hdb, justified_proceed fun s hs => ?_⟩
    obtain ⟨c, hc, hs⟩ := bind_ok hs
    obtain ⟨b, hb, hs⟩ := bind_ok hs
    obtain ⟨⟨⟩, hcb, hs⟩ := bind_ok hs
    cases hs
    refine ⟨hc, hcb, fun hid => ?_⟩
    rw [hid, hdb.row] at hb
    cases hb
    rfl
  | createSubnetBlock input c b =>
    refine ⟨hdb, justified_proceed fun s hs => ?_⟩
    obtain ⟨⟨⟩, hsib, hs⟩ := bind_ok hs
    cases hs
    refine ⟨by simp [CreateSubnetInput.row], fun hid => ?_⟩
    obtain ⟨hc, hcb, hb⟩ := hj
    cases hb hid
    refine ⟨placed_singleton (checkBlock_inside hp hc hcb), fun t ht u hu => ?_⟩
    obtain rfl := List.mem_singleton.mp hu
    exact checkSiblings_apart hsib t ht
  | allocateNextSubnet id prefixLength metadata =>
    refine ⟨hdb, justified_proceed fun s hs => ?_⟩
    obtain ⟨b, _, hs⟩ := bind_ok hs
    obtain ⟨⟨⟩, _, hs⟩ := bind_ok hs
    cases hs
    trivial
  | allocateNextBlock id prefixLength metadata b =>
    refine ⟨hdb, justified_proceed fun s hs => ?_⟩
    obtain ⟨c, _, hs⟩ := bind_ok hs
    cases hs
    trivial
  | bulkAllocate input =>
    refine ⟨hdb, justified_proceed fun s hs => ?_⟩
    obtain ⟨req, hreq, hs⟩ := bind_ok hs
    obtain ⟨b, hb, hs⟩ := bind_ok hs
    obtain ⟨⟨⟩, _, hs⟩ := bind_ok hs
    cases hs
    refine ⟨hreq, fun hid => ?_⟩
    rw [hid, hdb.row] at hb
    cases hb
    rfl
  | bulkAllocateBlock input req b =>
    refine ⟨hdb, justified_proceed fun s hs => ?_⟩
    obtain ⟨rows, hrows, hs⟩ := bind_ok hs
    cases hs
    refine ⟨planBulk_blockId hrows, fun hid => ?_⟩
    obtain ⟨hreq, hb⟩ := hj
    cases hb hid
    rw [hid] at hrows ⊢
    exact planBulk_placed hp hreq hdb.placed.1 (hf hid) hrows
  | insert id existing rows => exact ⟨insert_planned hdb hj hf, trivial⟩
  | done result => exact ⟨hdb, trivial⟩

/-- In every interleaving whose inserts find the block as they read it, the
committed subnets of the block stay pairwise disjoint. -/
theorem committed_subnets_apart (N : Package) (db : Db) (blockId : String) (block : IpBlock)
    (parent : Netmask.Cidr) (hp : N.parse block.cidr = some parent)
    (hdb : Planned N blockId block parent db) (moves : List (Move Stage Unit))
    (hs : Along (Pool.step (act N)) (Pool.Guarded Starts (fun _ => Fresh parent blockId)) ⟨db, []⟩
      moves) :
    ((moves.foldl (Pool.step (act N)) ⟨db, []⟩).shared.cidrsOf blockId).Pairwise (Apart N) := by
  have hstep := holds_step (act N) Starts (fun _ => Fresh parent blockId)
    (G := Planned N blockId block parent) (L := fun _ => Justified N parent blockId block)
    (fun _ t ht _ => by cases t <;> trivial)
    (fun _ _ _ hf hg hl => act_justified hp hg hl hf)
    (fun _ _ _ _ _ _ _ hu => hu)
  exact (foldl_invariant hstep ⟨hdb, by simp⟩ hs).1.placed.2

def lan (blockId : String) : CreateSubnetInput := { blockId, cidr := "", name := "lan" }

def allocate26 : Move Stage Unit := .spawn (.allocateNextSubnet "b" 26 (lan "b"))

/-- One call after the other: the second reads what the first committed. -/
def serial : List (Move Stage Unit) :=
  [allocate26, .advance 0 (), .advance 0 (), .advance 0 (), .advance 0 (), .advance 0 (),
    allocate26, .advance 1 (), .advance 1 (), .advance 1 (), .advance 1 (), .advance 1 ()]

/-- Both calls read the empty block before either inserts. -/
def overlapping : List (Move Stage Unit) :=
  [allocate26, allocate26, .advance 0 (), .advance 0 (), .advance 0 (), .advance 0 (),
    .advance 1 (), .advance 1 (), .advance 1 (), .advance 1 (), .advance 0 (), .advance 1 ()]

theorem siteDb_planned :
    Planned Netmask.reference "b" ⟨"b", "10.0.0.0/24", .v4⟩ siteCidr siteDb :=
  ⟨rfl, placed_nil⟩

theorem committed_subnets_apart_serial :
    Along (Pool.step (act Netmask.reference)) (Pool.Guarded Starts (fun _ => Fresh siteCidr "b"))
        ⟨siteDb, []⟩ serial ∧
      ((serial.foldl (Pool.step (act Netmask.reference)) ⟨siteDb, []⟩).shared.cidrsOf "b").Pairwise
        (Apart Netmask.reference) := by
  have hs : Along (Pool.step (act Netmask.reference))
      (Pool.Guarded Starts (fun _ => Fresh siteCidr "b")) ⟨siteDb, []⟩ serial := by decide
  exact ⟨hs, committed_subnets_apart Netmask.reference siteDb "b" ⟨"b", "10.0.0.0/24", .v4⟩ siteCidr
    (by decide) siteDb_planned serial hs⟩

theorem overlapping_allocations_collide :
    (overlapping.foldl (Pool.step (act Netmask.reference)) ⟨siteDb, []⟩).shared.cidrsOf "b" =
        ["10.0.0.0/26", "10.0.0.0/26"] ∧
      ¬ ((overlapping.foldl (Pool.step (act Netmask.reference)) ⟨siteDb, []⟩).shared.cidrsOf
        "b").Pairwise (Apart Netmask.reference) := by
  have hcidrs : (overlapping.foldl (Pool.step (act Netmask.reference)) ⟨siteDb, []⟩).shared.cidrsOf
      "b" = ["10.0.0.0/26", "10.0.0.0/26"] := by decide
  refine ⟨hcidrs, fun h => ?_⟩
  rw [hcidrs] at h
  have hparse : Netmask.reference.parse "10.0.0.0/26" =
      some ⟨10 * 2 ^ 24, 26, by decide, by decide⟩ := by decide
  have hdis := (List.pairwise_cons.mp h).1 "10.0.0.0/26" (by simp) _ _ hparse hparse
  exact Set.disjoint_left.mp hdis (Lib.PrefixBlock.base_mem_block _ _)
    (Lib.PrefixBlock.base_mem_block _ _)

end Polaris.SubnetRaces
