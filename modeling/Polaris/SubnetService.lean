import Polaris.CidrAllocation

namespace Polaris.SubnetService

open Polaris.Lib.Text Polaris.Netmask Polaris.Cidr Polaris.CidrAllocation

inductive SubnetStatus
  | available
  | reserved
  | deprecated
  deriving DecidableEq

structure IpBlock where
  id : String
  cidr : String
  ipVersion : IpVersion
  deriving DecidableEq

structure SubnetData where
  blockId : String
  cidr : String
  name : String
  purpose : Option String
  vlan : Option Nat
  tags : List String
  status : SubnetStatus
  createdBy : Option String
  deriving DecidableEq

structure Subnet where
  id : Nat
  data : SubnetData
  deriving DecidableEq

structure Db where
  blocks : List IpBlock
  subnets : List Subnet
  nextId : Nat
  deriving DecidableEq

namespace Db

def findBlock (db : Db) (id : String) : Except Failure IpBlock :=
  match db.blocks.find? (·.id = id) with
  | some b => .ok b
  | none => .error (.app 404 s!"IP Block {id} not found")

/-- `subnet.findMany` on one block, selecting the CIDR. -/
def cidrsOf (db : Db) (blockId : String) : List String :=
  (db.subnets.filter (·.data.blockId = blockId)).map (·.data.cidr)

def create (db : Db) (data : SubnetData) : Db :=
  { db with subnets := db.subnets ++ [⟨db.nextId, data⟩], nextId := db.nextId + 1 }

def createAll (db : Db) (rows : List SubnetData) : Db := rows.foldl create db

end Db

structure CreateSubnetInput where
  blockId : String
  cidr : String
  name : String
  purpose : Option String := none
  vlan : Option Nat := none
  tags : Option (List String) := none
  createdBy : Option String := none

structure BulkAllocateEntry where
  skip : Bool := false
  name : Option String := none
  prefixLength : Int
  vlan : Option Nat := none

structure BulkAllocateInput where
  blockId : String
  sitePrefix : String
  entries : List BulkAllocateEntry
  tags : Option (List String) := none
  anchorPrefix : Option Int := none
  createdBy : Option String := none

def IpVersion.text : IpVersion → String
  | .v4 => "v4"
  | .v6 => "v6"

def CreateSubnetInput.row (input : CreateSubnetInput) (normalizedCidr : String) : SubnetData :=
  ⟨input.blockId, normalizedCidr, input.name, input.purpose, input.vlan, input.tags.getD [],
    .available, input.createdBy⟩

namespace Reading

variable {Block : Type} (R : Reader Block)

def admitCidr (cidr : String) : Except Failure String :=
  if Cidr.Reading.isValidCidr R cidr then Cidr.Reading.normalizeCidr R cidr
  else .error (.app 400 s!"Invalid CIDR notation: {cidr}")

def checkBlock (block : IpBlock) (normalizedCidr : String) : Except Failure Unit :=
  if !Cidr.Reading.cidrContains R block.cidr normalizedCidr then
    .error (.app 400 s!"Subnet {normalizedCidr} is not within block {block.cidr}")
  else if detectIpVersion normalizedCidr ≠ block.ipVersion then
    .error (.app 400
      ("Subnet IP version does not match block IP version (" ++ IpVersion.text block.ipVersion ++ ")"))
  else .ok ()

def checkSiblings (siblings : List String) (normalizedCidr : String) : Except Failure Unit :=
  match siblings.find? (fun s => Cidr.Reading.cidrOverlaps R s normalizedCidr) with
  | some o => .error (.app 409 s!"Subnet {normalizedCidr} overlaps with existing subnet {o}")
  | none => .ok ()

def createSubnet (db : Db) (input : CreateSubnetInput) : Except Failure Db := do
  let normalizedCidr ← admitCidr R input.cidr
  let block ← db.findBlock input.blockId
  checkBlock R block normalizedCidr
  checkSiblings R (db.cidrsOf input.blockId) normalizedCidr
  return db.create (input.row normalizedCidr)

end Reading

variable (N : Package)

def admitCidr (cidr : String) : Except Failure String := Reading.admitCidr N.reader cidr

def checkBlock (block : IpBlock) (normalizedCidr : String) : Except Failure Unit :=
  Reading.checkBlock N.reader block normalizedCidr

def checkSiblings (siblings : List String) (normalizedCidr : String) : Except Failure Unit :=
  Reading.checkSiblings N.reader siblings normalizedCidr

def createSubnet (db : Db) (input : CreateSubnetInput) : Except Failure Db :=
  Reading.createSubnet N.reader db input

def ipv4Only : Failure :=
  .app 400 "Auto-allocation is currently only supported for IPv4 blocks"

def checkPrefixLength (block : IpBlock) (prefixLength : Int) : Except Failure Unit :=
  if block.ipVersion ≠ .v4 then .error ipv4Only
  else if prefixLength < 8 ∨ 32 < prefixLength then
    .error (.app 400 "Prefix length must be between 8 and 32")
  else .ok ()

def nextCidr (block : IpBlock) (existing : List String) (prefixLength : Int) : Except Failure String := do
  match ← findNextAvailableSubnet N block.cidr existing prefixLength.toNat with
  | some cidr => return cidr
  | none => .error (.app 409 s!"No available /{prefixLength} subnet found in block {block.cidr}")

/-- The metadata is a creation input whose `cidr` is replaced by the one found. -/
def allocateNextSubnet (db : Db) (blockId : String) (prefixLength : Int) (metadata : CreateSubnetInput) :
    Except Failure Db := do
  let block ← db.findBlock blockId
  checkPrefixLength block prefixLength
  let cidr ← nextCidr N block (db.cidrsOf blockId) prefixLength
  createSubnet N db { metadata with blockId, cidr }

def checkEntry (e : BulkAllocateEntry) : Except Failure Unit :=
  if e.prefixLength < 8 ∨ 32 < e.prefixLength then
    let label := if e.skip then "skip" else e.name.getD "unnamed"
    .error (.app 400 s!"Entry \"{label}\" has an invalid prefix length")
  else if !e.skip && trim (e.name.getD "") == "" then
    .error (.app 400 "Every non-skip entry must have a name")
  else .ok ()

def checkBulk (input : BulkAllocateInput) : Except Failure Nat :=
  let requestedAnchor := input.anchorPrefix.getD 24
  if trim input.sitePrefix = "" then .error (.app 400 "A site/prefix name is required")
  else if input.entries = [] then .error (.app 400 "At least one entry is required")
  else if requestedAnchor < 8 ∨ 32 < requestedAnchor then
    .error (.app 400 "Anchor prefix must be between /8 and /32")
  else do
    input.entries.forM checkEntry
    if input.entries.all (·.skip) then .error (.app 400 "At least one non-skip entry is required")
    else .ok requestedAnchor.toNat

def checkAssignments (existing : List String) (rows : List (BulkAllocateEntry × String)) :
    Except Failure Unit :=
  rows.forM fun a =>
    match existing.find? (fun s => cidrOverlaps N s a.2) with
    | some o => .error (.app 409 s!"Computed subnet {a.2} overlaps existing {o}")
    | none => .ok ()

def bulkRow (input : BulkAllocateInput) (a : BulkAllocateEntry × String) : Except Failure SubnetData := do
  let normalized ← normalizeCidr N a.2
  return ⟨input.blockId, normalized, trim input.sitePrefix ++ "_" ++ a.1.name.getD "undefined", none,
    a.1.vlan, input.tags.getD [], .available, input.createdBy⟩

def BulkAllocateEntry.bits (e : BulkAllocateEntry) : Nat := e.prefixLength.toNat

def planBulk (block : IpBlock) (existing : List String) (input : BulkAllocateInput)
    (requestedAnchor : Nat) : Except Failure (List SubnetData) := do
  match ← packIntoAnchor N BulkAllocateEntry.bits block.cidr existing input.entries requestedAnchor with
  | none =>
    .error (.app 409 s!"No free /{requestedAnchor}-aligned region in block {block.cidr} large enough to hold the template")
  | some packed =>
    let rows := packed.assignments.filter (fun a => !a.1.skip)
    checkAssignments N existing rows
    rows.mapM (bulkRow N input)

def checkV4 (block : IpBlock) : Except Failure Unit :=
  if block.ipVersion ≠ .v4 then .error ipv4Only else .ok ()

def bulkAllocate (db : Db) (input : BulkAllocateInput) : Except Failure Db := do
  let requestedAnchor ← checkBulk input
  let block ← db.findBlock input.blockId
  checkV4 block
  let rows ← planBulk N block (db.cidrsOf input.blockId) input requestedAnchor
  return db.createAll rows

/-- `activeCount` is the number of active reservations the store holds for
the subnet. -/
def deleteSubnet (db : Db) (id activeCount : Nat) : Except Failure Db :=
  match db.subnets.find? (·.id = id) with
  | none => .error (.app 404 s!"Subnet {id} not found")
  | some s =>
    if 0 < activeCount then
      .error (.app 409 ("Cannot delete subnet " ++ s.data.cidr ++ " — it has " ++ toString activeCount ++
        " active reservation(s)"))
    else .ok { db with subnets := db.subnets.filter (·.id ≠ id) }

end Polaris.SubnetService
