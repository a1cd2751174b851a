import Polaris.CidrAllocation

namespace Polaris.CidrEnumeration

open Polaris.Netmask Polaris.Cidr Polaris.CidrAllocation

inductive AddressType
  | network | broadcast | host
  deriving DecidableEq

structure EnumeratedIp where
  address : String
  type : AddressType
  deriving DecidableEq

def addressType (bitmask total i : Nat) : AddressType :=
  if 31 ≤ bitmask then .host
  else if i = 0 then .network
  else if i = total - 1 then .broadcast
  else .host

variable (N : Package)

def enumerateSubnetIps (cidr : String) (page pageSize : Nat) :
    Except Failure (List EnumeratedIp × Nat) := do
  let (block, baseInt, broadcastInt) ← parentRange N cidr
  let total := broadcastInt - baseInt + 1
  let startIdx := (page - 1) * pageSize
  let endIdx := min (startIdx + pageSize) total
  return ((List.range' startIdx (endIdx - startIdx)).map fun i =>
    ⟨intToIp (baseInt + i), addressType block.bitmask total i⟩, total)

variable {N}

/-- Every address is the canonical text of a number. -/
theorem enumerateSubnetIps_canonical {cidr : String} {page pageSize total : Nat}
    {addresses : List EnumeratedIp}
    (h : enumerateSubnetIps N cidr page pageSize = .ok (addresses, total)) :
    ∀ a ∈ addresses, ∃ n < 2 ^ 32, a.address = dottedQuad n := by
  cases hr : parentRange N cidr with
  | error e =>
    rw [enumerateSubnetIps, hr] at h
    cases h
  | ok range =>
    obtain ⟨block, baseInt, broadcastInt⟩ := range
    rw [enumerateSubnetIps, hr] at h
    cases h
    intro a ha
    obtain ⟨i, _, rfl⟩ := List.mem_map.mp ha
    refine ⟨(baseInt + i) % 2 ^ 32, Nat.mod_lt _ (by decide), ?_⟩
    simp only [intToIp, dottedQuad, octets]
    have h24 : (baseInt + i) % 2 ^ 32 / 2 ^ 24 % 256 = (baseInt + i) / 2 ^ 24 % 256 := by omega
    have h16 : (baseInt + i) % 2 ^ 32 / 2 ^ 16 % 256 = (baseInt + i) / 2 ^ 16 % 256 := by omega
    have h8 : (baseInt + i) % 2 ^ 32 / 2 ^ 8 % 256 = (baseInt + i) / 2 ^ 8 % 256 := by omega
    have h0 : (baseInt + i) % 2 ^ 32 % 256 = (baseInt + i) % 256 := by omega
    rw [h24, h16, h8, h0]

end Polaris.CidrEnumeration
