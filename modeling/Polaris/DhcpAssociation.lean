import Polaris.AssetLookup

namespace Polaris.DhcpAssociation

open Polaris.AssetLookup Polaris.Cidr Polaris.Netmask Polaris.Reservations
open Polaris.ConflictResolution hiding Asset

section Data

inductive EntryType
  | dhcpReservation | dhcpLease
  deriving DecidableEq

def EntryType.text : EntryType → String
  | .dhcpReservation => "dhcp-reservation"
  | .dhcpLease => "dhcp-lease"

structure DhcpEntry where
  device : String
  interfaceName : String := ""
  ipAddress : String
  macAddress : String
  hostname : String := ""
  type : EntryType
  expireTime : Option Nat := none
  accessPoint : String := ""
  ssid : String := ""
  vci : String := ""
  scopeId : Option Nat := none
  entryId : Option Nat := none
  seenLeased : Bool := false

structure Subnet extends Reservations.Subnet where
  name : String := ""

end Data

section Phase

variable (C : Casing) (N : Package) (subnets : List Subnet) (now : Nat)

def findSubnetForIp (ip : String) : Option Subnet :=
  subnets.find? fun s => s.status ≠ .deprecated && ipInCidr N ip s.cidr

/-- The asset a lease belongs to. Addresses are handed on, so they do not
count. -/
def attributed (idx : AssetIndex) (entry : DhcpEntry) : Option Asset :=
  if entry.macAddress = "" ∨ entry.ipAddress = "" then none
  else findByEntry C idx (some entry.macAddress) (some entry.hostname) (some entry.ipAddress) false

def amendFirst {α : Type} (p : α → Bool) (f : α → α) : List α → List α
  | [] => []
  | a :: rest => if p a then f a :: rest else a :: amendFirst p f rest

def mergeMac (mac source : String) (subnet : Option Subnet) (macs : List MacEntry) : List MacEntry :=
  let listed :=
    if macs.any (·.mac = mac) then
      amendFirst (·.mac = mac)
        (fun m => { m with
          lastSeen := now, source := source, subnetCidr := (subnet.map (·.cidr)).or m.subnetCidr
          subnetName := (subnet.map (·.name)).or m.subnetName })
        macs
    else
      macs ++ [{ mac := mac, lastSeen := now, source := source, subnetCidr := subnet.map (·.cidr),
                 subnetName := subnet.map (·.name) }]
  listed.mergeSort fun a b => b.lastSeen ≤ a.lastSeen

def seen (entry : DhcpEntry) (a : Asset) : Asset :=
  let macs := mergeMac now (macKey C entry.macAddress) entry.type.text
    (findSubnetForIp N subnets entry.ipAddress) a.macAddresses
  { a with
    macAddress := macs.head?.map (·.mac)
    macAddresses := macs
    ipAddress := if a.isInfra then a.ipAddress else some entry.ipAddress
    learnedLocation := if a.isInfra ∨ entry.device = "" then a.learnedLocation else some entry.device
    status := .active
    lastSeen := some now }

def associate (idx : AssetIndex) (entry : DhcpEntry) : AssetIndex :=
  match attributed C idx entry with
  | none => idx
  | some a => add C idx (seen C N subnets now entry a)

structure ResUpdate where
  hostname : Option String
  owner : Option String
  macAddress : Option String

def ResUpdate.isEmpty (u : ResUpdate) : Bool := u.hostname.isNone && u.owner.isNone && u.macAddress.isNone

def ResUpdate.apply (u : ResUpdate) (r : Reservation) : Reservation :=
  { r with
    hostname := u.hostname.or r.hostname, owner := u.owner.or r.owner, macAddress :=
      u.macAddress.or r.macAddress }

def macChanged (mac : String) (r : Reservation) : Bool := (truthy r.macAddress).map (macKey C) ≠ some mac

/-- The owner gives way only to another device. -/
def crossUpdate (a : Asset) (mac : String) (r : Reservation) : ResUpdate where
  hostname := (truthy a.hostname).filter fun h => r.hostname ≠ some h
  owner := (truthy a.assignedTo).filter fun o => r.owner ≠ some o ∧ macChanged C mac r
  macAddress := if macChanged C mac r then some mac else none

end Phase

end Polaris.DhcpAssociation
