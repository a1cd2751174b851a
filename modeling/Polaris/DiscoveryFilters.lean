import Polaris.IntegrationFilter

namespace Polaris.DiscoveryFilters

open Polaris.IntegrationFilter (matchesWildcard keeps keeps_iff FortiManagerDevice)

structure DiscoveredSubnet where
  cidr : String
  name : String
  fortigateDevice : String
  dhcpServerId : String
  vlan : Option Nat := none
  deriving DecidableEq

/-- The lists that the two configurations have in common. -/
structure Patterns where
  interfaceInclude : Option (List String) := none
  interfaceExclude : Option (List String) := none
  dhcpInclude : Option (List String) := none
  dhcpExclude : Option (List String) := none
  inventoryExcludeInterfaces : Option (List String) := none
  inventoryIncludeInterfaces : Option (List String) := none

structure FortiManagerConfig extends Patterns where
  deviceInclude : Option (List String) := none
  deviceExclude : Option (List String) := none

structure FortiGateConfig extends Patterns

section Filters

variable (toLowerCase : String → String)

/-- A pattern without a star also takes the interfaces below its name. -/
def matchesInventory (pattern iface : String) : Bool :=
  matchesWildcard toLowerCase pattern iface ||
    ('*' ∉ pattern.toList &&
      ((toLowerCase pattern).toList ++ ['.']).isPrefixOf (toLowerCase iface).toList)

def matchesSubnet (s : DiscoveredSubnet) (pattern : String) : Bool :=
  matchesWildcard toLowerCase pattern s.name || matchesWildcard toLowerCase pattern s.dhcpServerId

/-- The two copies are the same. The exclude list applies to what the
include list has left. -/
def filterDhcpResults (subnets : List DiscoveredSubnet) (incl excl : Option (List String)) :
    List DiscoveredSubnet :=
  let included :=
    if incl.getD [] ≠ [] then subnets.filter fun s =>
      (incl.getD []).any (matchesSubnet toLowerCase s) else subnets
  if excl.getD [] ≠ [] then included.filter fun s =>
    ! (excl.getD []).any (matchesSubnet toLowerCase s) else included

namespace FortiManager

def matchesInterfaceFilter (interfaceName : String) (config : FortiManagerConfig) : Bool :=
  keeps (matchesWildcard toLowerCase · interfaceName) (config.interfaceInclude.getD [])
    (config.interfaceExclude.getD [])

def matchesInventoryFilter (interfaceName : String) (config : FortiManagerConfig) : Bool :=
  keeps (matchesInventory toLowerCase · interfaceName) (config.inventoryIncludeInterfaces.getD [])
    (config.inventoryExcludeInterfaces.getD [])

def filterDevices (devices : List FortiManagerDevice) (config : FortiManagerConfig) :
    List FortiManagerDevice :=
  IntegrationFilter.FortiManager.filterDevices toLowerCase devices config.deviceInclude config.deviceExclude

def filterDhcp (subnets : List DiscoveredSubnet) (config : FortiManagerConfig) : List DiscoveredSubnet :=
  filterDhcpResults toLowerCase subnets config.dhcpInclude config.dhcpExclude

end FortiManager

namespace FortiGate

def matchesInterfaceFilter (interfaceName : String) (config : FortiGateConfig) : Bool :=
  keeps (matchesWildcard toLowerCase · interfaceName) (config.interfaceInclude.getD [])
    (config.interfaceExclude.getD [])

def matchesInventoryFilter (interfaceName : String) (config : FortiGateConfig) : Bool :=
  keeps (matchesInventory toLowerCase · interfaceName) (config.inventoryIncludeInterfaces.getD [])
    (config.inventoryExcludeInterfaces.getD [])

def filterDhcp (subnets : List DiscoveredSubnet) (config : FortiGateConfig) : List DiscoveredSubnet :=
  filterDhcpResults toLowerCase subnets config.dhcpInclude config.dhcpExclude

end FortiGate

end Filters

section Rule

/-- An item stays in when the list of patterns to include says so, or when that
list is empty and the other one does not name the item. -/
def Ruled (seen : String → Bool) (incl excl : List String) : Prop :=
  (incl ≠ [] ∧ ∃ p ∈ incl, seen p) ∨ (incl = [] ∧ ∀ p ∈ excl, ¬ seen p)

/-- Both lists name the item. -/
def Crossed (seen : String → Bool) (incl excl : List String) : Prop :=
  (∃ p ∈ incl, seen p) ∧ ∃ p ∈ excl, seen p

variable {seen : String → Bool} {incl excl : List String}

theorem keeps_ruled : keeps seen incl excl = true ↔ Ruled seen incl excl := by
  rw [keeps_iff, Ruled]
  by_cases hi : incl = []
  · simp [hi]
  · simp [hi]

end Rule

section Documented

variable (toLowerCase : String → String)

/-- What the comments on the lists say of each filter. -/
structure Documented (config : FortiManagerConfig) (interfaceName : String) (d : FortiManagerDevice)
    (s : DiscoveredSubnet) : Prop where
  interfaces : FortiManager.matchesInterfaceFilter toLowerCase interfaceName config ↔
    Ruled (matchesWildcard toLowerCase · interfaceName) (config.interfaceInclude.getD [])
      (config.interfaceExclude.getD [])
  inventory : FortiManager.matchesInventoryFilter toLowerCase interfaceName config ↔
    Ruled (matchesInventory toLowerCase · interfaceName) (config.inventoryIncludeInterfaces.getD [])
      (config.inventoryExcludeInterfaces.getD [])
  devices : ∀ devices, d ∈ FortiManager.filterDevices toLowerCase devices config ↔
    d ∈ devices ∧ Ruled (IntegrationFilter.FortiManager.matchDevice toLowerCase d)
      (config.deviceInclude.getD [])
      (config.deviceExclude.getD [])
  subnets : ∀ subnets, s ∈ FortiManager.filterDhcp toLowerCase subnets config ↔
    s ∈ subnets ∧ Ruled (matchesSubnet toLowerCase s) (config.dhcpInclude.getD [])
      (config.dhcpExclude.getD [])

/-- The filters of the two paths give the same answers under the same lists. -/
structure Agree (config : FortiManagerConfig) (config' : FortiGateConfig) : Prop where
  interfaces : ∀ interfaceName, FortiManager.matchesInterfaceFilter toLowerCase interfaceName config =
    FortiGate.matchesInterfaceFilter toLowerCase interfaceName config'
  inventory : ∀ interfaceName, FortiManager.matchesInventoryFilter toLowerCase interfaceName config =
    FortiGate.matchesInventoryFilter toLowerCase interfaceName config'
  subnets : ∀ subnets, FortiManager.filterDhcp toLowerCase subnets config =
    FortiGate.filterDhcp toLowerCase subnets config'

variable {toLowerCase} {config : FortiManagerConfig} {s : DiscoveredSubnet}

theorem mem_filterDhcpResults {subnets : List DiscoveredSubnet} {incl excl : Option (List String)} :
    s ∈ filterDhcpResults toLowerCase subnets incl excl ↔ s ∈ subnets ∧
      (incl.getD [] = [] ∨ ∃ p ∈ incl.getD [], matchesSubnet toLowerCase s p) ∧
      ∀ p ∈ excl.getD [], ¬ matchesSubnet toLowerCase s p := by
  rw [filterDhcpResults]
  by_cases hi : incl.getD [] = []
  · by_cases he : excl.getD [] = []
    · simp [hi, he]
    · simp [hi, he]
  · by_cases he : excl.getD [] = []
    · simp [hi, he]
    · simp [hi, he, and_comm]

theorem dhcp_ruled_iff : (∀ subnets, s ∈ FortiManager.filterDhcp toLowerCase subnets config ↔
      s ∈ subnets ∧ Ruled (matchesSubnet toLowerCase s) (config.dhcpInclude.getD [])
        (config.dhcpExclude.getD [])) ↔
    ¬ Crossed (matchesSubnet toLowerCase s) (config.dhcpInclude.getD []) (config.dhcpExclude.getD []) := by
  simp only [FortiManager.filterDhcp, mem_filterDhcpResults]
  constructor
  · rintro h ⟨⟨p, hp, hseen⟩, q, hq, hbarred⟩
    have hne : config.dhcpInclude.getD [] ≠ [] := List.ne_nil_of_mem hp
    obtain ⟨-, -, hnone⟩ := (h [s]).mpr ⟨List.mem_singleton_self s, Or.inl ⟨hne, p, hp, hseen⟩⟩
    exact hnone q hq hbarred
  · intro h subnets
    refine and_congr_right fun _ => ?_
    by_cases hi : config.dhcpInclude.getD [] = []
    · simp [Ruled, hi]
    · simp only [Ruled, hi, ne_eq, not_false_eq_true, true_and, false_and, or_false, false_or]
      refine and_iff_left_of_imp fun hseen q hq hbarred => h ⟨hseen, q, hq, hbarred⟩

theorem filterDevices_ruled {devices : List FortiManagerDevice} {d : FortiManagerDevice} :
    d ∈ FortiManager.filterDevices toLowerCase devices config ↔
      d ∈ devices ∧ Ruled (IntegrationFilter.FortiManager.matchDevice toLowerCase d)
        (config.deviceInclude.getD [])
        (config.deviceExclude.getD []) := by
  rw [FortiManager.filterDevices, IntegrationFilter.FortiManager.filterDevices,
    IntegrationFilter.filterDevices,
    List.mem_filter, keeps_ruled]

theorem paths_agree (config : FortiManagerConfig) : Agree toLowerCase config ⟨config.toPatterns⟩ :=
  ⟨fun _ => rfl, fun _ => rfl, fun _ => rfl⟩

/-- All filters of both paths are as documented but for the DHCP filter, which
drops a subnet that both of its lists name. -/
theorem documented_iff_uncrossed (toLowerCase : String → String) (config : FortiManagerConfig)
    (interfaceName : String) (d : FortiManagerDevice) (s : DiscoveredSubnet) :
    Documented toLowerCase config interfaceName d s ∧ Agree toLowerCase config ⟨config.toPatterns⟩ ↔
      ¬ Crossed (matchesSubnet toLowerCase s) (config.dhcpInclude.getD []) (config.dhcpExclude.getD []) := by
  rw [and_iff_left (paths_agree config), ← dhcp_ruled_iff]
  exact ⟨fun h => h.subnets, fun h => ⟨keeps_ruled, keeps_ruled, fun _ => filterDevices_ruled, h⟩⟩

/-- The guest network is dropped though the list of inclusions names it. -/
theorem crossed_guest : ¬ Documented String.toLower
    { dhcpInclude := some ["*"], dhcpExclude := some ["guest"] } "lan"
    { name := "branch" } ⟨"10.0.0.0/24", "guest", "branch", "1", none⟩ := by
  intro h
  have hseen : matchesSubnet String.toLower ⟨"10.0.0.0/24", "guest", "branch", "1", none⟩ "*" = true := by
    decide +kernel
  have hbarred :
      matchesSubnet String.toLower ⟨"10.0.0.0/24", "guest", "branch", "1", none⟩ "guest" = true := by
    decide +kernel
  exact dhcp_ruled_iff.mp h.subnets
    ⟨⟨"*", List.mem_singleton_self _, hseen⟩, "guest", List.mem_singleton_self _, hbarred⟩

end Documented

end Polaris.DiscoveryFilters
