import Mathlib.Logic.Function.Basic
import Polaris.ConflictResolution

namespace Polaris.AssetLookup

open Polaris.ConflictResolution Polaris.Reservations

section Text

structure Casing where
  toLowerCase : String → String
  toUpperCase : String → String

def asciiCasing : Casing :=
  ⟨fun s => String.ofList (s.toList.map Char.toLower), fun s => String.ofList (s.toList.map Char.toUpper)⟩

variable (C : Casing)

def macKey (mac : String) : String := (C.toUpperCase mac).map fun c => if c = '-' then ':' else c

end Text

section Data

structure Asset where
  id : Nat
  hostname : Option String := none
  serialNumber : Option String := none
  macAddress : Option String := none
  macAddresses : List MacEntry := []
  ipAddress : Option String := none
  learnedLocation : Option String := none
  assignedTo : Option String := none
  assetType : AssetType := .other
  status : AssetStatus := .active
  model : Option String := none
  os : Option String := none
  osVersion : Option String := none
  lastSeen : Option Nat := none
  deriving DecidableEq

def Asset.isInfra (a : Asset) : Bool :=
  a.assetType = .firewall || a.assetType = .switch || a.assetType = .accessPoint

structure AssetIndex where
  byId : List Asset := []
  byMac : String → Option Nat := fun _ => none
  bySerial : String → Option Nat := fun _ => none
  byHostname : String → Option Nat := fun _ => none
  byIp : String → Option Nat := fun _ => none

end Data

section Index

variable (C : Casing)

def setKey (norm : String → String) (id : Nat) (m : String → Option Nat) (key : Option String) :
    String → Option Nat :=
  match truthy key with
  | none => m
  | some k => Function.update m (norm k) (some id)

def setId (a : Asset) (assets : List Asset) : List Asset :=
  if assets.any (·.id = a.id) then assets.map fun x => if x.id = a.id then a else x else assets ++ [a]

def macKeys (a : Asset) : List (Option String) := a.macAddress :: a.macAddresses.map fun m => some m.mac

def add (idx : AssetIndex) (a : Asset) : AssetIndex where
  byId := setId a idx.byId
  byMac := (macKeys a).foldl (setKey C.toUpperCase a.id) idx.byMac
  bySerial := setKey id a.id idx.bySerial a.serialNumber
  byHostname := setKey C.toLowerCase a.id idx.byHostname a.hostname
  byIp := setKey id a.id idx.byIp a.ipAddress

def build (assets : List Asset) : AssetIndex := assets.foldl (add C) {}

def findById (idx : AssetIndex) (id : Nat) : Option Asset := idx.byId.find? (·.id = id)

def findBySerial (idx : AssetIndex) (serial : String) : Option Asset :=
  (idx.bySerial serial).bind (findById idx)

def findByMac (idx : AssetIndex) (mac : String) : Option Asset :=
  (idx.byMac (C.toUpperCase mac)).bind (findById idx)

def findByEntry (idx : AssetIndex) (mac hostname ip : Option String) (allowIpFallback : Bool) :
    Option Asset :=
  let byMac := (truthy mac).bind fun mac => (idx.byMac (macKey C mac)).bind (findById idx)
  let byHostname := (truthy hostname).bind fun hostname =>
    (idx.byHostname (C.toLowerCase hostname)).bind (findById idx)
  let byIp := (truthy ip).bind fun ip => if allowIpFallback then (idx.byIp ip).bind (findById idx) else none
  byMac.or (byHostname.or byIp)

end Index

section Entries

variable {C : Casing} {idx : AssetIndex} {a b : Asset} {i : Nat} {serial : String} {as : List Asset}

theorem mem_setId {assets : List Asset} (h : b ∈ setId a assets) : b = a ∨ b ∈ assets := by
  rw [setId] at h
  split at h
  · obtain ⟨x, hx, rfl⟩ := List.mem_map.mp h
    split
    · exact .inl rfl
    · exact .inr hx
  · exact (List.mem_append.mp h).symm.imp List.mem_singleton.mp id

theorem find_setId (assets : List Asset) (a : Asset) (i : Nat) :
    (setId a assets).find? (·.id = i) = if i = a.id then some a else assets.find? (·.id = i) := by
  induction assets with
  | nil =>
    by_cases hi : i = a.id
    · simp [setId, hi]
    · have hne : ¬ a.id = i := fun he => hi he.symm
      simp [setId, hi, hne]
  | cons x xs ih =>
    rw [setId] at ih ⊢
    by_cases hx : x.id = a.id
    · rw [if_pos (by simp [hx]), List.map_cons, if_pos hx, List.find?_cons, List.find?_cons]
      by_cases hi : i = a.id
      · simp [hi]
      · have hne : ¬ a.id = i := fun he => hi he.symm
        have hnx : ¬ x.id = i := fun he => hi (he.symm.trans hx)
        have hmap : ∀ ys : List Asset,
            (ys.map fun y => if y.id = a.id then a else y).find? (·.id = i) = ys.find? (·.id = i) := by
          intro ys
          induction ys with
          | nil => rfl
          | cons y ys ih =>
            rw [List.map_cons, List.find?_cons, List.find?_cons, ih]
            by_cases hy : y.id = a.id
            · have hny : ¬ y.id = i := fun he => hi (he.symm.trans hy)
              simp [hy, hne]
            · rw [if_neg hy]
        simp [hne, hnx, hi, hmap]
    · by_cases hany : xs.any (·.id = a.id) = true
      · rw [if_pos hany] at ih
        rw [if_pos (by simp [hany]), List.map_cons, if_neg hx, List.find?_cons, List.find?_cons, ih]
        by_cases hi : i = a.id
        · have hnx : ¬ x.id = i := fun he => hx (he.trans hi)
          simp [hi, hx]
        · by_cases hxi : x.id = i <;> simp [hi, hxi]
      · rw [if_neg hany] at ih
        rw [if_neg (by simp [hx, hany]), List.cons_append, List.find?_cons, List.find?_cons, ih]
        by_cases hi : i = a.id
        · have hnx : ¬ x.id = i := fun he => hx (he.trans hi)
          simp [hi, hx]
        · by_cases hxi : x.id = i <;> simp [hi, hxi]

theorem findById_add : findById (add C idx a) i = if i = a.id then some a else findById idx i :=
  find_setId idx.byId a i

theorem bySerial_add : (add C idx a).bySerial serial =
    if truthy a.serialNumber = some serial then some a.id else idx.bySerial serial := by
  rw [add]
  dsimp only
  rw [setKey]
  cases h : truthy a.serialNumber with
  | none => simp
  | some k =>
    dsimp only
    by_cases hk : k = serial
    · subst hk
      simp
    · have hne : ¬ serial = k := fun he => hk he.symm
      simp [hk, hne]

theorem mem_findById (h : findById idx i = some a) : a ∈ idx.byId ∧ a.id = i :=
  ⟨List.mem_of_find?_eq_some h, by simpa using List.find?_some h⟩

theorem findById_of_findByEntry {mac hostname ip : Option String} {b : Bool}
    (h : findByEntry C idx mac hostname ip b = some a) :
    findById idx a.id = some a := by
  have hone : ∀ {i : Nat}, findById idx i = some a → findById idx a.id = some a := fun h =>
    (mem_findById h).2.symm ▸ h
  rw [findByEntry] at h
  obtain h | ⟨-, h⟩ := Option.or_eq_some_iff.mp h
  · obtain ⟨key, -, h⟩ := Option.bind_eq_some_iff.mp h
    obtain ⟨i, -, h⟩ := Option.bind_eq_some_iff.mp h
    exact hone h
  · obtain h | ⟨-, h⟩ := Option.or_eq_some_iff.mp h
    · obtain ⟨key, -, h⟩ := Option.bind_eq_some_iff.mp h
      obtain ⟨i, -, h⟩ := Option.bind_eq_some_iff.mp h
      exact hone h
    · obtain ⟨key, -, h⟩ := Option.bind_eq_some_iff.mp h
      split at h
      · obtain ⟨i, -, h⟩ := Option.bind_eq_some_iff.mp h
        exact hone h
      · cases h

/-- An index of these assets, with no id twice. -/
structure Built (as : List Asset) (idx : AssetIndex) : Prop where
  byId : ∀ a ∈ idx.byId, a ∈ as
  found : ∀ a ∈ as, findById idx a.id = some a
  owner : ∀ serial i, idx.bySerial serial = some i → ∃ a ∈ as, truthy a.serialNumber = some serial ∧ a.id = i
  keyed : ∀ a ∈ as, ∀ serial, truthy a.serialNumber = some serial → (idx.bySerial serial).isSome

theorem Built.add (h : Built as idx) (hfresh : ∀ b ∈ as, b.id ≠ a.id) : Built (as ++ [a]) (add C idx a) := by
  refine ⟨fun b hb => ?_, fun b hb => ?_, fun serial i hi => ?_, fun b hb serial hs => ?_⟩
  · obtain rfl | hb := mem_setId hb
    · exact List.mem_append_right _ List.mem_cons_self
    · exact List.mem_append_left _ (h.byId b hb)
  · rw [findById_add]
    obtain hb | hb := List.mem_append.mp hb
    · rw [if_neg (hfresh b hb)]
      exact h.found b hb
    · obtain rfl := List.mem_singleton.mp hb
      exact if_pos rfl
  · rw [bySerial_add] at hi
    split at hi
    next hs => exact ⟨a, List.mem_append_right _ List.mem_cons_self, hs, Option.some.inj hi⟩
    next =>
      obtain ⟨b, hb, hs, hid⟩ := h.owner serial i hi
      exact ⟨b, List.mem_append_left _ hb, hs, hid⟩
  · rw [bySerial_add]
    split
    next => rfl
    next hne =>
      obtain hb | hb := List.mem_append.mp hb
      · exact h.keyed b hb serial hs
      · obtain rfl := List.mem_singleton.mp hb
        exact absurd hs hne

theorem built_build (h : (as.map (·.id)).Nodup) : Built as (build C as) := by
  have hfold : ∀ (xs ys : List Asset) (idx : AssetIndex), Built ys idx → ((ys ++ xs).map (·.id)).Nodup →
      Built (ys ++ xs) (xs.foldl (add C) idx) := by
    intro xs
    induction xs with
    | nil =>
      intro ys idx hidx _
      rw [List.append_nil]
      exact hidx
    | cons x xs ih =>
      intro ys idx hidx hnodup
      have heq : ys ++ x :: xs = ys ++ [x] ++ xs := by rw [List.append_assoc, List.singleton_append]
      rw [heq] at hnodup ⊢
      refine ih _ _ (hidx.add fun b hb hid => ?_) hnodup
      rw [List.append_assoc, List.map_append, List.nodup_append] at hnodup
      exact hnodup.2.2 b.id (List.mem_map_of_mem hb) x.id (by simp) hid
  exact hfold as [] {} ⟨fun _ hb => absurd hb List.not_mem_nil, fun _ hb => absurd hb List.not_mem_nil, nofun,
    fun _ hb => absurd hb List.not_mem_nil⟩ h

end Entries

end Polaris.AssetLookup
