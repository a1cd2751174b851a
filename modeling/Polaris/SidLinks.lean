import Polaris.DirectorySync
import Polaris.Lib.Linking

namespace Polaris.SidLinks

open Polaris.AssetLookup Polaris.DirectoryTables Polaris.DirectorySync Polaris.Lib.Linking
  Polaris.Lib.Snapshots
open Polaris.Lib.Store
open Polaris.Reservations (truthy)
open Polaris.ClusterSync hiding Db AssetRow

section Sids

variable (C : Casing)

/-- Nothing but a SID of one account pins a device. -/
def isMeaningfulSid (sid : String) : Bool :=
  if sid = "" then false
  else
    let s := C.toUpperCase (Lib.Text.trim sid)
    startsWith "S-" s && s ≠ "S-1-0-0"

def sourceSid (s : Source) : Option String :=
  match s.sourceKind with
  | .entra | .intune => (truthy (s.observed "onPremisesSecurityIdentifier")).map C.toUpperCase
  | .ad => (truthy (s.observed "objectSid")).map C.toUpperCase
  | _ => none

def reportedSid (sid : String) : Option String := (truthy (some sid)).map C.toUpperCase

def Recorded (db : Db) (id : Nat) (sid : String) : Prop := ∃ s ∈ db.sources, s.assetId = id ∧
    sourceSid C s = some sid

end Sids

section Rows

variable {rows : List Source} {row s : Source}

theorem upsert_there (rows : List Source) (row : Source) : ∃ s ∈ GatewaySync.upsertSource row true rows,
    s.assetId = row.assetId ∧ s.sourceKind = row.sourceKind ∧ s.externalId = row.externalId ∧
      s.observed = row.observed := by
  rw [GatewaySync.upsertSource]
  split
  next h =>
    obtain ⟨s, hs, hsame⟩ := List.any_eq_true.mp h
    refine ⟨_, List.mem_map_of_mem hs, ?_⟩
    rw [if_pos hsame]
    exact ⟨rfl, rfl, rfl, rfl⟩
  next => exact ⟨row, List.mem_append_right _ List.mem_cons_self, rfl, rfl, rfl, rfl⟩

theorem upsert_other (hs : s ∈ rows) (hne : GatewaySync.sameSource row s = false) :
    s ∈ GatewaySync.upsertSource row true rows := by
  rw [GatewaySync.upsertSource]
  split
  · exact List.mem_map.mpr ⟨s, hs, by rw [hne]; rfl⟩
  · exact List.mem_append_left _ hs

end Rows

theorem reportedSid_empty (C : Casing) : reportedSid C "" = none := rfl

theorem reportedSid_some (C : Casing) {sid : String} (h : sid ≠ "") :
    reportedSid C sid = some (C.toUpperCase sid) := by
  rw [reportedSid, truthy, Option.filter_some, if_pos (by simpa using h), Option.map_some]

theorem get_indexSid (C : Casing) (m : Index String) (sid k : String) (id : Nat) :
    (if sid = "" then m else m.set (C.toUpperCase sid) id).get k =
      if reportedSid C sid = some k then some id else m.get k := by
  by_cases h : sid = ""
  · rw [if_pos h, h, reportedSid_empty, if_neg (by simp)]
  · rw [if_neg h, reportedSid_some C h, Index.set, Index.get_cons]
    simp only [Option.some.injEq]

theorem truthy_truthy {s : Option String} {t : String} (h : truthy s = some t) :
    truthy (some t) = some t := by
  obtain ⟨-, ht⟩ := Polaris.Reservations.truthy_some h
  simp [truthy, ht]

theorem truthy_idem (s : Option String) : truthy (truthy s) = truthy s := by
  cases h : truthy s with
  | none => rfl
  | some t => exact truthy_truthy h

theorem get_readSid (C : Casing) (m : Index String) (sid : Option String) (id : Nat) (k : String) :
    (match sid with | none => m | some sid => m.set (C.toUpperCase sid) id).get k =
      if sid.map C.toUpperCase = some k then some id else m.get k := by
  cases sid with
  | none => simp
  | some sid =>
    change Index.get ((C.toUpperCase sid, id) :: m) k = _
    rw [Index.get_cons]
    simp only [Option.map_some, Option.some.injEq]

section Entra

variable (C : Casing) (c : Sync)

def foundEntra (mem : EntraMemory) (dev : EntraDevice) : Prop :=
  deviceIdKey C dev = "" ∨ ((mem.byDeviceId.get (deviceIdKey C dev)).bind (findKnown mem.assets)).isSome

instance (mem : EntraMemory) (dev : EntraDevice) : Decidable (foundEntra C mem dev) :=
  inferInstanceAs (Decidable (_ ∨ _))

def createdEntra (p : Db × EntraMemory) (dev : EntraDevice) : Option Nat :=
  if lookEntra C dev p.2 = .unknown then some p.1.assets.nextId else none

theorem stampEntra_ids (dev : EntraDevice) (mem : EntraMemory) (id : Nat) :
    (stampEntra C c dev mem id).assets.map (·.id) = mem.assets.map (·.id) := by
  rw [stampEntra, List.map_map]
  refine List.map_congr_left fun k _ => ?_
  rw [Function.comp_apply]
  split <;> rfl

theorem patchEntra_eq (db : Db) (mem : EntraMemory) (dev : EntraDevice) :
    let found := lookEntra C dev mem
    let after := patchEntra C c db dev mem found
    (∀ k, after.bySid.get k =
      if reportedSid C dev.onPremisesSecurityIdentifier = some k then (createdEntra C (db,
        mem) dev).or (mem.bySid.get k)
      else mem.bySid.get k) ∧
    after.assets.map (·.id) = mem.assets.map (·.id) ++ (createdEntra C (db, mem) dev).toList := by
  intro found after
  rw [createdEntra]
  change (∀ k, (patchEntra C c db dev mem (lookEntra C dev mem)).bySid.get k = _) ∧
    (patchEntra C c db dev mem (lookEntra C dev mem)).assets.map (·.id) = _
  cases hfound : lookEntra C dev mem with
  | unknown =>
    refine ⟨fun k => (get_indexSid C mem.bySid _ k db.assets.nextId).trans ?_, ?_⟩
    · simp
    · simp [patchEntra, knownEntra]
  | noId => simp [patchEntra]
  | untagged id via => simp [patchEntra]
  | existing id a untagged sibling =>
    rw [patchEntra, stampEntra_ids]
    simp [stampEntra]
  | duplicate id a existingEntraId =>
    rw [patchEntra]
    split
    · exact ⟨by simp [stampEntra], by rw [stampEntra_ids]; simp⟩
    · simp

def entraLinks : Links (entra C c) String where
  key dev := reportedSid C dev.onPremisesSecurityIdentifier
  index mem k := mem.bySid.get k
  known mem id := id ∈ mem.assets.map (·.id)
  found := foundEntra C
  created := createdEntra C
  recorded := Recorded C
  index_step p dev k := (patchEntra_eq C c p.1 p.2 dev).1 k
  known_step p dev id h := by
    change id ∈ (patchEntra C c p.1 dev p.2 (lookEntra C dev p.2)).assets.map (·.id)
    rw [(patchEntra_eq C c p.1 p.2 dev).2]
    exact List.mem_append_left _ h
  known_created p dev id h := by
    change id ∈ (patchEntra C c p.1 dev p.2 (lookEntra C dev p.2)).assets.map (·.id)
    rw [(patchEntra_eq C c p.1 p.2 dev).2, h]
    exact List.mem_append_right _ List.mem_cons_self

variable {C c} {db : Db}

theorem sourceSid_entra {dev : EntraDevice} {s : Source} (hkind : s.sourceKind = .entra)
    (hobserved : s.observed = buildEntraObservedBlob C dev) :
    sourceSid C s = reportedSid C dev.onPremisesSecurityIdentifier := by
  have hblob : buildEntraObservedBlob C dev "onPremisesSecurityIdentifier" =
    truthy (some dev.onPremisesSecurityIdentifier) := rfl
  rw [sourceSid, hkind, hobserved, reportedSid]
  dsimp only
  rw [hblob, truthy_idem]

theorem upsert_entra {dev : EntraDevice} (hfrom : dev.fromEntra = true) (db : Db)
    (id : Nat) : ∃ s ∈ (upsertEntraIntuneSources C c db dev id).sources, s.assetId = id ∧
      sourceSid C s = reportedSid C dev.onPremisesSecurityIdentifier := by
  obtain ⟨s, hs, hid, hkind, hext, hobserved⟩ := upsert_there db.sources (entraSource C c dev id)
  have hswept : isSwept C dev id s = false := by
    rw [isSwept, hkind, hext, hfrom]
    simp [entraSource]
  have hmem : s ∈ ((seededSources C c dev id).foldl upsertSource db).sources := by
    rw [seededSources, if_pos hfrom]
    cases dev.fromIntune with
    | false => exact hs
    | true =>
      refine upsert_other hs ?_
      rw [GatewaySync.sameSource, hkind]
      rfl
  exact ⟨s, List.mem_filter.mpr ⟨hmem, by rw [hswept]; rfl⟩, hid, sourceSid_entra hkind hobserved⟩

theorem recorded_created {p : Db × EntraMemory} {dev : EntraDevice} {id : Nat} {k : String}
    (hfrom : dev.onPremisesSecurityIdentifier ≠ "" → dev.fromEntra = true)
    (h : createdEntra C p dev = some id)
    (hk : reportedSid C dev.onPremisesSecurityIdentifier = some k) :
    Recorded C ((entra C c).step p dev).1 id k := by
  rw [createdEntra] at h
  split at h
  next hunknown =>
    cases h
    change Recorded C (writeEntraFound C c p.1 dev (lookEntra C dev p.2)) p.1.assets.nextId k
    rw [hunknown, writeEntraFound]
    have hsid : dev.onPremisesSecurityIdentifier ≠ "" :=
      fun he => by rw [he, reportedSid_empty] at hk; cases hk
    obtain ⟨s, hs, hid, hsource⟩ := upsert_entra (hfrom hsid)
      (createAsset C p.1 (newEntra C c dev) (mergeIntuneMacs C c.now (intuneMacEntries dev) []))
        p.1.assets.nextId
    exact ⟨s, hs, hid, hsource.trans hk⟩
  next => cases h

theorem bySid_indexEntraSource (mem : EntraMemory) (s : Source) (k : String) :
    (indexEntraSource C mem s).bySid.get k = if sourceSid C s = some k then some s.assetId
      else mem.bySid.get k := by
  rw [indexEntraSource, sourceSid]
  cases hkind : s.sourceKind with
  | entra => exact get_readSid ..
  | intune => exact get_readSid ..
  | ad => exact get_readSid ..
  | _ => simp

/-- What the database promises: a listing leaves no row out, and a source
row belongs to an asset. -/
structure Promised (c : Sync) (db : Db) : Prop where
  listing : ∀ rows, (c.listing rows).Perm rows
  order : ∀ sources, (c.order sources).Perm sources
  owned : ∀ s ∈ db.sources, ∃ r ∈ db.assets.rows, r.id = s.assetId

theorem indexEntraSource_assets (mem : EntraMemory) (s : Source) :
    (indexEntraSource C mem s).assets = mem.assets := by
  rw [indexEntraSource]
  cases s.sourceKind <;> rfl

theorem loadEntra_assets : (loadEntra C c db).assets.map (·.id) = (c.listing db.assets.rows).map (·.id) := by
  have hassets : (loadEntra C c db).assets = _ :=
    (foldl_kept (f := indexEntraAsset C _) (g := EntraMemory.assets) (fun _ _ => rfl) _ _).trans
      (foldl_kept (f := indexEntraSource C) (g := EntraMemory.assets) indexEntraSource_assets _ _)
  rw [hassets, List.map_map, List.map_map]
  rfl

def entraSources (c : Sync) (db : Db) : List Source :=
  c.order (db.sources.filter fun s => s.sourceKind ∈ [AssetProjection.AssetSourceKind.entra, .intune, .ad])

theorem mem_entraSources (h : Promised c db) {s : Source} {k : String} (hk : sourceSid C s = some k) :
    s ∈ entraSources c db ↔ s ∈ db.sources := by
  rw [entraSources, (h.order _).mem_iff, List.mem_filter, and_iff_left]
  rw [sourceSid] at hk
  cases hkind : s.sourceKind with
  | entra => rfl
  | intune => rfl
  | ad => rfl
  | _ => rw [hkind] at hk; cases hk

theorem loadEntra_bySid (h : Promised c db) (k : String) :
    (((loadEntra C c db).bySid.get k).isSome ↔ ∃ s ∈ db.sources, sourceSid C s = some k) ∧
      ∀ id, (loadEntra C c db).bySid.get k = some id → Recorded C db id k := by
  have hsid : (loadEntra C c db).bySid = ((entraSources c db).foldl (indexEntraSource C)
      { assets := ((c.listing db.assets.rows).map fun r =>
          (r, GatewaySync.shapeMacRows r.id db.macRows)).map fun r =>
            knownEntra r.1.id r.1.data r.2 }).bySid :=
    foldl_kept (f := indexEntraAsset C _) (g := EntraMemory.bySid) (fun _ _ => rfl) _ _
  have hindex (m : EntraMemory) := @index_foldl EntraMemory String Source _ (fun mem k => mem.bySid.get k)
    (indexEntraSource C) (sourceSid C) (·.assetId) (entraSources c db) m k
    fun m s _ k => bySid_indexEntraSource m s k
  rw [hsid]
  obtain ⟨hsome, hfrom⟩ := hindex _
  refine ⟨hsome.trans ?_, fun id hid => ?_⟩
  · rw [or_iff_right (by simp [Index.get])]
    constructor
    · rintro ⟨s, hs, hk⟩
      exact ⟨s, (mem_entraSources h hk).mp hs, hk⟩
    · rintro ⟨s, hs, hk⟩
      exact ⟨s, (mem_entraSources h hk).mpr hs, hk⟩
  · obtain hempty | ⟨s, hs, hk, hid⟩ := hfrom id hid
    · cases hempty
    · exact ⟨s, (mem_entraSources h hk).mp hs, hid, hk⟩

theorem Promised.lawful (h : Promised c db) {devices : List EntraDevice}
    (hfrom : ∀ dev ∈ devices, dev.onPremisesSecurityIdentifier ≠ "" → dev.fromEntra = true) :
    (entraLinks C c).Lawful db devices where
  load k id hid := by
    obtain ⟨s, hs, hid, hk⟩ := (loadEntra_bySid h k).2 id hid
    obtain ⟨r, hr, hrid⟩ := h.owned s hs
    refine ⟨?_, s, hs, hid, hk⟩
    change id ∈ (loadEntra C c db).assets.map (·.id)
    rw [loadEntra_assets, ((h.listing _).map _).mem_iff, ← hid, ← hrid]
    exact List.mem_map_of_mem hr
  recorded p dev id k hdev hcreated hk := recorded_created (hfrom dev hdev) hcreated hk

section Apart

variable {mem : EntraMemory} {dev other : EntraDevice}

variable (C) in
def macKeysOf (dev : EntraDevice) : List String :=
  ([dev.ethernetMacAddress, dev.wifiMacAddress].map (normalizeMacKey C)).filter (· ≠ "")

variable (C) in
/-- Two devices with no id and no MAC in common. -/
def Different (dev other : EntraDevice) : Prop :=
  deviceIdKey C dev ≠ deviceIdKey C other ∧ ∀ m ∈ macKeysOf C dev, m ∉ macKeysOf C other

variable (C) in
/-- No asset answers to the id, a MAC or the name of the device. -/
def Stranger (mem : EntraMemory) (dev : EntraDevice) : Prop :=
  deviceIdKey C dev ≠ "" ∧ mem.byDeviceId.get (deviceIdKey C dev) = none ∧
    (∀ m ∈ macKeysOf C dev, mem.byMac.get m = none) ∧ namesake C dev mem mem.untagged = none ∧
    namesake C dev mem mem.tagged = none

variable (C) in
def entraTarget (p : Db × EntraMemory) (dev : EntraDevice) : Option Nat :=
  match lookEntra C dev p.2 with
  | .existing id _ _ _ | .duplicate id _ _ => some id
  | .unknown => some p.1.assets.nextId
  | .noId | .untagged _ _ => none

theorem patchEntra_names (db : Db) (found : EntraFound) :
    (patchEntra C c db dev mem found).untagged = mem.untagged ∧
      (patchEntra C c db dev mem found).tagged = mem.tagged := by
  cases found with
  | duplicate id a existingEntraId =>
    rw [patchEntra]
    split <;> exact ⟨rfl, rfl⟩
  | _ => exact ⟨rfl, rfl⟩

theorem patchEntra_byDeviceId (db : Db) (found : EntraFound) {k : String} (hk : deviceIdKey C dev ≠ k)
    (h : mem.byDeviceId.get k = none) : (patchEntra C c db dev mem found).byDeviceId.get k = none := by
  cases found with
  | duplicate id a existingEntraId =>
    rw [patchEntra]
    split
    · change Index.get
        ((deviceIdKey C dev, id) :: mem.byDeviceId.delete (C.toLowerCase existingEntraId)) k = none
      rw [Index.get_cons, if_neg hk, Index.get_delete, h, ite_self]
    · exact h
  | unknown =>
    change Index.get ((deviceIdKey C dev, db.assets.nextId) :: mem.byDeviceId) k = none
    rw [Index.get_cons, if_neg hk, h]
  | _ => exact h

theorem foldl_setNew (entries : List (String × String)) (m : Index String) (id : Nat) {k : String}
    (hk : k ∉ (entries.map fun e => normalizeMacKey C e.1).filter (· ≠ "")) (h : m.get k = none) :
    (entries.foldl (fun m e => if normalizeMacKey C e.1 = "" then m
      else m.setNew (normalizeMacKey C e.1) id) m).get k =
      none := by
  induction entries generalizing m with
  | nil => exact h
  | cons e entries ih =>
    rw [List.map_cons, List.filter_cons] at hk
    rw [List.foldl_cons]
    by_cases he : normalizeMacKey C e.1 = ""
    · rw [if_pos he]
      exact ih m (by simpa [he] using hk) h
    · rw [if_neg he]
      simp only [ne_eq, he, not_false_eq_true, decide_true, if_true, List.mem_cons, not_or] at hk
      refine ih _ hk.2 ?_
      rw [Index.get_setNew, h, Option.none_or, if_neg (Ne.symm hk.1)]

theorem mem_intuneMacEntries {e : String × String} (he : e ∈ intuneMacEntries dev) :
    e.1 ∈ [dev.ethernetMacAddress, dev.wifiMacAddress] := by
  rw [intuneMacEntries, List.mem_append] at he
  obtain he | he := he
  · split at he
    · cases he
    · rw [List.mem_singleton.mp he]
      exact List.mem_cons_self
  · split at he
    · cases he
    · rw [List.mem_singleton.mp he]
      exact List.mem_cons_of_mem _ List.mem_cons_self

theorem patchEntra_byMac (db : Db) (found : EntraFound) {k : String} (hk : k ∉ macKeysOf C dev)
    (h : mem.byMac.get k = none) : (patchEntra C c db dev mem found).byMac.get k = none := by
  cases found with
  | duplicate id a existingEntraId =>
    rw [patchEntra]
    split <;> exact h
  | unknown =>
    refine foldl_setNew _ _ _ (fun hm => hk ?_) h
    obtain ⟨hm, hne⟩ := List.mem_filter.mp hm
    obtain ⟨e, he, rfl⟩ := List.mem_map.mp hm
    refine List.mem_filter.mpr ⟨List.mem_map_of_mem ?_, hne⟩
    exact mem_intuneMacEntries he
  | _ => exact h

theorem lookupHostname_none {α : Type} {known known' : List (Known α)} {m : Index (List Nat)}
    {hostname : String}
    (h : lookupHostname C known m hostname = none) : lookupHostname C known' m hostname = none := by
  rw [lookupHostname] at h ⊢
  dsimp only at h ⊢
  cases hget : m.get (codeUnits (C.toLowerCase hostname)) with
  | none => rw [hget] at h; exact h
  | some id => rw [hget] at h; cases h

theorem namesake_none {mem' : EntraMemory} {m : Index (List Nat)} (h : namesake C dev mem m = none) :
    namesake C dev mem' m = none := by
  rw [namesake] at h ⊢
  by_cases hname : dev.displayName = ""
  · rw [if_pos hname]
  · rw [if_neg hname] at h ⊢
    exact lookupHostname_none h

theorem Stranger.step (h : Stranger C mem other) (hdifferent : Different C dev other) (db : Db)
    (found : EntraFound) :
    Stranger C (patchEntra C c db dev mem found) other := by
  obtain ⟨hid, hbyId, hbyMac, huntagged, htagged⟩ := h
  obtain ⟨hu, ht⟩ : (patchEntra C c db dev mem found).untagged = mem.untagged ∧
    (patchEntra C c db dev mem found).tagged = mem.tagged := patchEntra_names db found
  refine ⟨hid, patchEntra_byDeviceId db found hdifferent.1 hbyId, fun m hm => ?_, ?_, ?_⟩
  · exact patchEntra_byMac db found (fun hd => hdifferent.2 m hd hm) (hbyMac m hm)
  · rw [hu]
    exact namesake_none huntagged
  · rw [ht]
    exact namesake_none htagged

theorem mac_mem_keys (dev : EntraDevice) (h : normalizeMacKey C dev.ethernetMacAddress ≠ "") :
    normalizeMacKey C dev.ethernetMacAddress ∈ macKeysOf C dev :=
  List.mem_filter.mpr ⟨List.mem_map_of_mem List.mem_cons_self, by simpa using h⟩

/-- A stranger whose SID is in no index makes an asset of its own. -/
theorem Stranger.unknown (h : Stranger C mem dev)
    (hsid : ∀ k, reportedSid C dev.onPremisesSecurityIdentifier = some k → mem.bySid.get k = none) :
    lookEntra C dev mem = .unknown := by
  obtain ⟨hid, hbyId, hbyMac, huntagged, htagged⟩ := h
  have hmatch : matchEntra C dev mem = none := by
    rw [matchEntra, hbyId, Option.bind_none, Option.none_or, Option.or_eq_none_iff]
    refine ⟨?_, ?_⟩
    · split
      next => rfl
      next hne => rw [hsid _ (reportedSid_some C hne), Option.bind_none]
    · split
      next => rfl
      next hne => rw [hbyMac _ (mac_mem_keys dev hne), Option.bind_none]
  rw [lookEntra, if_neg hid, hmatch]
  dsimp only
  rw [huntagged]
  dsimp only
  rw [htagged, Option.bind_none]

theorem nextId_entra (p : Db × EntraMemory) (dev : EntraDevice) : ((entra C c).step p dev).1.assets.nextId =
    p.1.assets.nextId + (if lookEntra C dev p.2 = .unknown then 1 else 0) := by
  change (writeEntraFound C c p.1 dev (lookEntra C dev p.2)).assets.nextId = _
  by_cases hunknown : lookEntra C dev p.2 = .unknown
  · rw [hunknown, writeEntraFound_unknown, (Table.append_rows _ _).2, if_pos rfl]
  · rw [if_neg hunknown, Nat.add_zero]
    cases htarget : (lookEntra C dev p.2).target dev with
    | none => rw [writeEntraFound_untouched hunknown htarget]
    | some target =>
      obtain ⟨q, hq⟩ := @writeEntraFound_target C c p.1 dev _ _ _ htarget
      rw [hq, (Table.amendWhere_rows _ _ _).2]

theorem created_entra (p : Db × EntraMemory) (dev : EntraDevice) (id : Nat)
    (h : createdEntra C p dev = some id) :
    id = p.1.assets.nextId ∧ ((entra C c).step p dev).1.assets.nextId = id + 1 := by
  rw [createdEntra] at h
  split at h
  next hunknown => cases h; exact ⟨rfl, by rw [nextId_entra, if_pos hunknown]⟩
  next => cases h

/-- Devices with placeholder SIDs that nothing in the store answers to are put
on assets of their own. -/
def Apart (C : Casing) (c : Sync) (db : Db) (devices : List EntraDevice) : Prop :=
  devices.Pairwise (Different C) → ∀ i j dev other, i < j → devices[i]? = some dev →
    devices[j]? = some other →
    isMeaningfulSid C dev.onPremisesSecurityIdentifier = false →
    isMeaningfulSid C other.onPremisesSecurityIdentifier = false →
    Stranger C (loadEntra C c db) dev → Stranger C (loadEntra C c db) other → ∃ x y,
      entraTarget C (reached (entra C c) db devices i) dev = some x ∧
        entraTarget C (reached (entra C c) db devices j) other = some y ∧ x ≠ y

theorem Stranger.reached {devices : List EntraDevice} {j : Nat} (hpair : devices.Pairwise (Different C))
    (hdev : devices[j]? = some dev) (h : Stranger C (loadEntra C c db) dev) :
    Stranger C (reached (entra C c) db devices j).2 dev := by
  refine reached_invariant (I := fun p => Stranger C p.2 dev) h fun m hm d hd p hp => ?_
  obtain ⟨hmlt, rfl⟩ := List.getElem?_eq_some_iff.mp hd
  obtain ⟨hjlt, rfl⟩ := List.getElem?_eq_some_iff.mp hdev
  exact hp.step (List.pairwise_iff_getElem.mp hpair m j hmlt hjlt hm) p.1 _

theorem foundEntra_none (hbyId : mem.byDeviceId.get (deviceIdKey C dev) = none)
    (hid : deviceIdKey C dev ≠ "") :
    ¬ foundEntra C mem dev := by
  rw [foundEntra, hbyId]
  simpa using hid

/-- Each device is known by its id, reports a SID of an account or none, or
reports one that no row and no new device has reported. -/
def EntraFresh (C : Casing) (c : Sync) (db : Db) (devices : List EntraDevice) : Prop :=
  ∀ j dev, devices[j]? = some dev → foundEntra C (reached (entra C c) db devices j).2 dev ∨
    isMeaningfulSid C dev.onPremisesSecurityIdentifier = true ∨
    ∀ k, reportedSid C dev.onPremisesSecurityIdentifier = some k →
      (∀ s ∈ db.sources, sourceSid C s ≠ some k) ∧
      ∀ m < j, ∀ d, devices[m]? = some d → reportedSid C d.onPremisesSecurityIdentifier = some k →
        createdEntra C (reached (entra C c) db devices m) d = none

theorem not_seen_entra (h : Promised c db) {devices : List EntraDevice} {j : Nat} {k : String} :
    ¬ (entraLinks C c).Seen db devices j k ↔ (∀ s ∈ db.sources, sourceSid C s ≠ some k) ∧
      ∀ m < j, ∀ d, devices[m]? = some d → reportedSid C d.onPremisesSecurityIdentifier = some k →
        createdEntra C (reached (entra C c) db devices m) d = none := by
  rw [Links.Seen, not_or]
  refine and_congr ?_ ?_
  · exact (not_congr (loadEntra_bySid h k).1).trans (by simp)
  · simp [entraLinks]

theorem EntraFresh.apart (h : Promised c db) {devices : List EntraDevice}
    (hfresh : EntraFresh C c db devices) :
    Apart C c db devices := by
  intro hpair i j dev other hij hdev hother hplaceholder hplaceholder' hstranger hstranger'
  have hunknown {m : Nat} {d : EntraDevice} (hd : devices[m]? = some d)
      (hm : isMeaningfulSid C d.onPremisesSecurityIdentifier = false) (hs : Stranger C (loadEntra C c db) d) :
      lookEntra C d (reached (entra C c) db devices m).2 = .unknown := by
    have hreached := hs.reached hpair hd
    refine hreached.unknown fun k hk => ?_
    obtain hfound | hmeaningful | hseen := hfresh m d hd
    · exact absurd hfound (foundEntra_none hreached.2.1 hreached.1)
    · rw [hm] at hmeaningful; cases hmeaningful
    · have hnot := mt Links.isSome_index.mp ((not_seen_entra h).mpr (hseen k hk))
      exact Option.not_isSome_iff_eq_none.mp hnot
  have hx := hunknown hdev hplaceholder hstranger
  have hy := hunknown hother hplaceholder' hstranger'
  refine ⟨_, _, by rw [entraTarget, hx], by rw [entraTarget, hy], Nat.ne_of_lt ?_⟩
  exact reached_lt (createdEntra C) (fun db => db.assets.nextId) created_entra
    (fun p e => by rw [nextId_entra]; exact Nat.le_add_right _ _) hij hdev (if_pos hx) (if_pos hy)

end Apart

end Entra

section ActiveDirectory

variable (C : Casing) (c : Sync)

def foundAd (mem : AdMemory) (dev : AdDevice) : Prop :=
  guidKey C dev = "" ∨ ((mem.byGuid.get (guidKey C dev)).bind (findKnown mem.assets)).isSome

instance (mem : AdMemory) (dev : AdDevice) : Decidable (foundAd C mem dev) :=
  inferInstanceAs (Decidable (_ ∨ _))

def createdAd (p : Db × AdMemory) (dev : AdDevice) : Option Nat :=
  if lookAd C dev p.2 = .unknown then some p.1.assets.nextId else none

theorem patchAd_eq (db : Db) (mem : AdMemory) (dev : AdDevice) :
    (∀ k, (patchAd C c db dev mem (lookAd C dev mem)).bySid.get k =
      if reportedSid C dev.objectSid = some k then (createdAd C (db, mem) dev).or (mem.bySid.get k)
      else mem.bySid.get k) ∧
    (patchAd C c db dev mem (lookAd C dev mem)).assets.map (·.id) =
      mem.assets.map (·.id) ++ (createdAd C (db, mem) dev).toList := by
  rw [createdAd]
  cases hfound : lookAd C dev mem with
  | unknown =>
    refine ⟨fun k => (get_indexSid C mem.bySid _ k db.assets.nextId).trans ?_, ?_⟩
    · simp
    · simp [patchAd, knownAd]
  | _ => simp [patchAd]

def adLinks : Links (activeDirectory C c) String where
  key dev := reportedSid C dev.objectSid
  index mem k := mem.bySid.get k
  known mem id := id ∈ mem.assets.map (·.id)
  found := foundAd C
  created := createdAd C
  recorded := Recorded C
  index_step p dev k := (patchAd_eq C c p.1 p.2 dev).1 k
  known_step p dev id h := by
    change id ∈ (patchAd C c p.1 dev p.2 (lookAd C dev p.2)).assets.map (·.id)
    rw [(patchAd_eq C c p.1 p.2 dev).2]
    exact List.mem_append_left _ h
  known_created p dev id h := by
    change id ∈ (patchAd C c p.1 dev p.2 (lookAd C dev p.2)).assets.map (·.id)
    rw [(patchAd_eq C c p.1 p.2 dev).2, h]
    exact List.mem_append_right _ List.mem_cons_self

variable {C c} {db : Db}

theorem recorded_createdAd {p : Db × AdMemory} {dev : AdDevice} {id : Nat} {k : String}
    (h : createdAd C p dev = some id) (hk : reportedSid C dev.objectSid = some k) :
    Recorded C ((activeDirectory C c).step p dev).1 id k := by
  rw [createdAd] at h
  split at h
  next hunknown =>
    cases h
    change Recorded C (writeAdFound C c p.1 dev (lookAd C dev p.2)) p.1.assets.nextId k
    rw [hunknown, writeAdFound]
    obtain ⟨s, hs, hid, hkind, -, hobserved⟩ := upsert_there
      (createAsset C p.1 (newAd C c dev) []).sources (adSource C c dev p.1.assets.nextId)
    refine ⟨s, hs, hid, ?_⟩
    have hblob : buildAdObservedBlob C dev "objectSid" = truthy (some dev.objectSid) := rfl
    rw [sourceSid, hkind, hobserved]
    change (truthy (buildAdObservedBlob C dev "objectSid")).map C.toUpperCase = some k
    rw [hblob, truthy_idem]
    exact hk
  next => cases h

theorem bySid_indexAdSource (mem : AdMemory) {s : Source} (hs : s.sourceKind = .ad ∨ s.sourceKind = .entra)
    (k : String) :
    (indexAdSource C mem s).bySid.get k = if sourceSid C s = some k then some s.assetId
      else mem.bySid.get k := by
  rw [indexAdSource, sourceSid]
  obtain hkind | hkind := hs
  · rw [hkind]
    exact get_readSid ..
  · rw [hkind]
    exact get_readSid ..

theorem indexAdSource_assets (mem : AdMemory) (s : Source) : (indexAdSource C mem s).assets = mem.assets := by
  rw [indexAdSource]
  cases s.sourceKind <;> rfl

theorem indexAdAsset_kept (sources : List Source) (mem : AdMemory) (r : Row AssetRow) :
    (indexAdAsset C sources mem r).assets = mem.assets ∧
      (indexAdAsset C sources mem r).bySid = mem.bySid := by
  rw [indexAdAsset]
  cases truthy r.data.hostname with
  | none => exact ⟨rfl, rfl⟩
  | some name =>
    dsimp only
    split
    · exact ⟨rfl, rfl⟩
    · split <;> exact ⟨rfl, rfl⟩

def adSources (c : Sync) (db : Db) : List Source :=
  c.order (db.sources.filter fun s => s.sourceKind ∈ [AssetProjection.AssetSourceKind.ad, .entra])

/-- The rows that the sync reads. -/
def Read (s : Source) : Prop := s.sourceKind = .ad ∨ s.sourceKind = .entra

theorem mem_adSources (h : Promised c db) {s : Source} : s ∈ adSources c db ↔ s ∈ db.sources ∧ Read s := by
  rw [adSources, (h.order _).mem_iff, List.mem_filter, Read]
  simp

theorem loadAd_assets : (loadAd C c db).assets.map (·.id) = (c.listing db.assets.rows).map (·.id) := by
  have hassets : (loadAd C c db).assets = _ :=
    (foldl_kept (f := indexAdAsset C _) (g := AdMemory.assets)
      (fun m r => (indexAdAsset_kept _ m r).1) _ _).trans
      (foldl_kept (f := indexAdSource C) (g := AdMemory.assets) indexAdSource_assets _ _)
  rw [hassets, List.map_map]
  rfl

theorem loadAd_bySid (h : Promised c db) (k : String) :
    (((loadAd C c db).bySid.get k).isSome ↔ ∃ s ∈ db.sources, Read s ∧ sourceSid C s = some k) ∧
      ∀ id, (loadAd C c db).bySid.get k = some id → Recorded C db id k := by
  have hsid : (loadAd C c db).bySid = ((adSources c db).foldl (indexAdSource C)
      { assets := (c.listing db.assets.rows).map fun r => knownAd r.id r.data }).bySid :=
    foldl_kept (f := indexAdAsset C _) (g := AdMemory.bySid) (fun m r => (indexAdAsset_kept _ m r).2) _ _
  have hindex (m : AdMemory) := @index_foldl AdMemory String Source _ (fun mem k => mem.bySid.get k)
    (indexAdSource C) (sourceSid C) (·.assetId) (adSources c db) m k
    fun m s hs k => bySid_indexAdSource m ((mem_adSources h).mp hs).2 k
  rw [hsid]
  obtain ⟨hsome, hfrom⟩ := hindex _
  refine ⟨hsome.trans ?_, fun id hid => ?_⟩
  · rw [or_iff_right (by simp [Index.get])]
    simp only [mem_adSources h, and_assoc]
  · obtain hempty | ⟨s, hs, hk, hid⟩ := hfrom id hid
    · cases hempty
    · exact ⟨s, ((mem_adSources h).mp hs).1, hid, hk⟩

theorem Promised.lawfulAd (h : Promised c db) (devices : List AdDevice) :
    (adLinks C c).Lawful db devices where
  load k id hid := by
    obtain ⟨s, hs, hid, hk⟩ := (loadAd_bySid h k).2 id hid
    obtain ⟨r, hr, hrid⟩ := h.owned s hs
    refine ⟨?_, s, hs, hid, hk⟩
    change id ∈ (loadAd C c db).assets.map (·.id)
    rw [loadAd_assets, ((h.listing _).map _).mem_iff, ← hid, ← hrid]
    exact List.mem_map_of_mem hr
  recorded p dev id k _ hcreated hk := recorded_createdAd hcreated hk

section Apart

variable {mem : AdMemory} {dev other : AdDevice}

variable (C) in
def namesakeAd (mem : AdMemory) (dev : AdDevice) (m : Index (List Nat)) : Option (Nat × Via) :=
  if adDisplayName dev = "" then none else lookupHostname C mem.assets m (adDisplayName dev)

variable (C) in
/-- No asset answers to the GUID or the name of the computer. -/
def StrangerAd (mem : AdMemory) (dev : AdDevice) : Prop :=
  guidKey C dev ≠ "" ∧ mem.byGuid.get (guidKey C dev) = none ∧ namesakeAd C mem dev mem.untagged = none ∧
    namesakeAd C mem dev mem.tagged = none

variable (C) in
def adTarget (p : Db × AdMemory) (dev : AdDevice) : Option Nat :=
  match lookAd C dev p.2 with
  | .existing id _ => some id
  | .unknown => some p.1.assets.nextId
  | .noId | .untagged _ _ | .duplicate _ _ => none

theorem namesakeAd_none {mem' : AdMemory} {m : Index (List Nat)} (h : namesakeAd C mem dev m = none) :
    namesakeAd C mem' dev m = none := by
  rw [namesakeAd] at h ⊢
  by_cases hname : adDisplayName dev = ""
  · rw [if_pos hname]
  · rw [if_neg hname] at h ⊢
    exact lookupHostname_none h

theorem StrangerAd.step (h : StrangerAd C mem other) (hdifferent : guidKey C dev ≠ guidKey C other) (db : Db)
    (found : AdFound) : StrangerAd C (patchAd C c db dev mem found) other := by
  obtain ⟨hid, hbyGuid, huntagged, htagged⟩ := h
  cases found with
  | unknown =>
    refine ⟨hid, ?_, namesakeAd_none huntagged, namesakeAd_none htagged⟩
    change Index.get ((guidKey C dev, db.assets.nextId) :: mem.byGuid) _ = none
    rw [Index.get_cons, if_neg hdifferent, hbyGuid]
  | _ => exact ⟨hid, hbyGuid, huntagged, htagged⟩

theorem StrangerAd.unknown (h : StrangerAd C mem dev)
    (hsid : ∀ k, reportedSid C dev.objectSid = some k → mem.bySid.get k = none) :
    lookAd C dev mem = .unknown := by
  obtain ⟨hid, hbyGuid, huntagged, htagged⟩ := h
  have hmatch : matchAd C dev mem = none := by
    rw [matchAd, hbyGuid, Option.bind_none, Option.none_or]
    split
    next => rfl
    next hne => rw [hsid _ (reportedSid_some C hne), Option.bind_none]
  rw [lookAd, if_neg hid, hmatch]
  rw [namesakeAd] at huntagged htagged
  dsimp only
  rw [huntagged, htagged]

theorem nextId_ad (p : Db × AdMemory) (dev : AdDevice) : ((activeDirectory C c).step p dev).1.assets.nextId =
    p.1.assets.nextId + (if lookAd C dev p.2 = .unknown then 1 else 0) := by
  change (writeAdFound C c p.1 dev (lookAd C dev p.2)).assets.nextId = _
  cases hfound : lookAd C dev p.2 with
  | unknown => rw [writeAdFound_unknown, (Table.append_rows _ _).2, if_pos rfl]
  | existing id a =>
    obtain ⟨q, hq⟩ := @writeAd_assets C c p.1 dev id a
    rw [writeAdFound, hq, (Table.amendWhere_rows _ _ _).2]
    simp
  | _ => simp [writeAdFound, queueAd]

theorem created_ad (p : Db × AdMemory) (dev : AdDevice) (id : Nat) (h : createdAd C p dev = some id) :
    id = p.1.assets.nextId ∧ ((activeDirectory C c).step p dev).1.assets.nextId = id + 1 := by
  rw [createdAd] at h
  split at h
  next hunknown => cases h; exact ⟨rfl, by rw [nextId_ad, if_pos hunknown]⟩
  next => cases h

def ApartAd (C : Casing) (c : Sync) (db : Db) (devices : List AdDevice) : Prop :=
  devices.Pairwise (fun dev other => guidKey C dev ≠ guidKey C other) → ∀ i j dev other, i < j →
    devices[i]? = some dev → devices[j]? = some other → isMeaningfulSid C dev.objectSid = false →
    isMeaningfulSid C other.objectSid = false → StrangerAd C (loadAd C c db) dev →
    StrangerAd C (loadAd C c db) other → ∃ x y,
      adTarget C (reached (activeDirectory C c) db devices i) dev = some x ∧
        adTarget C (reached (activeDirectory C c) db devices j) other = some y ∧ x ≠ y

theorem StrangerAd.reached {devices : List AdDevice} {j : Nat}
    (hpair : devices.Pairwise fun dev other => guidKey C dev ≠ guidKey C other)
    (hdev : devices[j]? = some dev)
    (h : StrangerAd C (loadAd C c db) dev) :
    StrangerAd C (reached (activeDirectory C c) db devices j).2 dev := by
  refine reached_invariant (I := fun p => StrangerAd C p.2 dev) h fun m hm d hd p hp => ?_
  obtain ⟨hmlt, rfl⟩ := List.getElem?_eq_some_iff.mp hd
  obtain ⟨hjlt, rfl⟩ := List.getElem?_eq_some_iff.mp hdev
  exact hp.step (List.pairwise_iff_getElem.mp hpair m j hmlt hjlt hm) p.1 _

theorem foundAd_none (hbyGuid : mem.byGuid.get (guidKey C dev) = none) (hid : guidKey C dev ≠ "") :
    ¬ foundAd C mem dev := by
  rw [foundAd, hbyGuid]
  simpa using hid

def AdFresh (C : Casing) (c : Sync) (db : Db) (devices : List AdDevice) : Prop :=
  ∀ j dev, devices[j]? = some dev → foundAd C (reached (activeDirectory C c) db devices j).2 dev ∨
    isMeaningfulSid C dev.objectSid = true ∨
    ∀ k, reportedSid C dev.objectSid = some k → (∀ s ∈ db.sources, Read s → sourceSid C s ≠ some k) ∧
      ∀ m < j, ∀ d, devices[m]? = some d → reportedSid C d.objectSid = some k →
        createdAd C (reached (activeDirectory C c) db devices m) d = none

theorem not_seen_ad (h : Promised c db) {devices : List AdDevice} {j : Nat} {k : String} :
    ¬ (adLinks C c).Seen db devices j k ↔ (∀ s ∈ db.sources, Read s → sourceSid C s ≠ some k) ∧
      ∀ m < j, ∀ d, devices[m]? = some d → reportedSid C d.objectSid = some k →
        createdAd C (reached (activeDirectory C c) db devices m) d = none := by
  rw [Links.Seen, not_or]
  refine and_congr ?_ ?_
  · exact (not_congr (loadAd_bySid h k).1).trans (by simp)
  · simp [adLinks]

theorem AdFresh.apart (h : Promised c db) {devices : List AdDevice} (hfresh : AdFresh C c db devices) :
    ApartAd C c db devices := by
  intro hpair i j dev other hij hdev hother hplaceholder hplaceholder' hstranger hstranger'
  have hunknown {m : Nat} {d : AdDevice} (hd : devices[m]? = some d)
    (hm : isMeaningfulSid C d.objectSid = false)
      (hs : StrangerAd C (loadAd C c db) d) :
      lookAd C d (reached (activeDirectory C c) db devices m).2 = .unknown := by
    have hreached := hs.reached hpair hd
    refine hreached.unknown fun k hk => ?_
    obtain hfound | hmeaningful | hseen := hfresh m d hd
    · exact absurd hfound (foundAd_none hreached.2.1 hreached.1)
    · rw [hm] at hmeaningful; cases hmeaningful
    · have hnot := mt Links.isSome_index.mp ((not_seen_ad h).mpr (hseen k hk))
      exact Option.not_isSome_iff_eq_none.mp hnot
  have hx := hunknown hdev hplaceholder hstranger
  have hy := hunknown hother hplaceholder' hstranger'
  refine ⟨_, _, by rw [adTarget, hx], by rw [adTarget, hy], Nat.ne_of_lt ?_⟩
  exact reached_lt (createdAd C) (fun db => db.assets.nextId) created_ad
    (fun p e => by rw [nextId_ad]; exact Nat.le_add_right _ _) hij hdev (if_pos hx) (if_pos hy)

end Apart

end ActiveDirectory

section Links

variable (C : Casing) (c : Sync) (db : Db)

/-- SIDs link devices to assets only where they should, in both syncs. -/
structure SidsPin (devices : List EntraDevice) (computers : List AdDevice) : Prop where
  entra : (entraLinks C c).Sound db devices fun dev =>
    isMeaningfulSid C dev.onPremisesSecurityIdentifier = true
  activeDirectory : (adLinks C c).Sound db computers fun dev => isMeaningfulSid C dev.objectSid = true
  apart : Apart C c db devices
  apartAd : ApartAd C c db computers

variable {C c db}

theorem sound_iff_fresh (h : Promised c db) {devices : List EntraDevice}
    (hfrom : ∀ dev ∈ devices, dev.onPremisesSecurityIdentifier ≠ "" → dev.fromEntra = true) :
    ((entraLinks C c).Sound db devices fun dev => isMeaningfulSid C dev.onPremisesSecurityIdentifier = true) ↔
      EntraFresh C c db devices := by
  refine (Links.sound_iff (h.lawful hfrom) _).trans (forall_congr' fun j => forall_congr' fun dev => ?_)
  refine imp_congr_right fun _ => or_congr_right (or_congr_right (forall_congr' fun k => ?_))
  exact imp_congr_right fun _ => not_seen_entra h

theorem soundAd_iff_fresh (h : Promised c db) (computers : List AdDevice) :
    ((adLinks C c).Sound db computers fun dev => isMeaningfulSid C dev.objectSid = true) ↔
      AdFresh C c db computers := by
  refine (Links.sound_iff (h.lawfulAd computers) _).trans (forall_congr' fun j => forall_congr' fun dev => ?_)
  refine imp_congr_right fun _ => or_congr_right (or_congr_right (forall_congr' fun k => ?_))
  exact imp_congr_right fun _ => not_seen_ad h

/-- A SID pins one device just when no placeholder SID comes to a device that
its id does not find and that some row or new device already has. -/
theorem sids_pin_iff (C : Casing) (h : Promised c db) {devices : List EntraDevice}
    (hfrom : ∀ dev ∈ devices, dev.onPremisesSecurityIdentifier ≠ "" → dev.fromEntra = true)
    (computers : List AdDevice) :
    SidsPin C c db devices computers ↔ EntraFresh C c db devices ∧ AdFresh C c db computers := by
  constructor
  · intro hpin
    exact ⟨(sound_iff_fresh h hfrom).mp hpin.entra, (soundAd_iff_fresh h computers).mp hpin.activeDirectory⟩
  · rintro ⟨hentra, had⟩
    exact ⟨(sound_iff_fresh h hfrom).mpr hentra, (soundAd_iff_fresh h computers).mpr had, hentra.apart h,
      had.apart h⟩

end Links

section Office

def office : Sync := { integrationId := "dir", integrationName := "Directory", now := 5 }

def emptyDb : Db where
  assets := Table.empty _

theorem promised_empty : Promised office emptyDb :=
  ⟨fun _ => List.Perm.refl _, fun _ => List.Perm.refl _, fun _ hs => absurd hs List.not_mem_nil⟩

def hybrid (deviceId sid : String) : EntraDevice :=
  { deviceId := deviceId, displayName := deviceId, onPremisesSecurityIdentifier := sid }

def account (objectGuid objectSid : String) : AdDevice :=
    { objectGuid := objectGuid, objectSid := objectSid, cn := objectGuid }

theorem sids_pin_iff_office :
    SidsPin asciiCasing office emptyDb [hybrid "d1" "S-1-5-21-7"]
      [account "g1" "S-1-5-21-7", account "g2" ""] ↔
      EntraFresh asciiCasing office emptyDb [hybrid "d1" "S-1-5-21-7"] ∧
        AdFresh asciiCasing office emptyDb [account "g1" "S-1-5-21-7", account "g2" ""] :=
  sids_pin_iff asciiCasing promised_empty (fun dev _ _ => by simp_all [hybrid]) _

def deadAccounts : List AdDevice := [account "g1" "S-1-0-0", account "g2" "S-1-0-0"]

/-- Two dead accounts with the null SID are put on one asset. -/
theorem null_sid_shared :
    adTarget asciiCasing (reached (activeDirectory asciiCasing office) emptyDb deadAccounts 0)
      (account "g1" "S-1-0-0") =
        some 0 ∧
      adTarget asciiCasing (reached (activeDirectory asciiCasing office) emptyDb deadAccounts 1)
        (account "g2" "S-1-0-0") = some 0 ∧
      ¬ SidsPin asciiCasing office emptyDb [] deadAccounts := by
  refine ⟨by decide +kernel, by decide +kernel, fun h => ?_⟩
  have hfound : ¬ foundAd asciiCasing (reached (activeDirectory asciiCasing office) emptyDb deadAccounts 1).2
      (account "g2" "S-1-0-0") := by decide +kernel
  have hget :
      (reached (activeDirectory asciiCasing office) emptyDb deadAccounts 1).2.bySid.get "S-1-0-0" =
        some 0 := by
    decide +kernel
  have hknown : 0 ∈
    (reached (activeDirectory asciiCasing office) emptyDb deadAccounts 1).2.assets.map (·.id) := by
    decide +kernel
  have hmeaningful := (h.activeDirectory 1 _ rfl 0 ⟨hfound, "S-1-0-0", by decide +kernel, hget, hknown⟩).1
  exact absurd hmeaningful (by decide +kernel)

end Office

end Polaris.SidLinks
