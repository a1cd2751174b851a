import Polaris.AssetEffects

namespace Polaris.QuarantineOwnership

open Polaris.AssetEffects Polaris.AssetStore Polaris.AssetSync Polaris.Lib.Runs Polaris.Lib.Store
open Polaris.Lib.Store.Table
open Polaris.AssetLookup (Casing)
open Polaris.ClusterSync (Source knownDeviceNames staleFirewall staleInfra)
open Polaris.ConflictResolution (AssetStatus)
open Polaris.DirectorySync (AdDevice AdFound AdMemory EntraDevice EntraMemory adStatus entraStatus)
open Polaris.GatewaySync (Memory)
open Polaris.GatewayWrites
open Polaris.Netmask (Package)

section Conditions

variable (env : Env) (N : Package) (order : List Source → List Source) (w : World)

def Quarantined (id : Nat) : Prop := ∃ r ∈ w.assets.rows, r.id = id ∧ r.data.status = .quarantined
  deriving Decidable

/-- None of the assets that a loop of the deprecation writes is quarantined. -/
def SparesWhere (p : Asset → Bool) : Prop := ∀ r ∈ w.assets.rows, r.data.status = .quarantined →
    p r.data = false
  deriving Decidable

/-- An update that sets a status is not one of a quarantined asset. -/
def SparesWrite : AssetWrite → Prop
  | .update id u => u.status ≠ none → ¬ Quarantined w id
  | .create _ => True

instance : ∀ write, Decidable (SparesWrite w write)
  | .update id u => inferInstanceAs (Decidable (u.status ≠ none → ¬ Quarantined w id))
  | .create _ => isTrue trivial

def deprecates (c : SyncCall) (a : Asset) : Bool :=
  (knownDeviceNames c.discovery ≠ [] ∧
    (c.integration.type = "fortimanager" ∨ c.integration.type = "fortigate")) &&
      staleFirewall c.integration c.discovery a.toAssetRow ||
    staleInfra c.integration c.discovery a.toAssetRow

def SparesTask (c : SyncCall) : List Task → Prop
  | .deprecateStale :: _ => SparesWhere w (deprecates c)
  | _ => True

instance (c : SyncCall) : ∀ tasks, Decidable (SparesTask w c tasks)
  | .deprecateStale :: _ => inferInstanceAs (Decidable (SparesWhere w (deprecates c)))
  | .job _ :: _ => isTrue trivial
  | .autoQuarantine :: _ => isTrue trivial
  | [] => isTrue trivial

def SparesNext (s : World × LifeCall) (j : Nat) : Prop :=
  (∀ write ∈ due j s.2.call, SparesWrite s.1 write) ∧ (s.2.call.done → SparesTask s.1 s.2.sync s.2.tasks)
  deriving Decidable

def SparesEntra (c : DirectoryTables.Sync) (s : World × EntraMemory) (dev : EntraDevice) : Prop :=
  ∀ target ∈ ((entra env.casing c).look s.2 dev).target dev, ¬ Quarantined s.1 target.1
  deriving Decidable

def SparesAd (c : DirectoryTables.Sync) (s : World × AdMemory) (dev : AdDevice) : Prop :=
  ∀ target ∈ adTarget ((activeDirectory env.casing c).look s.2 dev), ¬ Quarantined s.1 target.1
  deriving Decidable

def newStatus (row : ImportRow) : Option AssetStatus :=
  match parseEnum "assetType" assetTypeOf row.assetType, parseEnum "status" statusOf row.status with
  | .ok _, .ok status => status
  | _, _ => none

def SparesImport (s : World × Except Cidr.Failure Unit) (row : ImportRow) : Prop :=
  s.2.isOk → ∀ status ∈ newStatus row,
    (status = .quarantined ↔ (row.existing env s.1).any fun r => Quarantined s.1 r.id)
  deriving Decidable

/-- No write sets the status of a quarantined asset, or sets that status on
another. -/
def Spared : Op → Prop
  | .createAsset _ input => input.issues = [] → input.status ≠ some .quarantined
  | .importPdf username rows dryRun =>
    dryRun = false → Along (importNext env username) (SparesImport env) (w, .ok ()) rows
  | .decommissionStaleAssets run => run.inactivityMonths ≠ 0 → SparesWhere w (stale run)
  | .syncDhcpSubnets c schedule => Along (next env.casing N order) SparesNext (w, .start c) schedule
  | .syncEntraDevices c devices =>
    Along (entra env.casing c).step (SparesEntra env c) ((entra env.casing c).start w) devices
  | .syncActiveDirectoryDevices c devices =>
    Along (activeDirectory env.casing c).step (SparesAd env c)
      ((activeDirectory env.casing c).start w) devices
  | .updateAsset _ _ _ | .bulkMonitor _ | .quarantineAsset _ _ | .releaseQuarantine _ _ => True

instance : ∀ op, Decidable (Spared env N order w op)
  | .createAsset _ input => inferInstanceAs (Decidable (input.issues = [] → input.status ≠ some .quarantined))
  | .importPdf username rows dryRun =>
    inferInstanceAs (Decidable (dryRun = false →
      Along (importNext env username) (SparesImport env) (w, .ok ()) rows))
  | .decommissionStaleAssets run =>
    inferInstanceAs (Decidable (run.inactivityMonths ≠ 0 → SparesWhere w (stale run)))
  | .syncDhcpSubnets c schedule =>
    inferInstanceAs (Decidable (Along (next env.casing N order) SparesNext (w, .start c) schedule))
  | .syncEntraDevices c devices =>
    inferInstanceAs (Decidable (Along (entra env.casing c).step (SparesEntra env c)
      ((entra env.casing c).start w) devices))
  | .syncActiveDirectoryDevices c devices =>
    inferInstanceAs (Decidable
      (Along (activeDirectory env.casing c).step (SparesAd env c)
        ((activeDirectory env.casing c).start w) devices))
  | .updateAsset _ _ _ | .bulkMonitor _ | .quarantineAsset _ _ | .releaseQuarantine _ _ => isTrue trivial

end Conditions

section Rows

variable {w w' : World} {id : Nat}

/-- The same assets are quarantined. -/
def Kept (w w' : World) : Prop := ∀ id, Quarantined w' id ↔ Quarantined w id

theorem Kept.trans {v : World} (h : Kept v w) (h' : Kept w w') : Kept v w' := fun id => (h' id).trans (h id)

theorem kept_same (h : w'.assets = w.assets) : Kept w w' := by
  intro id
  rw [Quarantined, Quarantined, h]

theorem quarantined_append {a : Asset} (h : w'.assets = w.assets.append a) :
    Quarantined w' id ↔ Quarantined w id ∨ id = w.assets.nextId ∧ a.status = .quarantined := by
  rw [Quarantined, h]
  constructor
  · rintro ⟨r, hr, hid, hstatus⟩
    obtain hr | rfl := mem_append.mp hr
    · exact .inl ⟨r, hr, hid, hstatus⟩
    · exact .inr ⟨hid.symm, hstatus⟩
  · rintro (⟨r, hr, hid, hstatus⟩ | ⟨rfl, hstatus⟩)
    · exact ⟨r, mem_append.mpr (.inl hr), hid, hstatus⟩
    · exact ⟨_, mem_append.mpr (.inr rfl), rfl, hstatus⟩

theorem kept_append {a : Asset} (h : w'.assets = w.assets.append a) (ha : a.status ≠ .quarantined) :
    Kept w w' := by
  intro id
  rw [quarantined_append h]
  exact or_iff_left fun hnew => ha hnew.2

theorem quarantined_amend {p : Row Asset → Bool} {f : Asset → Asset} (h : w'.assets = w.assets.amendWhere p f)
    (hf : ∀ r ∈ w.assets.rows, r.id = id → p r →
      ((f r.data).status = .quarantined ↔ r.data.status = .quarantined)) :
    Quarantined w' id ↔ Quarantined w id := by
  have hrow : ∀ r ∈ w.assets.rows, r.id = id →
      ((amend p f r).data.status = .quarantined ↔ r.data.status = .quarantined) := by
    intro r hr hid
    cases hp : p r with
    | true =>
      rw [amend_of_pos hp]
      exact hf r hr hid hp
    | false => rw [amend_of_neg hp]
  rw [Quarantined, h]
  constructor
  · rintro ⟨r', hr', hid, hstatus⟩
    obtain ⟨r, hr, rfl⟩ := mem_amendWhere.mp hr'
    rw [amend_id] at hid
    exact ⟨r, hr, hid, (hrow r hr hid).mp hstatus⟩
  · rintro ⟨r, hr, hid, hstatus⟩
    exact ⟨_, mem_amendWhere.mpr ⟨r, hr, rfl⟩, (amend_id p f r).trans hid, (hrow r hr hid).mpr hstatus⟩

theorem kept_amend {p : Row Asset → Bool} {f : Asset → Asset} (h : w'.assets = w.assets.amendWhere p f)
    (hf : ∀ r ∈ w.assets.rows, p r → ((f r.data).status = .quarantined ↔ r.data.status = .quarantined)) :
    Kept w w' :=
  fun _ => quarantined_amend h fun r hr _ hp => hf r hr hp

theorem kept_update {i : Nat} {f : Asset → Asset} (h : w'.assets = w.assets.amendWhere (·.id = i) f)
    (hi : ¬ Quarantined w i) (hf : ∀ a, (f a).status ≠ .quarantined) : Kept w w' := by
  refine kept_amend h fun r hr hp => iff_of_false (hf r.data) fun hstatus => hi ⟨r, hr, ?_, hstatus⟩
  exact of_decide_eq_true hp

theorem kept_status {p : Row Asset → Bool} {f : Asset → Asset} (h : w'.assets = w.assets.amendWhere p f)
    (hf : ∀ a, (f a).status = a.status) : Kept w w' :=
  kept_amend h fun r _ _ => by rw [hf]

theorem kept_where {p : Asset → Bool} {f : Asset → Asset} (h : w'.assets = w.assets.amendWhere (p ·.data) f)
    (hp : SparesWhere w p) (hf : ∀ a, (f a).status ≠ .quarantined) : Kept w w' := by
  refine kept_amend h fun r hr hpr => iff_of_false (hf r.data) fun hstatus => ?_
  rw [hp r hr hstatus] at hpr
  cases hpr

end Rows

section Gateway

variable {C : Casing} {N : Package} {order : List Source → List Source} {w : World} {s : LifeCall}
  {mem : Memory}
  {j : Nat}

theorem updatedRow_status (id : Nat) (u : GatewaySync.AssetUpdate) (a : Asset) :
    (updatedRow s mem id u a).status = u.status.getD a.status := rfl

theorem statement_kept (hmem : s.call.memory = some mem) (h : Tamed s) (hspares : ∀ write ∈ due j s.call,
    SparesWrite w write) :
    Kept w (statement C N order j mem w s).1 := by
  have hassets := @statement_assets C N order w _ _ j hmem h
  obtain ⟨-, mem', -, heffect⟩ := @act_effect C N order _ _ _ _ w.gateway j hmem h
  cases hdue : due j s.call with
  | none =>
    rw [hdue] at hassets
    exact kept_same hassets
  | some write =>
    rw [hdue] at hassets heffect
    have hwrite := hspares write hdue
    cases write with
    | create row => exact kept_append hassets heffect.2.1
    | update id u =>
      cases hstatus : u.status with
      | none =>
        refine kept_status hassets fun a => ?_
        rw [updatedRow_status, hstatus]
        rfl
      | some status =>
        refine kept_update hassets (hwrite (by rw [hstatus]; exact Option.some_ne_none _)) fun a => ?_
        rw [updatedRow_status, hstatus]
        intro heq
        exact heffect.2.1.status (heq ▸ hstatus)

theorem deprecateFirewalls_kept {c : SyncCall} (h : SparesWhere w (deprecates c)) :
    Kept w (deprecateFirewalls c w) := by
  rw [deprecateFirewalls]
  split
  · next hguard =>
    refine kept_amend rfl fun r hr hp => iff_of_false AssetStatus.noConfusion fun hstatus => ?_
    have hspared := h r hr hstatus
    rw [deprecates, decide_eq_true hguard,
      show staleFirewall c.integration c.discovery r.data.toAssetRow = true
      from hp] at hspared
    cases hspared
  · exact kept_same rfl

theorem deprecateInfra_kept {c : SyncCall} (h : SparesWhere w (deprecates c)) :
    Kept w (deprecateInfra c w) := by
  rw [deprecateInfra]
  split
  · refine kept_amend rfl fun r hr hp => iff_of_false AssetStatus.noConfusion fun hstatus => ?_
    have hspared := (Bool.or_eq_false_iff.mp (h r hr hstatus)).2
    rw [show staleInfra c.integration c.discovery r.data.toAssetRow = true from hp] at hspared
    cases hspared
  · exact kept_same rfl

theorem spares_deprecateFirewalls {c : SyncCall} (h : SparesWhere w (deprecates c)) :
    SparesWhere (deprecateFirewalls c w) (deprecates c) := by
  rw [deprecateFirewalls]
  split
  · intro r' hr' hstatus
    obtain ⟨r, hr, rfl⟩ := mem_amendWhere.mp hr'
    cases hp : staleFirewall c.integration c.discovery r.data.toAssetRow with
    | true =>
      rw [amend_of_pos hp] at hstatus
      cases hstatus
    | false =>
      rw [amend_of_neg hp] at hstatus ⊢
      exact h r hr hstatus
  · exact h

theorem deprecateStale_kept (h : SparesWhere w (deprecates s.sync)) : Kept w (deprecateStale mem w s).1 := by
  have hspared : SparesWhere { w with
      subnets := w.subnets.amendWhere (·.id ∈ staleSubnetIds s.sync mem) SubnetDiscovery.Subnet.deprecate }
        (deprecates s.sync) := h
  exact (deprecateFirewalls_kept hspared).trans (deprecateInfra_kept (spares_deprecateFirewalls hspared))

theorem autoQuarantine_kept (c : SyncCall) (pair : Nat × String) : Kept w (autoQuarantine c pair w) := by
  obtain hsame | ⟨r, hr, hid, hstatus, ⟨targets, hassets⟩ | ⟨q, hq, hassets⟩⟩ :=
    autoQuarantine_assets (w := w) c pair
  · exact kept_same hsame
  · exact kept_status hassets fun _ => rfl
  · refine kept_amend hassets fun r' hr' hp => iff_of_true ?_ ?_
    · change statusFrom q.status = .quarantined
      rw [hq]
      rfl
    · rw [eq_of_id hr' hr ((of_decide_eq_true hp).trans hid.symm)]
      exact hstatus

theorem next_kept {s : World × LifeCall} (h : Tamed s.2) (hspares : SparesNext s j) :
    Kept s.1 (next C N order s j).1 := by
  rw [next]
  split
  · exact kept_same rfl
  · next mem hmem =>
    split
    · next hdone =>
      split
      · exact kept_same rfl
      · exact kept_same rfl
      · next tasks htasks =>
        have htask := hspares.2 hdone
        rw [htasks] at htask
        exact deprecateStale_kept htask
      · split
        · exact kept_same rfl
        · exact autoQuarantine_kept _ _
    · exact statement_kept hmem h hspares.1

theorem sync_kept {c : SyncCall} {schedule : List Nat}
    (h : Along (next C N order) SparesNext (w, .start c) schedule) :
    Kept w (schedule.foldl (next C N order) (w, .start c)).1 :=
  (foldl_invariant (I := fun s => Tamed s.2 ∧ Kept w s.1)
    (fun _ _ hs hspares => ⟨next_tamed hs.1, hs.2.trans (next_kept hs.1 hspares)⟩) ⟨start_tamed c,
      fun _ => Iff.rfl⟩ h).2

end Gateway

section Requests

variable {env : Env} {username : Option String} {w : World} {id : Nat}

theorem createAsset_kept {input : CreateAsset} (h : input.issues = [] → input.status ≠ some .quarantined) :
    Kept w (createAsset env username input w).1 := by
  by_cases hissues : input.issues = []
  · obtain hsame | hnew := @createAsset_assets env username w input
    · exact kept_same hsame
    · refine kept_append hnew ?_
      change input.status.getD .storage ≠ .quarantined
      cases hstatus : input.status with
      | none => exact AssetStatus.noConfusion
      | some status => exact fun heq => h hissues (heq ▸ hstatus)
  · rw [createAsset, CreateAsset.parse, if_neg hissues]
    exact kept_same rfl

theorem guard_status {status : Option AssetStatus} {existing : AssetStatus}
    (h : guardQuarantine status existing = .ok ()) :
    status.getD existing = .quarantined ↔ existing = .quarantined := by
  cases status with
  | none => exact Iff.rfl
  | some status =>
    rw [guardQuarantine] at h
    split at h
    · cases h
    · next hset =>
      split at h
      · cases h
      · next hreset =>
        constructor
        · intro hstatus
          by_contra hexisting
          exact hset ⟨congrArg some hstatus, hexisting⟩
        · intro hexisting
          by_contra hstatus
          exact hreset ⟨Option.some_ne_none status, fun heq => hstatus (Option.some.inj heq), hexisting⟩

theorem updateAsset_kept (input : UpdateAsset) : Kept w (updateAsset env username id input w).1 := by
  obtain hsame | ⟨r, hr, hid, hguard, hassets⟩ := @updateAsset_assets env username w id input
  · exact kept_same hsame
  · refine kept_amend hassets fun r' hr' hp => ?_
    rw [eq_of_id hr' hr ((of_decide_eq_true hp).trans hid.symm)]
    exact guard_status hguard

theorem bulkMonitor_kept (body : BulkMonitor) : Kept w (bulkMonitor body w).1 := by
  obtain hsame | hassets := bulkMonitor_assets (w := w) body
  · exact kept_same hsame
  · exact kept_status hassets fun _ => rfl

theorem decommissionStaleAssets_kept {run : DecommissionRun} (h : run.inactivityMonths ≠ 0 →
    SparesWhere w (stale run)) :
    Kept w (decommissionStaleAssets run w) := by
  rw [decommissionStaleAssets]
  split
  · exact kept_same rfl
  · next hmonths => exact kept_where (p := stale run) (f := decommissioned "system") rfl (h hmonths) fun _ =>
      AssetStatus.noConfusion

theorem quarantined_iff {r : Row Asset} (hr : r ∈ w.assets.rows) : Quarantined w r.id ↔
    r.data.status = .quarantined := by
  constructor
  · rintro ⟨r', hr', hid, hstatus⟩
    exact eq_of_id hr' hr hid ▸ hstatus
  · exact fun hstatus => ⟨r, hr, rfl, hstatus⟩

theorem importRow_kept {row : ImportRow} {w' : World} {result : Except Cidr.Failure Unit} (hok : result.isOk)
    (h : SparesImport env (w, result) row) (hrow : importRow env username row w = .ok w') : Kept w w' := by
  obtain ⟨assetType, status, htype, hstatus, hassets⟩ := importRow_assets hrow
  have hspares : ∀ status' ∈ status, (status' = .quarantined ↔
    (row.existing env w).any fun r => Quarantined w r.id) := by
    have hnew : newStatus row = status := by rw [newStatus, htype, hstatus]
    exact hnew ▸ h hok
  obtain ⟨existing, hexisting, hassets⟩ | ⟨hexisting, hassets⟩ := hassets
  · rw [hexisting] at hspares
    refine kept_amend hassets fun r hr hp => ?_
    change status.getD r.data.status = .quarantined ↔ _
    cases status with
    | none => exact Iff.rfl
    | some status =>
      have hid : r.id = existing.id := of_decide_eq_true hp
      rw [Option.getD_some, hspares status rfl, Option.any_some, decide_eq_true_iff, ← hid]
      exact quarantined_iff hr
  · rw [hexisting] at hspares
    refine kept_append hassets ?_
    change status.getD .storage ≠ .quarantined
    cases status with
    | none => exact AssetStatus.noConfusion
    | some status => exact fun heq => Bool.noConfusion ((hspares status rfl).mp heq)

theorem importNext_kept {s : World × Except Cidr.Failure Unit} {row : ImportRow}
    (h : SparesImport env s row) :
    Kept s.1 (importNext env username s row).1 := by
  obtain ⟨w, result⟩ := s
  cases result with
  | error e => exact kept_same rfl
  | ok _ =>
    rw [importNext]
    dsimp only
    split
    · exact kept_same rfl
    · next w' hrow => exact importRow_kept rfl h hrow

theorem importPdf_kept {rows : List ImportRow} {dryRun : Bool}
    (h : dryRun = false → Along (importNext env username) (SparesImport env) (w, .ok ()) rows) :
    Kept w (importPdf env username rows dryRun w).1 := by
  rw [importPdf]
  split
  · exact kept_same rfl
  · cases dryRun with
    | true => exact kept_same rfl
    | false =>
      exact foldl_invariant (I := fun s => Kept w s.1) (fun _ _ hs hrow => hs.trans (importNext_kept hrow))
        (fun _ => Iff.rfl) (h rfl)

theorem quarantined_elsewhere {w' : World} {i : Nat} {f : Asset → Asset}
    (h : w'.assets = w.assets.amendWhere (·.id = i) f) (hid : id ≠ i) :
    Quarantined w' id ↔ Quarantined w id :=
  quarantined_amend h fun _ _ hrow hp => absurd (hrow.symm.trans (of_decide_eq_true hp)) hid

end Requests

section Directories

variable {env : Env} {w : World} {c : DirectoryTables.Sync}

theorem entraStatus_free (dev : EntraDevice) : entraStatus dev ≠ .quarantined := by
  rw [entraStatus]
  split
  · exact AssetStatus.noConfusion
  · exact AssetStatus.noConfusion

theorem adStatus_free (dev : AdDevice) : adStatus dev ≠ .quarantined := by
  rw [adStatus]
  split
  · exact AssetStatus.noConfusion
  · exact AssetStatus.noConfusion

theorem entra_kept {s : World × EntraMemory} {dev : EntraDevice} (h : SparesEntra env c s dev) :
    Kept s.1 ((entra env.casing c).step s dev).1 := by
  obtain ⟨-, hsame⟩ | ⟨id, a, p, htarget, hassets⟩ | ⟨-, hassets⟩ := @entra_assets env.casing c s.1 dev
    ((entra env.casing c).look s.2 dev)
  · exact kept_same hsame
  · exact kept_update hassets (h _ htarget) fun _ => entraStatus_free dev
  · exact kept_append hassets (entraStatus_free dev)

theorem activeDirectory_kept {s : World × AdMemory} {dev : AdDevice} (h : SparesAd env c s dev) :
    Kept s.1 ((activeDirectory env.casing c).step s dev).1 := by
  obtain ⟨-, hsame⟩ | ⟨id, a, p, hfound, hassets⟩ | ⟨-, hassets⟩ :=
    @activeDirectory_assets env.casing c s.1 dev
    ((activeDirectory env.casing c).look s.2 dev)
  · exact kept_same hsame
  · refine kept_update hassets (h (id, a) ?_) fun _ => adStatus_free dev
    rw [hfound]
    rfl
  · exact kept_append hassets (adStatus_free dev)

end Directories

section Runs

variable {env : Env} {N : Package} {order : List Source → List Source} {w : World} {op : Op} {id : Nat}

theorem quarantineAsset_quarantined (c : AssetQuarantine.QuarantineCall) (i : Nat) :
    (Quarantined (quarantineAsset i c w).1 id → Quarantined w id ∨ id = i) ∧
      (Quarantined w id → Quarantined (quarantineAsset i c w).1 id) := by
  obtain hsame | ⟨q, hq, hassets⟩ := @quarantineAsset_assets w i c
  · exact ⟨fun h => .inl ((kept_same hsame id).mp h), (kept_same hsame id).mpr⟩
  · refine ⟨fun h => ?_, ?_⟩
    · by_cases hid : id = i
      · exact .inr hid
      · exact .inl ((quarantined_elsewhere hassets hid).mp h)
    · rintro ⟨r, hr, hid, hstatus⟩
      rw [← hid]
      refine ⟨_, hassets ▸ mem_amendWhere.mpr ⟨r, hr, rfl⟩, amend_id _ _ r, ?_⟩
      cases hp : decide (r.id = i) with
      | true =>
        rw [amend_of_pos (r := r) hp]
        change statusFrom q.status = .quarantined
        rw [hq]
        rfl
      | false =>
        rw [amend_of_neg (r := r) hp]
        exact hstatus

theorem releaseQuarantine_quarantined (c : AssetQuarantine.ReleaseCall) (i : Nat) :
    (Quarantined (releaseQuarantine i c w).1 id → Quarantined w id) ∧
      (Quarantined w id → id ≠ i → Quarantined (releaseQuarantine i c w).1 id) := by
  obtain hsame | ⟨r, hr, hid, hstatus, q, hassets⟩ := @releaseQuarantine_assets w i c
  · exact ⟨(kept_same hsame id).mp, fun h _ => (kept_same hsame id).mpr h⟩
  · refine ⟨fun h => ?_, fun h hne => (quarantined_elsewhere hassets hne).mpr h⟩
    by_cases hi : id = i
    · exact hi ▸ ⟨r, hr, hid, hstatus⟩
    · exact (quarantined_elsewhere hassets hi).mp h

theorem step_quarantined (h : Spared env N order w op) :
    (Quarantined (step env N order w op) id → Quarantined w id ∨ ∃ c, op = .quarantineAsset id c) ∧
      (Quarantined w id → (∀ c, op ≠ .releaseQuarantine id c) → Quarantined (step env N order w op) id) := by
  have hkept (h : Kept w (step env N order w op)) :
      (Quarantined (step env N order w op) id → Quarantined w id ∨ ∃ c, op = .quarantineAsset id c) ∧
        (Quarantined w id → (∀ c, op ≠ .releaseQuarantine id c) → Quarantined (step env N order w op) id) :=
    ⟨fun hq => .inl ((h id).mp hq), fun hq _ => (h id).mpr hq⟩
  cases op with
  | createAsset username input => exact hkept (createAsset_kept h)
  | updateAsset username i input => exact hkept (updateAsset_kept input)
  | bulkMonitor body => exact hkept (bulkMonitor_kept body)
  | importPdf username rows dryRun => exact hkept (importPdf_kept h)
  | decommissionStaleAssets run => exact hkept (decommissionStaleAssets_kept h)
  | syncDhcpSubnets c schedule => exact hkept (sync_kept h)
  | syncEntraDevices c devices =>
    exact hkept (foldl_invariant (I := fun s => Kept w s.1) (fun _ _ hs hdev => hs.trans (entra_kept hdev))
      (fun _ => Iff.rfl) h)
  | syncActiveDirectoryDevices c devices =>
    exact hkept (foldl_invariant (I := fun s => Kept w s.1)
      (fun _ _ hs hdev => hs.trans (activeDirectory_kept hdev))
      (fun _ => Iff.rfl) h)
  | quarantineAsset i c =>
    obtain ⟨hback, hforth⟩ := @quarantineAsset_quarantined w id c i
    refine ⟨fun hq => (hback hq).imp_right ?_, fun hq _ => hforth hq⟩
    rintro rfl
    exact ⟨c, rfl⟩
  | releaseQuarantine i c =>
    obtain ⟨hback, hforth⟩ := @releaseQuarantine_quarantined w id c i
    refine ⟨fun hq => .inl (hback hq), fun hq hne => hforth hq ?_⟩
    rintro rfl
    exact hne c rfl

theorem run_quarantined {ops : List Op} (h : Along (step env N order) (Spared env N order) w ops) :
    (Quarantined (ops.foldl (step env N order) w) id → Quarantined w id ∨ ∃ c, Op.quarantineAsset id c ∈
      ops) ∧
      (Quarantined w id → (∀ c, Op.releaseQuarantine id c ∉ ops) →
      Quarantined (ops.foldl (step env N order) w) id) := by
  induction ops generalizing w with
  | nil => exact ⟨.inl, fun hq _ => hq⟩
  | cons op ops ih =>
    obtain ⟨hstep, hrun⟩ := h
    obtain ⟨hback, hforth⟩ := ih hrun
    obtain ⟨hback', hforth'⟩ := @step_quarantined env N order w op id hstep
    refine ⟨fun hq => ?_, fun hq hops => hforth (hforth' hq fun c hop => hops c (hop ▸ List.mem_cons_self))
      fun c hop => ?_⟩
    · obtain hq | ⟨c, hop⟩ := hback hq
      · obtain hq | ⟨c, hop⟩ := hback' hq
        · exact .inl hq
        · exact .inr ⟨c, hop ▸ List.mem_cons_self⟩
      · exact .inr ⟨c, List.mem_cons_of_mem op hop⟩
    · exact hops c (List.mem_cons_of_mem op hop)

/-- A quarantined asset stays quarantined until it is released, also for the
auto-quarantine of a sync after the run, and only the service quarantines one. -/
theorem quarantined_until_released {ops : List Op} {c : SyncCall} {schedule : List Nat}
    (h : Along (step env N order) (Spared env N order) w ops)
    (hsync : Along (next env.casing N order) SparesNext (ops.foldl (step env N order) w,
      .start c) schedule) (id : Nat) :
    (Quarantined w id → (∀ c, Op.releaseQuarantine id c ∉ ops) →
      Quarantined (ops.foldl (step env N order) w) id ∧
        Quarantined (schedule.foldl (next env.casing N order)
          (ops.foldl (step env N order) w, .start c)).1 id) ∧
      (Quarantined (ops.foldl (step env N order) w) id → Quarantined w id ∨ ∃ c, Op.quarantineAsset id c ∈
        ops) := by
  obtain ⟨hback, hforth⟩ := @run_quarantined env N order w id ops h
  refine ⟨fun hq hops => ⟨hforth hq hops, ?_⟩, hback⟩
  exact (sync_kept hsync id).mpr (hforth hq hops)

end Runs

section Examples

def office : Env := { casing := AssetLookup.asciiCasing }

/-- A quarantined laptop beside a phone that is not. -/
def held : World where
  assets := ((Table.empty _).append
    { macAddress := some "AA:BB:CC:DD:EE:01", serialNumber := some "SN1", status := .quarantined,
      statusChangedBy := some "admin" }).append
    { macAddress := some "AA:BB:CC:DD:EE:02", serialNumber := some "SN2" }

def leased (mac : String) : SyncCall where
  integration := ⟨"fg", "fortigate", "FG"⟩
  now := 100
  result :=
    { dhcpEntries :=
        [{ device := "fg-2", ipAddress := "10.0.0.5", macAddress := mac, type := .dhcpLease }] }
  mode := .skipDeprecation
  quarantineCall _ := { assetId := "0", actor := "system", sightings := [], integrations := [] }

def weekday : List Op :=
  [.updateAsset (some "ann") 0 { status := some .active }, .bulkMonitor { ids := [0, 1], monitored := true },
    .importPdf (some "ann") [{ serialNumber := some "SN2", status := some "active" },
      { serialNumber := some "SN1", notes := some "leased" }] false,
    .syncDhcpSubnets (leased "AA:BB:CC:DD:EE:02") (List.replicate 20 0),
    .syncEntraDevices ⟨"entra", "Entra", 100, fun _ => none, id, id⟩ []]

theorem quarantined_until_released_weekday :
    Quarantined (weekday.foldl (step office Netmask.reference id) held) 0 ∧
      Quarantined ((List.replicate 8 0).foldl (next office.casing Netmask.reference id)
        (weekday.foldl (step office Netmask.reference id) held,
          .start (leased "AA:BB:CC:DD:EE:02"))).1 0 := by
  refine (quarantined_until_released (by decide +kernel) (by decide +kernel) 0).1
    (by decide +kernel) fun c hop => ?_
  simp [weekday] at hop

/-- A lease on another gate makes the laptop active before the pass that
would quarantine it there. An import quarantines the phone. -/
theorem lease_frees_laptop :
    let s := (List.replicate 8 0).foldl (next office.casing Netmask.reference id) (held,
      .start (leased "AA:BB:CC:DD:EE:01"))
    let synced := step office Netmask.reference id held
      (.syncDhcpSubnets (leased "AA:BB:CC:DD:EE:01") (List.replicate 20 0))
    let imported := step office Netmask.reference id held
      (.importPdf none [{ serialNumber := some "SN2", status := some "quarantined" }] false)
    Quarantined held 0 ∧ s.2.sighted = [(0, "fg-2")] ∧ s.2.call.done = true ∧ ¬ Quarantined s.1 0 ∧
      ¬ Quarantined synced 0 ∧ ¬ Quarantined held 1 ∧ Quarantined imported 1 := by
  decide +kernel

end Examples

end Polaris.QuarantineOwnership
