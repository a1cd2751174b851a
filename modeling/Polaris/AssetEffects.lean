import Polaris.GatewayWrites
import Polaris.Lib.Checks

namespace Polaris.AssetEffects

open Polaris.AssetLookup (Casing)
open Polaris.AssetStore Polaris.AssetSync Polaris.Lib.Checks Polaris.Lib.Store Polaris.Lib.Store.Table
  Polaris.Lib.Views
open Polaris.Cidr (Failure)
open Polaris.ConflictResolution (AssetStatus AssetType)
open Polaris.DirectorySync hiding isHexDigit entra activeDirectory
open Polaris.GatewaySync (AssetUpdate Memory act)
open Polaris.GatewayWrites
open Polaris.Netmask (Package)

section Views

variable {w : World} {db : DirectoryTables.Db} {g : GatewaySync.Db} {id : Nat}

theorem withDirectory_same (h : db.assets = w.directory.assets) : (w.withDirectory db).assets = w.assets := by
  change directoryView.restore {} w.assets db.assets = w.assets
  rw [h]
  exact View.restore_table

theorem withDirectory_append {row : DirectoryTables.AssetRow}
    (h : db.assets = w.directory.assets.append row) :
    (w.withDirectory db).assets = w.assets.append { toDirectoryRow := row } := by
  change directoryView.restore {} w.assets db.assets = _
  rw [h]
  exact View.restore_append row

theorem withDirectory_amend {f : DirectoryTables.AssetRow → DirectoryTables.AssetRow}
    (h : db.assets = w.directory.assets.amendWhere (·.id = id) f) :
    (w.withDirectory db).assets = w.assets.amendWhere (·.id = id) fun a =>
      { a with toDirectoryRow := f a.toDirectoryRow } := by
  change directoryView.restore {} w.assets db.assets = _
  rw [h]
  exact View.restore_amendWhere _ f

theorem withGateway_same (h : g.assets = w.gateway.assets) : (w.withGateway g).assets = w.assets := by
  change gatewayView.restore {} w.assets g.assets = w.assets
  rw [h]
  exact View.restore_table

theorem withGateway_append {row : ClusterSync.AssetRow} (h : g.assets = w.gateway.assets.append row) :
    (w.withGateway g).assets = w.assets.append { toAssetRow := row } := by
  change gatewayView.restore {} w.assets g.assets = _
  rw [h]
  exact View.restore_append row

theorem withGateway_amend {u : AssetUpdate} (h : g.assets = w.gateway.assets.amendWhere (·.id = id) u.apply) :
    (w.withGateway g).assets = w.assets.amendWhere (·.id = id) fun a =>
      { a with toAssetRow := u.apply a.toAssetRow } := by
  change gatewayView.restore {} w.assets g.assets = _
  rw [h]
  exact View.restore_amendWhere _ u.apply

end Views

section Requests

variable {env : Env} {username : Option String} {w w' : World} {id : Nat}

theorem createAsset_assets (input : CreateAsset) : (createAsset env username input w).1.assets = w.assets ∨
    (createAsset env username input w).1.assets = w.assets.append
      { toDirectoryRow := newAsset env username input } := by
  rw [createAsset]
  split
  · exact .inl rfl
  · exact .inr (withDirectory_append (DirectoryTables.createAsset_assets _ _ _ _))

theorem checkUpdate_guard {input : UpdateAsset} {existing : Asset}
    (h : checkUpdate env input existing = .ok ()) :
    guardQuarantine input.status existing.status = .ok () := by
  obtain ⟨-, -, h⟩ := bind_ok h
  obtain ⟨-, -, h⟩ := bind_ok h
  obtain ⟨-, -, h⟩ := bind_ok h
  exact h

theorem updateAsset_assets (input : UpdateAsset) : (updateAsset env username id input w).1.assets = w.assets ∨
    ∃ r ∈ w.assets.rows, r.id = id ∧ guardQuarantine input.status r.data.status = .ok () ∧
      (updateAsset env username id input w).1.assets = w.assets.amendWhere (·.id = id)
        (updatedAsset env username
        input) := by
  rw [updateAsset]
  split
  · exact .inl rfl
  · next existing hfind =>
    obtain ⟨hmem, hid⟩ := mem_of_find hfind
    split
    · exact .inl rfl
    · next hcheck =>
      refine .inr ⟨existing, hmem, hid, checkUpdate_guard hcheck, ?_⟩
      dsimp only
      split
      · rfl
      · rfl

theorem bulkMonitor_assets (body : BulkMonitor) : (bulkMonitor body w).1.assets = w.assets ∨
    (bulkMonitor body w).1.assets = w.assets.amendWhere (·.id ∈ body.ids) (bulkMonitored body) := by
  rw [bulkMonitor]
  split
  · exact .inl rfl
  · exact .inr rfl

theorem importRow_assets {row : ImportRow} (h : importRow env username row w = .ok w') :
    ∃ assetType status, parseEnum "assetType" assetTypeOf row.assetType = .ok assetType ∧
      parseEnum "status" statusOf row.status = .ok status ∧
      ((∃ existing, row.existing env w = some existing ∧
          w'.assets = w.assets.amendWhere (·.id = existing.id)
            (importedAsset env username row assetType status)) ∨
        row.existing env w = none ∧
          w'.assets = w.assets.append (importedAsset env username row assetType status
            (importDefault username))) := by
  obtain ⟨assetType, htype, h⟩ := bind_ok h
  obtain ⟨status, hstatus, h⟩ := bind_ok h
  refine ⟨assetType, status, htype, hstatus, ?_⟩
  split at h
  · next existing hexisting =>
    refine .inl ⟨existing, hexisting, ?_⟩
    have heq := Except.ok.inj h
    split at heq
    · exact heq ▸ rfl
    · exact heq ▸ rfl
  · next hexisting => exact .inr ⟨hexisting, Except.ok.inj h ▸ rfl⟩

theorem withQuarantine_assets {α : Type} (r : AssetQuarantine.World × Except Failure α) :
    (w.withQuarantine id r).1.assets = w.assets ∨
    ∃ a q, r.2 = .ok a ∧ r.1.asset = some q ∧
      (w.withQuarantine id r).1.assets = w.assets.amendWhere (·.id = id) (quarantineWritten q) := by
  rw [World.withQuarantine]
  split
  · next a q ha hq => exact .inr ⟨a, q, ha, hq, rfl⟩
  · exact .inl rfl

theorem quarantineAsset_assets (c : AssetQuarantine.QuarantineCall) :
    (quarantineAsset id c w).1.assets = w.assets ∨
    ∃ q : QuarantinePush.Asset, q.status = .quarantined ∧
      (quarantineAsset id c w).1.assets = w.assets.amendWhere (·.id = id) (quarantineWritten q) := by
  refine (withQuarantine_assets _).imp_right ?_
  rintro ⟨records, q, hok, hq, h⟩
  refine ⟨q, ?_, h⟩
  rw [AssetQuarantine.quarantineAsset] at hok hq
  split at hok
  · cases hok
  · next asset hasset =>
    rw [hasset] at hq
    dsimp only at hq
    split at hok
    · cases hok
    · next hcheck =>
      rw [hcheck] at hq
      dsimp only at hok hq
      split at hok
      · cases hok
      · next hsynced =>
        rw [if_neg hsynced] at hq
        cases hq
        rfl

/-- Only a quarantined asset is released. -/
theorem releaseQuarantine_assets (c : AssetQuarantine.ReleaseCall) :
    (releaseQuarantine id c w).1.assets = w.assets ∨
    ∃ r ∈ w.assets.rows, r.id = id ∧ r.data.status = .quarantined ∧
      ∃ q, (releaseQuarantine id c w).1.assets = w.assets.amendWhere (·.id = id) (quarantineWritten q) := by
  refine (withQuarantine_assets _).imp_right ?_
  rintro ⟨result, q, hok, -, h⟩
  cases hfind : w.assets.find id with
  | none =>
    rw [AssetQuarantine.releaseQuarantine, World.quarantine, hfind] at hok
    cases hok
  | some r =>
    obtain ⟨hr, hid⟩ := mem_of_find hfind
    refine ⟨r, hr, hid, ?_, q, h⟩
    rw [AssetQuarantine.releaseQuarantine, World.quarantine, hfind] at hok
    dsimp only [Option.map_some] at hok
    split at hok
    · cases hok
    · next hstatus =>
      have hquarantined : quarantineStatus r.data.status = .quarantined := not_not.mp hstatus
      cases hdata : r.data.status with
      | quarantined => rfl
      | active | maintenance | decommissioned | storage | disabled =>
        rw [hdata] at hquarantined
        cases hquarantined

end Requests

section Gateway

variable {C : Casing} {N : Package} {order : List ClusterSync.Source → List ClusterSync.Source} {w : World}
  {s : LifeCall}
  {mem : Memory} {j : Nat}

def updatedRow (s : LifeCall) (mem : Memory) (id : Nat) (u : AssetUpdate) (a : Asset) : Asset :=
  (updateSide s.sync s.job (s.known id) (lastSeenOf mem id) u).apply u.status
    { a with toAssetRow := u.apply a.toAssetRow }

def createdRow (s : LifeCall) (row : ClusterSync.AssetRow) : Asset :=
  (createSide s.sync row s.job).apply (some row.status) { toAssetRow := row }

/-- The assets after a statement of the sync. -/
def Stated (w : World) (s : LifeCall) (mem : Memory) (assets : Table (noKey (α := Asset))) :
    Option AssetWrite → Prop
  | none => assets = w.assets
  | some (.update id u) => assets = w.assets.amendWhere (·.id = id) (updatedRow s mem id u)
  | some (.create row) => assets = w.assets.append (createdRow s row)

theorem statement_assets (hmem : s.call.memory = some mem) (h : TameCall s.sync.toSync s.job s.call) :
    Stated w s mem (statement C N order j mem w s).1.assets (due j s.call) := by
  obtain ⟨-, mem', -, heffect⟩ := @act_effect C N order _ _ _ _ w.gateway j hmem h
  rw [statement]
  split
  · next hdue =>
    rw [hdue] at heffect ⊢
    exact withGateway_same heffect.1
  · next id u hdue =>
    rw [hdue] at heffect ⊢
    change Table.amendWhere (w.withGateway (act C N order j w.gateway s.call).1).assets _ _ = _
    rw [withGateway_amend heffect.1, amendWhere_amendWhere]
    rfl
  · next row hdue =>
    rw [hdue] at heffect ⊢
    change Table.amendWhere (w.withGateway (act C N order j w.gateway s.call).1).assets _ _ = _
    rw [withGateway_append heffect.1, append_amendWhere]
    rfl

/-- Every statement of the sync is one of its phase. -/
def Tamed (s : LifeCall) : Prop := TameCall s.sync.toSync s.job s.call

theorem start_tamed (c : SyncCall) : Tamed (.start c) where
  sync := rfl
  todo _ h := absurd h List.not_mem_nil
  seq _ h := absurd h List.not_mem_nil
  batch _ h := absurd h List.not_mem_nil

theorem seq_of_done {t : GatewaySync.Call} (h : t.done = true) : t.seq = [] ∧ ∀ ws ∈ t.batch, ws = [] := by
  rw [GatewaySync.Call.done, Bool.and_eq_true, Bool.and_eq_true] at h
  exact ⟨List.isEmpty_iff.mp h.1.2, fun ws hws => List.isEmpty_iff.mp (List.all_eq_true.mp h.2 ws hws)⟩

theorem statement_tamed (hmem : s.call.memory = some mem) (h : Tamed s) :
    Tamed (statement C N order j mem w s).2 := by
  obtain ⟨htame, -⟩ := @act_effect C N order _ _ _ _ w.gateway j hmem h
  rw [statement]
  split
  · exact htame
  · exact htame
  · exact htame

theorem next_tamed {s : World × LifeCall} (h : Tamed s.2) : Tamed (next C N order s j).2 := by
  rw [next]
  split
  · exact ⟨h.sync, h.todo, h.seq, h.batch⟩
  · next mem hmem =>
    split
    · next hdone =>
      split
      · exact h
      · next job tasks htasks =>
        obtain ⟨hseq, hbatch⟩ := seq_of_done hdone
        refine ⟨h.sync, fun next hnext => congrArg some (List.mem_singleton.mp hnext).symm,
          fun stmt hstmt => ?_,
          fun ws hws write hwrite => ?_⟩
        · rw [hseq] at hstmt
          exact absurd hstmt List.not_mem_nil
        · rw [hbatch ws hws] at hwrite
          exact absurd hwrite List.not_mem_nil
      · exact ⟨h.sync, h.todo, h.seq, h.batch⟩
      · split
        · exact ⟨h.sync, h.todo, h.seq, h.batch⟩
        · exact ⟨h.sync, h.todo, h.seq, h.batch⟩
    · exact statement_tamed hmem h

theorem autoQuarantine_assets (c : SyncCall) (pair : Nat × String) :
    (autoQuarantine c pair w).assets = w.assets ∨
    ∃ r ∈ w.assets.rows, r.id = pair.1 ∧ r.data.status = .quarantined ∧
      ((∃ targets, (autoQuarantine c pair w).assets =
        w.assets.amendWhere (·.id = pair.1) ({ · with quarantineTargets := targets })) ∨
        ∃ q : QuarantinePush.Asset, q.status = .quarantined ∧
          (autoQuarantine c pair w).assets = w.assets.amendWhere (·.id = pair.1) (quarantineWritten q)) := by
  rw [autoQuarantine]
  split
  · exact .inl rfl
  · next r hfind =>
    obtain ⟨hr, hid⟩ := mem_of_find hfind
    split
    · exact .inl rfl
    · next hstatus =>
      have hquarantined : r.data.status = .quarantined := not_not.mp hstatus
      split
      · split
        · exact .inl rfl
        · next targets _ => exact .inr ⟨r, hr, hid, hquarantined, .inl ⟨targets, rfl⟩⟩
      · obtain hsame | hwritten := @quarantineAsset_assets w pair.1
          { c.quarantineCall pair.1 with
            assetId := toString pair.1, actor := "system:auto-quarantine", reason := none,
            tokenIntegrationIds := none }
        · exact .inl hsame
        · exact .inr ⟨r, hr, hid, hquarantined, .inr hwritten⟩

end Gateway

section Directories

variable {C : Casing} {c : DirectoryTables.Sync} {w : World}

def entraRow (C : Casing) (c : DirectoryTables.Sync) (dev : EntraDevice) (a : EntraSubject)
    (p : DirectoryTables.Projected) (row : Asset) : Asset :=
  statusWritten (entraStatus dev) { row with toDirectoryRow := entraUpdate C c dev a p row.toDirectoryRow }

def adRow (C : Casing) (c : DirectoryTables.Sync) (dev : AdDevice) (a : AdSubject)
    (p : DirectoryTables.Projected) (row : Asset) : Asset :=
  statusWritten (adStatus dev) { row with toDirectoryRow := adUpdate C c dev a p row.toDirectoryRow }

theorem entra_assets (dev : EntraDevice) (found : EntraFound) :
    found ≠ .unknown ∧ ((entra C c).write w dev found).assets = w.assets ∨
    (∃ id a p, found.target dev = some (id, a) ∧
      ((entra C c).write w dev found).assets = w.assets.amendWhere (·.id = id) (entraRow C c dev a p)) ∨
    found = .unknown ∧ ((entra C c).write w dev found).assets = w.assets.append
      { toDirectoryRow := newEntra C c dev } := by
  cases htarget : found.target dev with
  | some target =>
    obtain ⟨id, a⟩ := target
    obtain ⟨p, hp⟩ := @writeEntraFound_target C c w.directory dev _ _ _ htarget
    refine .inr (.inl ⟨id, a, p, rfl, ?_⟩)
    rw [entra]
    dsimp only
    rw [htarget]
    change Table.amendWhere (w.withDirectory _).assets _ _ = _
    rw [withDirectory_amend hp, amendWhere_amendWhere]
    rfl
  | none =>
    have hwrite : ((entra C c).write w dev found).assets =
      (w.withDirectory (writeEntraFound C c w.directory dev found)).assets := by
      rw [entra]
      dsimp only
      rw [htarget]
    rw [hwrite]
    by_cases hunknown : found = .unknown
    · refine .inr (.inr ⟨hunknown, withDirectory_append ?_⟩)
      rw [hunknown]
      exact writeEntraFound_unknown
    · exact .inl ⟨hunknown, withDirectory_same (writeEntraFound_untouched hunknown htarget)⟩

theorem activeDirectory_assets (dev : AdDevice) (found : AdFound) :
    found ≠ .unknown ∧ ((activeDirectory C c).write w dev found).assets = w.assets ∨
    (∃ id a p, found = .existing id a ∧
      ((activeDirectory C c).write w dev found).assets = w.assets.amendWhere (·.id = id)
        (adRow C c dev a p)) ∨
    found = .unknown ∧ ((activeDirectory C c).write w dev found).assets = w.assets.append
      { toDirectoryRow := newAd C c dev } := by
  cases found with
  | existing id a =>
    obtain ⟨p, hp⟩ := @writeAd_assets C c w.directory dev id a
    refine .inr (.inl ⟨id, a, p, rfl, ?_⟩)
    change Table.amendWhere (w.withDirectory (writeAd C c w.directory dev id a)).assets _ _ = _
    rw [withDirectory_amend hp, amendWhere_amendWhere]
    rfl
  | unknown => exact .inr (.inr ⟨rfl, withDirectory_append writeAdFound_unknown⟩)
  | noId => 
    exact .inl ⟨AdFound.noConfusion,
      withDirectory_same (writeAdFound_untouched AdFound.noConfusion fun _ _ h => AdFound.noConfusion h)⟩
  | untagged id via => 
    exact .inl ⟨AdFound.noConfusion,
      withDirectory_same (writeAdFound_untouched AdFound.noConfusion fun _ _ h => AdFound.noConfusion h)⟩
  | duplicate id via => 
    exact .inl ⟨AdFound.noConfusion,
      withDirectory_same (writeAdFound_untouched AdFound.noConfusion fun _ _ h => AdFound.noConfusion h)⟩

end Directories

end Polaris.AssetEffects
