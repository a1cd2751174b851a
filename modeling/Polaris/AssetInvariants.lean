import Polaris.AssetEffects

namespace Polaris.AssetInvariants

open Polaris.AssetEffects Polaris.AssetStore Polaris.AssetSync Polaris.Lib.Runs Polaris.Lib.Store
  Polaris.Lib.Store.Table
open Polaris.AssetLookup (Casing)
open Polaris.ClusterSync (Source)
open Polaris.ConflictResolution (AssetStatus clampAcquiredToLastSeen)
open Polaris.DirectoryTables (Known)
open Polaris.DirectorySync (AdDevice AdFound AdMemory AdSubject EntraDevice EntraMemory adStatus entraLastSeen
  entraStatus)
open Polaris.GatewaySync (AssetUpdate Job Memory act)
open Polaris.GatewayWrites
open Polaris.Netmask (Package)

section Clamps

variable {acquired seen known knownSeen : Option Nat} {x : Nat}

theorem clamp_le_seen (h : clampAcquiredToLastSeen acquired seen known knownSeen = some x) :
    ∀ s ∈ seen.or knownSeen, x ≤ s := by
  intro s hs
  rw [clampAcquiredToLastSeen, hs] at h
  cases acquired with
  | none => cases known with
    | none => cases h
    | some y =>
      dsimp only [Option.or] at h
      split at h
      · exact (Option.some.inj h).ge
      · cases h
  | some y =>
    dsimp only [Option.or] at h
    split at h
    · exact (Option.some.inj h).ge
    · obtain rfl := Option.some.inj h
      omega

theorem clamp_le_acquired (h : clampAcquiredToLastSeen acquired seen known knownSeen = some x) :
    ∃ y ∈ acquired.or known, x ≤ y := by
  rw [clampAcquiredToLastSeen] at h
  split at h
  · next y s hy hs =>
    refine ⟨y, hy, ?_⟩
    split at h
    · obtain rfl := Option.some.inj h
      omega
    · rw [h] at hy
      exact (Option.some.inj hy).le
  · exact ⟨x, h ▸ rfl, le_rfl⟩

theorem le_of_clamp_none (h : clampAcquiredToLastSeen acquired seen known knownSeen = none) :
    acquired = none ∧ ∀ y ∈ known, ∀ s ∈ seen.or knownSeen, y ≤ s := by
  cases acquired with
  | some a =>
    rw [clampAcquiredToLastSeen] at h
    split at h
    · split at h
      · cases h
      · cases h
    · cases h
  | none =>
    refine ⟨rfl, fun y hy s hs => ?_⟩
    rw [clampAcquiredToLastSeen, hs, hy] at h
    dsimp only [Option.or] at h
    split at h
    · cases h
    · omega

/-- With nothing new, a clamp writes the sighting, where it is the earlier. -/
theorem clamp_known (h : clampAcquiredToLastSeen none seen known knownSeen = some x) :
    seen.or knownSeen = some x ∧ ∃ y ∈ known, x < y := by
  rw [clampAcquiredToLastSeen] at h
  split at h
  · next y t hy ht =>
    split at h
    · next hlt =>
      obtain rfl := Option.some.inj h
      exact ⟨ht, y, hy, hlt⟩
    · cases h
  · cases h

end Clamps

section Conditions

variable (env : Env) (N : Package) (order : List Source → List Source) (w : World)

/-- A retired asset is not monitored, and none is seen before it is acquired. -/
def Sound (a : Asset) : Prop :=
  (retired a.status → a.monitored = false) ∧ ∀ x ∈ a.acquiredAt, ∀ t ∈ a.lastSeen, x ≤ t
  deriving Decidable

def AllSound : Prop := ∀ r ∈ w.assets.rows, Sound r.data
  deriving Decidable

/-- A write that turns monitoring on without a status is of no retired asset. -/
def MeetsUpdate (id : Nat) (input : UpdateAsset) : Prop :=
  input.monitored = some true → input.status = none →
    ∀ r ∈ w.assets.rows, r.id = id → (checkUpdate env input r.data).isOk → retired r.data.status = false
  deriving Decidable

def MeetsBulk (body : BulkMonitor) : Prop :=
  body.monitored → ∀ r ∈ w.assets.rows, r.id ∈ body.ids → retired r.data.status = false
  deriving Decidable

/-- A sighting that is not clamped is not one from before the acquisition. -/
def MeetsWrite (s : LifeCall) : AssetWrite → Prop
  | .update id u => ∀ r ∈ w.assets.rows, r.id = id →
    (clamps s.job = false → ∀ t ∈ u.lastSeen, ∀ x ∈ r.data.acquiredAt, x ≤ t) ∧
      ((stampOf s.sync s.job (s.known id)).monitored → u.status = none → retired r.data.status = false)
  | .create _ => True

instance (s : LifeCall) : ∀ write, Decidable (MeetsWrite w s write)
  | .update id u => inferInstanceAs (Decidable (∀ r ∈ w.assets.rows, r.id = id →
    (clamps s.job = false → ∀ t ∈ u.lastSeen, ∀ x ∈ r.data.acquiredAt, x ≤ t) ∧
      ((stampOf s.sync s.job (s.known id)).monitored → u.status = none → retired r.data.status = false)))
  | .create _ => isTrue trivial

def MeetsNext (s : World × LifeCall) (j : Nat) : Prop := ∀ write ∈ due j s.2.call, MeetsWrite s.1 s.2 write
  deriving Decidable

/-- Where neither the device nor the memory has an acquisition, the one that
the row has by now is not after the sighting to be written. -/
def MeetsEntra (c : DirectoryTables.Sync) (s : World × EntraMemory) (dev : EntraDevice) : Prop :=
  ∀ target ∈ ((entra env.casing c).look s.2 dev).target dev, dev.registrationDateTime = none →
    target.2.acquiredAt = none →
    ∀ r ∈ s.1.assets.rows, r.id = target.1 →
      ∀ x ∈ r.data.acquiredAt, ∀ t ∈ (entraLastSeen dev).or target.2.lastSeen, x ≤ t
  deriving Decidable

def adLogon (dev : AdDevice) (a : AdSubject) : Option Nat :=
  dev.lastLogonTimestamp.filter fun logon => a.lastSeen.all fun known => known < logon

def adCreated (dev : AdDevice) (a : AdSubject) : Option Nat :=
  dev.whenCreated.filter fun created => a.acquiredAt.all fun known => created < known

/-- Each of the two dates meets what the row has by now of the other, where
the memory has nothing of the other. -/
def MeetsAd (c : DirectoryTables.Sync) (s : World × AdMemory) (dev : AdDevice) : Prop :=
  ∀ target ∈ adTarget ((activeDirectory env.casing c).look s.2 dev), ∀ r ∈ s.1.assets.rows, r.id = target.1 →
    (dev.whenCreated = none → target.2.acquiredAt = none →
      ∀ x ∈ r.data.acquiredAt, ∀ t ∈ adLogon dev target.2, x ≤ t) ∧
      (dev.lastLogonTimestamp = none → target.2.lastSeen = none →
        ∀ x ∈ adCreated dev target.2, ∀ t ∈ r.data.lastSeen, x ≤ t)
  deriving Decidable

def Meets : Op → Prop
  | .updateAsset _ id input => MeetsUpdate env w id input
  | .bulkMonitor body => MeetsBulk w body
  | .syncDhcpSubnets c schedule => Along (next env.casing N order) MeetsNext (w, .start c) schedule
  | .syncEntraDevices c devices =>
    Along (entra env.casing c).step (MeetsEntra env c) ((entra env.casing c).start w) devices
  | .syncActiveDirectoryDevices c devices =>
    Along (activeDirectory env.casing c).step (MeetsAd env c) ((activeDirectory env.casing c).start w) devices
  | .createAsset _ _ | .importPdf _ _ _ | .decommissionStaleAssets _ | .quarantineAsset _ _
    | .releaseQuarantine _ _ => True

instance : ∀ op, Decidable (Meets env N order w op)
  | .updateAsset _ id input => inferInstanceAs (Decidable (MeetsUpdate env w id input))
  | .bulkMonitor body => inferInstanceAs (Decidable (MeetsBulk w body))
  | .syncDhcpSubnets c schedule =>
    inferInstanceAs (Decidable (Along (next env.casing N order) MeetsNext (w, .start c) schedule))
  | .syncEntraDevices c devices =>
    inferInstanceAs (Decidable (Along (entra env.casing c).step (MeetsEntra env c)
      ((entra env.casing c).start w) devices))
  | .syncActiveDirectoryDevices c devices =>
    inferInstanceAs (Decidable
      (Along (activeDirectory env.casing c).step (MeetsAd env c)
        ((activeDirectory env.casing c).start w) devices))
  | .createAsset _ _ | .importPdf _ _ _ | .decommissionStaleAssets _ | .quarantineAsset _ _
    | .releaseQuarantine _ _ => isTrue trivial

/-- The database returns the rows of a table in any order. -/
def Listed : Op → Prop
  | .syncEntraDevices c _ | .syncActiveDirectoryDevices c _ => ∀ rows, (c.listing rows).Perm rows
  | _ => True

end Conditions

section Requests

variable {env : Env} {username : Option String} {w w' : World} {id : Nat}

theorem allSound_same (h : w'.assets = w.assets) (hw : AllSound w) : AllSound w' := by
  rw [AllSound, h]
  exact hw

theorem allSound_append {a : Asset} (h : w'.assets = w.assets.append a) (hw : AllSound w)
    (ha : Sound a) : AllSound w' := by
  rw [AllSound, h]
  exact forall_append hw ha

theorem allSound_amend {p : Row Asset → Bool} {f : Asset → Asset} (h : w'.assets = w.assets.amendWhere p f)
    (hw : AllSound w)
    (hf : ∀ r ∈ w.assets.rows, p r → Sound r.data → Sound (f r.data)) : AllSound w' := by
  rw [AllSound, h]
  exact forall_amendWhere (fun r hr _ => hw r hr) fun r hr hp => hf r hr hp (hw r hr)

theorem clampMonitored_retired {status : AssetStatus} (b : Bool) (h : retired status) :
    clampMonitoredForStatus (some status) b = false := by
  rw [clampMonitoredForStatus, Option.any_some, if_pos h]

theorem live_of_monitored {a : Asset} (ha : Sound a) (h : a.monitored = true) : retired a.status = false := by
  cases hretired : retired a.status with
  | false => rfl
  | true => exact absurd (h.symm.trans (ha.1 hretired)) (by decide)

/-- A write with a status mutes what it retires; one without a status must not
turn on the monitoring of what is retired. -/
theorem clampMonitored_sound (status : Option AssetStatus) (existing : AssetStatus) {b : Bool}
    (hb : status = none → b = true → retired existing = false) (h : retired (status.getD existing)) :
    clampMonitoredForStatus status b = false := by
  cases status with
  | some status => exact clampMonitored_retired b h
  | none =>
    cases b with
    | false => rfl
    | true =>
      rw [Option.getD_none, hb rfl rfl] at h
      cases h

theorem createAsset_sound (hw : AllSound w) (input : CreateAsset) :
    AllSound (createAsset env username input w).1 := by
  obtain hsame | hnew := @createAsset_assets env username w input
  · exact allSound_same hsame hw
  · refine allSound_append hnew hw ⟨fun _ => rfl, fun x _ t ht => ?_⟩
    cases ht

theorem updatedAsset_sound {input : UpdateAsset} {a : Asset} (ha : Sound a)
    (h : input.monitored = some true → input.status = none → retired a.status = false) :
    Sound (updatedAsset env username input a) := by
  refine ⟨clampMonitored_sound input.status a.status fun hstatus hb => ?_, fun x hx t ht => ?_⟩
  · cases hmonitored : input.monitored with
    | none =>
      rw [hmonitored] at hb
      exact live_of_monitored ha hb
    | some b =>
      rw [hmonitored] at hb
      exact h (hmonitored.trans (congrArg some hb)) hstatus
  · have ht : t ∈ a.lastSeen := ht
    have hx : x ∈ (clampAcquiredToLastSeen input.acquiredAt none a.acquiredAt a.lastSeen).or
      a.acquiredAt := hx
    obtain hx | ⟨-, hx⟩ := Option.or_eq_some_iff.mp hx
    · exact clamp_le_seen hx t ht
    · exact ha.2 x hx t ht

theorem updateAsset_sound {input : UpdateAsset} (hw : AllSound w) (h : MeetsUpdate env w id input) :
    AllSound (updateAsset env username id input w).1 := by
  rw [updateAsset]
  split
  · exact hw
  · next existing hfind =>
    obtain ⟨hmem, hid⟩ := mem_of_find hfind
    split
    · exact hw
    · next hcheck =>
      have hok : (checkUpdate env input existing.data).isOk = true := by rw [hcheck]; rfl
      have hwritten : AllSound (w.update id (updatedAsset env username input)) := by
        refine allSound_amend rfl hw fun r hr hp hsound => ?_
        obtain rfl := eq_of_id hr hmem ((of_decide_eq_true hp).trans hid.symm)
        exact updatedAsset_sound hsound fun hmonitored hstatus => h hmonitored hstatus r hr hid hok
      dsimp only
      split
      · exact hwritten
      · exact hwritten

theorem bulkMonitor_sound {body : BulkMonitor} (hw : AllSound w) (h : MeetsBulk w body) :
    AllSound (bulkMonitor body w).1 := by
  obtain hsame | hassets := bulkMonitor_assets (w := w) body
  · exact allSound_same hsame hw
  · refine allSound_amend hassets hw fun r hr hp hsound => ⟨?_, hsound.2⟩
    exact clampMonitored_sound none r.data.status fun _ hb => h hb r hr (of_decide_eq_true hp)

theorem importedAsset_sound {row : ImportRow} {assetType : Option ConflictResolution.AssetType}
    {status : Option AssetStatus} {a : Asset}
    (ha : Sound a) : Sound (importedAsset env username row assetType status a) :=
  ⟨clampMonitored_sound status a.status fun _ hb => live_of_monitored ha hb, ha.2⟩

theorem importNext_sound {s : World × Except Cidr.Failure Unit} {row : ImportRow} (hw : AllSound s.1) :
    AllSound (importNext env username s row).1 := by
  rw [importNext]
  split
  · exact hw
  · split
    · exact hw
    · next w' hrow =>
      obtain ⟨assetType, status, -, -, ⟨existing, -, hassets⟩ | ⟨-, hassets⟩⟩ := importRow_assets hrow
      · exact allSound_amend hassets hw fun r hr hp hsound => importedAsset_sound hsound
      · exact allSound_append hassets hw (importedAsset_sound ⟨fun _ => rfl,
          fun x hx => absurd hx (by rintro ⟨⟩)⟩)

theorem importPdf_sound {rows : List ImportRow} {dryRun : Bool} (hw : AllSound w) :
    AllSound (importPdf env username rows dryRun w).1 := by
  have hfold : ∀ (rows : List ImportRow) (s : World × Except Cidr.Failure Unit), AllSound s.1 →
      AllSound (rows.foldl (importNext env username) s).1 := by
    intro rows
    induction rows with
    | nil => exact fun _ h => h
    | cons row rows ih => exact fun s h => ih _ (importNext_sound h)
  rw [importPdf]
  split
  · exact hw
  · split
    · exact hw
    · exact hfold rows _ hw

theorem decommissioned_sound {changedBy : String} {a : Asset} (ha : Sound a) :
    Sound (decommissioned changedBy a) :=
  ⟨fun _ => rfl, ha.2⟩

theorem decommissionStaleAssets_sound (run : DecommissionRun)
    (hw : AllSound w) : AllSound (decommissionStaleAssets run w) := by
  rw [decommissionStaleAssets]
  split
  · exact hw
  · exact allSound_amend rfl hw fun _ _ _ => decommissioned_sound

theorem quarantineWritten_sound {q : QuarantinePush.Asset} {a : Asset} (ha : Sound a) :
    Sound (quarantineWritten q a) :=
  ⟨clampMonitored_retired a.monitored, ha.2⟩

theorem quarantineAsset_sound (c : AssetQuarantine.QuarantineCall)
    (hw : AllSound w) : AllSound (quarantineAsset id c w).1 := by
  obtain hsame | ⟨q, -, hassets⟩ := @quarantineAsset_assets w id c
  · exact allSound_same hsame hw
  · exact allSound_amend hassets hw fun _ _ _ => quarantineWritten_sound

theorem releaseQuarantine_sound (c : AssetQuarantine.ReleaseCall)
    (hw : AllSound w) : AllSound (releaseQuarantine id c w).1 := by
  obtain hsame | ⟨-, -, -, -, q, hassets⟩ := @releaseQuarantine_assets w id c
  · exact allSound_same hsame hw
  · exact allSound_amend hassets hw fun _ _ _ => quarantineWritten_sound

end Requests

section Gateway

variable {C : Casing} {N : Package} {order : List Source → List Source} {w : World} {s : LifeCall}
  {mem : Memory}
  {j : Nat}
  {r : Row Asset} {u : AssetUpdate}

/-- What a call knows of an asset against its row. An acquisition that is
later than the sighting it knows is one that the row was, or will be, seen
after. -/
structure Tracks (s : LifeCall) (mem : Memory) (r : Row Asset) : Prop where
  acquired : r.data.acquiredAt = (s.known r.id).acquiredAt ∨ ∀ x ∈ r.data.acquiredAt, x ≤ s.sync.now
  seen : ∀ x ∈ (s.known r.id).acquiredAt, ∀ t ∈ lastSeenOf mem r.id, t < x → t = s.sync.now ∧
    (r.data.lastSeen = some s.sync.now ∨
      Pending s.call.seq s.call.batch r.id ∧ seenBy s.sync.toSync s.job = some s.sync.now)

theorem seenBy_cases (c : GatewaySync.Sync) (job : Option Job) :
    seenBy c job = some c.now ∨ seenBy c job = none := by
  cases job with
  | none => exact .inr rfl
  | some job => cases job with
    | member | switch | accessPoint | dhcp | inventory => exact .inl rfl
    | subnet | subnetUpdates | sweep | enrichment | endpointSources | corrections => exact .inr rfl

theorem acquiredAtUpdate_keeps {known : AssetSync.Known} {c : SyncCall} {job : Option Job} (h : keeps job) :
    acquiredAtUpdate c known job = none := by
  cases job with
  | none => rfl
  | some job => cases job with
    | switch sw => cases h
    | subnet | subnetUpdates | member | accessPoint | dhcp | inventory | sweep | enrichment
      | endpointSources | corrections => rfl

theorem keeps_unseen {c : GatewaySync.Sync} {job : Option Job} (hclamps : clamps job)
    (h : seenBy c job = none) :
    keeps job := by
  cases job with
  | none => cases hclamps
  | some job => cases job with
    | corrections => rfl
    | member | switch | accessPoint | inventory => cases h
    | subnet | subnetUpdates | dhcp | sweep | enrichment | endpointSources => cases hclamps

theorem side_cases (id : Nat) :
    ((updateSide s.sync s.job (s.known id) (lastSeenOf mem id) u).acquiredAt = none ∧
        (clamps s.job → ∀ y ∈ (s.known id).acquiredAt, ∀ t ∈ u.lastSeen.or (lastSeenOf mem id), y ≤ t)) ∨
      clamps s.job ∧ ∃ x, (updateSide s.sync s.job (s.known id) (lastSeenOf mem id) u).acquiredAt = some x ∧
        (∀ t ∈ u.lastSeen.or (lastSeenOf mem id), x ≤ t) ∧
        (keeps s.job → u.lastSeen.or (lastSeenOf mem id) = some x ∧ ∃ y ∈ (s.known id).acquiredAt,
          x < y) := by
  rw [updateSide]
  dsimp only
  split
  · next hclamps =>
    cases hclamp : clampAcquiredToLastSeen (acquiredAtUpdate s.sync (s.known id) s.job) u.lastSeen
      (s.known id).acquiredAt
        (lastSeenOf mem id) with
    | none => exact .inl ⟨rfl, fun _ => (le_of_clamp_none hclamp).2⟩
    | some x =>
      refine .inr ⟨hclamps, x, rfl, clamp_le_seen hclamp, fun hkeeps => ?_⟩
      rw [acquiredAtUpdate_keeps hkeeps] at hclamp
      exact clamp_known hclamp
  · next hclamps => exact .inl ⟨rfl, fun h => absurd h hclamps⟩

theorem updatedRow_sound (h : Tracks s mem r) (htame : Tame s.sync.toSync s.job u) (hr : Sound r.data)
    (hdates : clamps s.job = false → ∀ t ∈ u.lastSeen, ∀ x ∈ r.data.acquiredAt, x ≤ t)
    (hlive : (stampOf s.sync s.job (s.known r.id)).monitored → u.status = none →
      retired r.data.status = false) :
    Sound (updatedRow s mem r.id u r.data) := by
  refine ⟨clampMonitored_sound u.status r.data.status fun hstatus hb => ?_, fun x hx t ht => ?_⟩
  · obtain hstamp | hmonitored := Bool.or_eq_true_iff.mp hb
    · exact hlive hstamp hstatus
    · exact live_of_monitored hr hmonitored
  have ht : t ∈ u.lastSeen.or r.data.lastSeen := ht
  have hx : x ∈ (updateSide s.sync s.job (s.known r.id) (lastSeenOf mem r.id) u).acquiredAt.or
    r.data.acquiredAt := hx
  obtain ⟨hside, hknown⟩ | ⟨hclamps, y, hside, hle, hkeeps⟩ := @side_cases s mem u r.id
  · rw [hside, Option.none_or] at hx
    cases hseen : u.lastSeen with
    | none =>
      rw [hseen, Option.none_or] at ht
      exact hr.2 x hx t ht
    | some now =>
      rw [hseen] at ht hknown
      obtain rfl : now = t := Option.some.inj ht
      cases hclamps : clamps s.job with
      | false => exact hdates hclamps now hseen x hx
      | true =>
        obtain hacquired | hnow := h.acquired
        · exact hknown hclamps x (hacquired ▸ hx) now rfl
        · obtain hseenBy | hseenBy := seenBy_cases s.sync.toSync s.job
          · have hnow' : now = s.sync.now := Option.some.inj (hseen.symm.trans (htame.lastSeen.trans hseenBy))
            exact hnow' ▸ hnow x hx
          · rw [htame.lastSeen, hseenBy] at hseen
            cases hseen
  · rw [hside] at hx
    obtain rfl : y = x := Option.some.inj hx
    cases hseen : u.lastSeen with
    | some now =>
      rw [hseen] at ht hle
      exact hle t ht
    | none =>
      have hunseen : seenBy s.sync.toSync s.job = none := htame.lastSeen.symm.trans hseen
      obtain ⟨hsome, z, hz, hlt⟩ := hkeeps (keeps_unseen hclamps hunseen)
      rw [hseen, Option.none_or] at ht hsome
      obtain ⟨hnow, hrow | ⟨-, hpending⟩⟩ := h.seen z hz y hsome hlt
      · rw [ht] at hrow
        exact (hnow.trans (Option.some.inj hrow).symm).le
      · rw [hunseen] at hpending
        cases hpending

theorem updatedRow_tracks {s' : LifeCall} (h : Tracks s mem r) (htame : Tame s.sync.toSync s.job u)
    (hsync : s'.sync = s.sync)
    (hknown : s'.known r.id =
      (s.known r.id).patch s.job (updateSide s.sync s.job (s.known r.id) (lastSeenOf mem r.id) u)) :
    Tracks s' mem ⟨r.id, updatedRow s mem r.id u r.data⟩ := by
  have hseenBy := seenBy_cases s.sync.toSync s.job
  have hkept : ∀ x ∈ (s'.known r.id).acquiredAt, ∃ y ∈ (s.known r.id).acquiredAt, x ≤ y := by
    intro x hx
    rw [hknown, Known.patch] at hx
    split at hx
    · next hkeeps =>
      obtain ⟨hside, -⟩ | ⟨-, y, hside, -, hearlier⟩ := @side_cases s mem u r.id
      · rw [hside, Option.none_or] at hx
        exact ⟨x, hx, le_rfl⟩
      · rw [hside] at hx
        obtain rfl : y = x := Option.some.inj hx
        obtain ⟨-, z, hz, hlt⟩ := hearlier hkeeps
        exact ⟨z, hz, hlt.le⟩
    · exact ⟨x, hx, le_rfl⟩
  refine ⟨?_, fun x hx t ht hlt => ?_⟩
  · rw [hsync, hknown, Known.patch]
    change (updateSide s.sync s.job (s.known r.id) (lastSeenOf mem r.id) u).acquiredAt.or
      r.data.acquiredAt = _ ∨
      ∀ x ∈ (updateSide s.sync s.job (s.known r.id) (lastSeenOf mem r.id) u).acquiredAt.or r.data.acquiredAt,
        x ≤ s.sync.now
    obtain ⟨hside, -⟩ | ⟨hclamps, y, hside, hle, -⟩ := @side_cases s mem u r.id
    · rw [hside, Option.none_or, Option.none_or, ite_self]
      exact h.acquired
    · rw [hside]
      by_cases hkeeps : keeps s.job = true
      · rw [if_pos hkeeps]
        exact .inl rfl
      · obtain hnow | hnone := hseenBy
        · refine .inr fun x hx => ?_
          obtain rfl : y = x := Option.some.inj hx
          refine hle s.sync.now ?_
          rw [htame.lastSeen, hnow]
          rfl
        · exact absurd (keeps_unseen hclamps hnone) hkeeps
  · obtain ⟨y, hy, hle⟩ := hkept x hx
    obtain ⟨hnow, hrow⟩ := h.seen y hy t ht (lt_of_lt_of_le hlt hle)
    rw [hsync]
    refine ⟨hnow, .inl ?_⟩
    change u.lastSeen.or r.data.lastSeen = some s.sync.now
    rw [htame.lastSeen]
    obtain hnow | hnone := hseenBy
    · rw [hnow]
      rfl
    · rw [hnone, Option.none_or]
      obtain hrow | ⟨-, hpending⟩ := hrow
      · exact hrow
      · rw [hnone] at hpending
        cases hpending

theorem createSide_acquired (c : SyncCall) (row : ClusterSync.AssetRow) (job : Option Job) :
    ∀ x ∈ (createSide c row job).acquiredAt, ∀ t ∈ row.lastSeen, x ≤ t := by
  intro x hx t ht
  cases job with
  | none => cases hx
  | some job => cases job with
    | switch sw =>
      refine clamp_le_seen hx t ?_
      rw [ht]
      rfl
    | subnet | subnetUpdates | member | accessPoint | dhcp | inventory | sweep | enrichment
      | endpointSources | corrections => cases hx

theorem createdRow_acquired (row : ClusterSync.AssetRow) :
    (createdRow s row).acquiredAt = (createSide s.sync row s.job).acquiredAt :=
  Option.or_none

theorem createdRow_sound (row : ClusterSync.AssetRow) : Sound (createdRow s row) := by
  refine ⟨clampMonitored_retired _, fun x hx => ?_⟩
  rw [createdRow_acquired] at hx
  exact createSide_acquired s.sync row s.job x hx

theorem remember_mem (hr : r ∈ w.assets.rows) : remember w r.id = remembered r.data := by
  rw [remember, find_of_mem hr]
  rfl

/-- Every asset is sound, and the call tracks its row. -/
structure Tracked (s : World × LifeCall) : Prop where
  tamed : Tamed s.2
  sound : AllSound s.1
  tracks : ∀ mem, s.2.call.memory = some mem → ∀ r ∈ s.1.assets.rows, Tracks s.2 mem r

theorem Tracks.frame {s' : LifeCall} {mem' : Memory} {r' : Row Asset} (h : Tracks s mem r)
    (hsync : s'.sync = s.sync)
    (hid : r'.id = r.id) (hacquired : r'.data.acquiredAt = r.data.acquiredAt)
    (hrow : r'.data.lastSeen = r.data.lastSeen)
    (hknown : s'.known r.id = s.known r.id)
    (hseen : lastSeenOf mem' r.id = lastSeenOf mem r.id ∨ lastSeenOf mem' r.id = some s.sync.now ∧
      Pending s'.call.seq s'.call.batch r.id ∧ seenBy s'.sync.toSync s'.job = some s.sync.now)
    (hpending : Pending s.call.seq s.call.batch r.id → seenBy s.sync.toSync s.job = some s.sync.now →
      Pending s'.call.seq s'.call.batch r.id ∧ seenBy s'.sync.toSync s'.job = some s.sync.now) :
      Tracks s' mem' r' := by
  refine ⟨?_, fun x hx t ht hlt => ?_⟩
  · rw [hid, hacquired, hknown, hsync]
    exact h.acquired
  · rw [hid] at hx ht
    rw [hknown] at hx
    have hnow : s'.sync.now = s.sync.now := congrArg (fun c : SyncCall => c.now) hsync
    rw [hid, hrow, hnow]
    obtain hsame | ⟨hsome, hwill⟩ := hseen
    · rw [hsame] at ht
      obtain ⟨ht, hrow⟩ := h.seen x hx t ht hlt
      exact ⟨ht, hrow.imp_right fun hp => hpending hp.1 hp.2⟩
    · exact ⟨Option.some.inj (ht.symm.trans hsome), .inr hwill⟩

theorem statement_tracked (hmem : s.call.memory = some mem) (h : Tracked (w, s))
    (hmeets : ∀ write ∈ due j s.call,
    MeetsWrite w s write) :
    Tracked (statement C N order j mem w s) := by
  have hassets := @statement_assets C N order w _ _ j hmem h.tamed
  have htamed := @statement_tamed C N order w _ _ j hmem h.tamed
  obtain ⟨-, mem', hmem', heffect⟩ := @act_effect C N order _ _ _ _ w.gateway j hmem h.tamed
  have htracks : ∀ r ∈ w.assets.rows, Tracks s mem r := h.tracks mem hmem
  cases hdue : due j s.call with
  | none =>
    rw [hdue] at hassets heffect
    have hstate : (statement C N order j mem w s).2 =
      { s with call := (act C N order j w.gateway s.call).2 } := by
      rw [statement, hdue]
    refine ⟨htamed, allSound_same hassets h.sound, fun mem'' hmem'' r hr => ?_⟩
    rw [hstate] at hmem'' ⊢
    obtain rfl : mem' = mem'' := Option.some.inj (hmem'.symm.trans hmem'')
    rw [show (statement C N order j mem w s).1.assets = w.assets from hassets] at hr
    exact (htracks r hr).frame rfl rfl rfl rfl rfl (heffect.2 r.id).1 fun hp hjob =>
      ⟨(heffect.2 r.id).2 hp hjob, hjob⟩
  | some write =>
    have hwrite := hmeets write hdue
    rw [hdue] at hassets heffect
    cases write with
    | update id u =>
      obtain ⟨-, htame, rfl, hother⟩ := heffect
      have hstate : (statement C N order j mem' w s).2 =
          { s with
            call := (act C N order j w.gateway s.call).2
            known := Function.update s.known id
              ((s.known id).patch s.job (updateSide s.sync s.job (s.known id) (lastSeenOf mem' id) u)) } := by
        rw [statement, hdue]
      refine ⟨htamed, allSound_amend hassets h.sound fun r hr hp hsound => ?_, fun mem'' hmem'' => ?_⟩
      · obtain rfl : r.id = id := of_decide_eq_true hp
        obtain ⟨hdates, hlive⟩ := hwrite r hr rfl
        exact updatedRow_sound (htracks r hr) htame hsound hdates hlive
      · rw [hstate] at hmem'' ⊢
        obtain rfl : mem' = mem'' := Option.some.inj (hmem'.symm.trans hmem'')
        rw [show (statement C N order j mem' w s).1.assets = _ from hassets]
        refine forall_amendWhere (fun r hr hp => ?_) fun r hr hp => ?_
        · have hne : r.id ≠ id := of_decide_eq_false hp
          refine (htracks r hr).frame rfl rfl rfl rfl (Function.update_of_ne hne _ _) (.inl rfl)
            fun hpending hjob => ?_
          exact ⟨hother r.id hne hpending, hjob⟩
        · obtain rfl : r.id = id := of_decide_eq_true hp
          exact updatedRow_tracks (htracks r hr) htame rfl (Function.update_self _ _ _)
    | create row =>
      obtain ⟨-, -, hseen, hpending⟩ := heffect
      have hnew : (⟨w.assets.nextId, createdRow s row⟩ : Row Asset) ∈
        (statement C N order j mem w s).1.assets.rows := by
        rw [show (statement C N order j mem w s).1.assets = _ from hassets]
        exact mem_append.mpr (.inr rfl)
      have hstate : (statement C N order j mem w s).2 =
          { s with
            call := (act C N order j w.gateway s.call).2
            known := Function.update s.known w.assets.nextId (remembered (createdRow s row)) } := by
        rw [← remember_mem hnew, statement, hdue]
      refine ⟨htamed, allSound_append hassets h.sound (createdRow_sound row), fun mem'' hmem'' => ?_⟩
      rw [hstate] at hmem'' ⊢
      obtain rfl : mem' = mem'' := Option.some.inj (hmem'.symm.trans hmem'')
      rw [show (statement C N order j mem w s).1.assets = _ from hassets]
      refine forall_append (fun r hr => ?_) ⟨.inl ?_, fun x hx t ht hlt => ?_⟩
      · have hne : r.id ≠ w.assets.nextId := (w.assets.ids_lt r hr).ne
        refine (htracks r hr).frame rfl rfl rfl rfl (Function.update_of_ne hne _ _) (.inl ?_) fun hp hjob =>
          ⟨hpending r.id hp, hjob⟩
        exact (hseen r.id).trans (if_neg hne)
      · dsimp only
        rw [Function.update_self]
        rfl
      · dsimp only at hx
        rw [Function.update_self] at hx
        have ht : t ∈ row.lastSeen := (hseen w.assets.nextId).trans (if_pos rfl) ▸ ht
        have hle : x ≤ t := (createdRow_sound row).2 x hx t ht
        omega

theorem preload_lastSeen (hr : r ∈ w.assets.rows) :
    lastSeenOf (GatewaySync.preload C w.gateway) r.id = r.data.lastSeen := by
  have hrows : (⟨r.id, r.data.toAssetRow⟩ : Row ClusterSync.AssetRow) ∈ w.gateway.assets.rows :=
    List.mem_map_of_mem hr
  have hnodup : ((w.gateway.assets.rows.map (GatewaySync.hydrated w.gateway.macRows)).map (·.id)).Nodup := by
    rw [List.map_map]
    exact w.gateway.assets.ids_nodup
  have hfound := (AssetLookup.built_build (C := C) hnodup).found _ (List.mem_map_of_mem hrows)
  rw [lastSeenOf]
  change (AssetLookup.findById (AssetLookup.build C _) r.id).bind (·.lastSeen) = _
  exact congrArg (Option.bind · (·.lastSeen)) hfound

/-- The dates of the rows are those of rows that were there. -/
def SameDates (w w' : World) : Prop :=
  ∀ r' ∈ w'.assets.rows, ∃ r ∈ w.assets.rows, r'.id = r.id ∧ r'.data.acquiredAt = r.data.acquiredAt ∧
    r'.data.lastSeen = r.data.lastSeen

theorem sameDates_same {w' : World} (h : w'.assets = w.assets) : SameDates w w' :=
  fun r hr => ⟨r, h ▸ hr, rfl, rfl, rfl⟩

theorem SameDates.trans {v w' : World} (h : SameDates v w) (h' : SameDates w w') : SameDates v w' := by
  intro r'' hr''
  obtain ⟨r', hr', hid, hacquired, hseen⟩ := h' r'' hr''
  obtain ⟨r, hr, hid', hacquired', hseen'⟩ := h r' hr'
  exact ⟨r, hr, hid.trans hid', hacquired.trans hacquired', hseen.trans hseen'⟩

theorem sameDates_amend {w' : World} {p : Row Asset → Bool} {f : Asset → Asset}
    (h : w'.assets = w.assets.amendWhere p f)
    (hf : ∀ a, (f a).acquiredAt = a.acquiredAt ∧ (f a).lastSeen = a.lastSeen) : SameDates w w' := by
  rw [SameDates, h]
  exact forall_amendWhere (fun r hr _ => ⟨r, hr, rfl, rfl, rfl⟩) fun r hr _ =>
    ⟨r, hr, rfl, (hf r.data).1, (hf r.data).2⟩

theorem deprecateFirewalls_sound (c : SyncCall) (hw : AllSound w) :
    AllSound (deprecateFirewalls c w) ∧ SameDates w (deprecateFirewalls c w) := by
  rw [deprecateFirewalls]
  split
  · exact ⟨allSound_amend rfl hw fun _ _ _ => decommissioned_sound, sameDates_amend rfl fun _ => ⟨rfl, rfl⟩⟩
  · exact ⟨hw, sameDates_same rfl⟩

theorem deprecateInfra_sound (c : SyncCall) (hw : AllSound w) : AllSound (deprecateInfra c w) ∧
    SameDates w (deprecateInfra c w) := by
  rw [deprecateInfra]
  split
  · exact ⟨allSound_amend rfl hw fun _ _ _ => decommissioned_sound, sameDates_amend rfl fun _ => ⟨rfl, rfl⟩⟩
  · exact ⟨hw, sameDates_same rfl⟩

theorem autoQuarantine_sound (c : SyncCall) (pair : Nat × String) (hw : AllSound w) :
    AllSound (autoQuarantine c pair w) ∧ SameDates w (autoQuarantine c pair w) := by
  obtain hsame | ⟨-, -, -, -, ⟨targets, hassets⟩ | ⟨q, -, hassets⟩⟩ := @autoQuarantine_assets w c pair
  · exact ⟨allSound_same hsame hw, sameDates_same hsame⟩
  · exact ⟨allSound_amend hassets hw fun _ _ _ h => h, sameDates_amend hassets fun _ => ⟨rfl, rfl⟩⟩
  · exact ⟨allSound_amend hassets hw fun _ _ _ => quarantineWritten_sound,
      sameDates_amend hassets fun _ => ⟨rfl, rfl⟩⟩

theorem Tracked.frame {w' : World} {s' : LifeCall} (h : Tracked (w, s)) (htamed : Tamed s')
    (hsound : AllSound w')
    (hdates : SameDates w w')
    (hsync : s'.sync = s.sync) (hknown : s'.known = s.known)
    (hseen : ∀ mem', s'.call.memory = some mem' → ∃ mem, s.call.memory = some mem ∧
      ∀ id, lastSeenOf mem' id = lastSeenOf mem id)
    (hdone : ∀ id, ¬ Pending s.call.seq s.call.batch id) : Tracked (w', s') := by
  refine ⟨htamed, hsound, fun mem' hmem' r' hr' => ?_⟩
  obtain ⟨mem, hmem, hsame⟩ := hseen mem' hmem'
  obtain ⟨r, hr, hid, hacquired, hrow⟩ := hdates r' hr'
  exact (h.tracks mem hmem r hr).frame hsync hid hacquired hrow (congrFun hknown r.id) (.inl (hsame r.id))
    fun hp _ => absurd hp (hdone r.id)

theorem not_pending_of_done {t : GatewaySync.Call} (h : t.done = true) (id : Nat) :
    ¬ Pending t.seq t.batch id := by
  obtain ⟨hseq, hbatch⟩ := seq_of_done h
  exact not_pending hseq (List.all_eq_true.mpr fun ws hws => List.isEmpty_iff.mpr (hbatch ws hws)) id

theorem preload_tracked (h : Tracked (w, s)) (htamed : Tamed s) : Tracked (w, { s with
    call := { s.call with memory := some (GatewaySync.preload C w.gateway) }, known := remember w,
      tasks := tasks s.sync }) := by
  refine ⟨⟨htamed.sync, htamed.todo, htamed.seq, htamed.batch⟩, h.sound, fun mem hmem r hr => ?_⟩
  obtain rfl := Option.some.inj hmem
  refine ⟨.inl ?_, fun x hx t ht hlt => ?_⟩
  · dsimp only
    rw [remember_mem hr]
    rfl
  · dsimp only at hx
    rw [remember_mem hr] at hx
    rw [preload_lastSeen hr] at ht
    have hle : x ≤ t := (h.sound r hr).2 x hx t ht
    omega

theorem next_tracked {s : World × LifeCall} (h : Tracked s) (hmeets : MeetsNext s j) :
    Tracked (next C N order s j) := by
  have htamed : Tamed (next C N order s j).2 := next_tamed h.tamed
  obtain ⟨w, s⟩ := s
  rw [next] at htamed ⊢
  dsimp only at htamed ⊢
  cases hmem : s.call.memory with
  | none => exact preload_tracked h h.tamed
  | some mem =>
    rw [hmem] at htamed
    dsimp only at htamed ⊢
    have hmemory : ∀ mem', s.call.memory = some mem' → ∃ mem, s.call.memory = some mem ∧
      ∀ id, lastSeenOf mem' id = lastSeenOf mem id :=
      fun mem' hmem' => ⟨mem', hmem', fun _ => rfl⟩
    split
    · next hdone =>
      have hidle := not_pending_of_done hdone
      rw [if_pos hdone] at htamed
      cases htasks : s.tasks with
      | nil => exact h
      | cons task tasks =>
        rw [htasks] at htamed
        cases task with
        | job job =>
          exact h.frame htamed h.sound (sameDates_same rfl) rfl rfl
            (fun mem' hmem' => ⟨mem', hmem.trans hmem',
            fun _ => rfl⟩) hidle
        | deprecateStale =>
          have hsubnets : AllSound { w with
              subnets := w.subnets.amendWhere (·.id ∈ staleSubnetIds s.sync mem)
                SubnetDiscovery.Subnet.deprecate
                } := h.sound
          obtain ⟨hfirewalls, hdates⟩ := deprecateFirewalls_sound s.sync hsubnets
          obtain ⟨hinfra, hdates'⟩ := deprecateInfra_sound s.sync hfirewalls
          refine h.frame htamed hinfra (hdates.trans hdates') rfl rfl (fun mem' hmem' => ?_) hidle
          refine ⟨mem, hmem, fun id => ?_⟩
          obtain rfl := Option.some.inj hmem'
          rfl
        | autoQuarantine =>
          dsimp only at htamed ⊢
          cases hsighted : s.sighted with
          | nil =>
            rw [hsighted] at htamed
            exact h.frame htamed h.sound (sameDates_same rfl) rfl rfl hmemory hidle
          | cons pair sighted =>
            rw [hsighted] at htamed
            obtain ⟨hsound, hdates⟩ := autoQuarantine_sound s.sync pair h.sound
            exact h.frame htamed hsound hdates rfl rfl hmemory hidle
    · exact statement_tracked hmem h hmeets

theorem sync_sound {c : SyncCall} {schedule : List Nat} (hw : AllSound w)
    (h : Along (next C N order) MeetsNext (w, .start c) schedule) :
    AllSound (syncDhcpSubnets C N order c schedule w) := by
  have hstart : Tracked (w, .start c) := ⟨start_tamed c, hw, fun mem hmem => by cases hmem⟩
  exact (foldl_invariant (fun _ _ hs hnext => next_tracked hs hnext) hstart h).sound

end Gateway

section Memories

variable {α : Type} {R : α → Asset → Prop} {w w' : World} {known : List (Known α)}

/-- Each asset in the memory of a run is there once, is still in the table,
and its row is related to what the run remembers of it. -/
structure Knows (R : α → Asset → Prop) (w : World) (known : List (Known α)) : Prop where
  nodup : (known.map (·.id)).Nodup
  row : ∀ k ∈ known, ∃ r ∈ w.assets.rows, r.id = k.id ∧ R k.used r.data

theorem Knows.same (h : Knows R w known) (hw : w'.assets = w.assets) : Knows R w' known := by
  refine ⟨h.nodup, ?_⟩
  rw [hw]
  exact h.row

theorem Knows.append {a : Asset} {k : Known α} (h : Knows R w known) (hw : w'.assets = w.assets.append a)
    (hid : k.id = w.assets.nextId)
    (hk : R k.used a) : Knows R w' (known ++ [k]) := by
  refine ⟨?_, ?_⟩
  · rw [List.map_append, List.nodup_append]
    refine ⟨h.nodup, List.nodup_singleton _, fun i hi i' hi' heq => ?_⟩
    obtain ⟨k', hk', rfl⟩ := List.mem_map.mp hi
    have hnew : k'.id = w.assets.nextId := (heq.trans (List.mem_singleton.mp hi')).trans hid
    obtain ⟨r, hr, hrow, -⟩ := h.row k' hk'
    have hlt := w.assets.ids_lt r hr
    omega
  · rw [hw]
    intro k' hk'
    obtain hk' | hk' := List.mem_append.mp hk'
    · obtain ⟨r, hr, hrow⟩ := h.row k' hk'
      exact ⟨r, mem_append.mpr (.inl hr), hrow⟩
    · obtain rfl := List.mem_singleton.mp hk'
      exact ⟨_, mem_append.mpr (.inr rfl), hid.symm, hk⟩

theorem Knows.amend {f : Asset → Asset} {k : Known α} (h : Knows R w known) (hk : k ∈ known)
    (hw : w'.assets = w.assets.amendWhere (·.id = k.id) f) (hf : ∀ a, R k.used a → R k.used (f a)) :
    Knows R w' known := by
  refine ⟨h.nodup, ?_⟩
  rw [hw]
  intro k' hk'
  obtain ⟨r, hr, hid, hrow⟩ := h.row k' hk'
  refine ⟨_, mem_amendWhere.mpr ⟨r, hr, rfl⟩, (amend_id _ f r).trans hid, ?_⟩
  cases hp : decide (r.id = k.id) with
  | true =>
    rw [amend_of_pos (r := r) hp]
    have hrid : r.id = k.id := of_decide_eq_true hp
    obtain rfl := List.inj_on_of_nodup_map h.nodup hk' hk (hid.symm.trans hrid)
    exact hf r.data hrow
  | false =>
    rw [amend_of_neg (r := r) hp]
    exact hrow

theorem Knows.of_mem {k : Known α} {r : Row Asset} (h : Knows R w known) (hk : k ∈ known)
    (hr : r ∈ w.assets.rows)
    (hid : r.id = k.id) :
    R k.used r.data := by
  obtain ⟨r', hr', hid', hrow⟩ := h.row k hk
  exact eq_of_id hr hr' (hid.trans hid'.symm) ▸ hrow

theorem knows_start {rows : List (Row DirectoryTables.AssetRow)} {f : Row DirectoryTables.AssetRow → Known α}
    (hrows : rows.Perm w.directory.assets.rows) (hid : ∀ r, (f r).id = r.id)
    (hR : ∀ r ∈ w.assets.rows, R (f ⟨r.id, r.data.toDirectoryRow⟩).used r.data) : Knows R w (rows.map f) := by
  refine ⟨?_, fun k hk => ?_⟩
  · rw [List.map_map, show (fun k : Known α => k.id) ∘ f = fun r => r.id from funext hid]
    exact (hrows.map _).nodup_iff.mpr w.directory.assets.ids_nodup
  · obtain ⟨r, hr, rfl⟩ := List.mem_map.mp hk
    obtain ⟨row, hrow, rfl⟩ := List.mem_map.mp (hrows.subset hr)
    exact ⟨row, hrow, (hid ⟨row.id, row.data.toDirectoryRow⟩).symm, hR row hrow⟩

end Memories

section Directories

variable {env : Env} {c : DirectoryTables.Sync} {w : World}

/-- No row is acquired later than a run remembers. -/
def Earlier (known row : Option Nat) : Prop := ∀ y ∈ known, ∀ x ∈ row, x ≤ y

def EntraKnows (a : DirectorySync.EntraSubject) (row : Asset) : Prop := Earlier a.acquiredAt row.acquiredAt

theorem dateless {date known : Option Nat} (h : (date.filter fun x => known.all fun y => x < y) = none)
    (hknown : known = none) :
    date = none := by
  cases date with
  | none => rfl
  | some x =>
    rw [hknown] at h
    cases h

theorem clamp_earlier {date seen known knownSeen row : Option Nat} (h : Earlier known row) :
    Earlier known
      ((clampAcquiredToLastSeen (date.filter fun x => known.all fun y => x < y) seen known knownSeen).or
        row) := by
  intro y hy x hx
  obtain hx | ⟨-, hx⟩ := Option.or_eq_some_iff.mp hx
  · obtain ⟨z, hz, hle⟩ := clamp_le_acquired hx
    obtain hz | ⟨-, hz⟩ := Option.or_eq_some_iff.mp hz
    · obtain ⟨-, hall⟩ := Option.filter_eq_some_iff.mp hz
      rw [hy] at hall
      have hlt : z < y := of_decide_eq_true hall
      omega
    · have hzy : z = y := Option.some.inj (hz.symm.trans hy)
      omega
  · exact h y hy x hx

theorem entraRow_sound {dev : EntraDevice} {a : DirectorySync.EntraSubject} {p : DirectoryTables.Projected}
    {row : Asset}
    (hknows : EntraKnows a row)
    (hdates : dev.registrationDateTime = none → a.acquiredAt = none →
      ∀ x ∈ row.acquiredAt, ∀ t ∈ (entraLastSeen dev).or a.lastSeen, x ≤ t) :
      Sound (entraRow env.casing c dev a p row) := by
  refine ⟨clampMonitored_retired row.monitored, fun x hx t ht => ?_⟩
  have ht : t ∈ (entraLastSeen dev).or a.lastSeen := ht
  have hx : x ∈ (clampAcquiredToLastSeen
    (dev.registrationDateTime.filter fun x => a.acquiredAt.all fun y => x < y)
    ((entraLastSeen dev).or a.lastSeen) a.acquiredAt none).or row.acquiredAt := hx
  obtain hx | ⟨hnone, hx⟩ := Option.or_eq_some_iff.mp hx
  · refine clamp_le_seen hx t ?_
    rw [Option.or_none]
    exact ht
  · obtain ⟨hdate, hknown⟩ := le_of_clamp_none hnone
    rw [Option.or_none] at hknown
    cases hacquired : a.acquiredAt with
    | none => exact hdates (dateless hdate hacquired) hacquired x hx t ht
    | some y => exact (hknows y hacquired x hx).trans (hknown y hacquired t ht)

theorem mem_of_bind_findKnown {known : List (Known α)} {key : Option Nat} {k : Known α}
    (h : key.bind (DirectoryTables.findKnown known) = some k) : k ∈ known := by
  obtain ⟨i, -, hfind⟩ := Option.bind_eq_some_iff.mp h
  exact List.mem_of_find?_eq_some hfind

theorem entraTarget_mem {mem : EntraMemory} {dev : EntraDevice} {id : Nat} {a : DirectorySync.EntraSubject}
    (h : ((entra env.casing c).look mem dev).target dev = some (id, a)) :
    ∃ k ∈ mem.assets, k.id = id ∧ k.used = a := by
  change (DirectorySync.lookEntra env.casing dev mem).target dev = some (id, a) at h
  rw [DirectorySync.lookEntra] at h
  split at h
  · cases h
  split at h
  · next k hmatch =>
    cases h
    refine ⟨k, ?_, rfl, rfl⟩
    obtain h | ⟨-, h⟩ := Option.or_eq_some_iff.mp hmatch
    · exact mem_of_bind_findKnown h
    · obtain h | ⟨-, h⟩ := Option.or_eq_some_iff.mp h
      · split at h
        · cases h
        · exact mem_of_bind_findKnown h
      · split at h
        · cases h
        · exact mem_of_bind_findKnown h
  split at h
  · cases h
  split at h
  · next k hdup =>
    obtain ⟨dup, -, hfind⟩ := Option.bind_eq_some_iff.mp hdup
    rw [DirectorySync.EntraFound.target] at h
    split at h
    · cases h
      exact ⟨k, List.mem_of_find?_eq_some hfind, rfl, rfl⟩
    · cases h
  · cases h

theorem adTarget_mem {mem : AdMemory} {dev : AdDevice} {id : Nat} {a : AdSubject}
    (h : (activeDirectory env.casing c).look mem dev = .existing id a) :
    ∃ k ∈ mem.assets, k.id = id ∧ k.used = a := by
  change DirectorySync.lookAd env.casing dev mem = .existing id a at h
  rw [DirectorySync.lookAd] at h
  dsimp only at h
  split at h
  · cases h
  split at h
  · next k hmatch =>
    cases h
    refine ⟨k, ?_, rfl, rfl⟩
    obtain h | ⟨-, h⟩ := Option.or_eq_some_iff.mp hmatch
    · exact mem_of_bind_findKnown h
    · split at h
      · cases h
      · exact mem_of_bind_findKnown h
  split at h
  · cases h
  · cases h
  · cases h

theorem foldl_assets {μ β γ : Type} {f : μ → β → μ} {assets : μ → γ} (hf : ∀ m b, assets (f m b) = assets m)
    (bs : List β) (m : μ) :
    assets (bs.foldl f m) = assets m := by
  induction bs generalizing m with
  | nil => rfl
  | cons b bs ih => exact (ih (f m b)).trans (hf m b)

theorem indexEntraSource_assets (mem : EntraMemory) (s : Source) :
    (DirectorySync.indexEntraSource env.casing mem s).assets = mem.assets := by
  rw [DirectorySync.indexEntraSource]
  dsimp only
  split
  · rfl
  · rfl
  · rfl
  · rfl

theorem indexEntraAsset_assets (sources : List Source) (mem : EntraMemory)
    (r : Row DirectoryTables.AssetRow × List ConflictResolution.MacEntry) :
    (DirectorySync.indexEntraAsset env.casing sources mem r).assets = mem.assets := rfl

theorem indexAdSource_assets (mem : AdMemory)
    (s : Source) : (DirectorySync.indexAdSource env.casing mem s).assets = mem.assets := by
  rw [DirectorySync.indexAdSource]
  dsimp only
  split
  · rfl
  · rfl
  · rfl

theorem indexAdAsset_assets (sources : List Source) (mem : AdMemory) (r : Row DirectoryTables.AssetRow) :
    (DirectorySync.indexAdAsset env.casing sources mem r).assets = mem.assets := by
  rw [DirectorySync.indexAdAsset]
  split
  · rfl
  split
  · rfl
  split
  · rfl
  · rfl

theorem loadEntra_assets (db : DirectoryTables.Db) : (DirectorySync.loadEntra env.casing c db).assets =
    (c.listing db.assets.rows).map fun r =>
      DirectorySync.knownEntra r.id r.data (GatewaySync.shapeMacRows r.id db.macRows) := by
  rw [DirectorySync.loadEntra]
  refine (foldl_assets (indexEntraAsset_assets _) _ _).trans
    ((foldl_assets indexEntraSource_assets _ _).trans ?_)
  exact List.map_map

theorem loadAd_assets (db : DirectoryTables.Db) : (DirectorySync.loadAd env.casing c db).assets =
    (c.listing db.assets.rows).map fun r => DirectorySync.knownAd r.id r.data :=
  (foldl_assets (indexAdAsset_assets _) _ _).trans (foldl_assets indexAdSource_assets _ _)

/-- Every asset is sound, and a run knows the rows it remembers. -/
structure EntraTracked (s : World × EntraMemory) : Prop where
  sound : AllSound s.1
  knows : Knows EntraKnows s.1 s.2.assets

theorem entra_start (hw : AllSound w) (hlisting : ∀ rows, (c.listing rows).Perm rows) :
    EntraTracked ((entra env.casing c).start w) := by
  refine ⟨hw, ?_⟩
  change Knows EntraKnows w (DirectorySync.loadEntra env.casing c w.directory).assets
  rw [loadEntra_assets]
  refine knows_start (hlisting _) (fun _ => rfl) fun r _ y hy x hx => ?_
  exact (Option.some.inj (hx.symm.trans hy)).le

theorem stampEntra_knows {known : List (Known DirectorySync.EntraSubject)}
    {f : Known DirectorySync.EntraSubject → Known DirectorySync.EntraSubject}
    (h : Knows EntraKnows w known) (hid : ∀ k, (f k).id = k.id)
    (hf : ∀ k, (f k).used.acquiredAt = k.used.acquiredAt) :
    Knows EntraKnows w (known.map f) := by
  refine ⟨?_, fun k hk => ?_⟩
  · rw [List.map_map, show (fun k : Known DirectorySync.EntraSubject => k.id) ∘ f =
      fun k => k.id from funext hid]
    exact h.nodup
  · obtain ⟨k', hk', rfl⟩ := List.mem_map.mp hk
    obtain ⟨r, hr, hrid, hrow⟩ := h.row k' hk'
    refine ⟨r, hr, hrid.trans (hid k').symm, ?_⟩
    rw [EntraKnows, hf]
    exact hrow

theorem patchEntra_assets {db : DirectoryTables.Db} {mem : EntraMemory} {dev : EntraDevice}
    {found : DirectorySync.EntraFound}
    (h : found ≠ .unknown) : ∃ f : Known DirectorySync.EntraSubject → Known DirectorySync.EntraSubject,
      (∀ k, (f k).id = k.id) ∧ (∀ k, (f k).used.acquiredAt = k.used.acquiredAt) ∧
        (DirectorySync.patchEntra env.casing c db dev mem found).assets = mem.assets.map f := by
  have hstamp (id : Nat) : ∃ f : Known DirectorySync.EntraSubject → Known DirectorySync.EntraSubject,
      (∀ k, (f k).id = k.id) ∧ (∀ k, (f k).used.acquiredAt = k.used.acquiredAt) ∧
        (DirectorySync.stampEntra env.casing c dev mem id).assets = mem.assets.map f := by
    refine ⟨_, fun k => ?_, fun k => ?_, rfl⟩
    · split
      · rfl
      · rfl
    · split
      · rfl
      · rfl
  have hsame : ∃ f : Known DirectorySync.EntraSubject → Known DirectorySync.EntraSubject,
      (∀ k, (f k).id = k.id) ∧ (∀ k, (f k).used.acquiredAt = k.used.acquiredAt) ∧
        mem.assets = mem.assets.map f :=
    ⟨id, fun _ => rfl, fun _ => rfl, (List.map_id _).symm⟩
  cases found with
  | unknown => exact absurd rfl h
  | noId | untagged => exact hsame
  | existing id a untagged sibling => exact hstamp id
  | duplicate id a existingEntraId =>
    rw [DirectorySync.patchEntra]
    split
    · exact hstamp id
    · exact hsame

theorem newEntra_sound {dev : EntraDevice} :
    Sound { toDirectoryRow := DirectorySync.newEntra env.casing c dev } := by
  refine ⟨fun _ => rfl, fun x hx t ht => clamp_le_seen hx t ?_⟩
  rw [Option.or_none]
  exact ht

theorem entra_tracked {s : World × EntraMemory} {dev : EntraDevice} (h : EntraTracked s)
    (hmeets : MeetsEntra env c s dev) :
    EntraTracked ((entra env.casing c).step s dev) := by
  obtain ⟨hunknown, hassets⟩ | ⟨id, a, p, htarget, hassets⟩ | ⟨hunknown, hassets⟩ :=
    @entra_assets env.casing c s.1 dev
    ((entra env.casing c).look s.2 dev)
  · obtain ⟨f, hid, hf, hpatch⟩ := @patchEntra_assets env c s.1.directory s.2 dev _ hunknown
    refine ⟨allSound_same hassets h.sound, ?_⟩
    have hknows := stampEntra_knows (h.knows.same hassets) hid hf
    rw [← hpatch] at hknows
    exact hknows
  · have hunknown : (entra env.casing c).look s.2 dev ≠ .unknown := by
      intro heq
      rw [heq] at htarget
      cases htarget
    obtain ⟨k, hk, rfl, rfl⟩ := entraTarget_mem htarget
    obtain ⟨f, hid, hf, hpatch⟩ := @patchEntra_assets env c s.1.directory s.2 dev _ hunknown
    refine ⟨allSound_amend hassets h.sound fun r hr hp _ => ?_, ?_⟩
    · have hrid : r.id = k.id := of_decide_eq_true hp
      exact entraRow_sound (h.knows.of_mem hk hr hrid) fun hdate hnone =>
        hmeets _ htarget hdate hnone r hr hrid
    · have hknows := h.knows.amend hk hassets fun row hrow => clamp_earlier hrow
      have hpatched := stampEntra_knows hknows hid hf
      rw [← hpatch] at hpatched
      exact hpatched
  · refine ⟨allSound_append hassets h.sound newEntra_sound, ?_⟩
    change Knows EntraKnows _ (DirectorySync.patchEntra env.casing c s.1.directory dev s.2
      ((entra env.casing c).look s.2 dev)).assets
    rw [hunknown]
    refine h.knows.append hassets rfl fun y hy x hx => ?_
    exact (Option.some.inj (hx.symm.trans hy)).le

/-- No row is acquired later, or seen earlier, than a run remembers. -/
def AdKnows (a : AdSubject) (row : Asset) : Prop :=
  Earlier a.acquiredAt row.acquiredAt ∧ ∀ t ∈ a.lastSeen, ∃ t' ∈ row.lastSeen, t ≤ t'

structure AdTracked (s : World × AdMemory) : Prop where
  sound : AllSound s.1
  knows : Knows AdKnows s.1 s.2.assets

theorem ad_start (hw : AllSound w) (hlisting : ∀ rows, (c.listing rows).Perm rows) :
    AdTracked ((activeDirectory env.casing c).start w) := by
  refine ⟨hw, ?_⟩
  change Knows AdKnows w (DirectorySync.loadAd env.casing c w.directory).assets
  rw [loadAd_assets]
  refine knows_start (hlisting _) (fun _ => rfl) fun r _ => ⟨fun y hy x hx => ?_, fun t ht => ⟨t, ht, le_rfl⟩⟩
  exact (Option.some.inj (hx.symm.trans hy)).le

theorem adRow_sound {dev : AdDevice} {a : AdSubject} {p : DirectoryTables.Projected} {row : Asset}
    (hrow : Sound row) (hknows : AdKnows a row)
    (hlogon : dev.whenCreated = none → a.acquiredAt = none → ∀ x ∈ row.acquiredAt, ∀ t ∈ adLogon dev a, x ≤ t)
    (hcreated : dev.lastLogonTimestamp = none → a.lastSeen = none → ∀ x ∈ adCreated dev a,
      ∀ t ∈ row.lastSeen, x ≤ t) :
    Sound (adRow env.casing c dev a p row) := by
  refine ⟨clampMonitored_retired row.monitored, fun x hx t ht => ?_⟩
  have ht : t ∈ (adLogon dev a).or row.lastSeen := ht
  have hx : x ∈ (clampAcquiredToLastSeen (adCreated dev a) (adLogon dev a) a.acquiredAt a.lastSeen).or
    row.acquiredAt := hx
  obtain hx | ⟨hnone, hx⟩ := Option.or_eq_some_iff.mp hx
  · obtain ht | ⟨hunseen, ht⟩ := Option.or_eq_some_iff.mp ht
    · refine clamp_le_seen hx t ?_
      rw [ht]
      rfl
    · cases hseen : a.lastSeen with
      | some t' =>
        obtain ⟨t'', ht'', hle⟩ := hknows.2 t' hseen
        obtain rfl : t = t'' := Option.some.inj (ht.symm.trans ht'')
        refine (clamp_le_seen hx t' ?_).trans hle
        rw [hunseen, hseen]
        rfl
      | none =>
        have hdate : dev.lastLogonTimestamp = none := by
          cases hlast : dev.lastLogonTimestamp with
          | none => rfl
          | some logon =>
            rw [adLogon, hlast, hseen] at hunseen
            cases hunseen
        refine hcreated hdate hseen x ?_ t ht
        rw [clampAcquiredToLastSeen, hunseen, hseen] at hx
        split at hx
        · next heq => cases heq
        · exact hx
  · obtain ⟨hdate, hknown⟩ := le_of_clamp_none hnone
    obtain ht | ⟨hunseen, ht⟩ := Option.or_eq_some_iff.mp ht
    · cases hacquired : a.acquiredAt with
      | none => exact hlogon (dateless hdate hacquired) hacquired x hx t ht
      | some y =>
        refine (hknows.1 y hacquired x hx).trans (hknown y hacquired t ?_)
        rw [ht]
        rfl
    · exact hrow.2 x hx t ht

theorem adRow_knows {dev : AdDevice} {a : AdSubject} {p : DirectoryTables.Projected} {row : Asset}
    (h : AdKnows a row) :
    AdKnows a (adRow env.casing c dev a p row) := by
  refine ⟨clamp_earlier h.1, fun t ht => ?_⟩
  change ∃ t' ∈ (adLogon dev a).or row.lastSeen, t ≤ t'
  cases hlogon : adLogon dev a with
  | none => exact h.2 t ht
  | some logon =>
    refine ⟨logon, rfl, ?_⟩
    obtain ⟨-, hall⟩ := Option.filter_eq_some_iff.mp hlogon
    rw [ht] at hall
    have hlt : t < logon := of_decide_eq_true hall
    exact hlt.le

theorem newAd_sound {dev : AdDevice} : Sound { toDirectoryRow := DirectorySync.newAd env.casing c dev } := by
  refine ⟨fun _ => rfl, fun x hx t ht => clamp_le_seen hx t ?_⟩
  rw [Option.or_none]
  exact ht

theorem activeDirectory_tracked {s : World × AdMemory} {dev : AdDevice} (h : AdTracked s)
    (hmeets : MeetsAd env c s dev) :
    AdTracked ((activeDirectory env.casing c).step s dev) := by
  obtain ⟨hunknown, hassets⟩ | ⟨id, a, p, hfound, hassets⟩ | ⟨hunknown, hassets⟩ :=
    @activeDirectory_assets env.casing c s.1 dev
    ((activeDirectory env.casing c).look s.2 dev)
  · refine ⟨allSound_same hassets h.sound, ?_⟩
    have hpatch : (DirectorySync.patchAd env.casing c s.1.directory dev s.2
      ((activeDirectory env.casing c).look s.2 dev)) = s.2 := by
      cases hlook : (activeDirectory env.casing c).look s.2 dev with
      | unknown => exact absurd hlook hunknown
      | noId | existing | untagged | duplicate => rfl
    change Knows AdKnows _ (DirectorySync.patchAd env.casing c s.1.directory dev s.2
      ((activeDirectory env.casing c).look s.2 dev)).assets
    rw [hpatch]
    exact h.knows.same hassets
  · obtain ⟨k, hk, rfl, rfl⟩ := adTarget_mem hfound
    have hmeets := hmeets (k.id, k.used) (by rw [hfound]; rfl)
    refine ⟨allSound_amend hassets h.sound fun r hr hp hsound => ?_, ?_⟩
    · have hrid : r.id = k.id := of_decide_eq_true hp
      exact adRow_sound hsound (h.knows.of_mem hk hr hrid) (hmeets r hr hrid).1 (hmeets r hr hrid).2
    · change Knows AdKnows _ (DirectorySync.patchAd env.casing c s.1.directory dev s.2
        ((activeDirectory env.casing c).look s.2 dev)).assets
      rw [hfound]
      exact h.knows.amend hk hassets fun _ => adRow_knows
  · refine ⟨allSound_append hassets h.sound newAd_sound, ?_⟩
    change Knows AdKnows _ (DirectorySync.patchAd env.casing c s.1.directory dev s.2
      ((activeDirectory env.casing c).look s.2 dev)).assets
    rw [hunknown]
    refine h.knows.append hassets rfl ⟨fun y hy x hx => ?_, fun t ht => ⟨t, ht, le_rfl⟩⟩
    exact (Option.some.inj (hx.symm.trans hy)).le

end Directories

section Runs

variable {env : Env} {N : Package} {order : List Source → List Source} {w : World}

theorem step_sound {op : Op} (hlisting : Listed op) (hw : AllSound w) (h : Meets env N order w op) :
    AllSound (step env N order w op) := by
  cases op with
  | createAsset username input => exact createAsset_sound hw input
  | updateAsset username id input => exact updateAsset_sound hw h
  | bulkMonitor body => exact bulkMonitor_sound hw h
  | importPdf username rows dryRun => exact importPdf_sound hw
  | decommissionStaleAssets run => exact decommissionStaleAssets_sound run hw
  | quarantineAsset id c => exact quarantineAsset_sound c hw
  | releaseQuarantine id c => exact releaseQuarantine_sound c hw
  | syncDhcpSubnets c schedule => exact sync_sound hw h
  | syncEntraDevices c devices =>
    exact (foldl_invariant (fun _ _ hs hdev => entra_tracked hs hdev) (entra_start hw hlisting) h).sound
  | syncActiveDirectoryDevices c devices =>
    exact (foldl_invariant (fun _ _ hs hdev => activeDirectory_tracked hs hdev)
      (ad_start hw hlisting) h).sound

/-- From no assets, every run that meets the condition ends with every asset
sound, and so does each of its parts. -/
theorem all_sound {ops : List Op} (hstart : w.assets.rows = []) (hlisting : ∀ op ∈ ops, Listed op)
    (h : Along (step env N order) (Meets env N order) w ops) : AllSound (ops.foldl (step env N order) w) := by
  have hrun : ∀ (ops : List Op) (w : World), AllSound w → (∀ op ∈ ops, Listed op) →
    Along (step env N order) (Meets env N order) w ops →
      AllSound (ops.foldl (step env N order) w) := by
    intro ops
    induction ops with
    | nil => exact fun _ hw _ _ => hw
    | cons op ops ih =>
      intro w hw hlisting h
      refine ih _ (step_sound (hlisting op List.mem_cons_self) hw h.1) (fun op' hop' => ?_) h.2
      exact hlisting op' (List.mem_cons_of_mem op hop')
  refine hrun ops w (fun r hr => ?_) hlisting h
  rw [hstart] at hr
  exact absurd hr List.not_mem_nil

end Runs

section Examples

def office : Env := { casing := AssetLookup.asciiCasing }

def empty : World := { assets := Table.empty _ }

def lease : SyncCall where
  integration := ⟨"fg", "fortigate", "FG"⟩
  now := 100
  result :=
    { dhcpEntries := [{ device := "fg-1", ipAddress := "10.0.0.5", hostname := "pc",
                        macAddress := "AA:BB:CC:DD:EE:01", type := .dhcpLease }] }
  mode := .skipDeprecation
  quarantineCall _ := { assetId := "0", actor := "system", sightings := [], integrations := [] }

def directory : DirectoryTables.Sync := ⟨"entra", "Entra", 200, fun _ => none, id, id⟩

def added (acquiredAt : Nat) : Op :=
  .createAsset none { hostname := some "pc", serialNumber := some "SN1", acquiredAt := some acquiredAt }

def sync : Op := .syncDhcpSubnets lease (List.replicate 20 0)

def month : List Op :=
  [added 50, sync, .bulkMonitor { ids := [0], monitored := true },
    .syncEntraDevices directory [{ deviceId := "d", displayName := "pc", registrationDateTime := some 300,
                                   approximateLastSignInDateTime := some 200 }],
    .importPdf none [{ serialNumber := some "SN1", status := some "disabled" }] false]

theorem all_sound_month : AllSound (month.foldl (step office Netmask.reference id) empty) := by
  refine all_sound rfl (fun op hop => ?_) (by decide +kernel)
  simp only [month, List.mem_cons, List.not_mem_nil, or_false] at hop
  obtain rfl | rfl | rfl | rfl | rfl := hop
  · trivial
  · trivial
  · trivial
  · exact fun rows => .refl rows
  · trivial

/-- A disabled asset is monitored by a request for many, and a lease is older
than the acquisition that an operator gave. -/
theorem clamps_miss :
    let monitored := [.createAsset none { status := some .disabled },
      .bulkMonitor { ids := [0], monitored := true }]
    let leased := [added 500, sync]
    ((monitored.foldl (step office Netmask.reference id) empty).assets.rows.map fun r => (r.data.status,
      r.data.monitored)) =
        [(.disabled, true)] ∧
      ((leased.foldl (step office Netmask.reference id) empty).assets.rows.map fun r => (r.data.acquiredAt,
        r.data.lastSeen)) =
        [(some 500, some 100)] ∧
      empty.assets.rows = [] ∧ ¬ AllSound (monitored.foldl (step office Netmask.reference id) empty) ∧
      ¬ AllSound (leased.foldl (step office Netmask.reference id) empty) := by
  decide +kernel

end Examples

end Polaris.AssetInvariants
