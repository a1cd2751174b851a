import Mathlib.Data.List.Forall2
import Polaris.Lib.Assoc
import Polaris.SettingsMigration

namespace Polaris.SettingsMigrated

open Polaris.Lib Polaris.Lib.Jobs Polaris.Lib.Runs Polaris.Lib.Store Polaris.SettingsMigration

section Values

variable {o : Fields} {k k' : String} {v w : Json} {s : Fields × Bool} {d : Nat}

theorem get_set (o : Fields) (k k' : String) (v : Json) :
    (o.set k v).get k' = if k' = k then some v else o.get k' := Assoc.get_set o k k' v

theorem get_append (o : Fields) (k k' : String) (v : Json) :
    Fields.get (o ++ [(k, v)]) k' = (o.get k').or (if k = k' then some v else none) := by
  rw [Fields.get, List.find?_append, Fields.get]
  cases o.find? (·.1 = k') with
  | some p => rfl
  | none => by_cases h : k = k' <;> simp [h]

theorem setDefault_get (h : s.1.get k' = some v) : (setDefault k d s).1.get k' = some v := by
  rw [setDefault]
  split
  · rw [get_append, h]
    rfl
  · exact h

theorem setDefault_get_ne (h : k ≠ k') : (setDefault k d s).1.get k' = s.1.get k' := by
  rw [setDefault]
  split
  · rw [get_append, if_neg h, Option.or_none]
  · rfl

theorem setDefault_get_self : (setDefault k d s).1.get k = some ((s.1.get k).getD (.num d)) := by
  rw [setDefault]
  cases h : s.1.get k with
  | none =>
    dsimp only [Option.isNone_none]
    rw [if_pos rfl, get_append, h, if_pos rfl]
    rfl
  | some v => exact h

theorem setDefault_unchanged (h : (setDefault k d s).2 = false) : setDefault k d s = s := by
  rw [setDefault] at h ⊢
  split at h
  next => cases h
  next hk => rw [if_neg hk]

theorem setDefault_of_some (h : (s.1.get k).isSome) : setDefault k d s = s := by
  rw [setDefault, if_neg (by simpa using Option.isSome_iff_ne_none.mp h)]

end Values

section Expansion

variable {k : String} {v : Json} {s : Fields × Bool} {stream other : Stream} {raw : Json} {f : Field}

theorem expandStream_get (h : s.1.get k = some v) : (expandStream s stream).1.get k = some v :=
  setDefault_get (setDefault_get (setDefault_get h))

theorem expandStream_get_ne (hd : stream.detail ≠ k) (hh : stream.hourly ≠ k) (hy : stream.daily ≠ k) :
    (expandStream s stream).1.get k = s.1.get k := by
  rw [expandStream, setDefault_get_ne hy, setDefault_get_ne hh, setDefault_get_ne hd]

theorem expandStream_detail :
    (expandStream s stream).1.get stream.detail =
      some ((s.1.get stream.detail).getD
        (.num ((legacyDays (s.1.get stream.legacy.key)).getD DEFAULT_HOURLY_DAYS : Nat))) :=
  setDefault_get (setDefault_get setDefault_get_self)

/-- All fields of the three tiers are there. -/
def Full (o : Fields) (stream : Stream) : Prop :=
  (o.get stream.detail).isSome ∧ (o.get stream.hourly).isSome ∧ (o.get stream.daily).isSome

theorem expandStream_full : Full (expandStream s stream).1 stream := by
  refine ⟨?_, ?_, ?_⟩
  · rw [expandStream_detail]
    rfl
  · rw [expandStream, setDefault_get setDefault_get_self]
    rfl
  · rw [expandStream, setDefault_get_self]
    rfl

theorem expandStream_mono (h : Full s.1 other) : Full (expandStream s stream).1 other := by
  obtain ⟨hd, hh, hy⟩ := h
  obtain ⟨d, hd⟩ := Option.isSome_iff_exists.mp hd
  obtain ⟨e, hh⟩ := Option.isSome_iff_exists.mp hh
  obtain ⟨y, hy⟩ := Option.isSome_iff_exists.mp hy
  rw [Full, expandStream_get hd, expandStream_get hh, expandStream_get hy]
  exact ⟨rfl, rfl, rfl⟩

theorem expandStream_of_full (h : Full s.1 stream) : expandStream s stream = s := by
  rw [expandStream, setDefault_of_some h.1, setDefault_of_some h.2.1, setDefault_of_some h.2.2]

theorem expandTier_eq (raw : Json) : expandTierRetention raw =
    expandStream (expandStream (expandStream (raw.spread, false) .sample) .telemetry) .systemInfo := by
  rw [expandTierRetention, STREAMS, List.foldl_cons, List.foldl_cons, List.foldl_cons, List.foldl_nil]

theorem spread_obj (o : Fields) : (Json.obj o).spread = o := rfl

theorem expandTier_get (h : raw.spread.get k = some v) : (expandTierRetention raw).1.get k = some v := by
  rw [expandTier_eq]
  exact expandStream_get (expandStream_get (expandStream_get h))

theorem expandTier_full (raw : Json) (stream : Stream) : Full (expandTierRetention raw).1 stream := by
  rw [expandTier_eq]
  cases stream with
  | sample => exact expandStream_mono (expandStream_mono expandStream_full)
  | telemetry => exact expandStream_mono expandStream_full
  | systemInfo => exact expandStream_full

theorem expandTier_of_full (h : ∀ stream, Full raw.spread stream) :
    expandTierRetention raw = (raw.spread, false) := by
  have hkept : ∀ stream, expandStream (raw.spread, false) stream = (raw.spread, false) :=
    fun stream => expandStream_of_full (h stream)
  rw [expandTier_eq, hkept, hkept, hkept]

theorem expandTier_again (raw : Json) :
    expandTierRetention (.obj (expandTierRetention raw).1) = ((expandTierRetention raw).1, false) := by
  rw [expandTier_of_full, spread_obj]
  intro stream
  rw [spread_obj]
  exact expandTier_full raw stream

theorem expandTier_expanded (raw : Json) :
    (expandTierRetention (.obj (expandTierRetention raw).1)).2 = false := by
  rw [expandTier_again]

theorem expandStream_other (hne : other ≠ stream) (s : Fields × Bool) :
    (expandStream s other).1.get stream.detail = s.1.get stream.detail ∧
      (expandStream s other).1.get stream.legacy.key = s.1.get stream.legacy.key := by
  constructor
  · apply expandStream_get_ne <;> cases other <;> cases stream <;> first | exact absurd rfl hne | decide
  · apply expandStream_get_ne <;> cases other <;> cases stream <;> decide

/-- The detail retention is the one there was, else the legacy one. -/
theorem expandTier_detail (raw : Json) (stream : Stream) :
    (expandTierRetention raw).1.get stream.detail =
      some ((raw.get stream.detail).getD
        (.num ((legacyDays (raw.get stream.legacy.key)).getD DEFAULT_HOURLY_DAYS : Nat))) := by
  rw [expandTier_eq, Json.get, Json.get]
  generalize raw.spread = o
  cases stream with
  | sample =>
    rw [(expandStream_other (by decide) _).1, (expandStream_other (by decide) _).1, expandStream_detail]
  | telemetry =>
    rw [(expandStream_other (by decide) _).1, expandStream_detail, (expandStream_other (by decide) _).1,
      (expandStream_other (by decide) _).2]
  | systemInfo =>
    rw [expandStream_detail, (expandStream_other (by decide) _).1, (expandStream_other (by decide) _).2,
      (expandStream_other (by decide) _).1, (expandStream_other (by decide) _).2]

variable {tier : TierShape} {m : Json}

/-- A stored tier holds every value of a tier as a number. -/
def Carries (tier : TierShape) (m : Json) : Prop := ∀ f : Field, m.get f.key = some (.num (tier f))

theorem carries_tierJson (tier : TierShape) : Carries tier (tierJson tier) := by
  intro f
  cases f <;> rfl

theorem get_obj (o : Fields) (k : String) : (Json.obj o).get k = o.get k := rfl

theorem Carries.expand (h : Carries tier m) : Carries tier (.obj (expandTierRetention m).1) := by
  intro f
  rw [get_obj]
  exact expandTier_get (h f)

theorem legacyDays_num (n : Nat) : legacyDays (some (.num n)) = some n := by
  rw [legacyDays, if_pos (Nat.cast_nonneg n), Int.floor_natCast, Int.toNat_natCast]

theorem tierJson_detail (tier : TierShape) (stream : Stream) :
    (Json.obj (expandTierRetention (tierJson tier)).1).get stream.detail =
      some (.num (tier stream.legacy)) := by
  have hnone : (tierJson tier).get stream.detail = none := by cases stream <;> rfl
  rw [get_obj, expandTier_detail, hnone, carries_tierJson tier stream.legacy, legacyDays_num]
  rfl

end Expansion

section Configs

variable {top : TierShape} {i j : Integration} {config : Json}

def settingsOf (i : Integration) : Option Json := (configFields i.config).get "monitorSettings"

def seeded (top : TierShape) (i : Integration) : Integration :=
  match seedConfig top i with
  | none => i
  | some config => setConfig config i

def expanded (i : Integration) : Integration :=
  match expandConfig i with
  | none => i
  | some config => setConfig config i

theorem settingsOf_set (o : Fields) (v : Json) (i : Integration) :
    settingsOf (setConfig (.obj (o.set "monitorSettings" v)) i) = some v := by
  change (o.set "monitorSettings" v).get "monitorSettings" = _
  rw [get_set, if_pos rfl]

theorem ownSettings_iff : ownSettings i.config = true ↔ ∃ v, settingsOf i = some v ∧ v.truthy = true := by
  rw [ownSettings, settingsOf]
  cases (configFields i.config).get "monitorSettings" with
  | none => simp
  | some v => simp

theorem seedConfig_none : seedConfig top i = none ↔ ownSettings i.config = true := by
  rw [seedConfig]
  split
  next h => exact iff_of_true rfl h
  next h => exact iff_of_false nofun h

theorem seeded_settings (h : seedConfig top i = some config) :
    settingsOf (setConfig config i) = some (tierJson top) := by
  rw [seedConfig] at h
  split at h
  next => cases h
  next =>
    cases h
    exact settingsOf_set ..

theorem seedConfig_setConfig (config : Json) (i : Integration) (h : seedConfig top i = some config) :
    seedConfig top (setConfig config i) = none :=
  seedConfig_none.mpr (ownSettings_iff.mpr ⟨_, seeded_settings h, rfl⟩)

theorem expandConfig_some (h : expandConfig i = some config) :
    ∃ ms, settingsOf i = some ms ∧ ms.isObject = true ∧
      settingsOf (setConfig config i) = some (.obj (expandTierRetention ms).1) := by
  rw [expandConfig] at h
  split at h
  next =>
    split at h
    next => cases h
    next ms hms =>
      split at h
      next hchanged =>
        cases h
        exact ⟨ms, hms, hchanged.1, settingsOf_set ..⟩
      next => cases h
  next => cases h

theorem expandConfig_setConfig (i : Integration) (config : Json) (h : expandConfig i = some config) :
    expandConfig (setConfig config i) = none := by
  obtain ⟨ms, -, -, hset⟩ := expandConfig_some h
  rw [expandConfig]
  split
  next =>
    rw [settingsOf] at hset
    rw [hset]
    dsimp only
    rw [if_neg]
    rintro ⟨-, hchanged⟩
    rw [expandTier_expanded] at hchanged
    cases hchanged
  next => rfl

theorem own_setConfig (h : expandConfig i = some config) :
    ownSettings (setConfig config i).config = true := by
  obtain ⟨ms, -, -, hset⟩ := expandConfig_some h
  exact ownSettings_iff.mpr ⟨_, hset, rfl⟩

theorem seeded_id (i : Integration) : (seeded top i).id = i.id ∧ (seeded top i).type = i.type := by
  rw [seeded]
  split <;> exact ⟨rfl, rfl⟩

theorem expanded_id (i : Integration) : (expanded i).id = i.id ∧ (expanded i).type = i.type := by
  rw [expanded]
  split <;> exact ⟨rfl, rfl⟩

theorem seedConfig_seeded (top : TierShape) (i : Integration) : seedConfig top (seeded top i) = none := by
  rw [seeded]
  split
  next h => exact h
  next config h => exact seedConfig_setConfig config i h

theorem expandConfig_expanded (i : Integration) : expandConfig (expanded i) = none := by
  rw [expanded]
  split
  next h => exact h
  next config h => exact expandConfig_setConfig i config h

theorem seedConfig_expanded (h : seedConfig top i = none) : seedConfig top (expanded i) = none := by
  rw [expanded]
  split
  next => exact h
  next config hexpand => exact seedConfig_none.mpr (own_setConfig hexpand)

/-- How far an integration has come: as it was, seeded, or expanded too. -/
def Evolved (top : TierShape) (i j : Integration) : Prop :=
  j = i ∨ j = seeded top i ∨ j = expanded (seeded top i)

theorem Evolved.id (h : Evolved top i j) : j.id = i.id ∧ j.type = i.type := by
  obtain rfl | rfl | rfl := h
  · exact ⟨rfl, rfl⟩
  · exact seeded_id i
  · exact ⟨(expanded_id _).1.trans (seeded_id i).1, (expanded_id _).2.trans (seeded_id i).2⟩

theorem Evolved.seed (h : Evolved top i j) (hseed : seedConfig top j = some config) :
    setConfig config j = seeded top i := by
  obtain rfl | rfl | rfl := h
  · rw [seeded, hseed]
  · rw [seedConfig_seeded] at hseed
    cases hseed
  · rw [seedConfig_expanded (seedConfig_seeded top i)] at hseed
    cases hseed

theorem Evolved.ofSeeded (h : Evolved top i j) (hseed : seedConfig top j = none) :
    j = seeded top i ∨ j = expanded (seeded top i) := by
  obtain rfl | h := h
  · exact .inl (by rw [seeded, hseed])
  · exact h

theorem Evolved.expand (h : Evolved top i j) (hseed : seedConfig top j = none)
    (hexpand : expandConfig j = some config) : setConfig config j = expanded (seeded top i) := by
  obtain rfl | rfl := h.ofSeeded hseed
  · rw [expanded, hexpand]
  · rw [expandConfig_expanded] at hexpand
    cases hexpand

theorem Evolved.done (h : Evolved top i j) (hseed : seedConfig top j = none)
    (hexpand : expandConfig j = none) :
    j = expanded (seeded top i) := by
  obtain rfl | rfl := h.ofSeeded hseed
  · rw [expanded, hexpand]
  · rfl

variable {top : TierShape} {initial rows : List Integration}

theorem evolved_ids (h : List.Forall₂ (Evolved top) initial rows) :
    rows.map Integration.id = initial.map Integration.id := by
  induction h with
  | nil => rfl
  | cons hij _ ih => rw [List.map_cons, List.map_cons, ih, hij.id.1]

theorem evolved_replace (h : List.Forall₂ (Evolved top) initial rows)
    (hnodup : (rows.map Integration.id).Nodup)
    (hj : j ∈ rows) (hnew : ∀ i, Evolved top i j → Evolved top i (setConfig config j)) :
    List.Forall₂ (Evolved top) initial (replace Integration.id setConfig j config rows) := by
  rw [replace, List.forall₂_map_right_iff]
  have hmem : List.Forall₂ (fun i x => Evolved top i x ∧ x ∈ rows) initial rows := by
    rw [List.forall₂_iff_get] at h ⊢
    exact ⟨h.1, fun k hk hk' => ⟨h.2 k hk hk', List.get_mem _ _⟩⟩
  refine hmem.imp fun i x hx => ?_
  split
  next hid =>
    obtain rfl := List.inj_on_of_nodup_map hnodup hx.2 hj hid
    exact hnew i hx.1
  next => exact hx.1

theorem forall_replace {P : Integration → Prop} (h : ∀ x ∈ rows, P x)
    (hnodup : (rows.map Integration.id).Nodup)
    (hj : j ∈ rows) (hnew : P (setConfig config j)) :
    ∀ x ∈ replace Integration.id setConfig j config rows, P x := by
  intro x hx
  obtain ⟨y, hy, rfl⟩ := List.mem_map.mp hx
  split
  next hid =>
    obtain rfl := List.inj_on_of_nodup_map hnodup hy hj hid
    exact hnew
  next => exact h y hy

end Configs

section Invariant

variable (Number : Json → Option Rat) (legacy : Json) (initial : List Integration)

/-- A class whose block differs from the top level somewhere. -/
def Differs (kind : AssetClass) : Prop := ∃ f ∈ Field.all, (classOverride Number legacy kind f).isSome

def retained (tier : Field → Option Nat) : Stream → Option Nat := fun s => tier s.legacy

structure OverrideOk (o : ClassOverride) : Prop where
  fortinet : ∃ i ∈ initial, isFortinet i = true ∧ i.id = o.integrationId
  differs : Differs Number legacy o.assetType
  tier : o.tier = classOverride Number legacy o.assetType
  detail : (∀ s, o.detail s = none) ∨ o.detail = retained o.tier

structure Seeded (db : Db) : Prop where
  manual : db.manualMonitorSettings.isSome
  integrations : ∀ j ∈ db.integrations, seedConfig (topLevel Number legacy) j = none
  overrides : ∀ kind, Differs Number legacy kind → ∀ i ∈ initial, isFortinet i = true →
    hasOverride db i.id kind = true

structure Expanded (db : Db) : Prop where
  manual : ∀ m ∈ db.manualMonitorSettings, (expandTierRetention m).2 = false
  integrations : ∀ j ∈ db.integrations, expandConfig j = none
  overrides : ∀ r ∈ db.overrides.rows, detailData r = none

/-- What holds of the store at any point of any start. -/
structure Inv (db : Db) : Prop where
  document : ∀ l ∈ db.monitorSettings, l = legacy
  manual : ∀ m ∈ db.manualMonitorSettings, m = tierJson (topLevel Number legacy) ∨
    m = .obj (expandTierRetention (tierJson (topLevel Number legacy))).1
  integrations : List.Forall₂ (Evolved (topLevel Number legacy)) initial db.integrations
  overrides : ∀ r ∈ db.overrides.rows, OverrideOk Number legacy initial r.data
  single : ∀ a ∈ db.overrides.rows, ∀ b ∈ db.overrides.rows, a.data.integrationId = b.data.integrationId →
    a.data.assetType = b.data.assetType → a = b
  seeded : db.monitorSettings = none → Seeded Number legacy initial db
  marked : db.hierarchyMigratedAt.isSome → db.monitorSettings = none
  expanded : db.retentionMigratedAt.isSome → db.monitorSettings = none ∧ Expanded db

/-- The hierarchy job has not deleted the row yet. -/
structure Before (db : Db) : Prop where
  inv : Inv Number legacy initial db
  there : db.monitorSettings = some legacy

def LegacyGone (db : Db) : Prop := db.monitorSettings = none

instance : DecidablePred LegacyGone := fun db =>
    decidable_of_iff (db.monitorSettings.isNone = true) Option.isNone_iff_eq_none

def HierarchyDone (db : Db) : Prop := db.hierarchyMigratedAt.isSome = true

def RetentionDone (db : Db) : Prop := db.retentionMigratedAt.isSome = true

/-- What the retention job may do while the hierarchy job is under way. -/
structure ByRetention (s t : Db) : Prop where
  still : s.monitorSettings ≠ none → t = s
  gone : s.monitorSettings = none → t.monitorSettings = none
  marker : HierarchyDone s → HierarchyDone t

/-- What the hierarchy job may do while the retention job is under way. -/
structure ByHierarchy (s t : Db) : Prop where
  still : s.monitorSettings = none → ∃ marker, t = { s with hierarchyMigratedAt := marker }
  marker : RetentionDone s → RetentionDone t

variable {Number legacy initial} {s t u : Db}

theorem ByRetention.refl (s : Db) : ByRetention s s := ⟨fun _ => rfl, fun h => h, fun h => h⟩

theorem ByHierarchy.refl (s : Db) : ByHierarchy s s := ⟨fun _ => ⟨_, rfl⟩, fun h => h⟩

theorem ByRetention.trans (h : ByRetention s t) (h' : ByRetention t u) : ByRetention s u := by
  refine ⟨fun hs => ?_, fun hs => h'.gone (h.gone hs), fun hs => h'.marker (h.marker hs)⟩
  have hst := h.still hs
  rw [h'.still (hst ▸ hs), hst]

theorem ByHierarchy.trans (h : ByHierarchy s t) (h' : ByHierarchy t u) : ByHierarchy s u := by
  refine ⟨fun hs => ?_, fun hs => h'.marker (h.marker hs)⟩
  obtain ⟨m, rfl⟩ := h.still hs
  obtain ⟨m', rfl⟩ := h'.still hs
  exact ⟨m', rfl⟩

theorem Before.unmarked (h : Before Number legacy initial s) : ¬ RetentionDone s := by
  intro hm
  have hgone := (h.inv.expanded hm).1
  rw [h.there] at hgone
  cases hgone

end Invariant

end Polaris.SettingsMigrated
