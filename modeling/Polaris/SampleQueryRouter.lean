import Polaris.SampleRetentionService

namespace Polaris.SampleQueryRouter

open Polaris.SettingsMigration Polaris.SampleRetentionService

section Router

inductive SampleTier
  | detail | hourly | daily
  deriving DecidableEq

structure TierRetention where
  detailDays : Nat
  hourlyDays : Nat
  deriving DecidableEq

structure TierPick where
  tier : SampleTier
  bucketSeconds : Nat
  deriving DecidableEq

def SECONDS_PER_DAY : Int := 86400

def pickSampleTier (now since : Int) (retention : TierRetention) : TierPick :=
  let detailCutoffMs := now - retention.detailDays * SECONDS_PER_DAY * 1000
  let hourlyCutoffMs := now - retention.hourlyDays * SECONDS_PER_DAY * 1000
  if since ≥ detailCutoffMs then ⟨.detail, 0⟩
  else if since ≥ hourlyCutoffMs then ⟨.hourly, 3600⟩
  else ⟨.daily, SECONDS_PER_DAY.toNat⟩

/-- The windows that hold for the asset, whose row may be gone. -/
def windows (retention : SampleRetention) (stream : RetentionStream) (assetType : Option String) :
    TierRetention :=
  let klass := pickClassForAssetType assetType
  ⟨(retention.get stream).detail.get klass, (retention.get stream).hourly.get klass⟩

variable (Number : Json → Option Rat) (assets : String → Option String)

/-- The retention is read first, and the route is picked at `now`. -/
def pickSampleTierForAsset (readAt now : Int) (s : Store) (assetId : String) (stream : RetentionStream)
    (since : Int) : TierPick × Store :=
  let (retention, s) := getSampleRetention Number readAt s
  (pickSampleTier now since (windows retention stream (assets assetId)), s)

end Router

section Spec

variable (now since : Int) (r : TierRetention)

/-- The finest tier that still holds what was sampled at `since`. -/
def finestTier : SampleTier :=
  if Held r.detailDays now since then .detail
  else if Held r.hourlyDays now since then .hourly
  else .daily

/-- No tier that is kept for ever is asked for what its days, taken as a
number, would have removed. -/
def Bounded : Prop :=
  (r.detailDays = 0 → since = now) ∧ (r.hourlyDays = 0 → now - r.detailDays * DAY_MS ≤ since)

instance : Decidable (Bounded now since r) := inferInstanceAs (Decidable (_ ∧ _))

end Spec

variable {now since : Int} {r : TierRetention}

section Picks

theorem pickSampleTier_eq (now since : Int) (r : TierRetention) :
    (pickSampleTier now since r).tier =
      if now - r.detailDays * DAY_MS ≤ since then .detail
      else if now - r.hourlyDays * DAY_MS ≤ since then .hourly
      else .daily := by
  have hday : ∀ n : Nat, (n : Int) * SECONDS_PER_DAY * 1000 = n * DAY_MS := by
    intro n
    simp only [SECONDS_PER_DAY, DAY_MS]
    omega
  simp only [pickSampleTier, hday, ge_iff_le]
  split_ifs <;> rfl

theorem pickSampleTier_finest_iff (h : since ≤ now) :
    (pickSampleTier now since r).tier = finestTier now since r ↔ Bounded now since r := by
  rw [pickSampleTier_eq]
  unfold finestTier Bounded
  by_cases hd : now - r.detailDays * DAY_MS ≤ since
  · have hheld : Held r.detailDays now since := .inr hd
    rw [if_pos hd, if_pos hheld]
    refine iff_of_true rfl ⟨fun hzero => ?_, fun _ => hd⟩
    rw [hzero] at hd
    omega
  · rw [if_neg hd]
    by_cases hzero : r.detailDays = 0
    · have hheld : Held r.detailDays now since := .inl hzero
      have hpast : since ≠ now := by
        rintro rfl
        rw [hzero] at hd
        omega
      rw [if_pos hheld]
      refine iff_of_false ?_ fun hb => hpast (hb.1 hzero)
      split_ifs <;> rintro ⟨⟩
    · have hgone : ¬ Held r.detailDays now since := by
        rintro (h0 | hin)
        · exact hzero h0
        · exact hd hin
      rw [if_neg hgone]
      by_cases hh : now - r.hourlyDays * DAY_MS ≤ since
      · have hheld : Held r.hourlyDays now since := .inr hh
        rw [if_pos hh, if_pos hheld]
        refine iff_of_true rfl ⟨fun h0 => absurd h0 hzero, fun h0 => ?_⟩
        rw [h0] at hh
        have hday : 0 ≤ r.detailDays * DAY_MS := Int.mul_nonneg (Int.natCast_nonneg _) (by decide)
        omega
      · rw [if_neg hh]
        by_cases hforever : r.hourlyDays = 0
        · rw [if_pos (.inl hforever)]
          exact iff_of_false (by rintro ⟨⟩) fun hb => hd (hb.2 hforever)
        · rw [if_neg (by
            rintro (h0 | hin)
            · exact hforever h0
            · exact hh hin)]
          exact iff_of_true rfl ⟨fun h0 => absurd h0 hzero, fun h0 => absurd h0 hforever⟩

end Picks

section Sweeps

structure AssetRow where
  id : String
  assetType : String
  manufacturer : Option String

structure Inventory where
  rows : List AssetRow
  nodup : (rows.map (·.id)).Nodup

variable (toLowerCase : String → String) (inventory : Inventory)

def Inventory.assetType (id : String) : Option String := (inventory.rows.find? (·.id = id)).map (·.assetType)

def isFortinet (a : AssetRow) : Bool := a.manufacturer.any fun m => toLowerCase m = "fortinet"

def idsOf (assetType : String) : List String :=
  (inventory.rows.filter fun a => isFortinet toLowerCase a && a.assetType = assetType).map (·.id)

variable {toLowerCase inventory} {a : AssetRow}

theorem mem_idsOf (ha : a ∈ inventory.rows) {assetType : String} :
    a.id ∈ idsOf toLowerCase inventory assetType ↔ isFortinet toLowerCase a = true ∧
      a.assetType = assetType := by
  rw [idsOf, List.mem_map]
  constructor
  · rintro ⟨b, hb, hid⟩
    rw [List.mem_filter, Bool.and_eq_true, decide_eq_true_iff] at hb
    rw [← List.inj_on_of_nodup_map inventory.nodup hb.1 ha hid]
    exact hb.2
  · exact fun h => ⟨a, List.mem_filter.mpr ⟨ha, by simp [h]⟩, rfl⟩

theorem idsOf_disjoint (id : String) (h : id ∈ idsOf toLowerCase inventory "switch") :
    id ∉ idsOf toLowerCase inventory "access_point" := by
  obtain ⟨b, hb, rfl⟩ := List.mem_map.mp h
  have hrow : b ∈ inventory.rows := (List.mem_filter.mp hb).1
  rw [mem_idsOf hrow] at h ⊢
  rw [h.2]
  exact fun hx => absurd hx.2 (by decide +kernel)

def getSwitchAndAccessPointAssetIds (toLowerCase : String → String) (inventory : Inventory) : ClassIds :=
  ⟨idsOf toLowerCase inventory "switch", idsOf toLowerCase inventory "access_point", idsOf_disjoint⟩

theorem classOf_eq (ha : a ∈ inventory.rows) :
    (getSwitchAndAccessPointAssetIds toLowerCase inventory).classOf a.id =
    if isFortinet toLowerCase a then pickClassForAssetType (some a.assetType) else .default := by
  rw [ClassIds.classOf, getSwitchAndAccessPointAssetIds,
    if_congr (mem_idsOf ha) rfl (if_congr (mem_idsOf ha) rfl rfl)]
  cases isFortinet toLowerCase a <;> simp [pickClassForAssetType]

theorem assetType_of_mem (ha : a ∈ inventory.rows) : inventory.assetType a.id = some a.assetType := by
  rw [Inventory.assetType]
  cases hf : inventory.rows.find? (·.id = a.id) with
  | none => exact absurd (decide_eq_true rfl) (List.find?_eq_none.mp hf a ha)
  | some b =>
    have hid : b.id = a.id := by simpa using List.find?_some hf
    rw [List.inj_on_of_nodup_map inventory.nodup (List.mem_of_find?_eq_some hf) ha hid, Option.map_some]

/-- Whatever sweeps there are up to now, they leave the samples of the asset
from that time on. -/
def Spared (dropChunks : Int → List SampleRow → List SampleRow) (days : ClassRetention) (ids : ClassIds)
    (now since : Int) (id : String) : Prop :=
  ∀ (sweeps : List Int) (rows : List SampleRow), (∀ at' ∈ sweeps, at' ≤ now) → ∀ row ∈ rows,
    row.assetId = id →
    since ≤ row.time →
      row ∈ sweeps.foldl (fun rows at' => (pruneOneTable dropChunks at' days ids rows).1) rows

variable {dropChunks : Int → List SampleRow → List SampleRow} {days : ClassRetention} {ids : ClassIds}
  {n : Nat}

/-- A window of so many days is spared just where the class of the asset keeps
as many. -/
theorem spared_iff (hdrop : ∀ cutoff rows, ∀ row ∈ rows, cutoff ≤ row.time → row ∈ dropChunks cutoff rows)
    (hn : n ≤ max days.default (max days.switch days.accessPoint)) (id : String) :
    Spared dropChunks days ids now (now - n * DAY_MS) id ↔
      days.get (ids.classOf id) = 0 ∨ n ≤ days.get (ids.classOf id) := by
  have hday : ∀ {k : Nat}, n ≤ k → (n : Int) * DAY_MS ≤ k * DAY_MS := fun hk =>
    Int.mul_le_mul_of_nonneg_right (Int.ofNat_le.mpr hk) (by decide)
  constructor
  · intro hspared
    have hrow := hspared [now] [⟨id, now - n * DAY_MS⟩] (by simp) _ List.mem_cons_self rfl le_rfl
    refine ((mem_pruneOneTable dropChunks).mp hrow).2.imp_right fun hheld => ?_
    simp only [DAY_MS] at hheld
    omega
  · rintro hlong sweeps rows hat row hmem rfl htime
    refine List.foldlRecOn (motive := fun rows => row ∈ rows) _ _ hmem fun rows hrow at' hat' => ?_
    have hnow := hat at' hat'
    refine (mem_pruneOneTable dropChunks).mpr ⟨?_, hlong.imp_right fun hle => ?_⟩
    · split
      · refine hdrop _ _ row hrow ?_
        have hle := hday hn
        omega
      · exact hrow
    · have hle := hday hle
      omega

/-- A chart that is read from the detail samples finds every one since its
start just where the asset is from the vendor whose devices are swept by their
class, or its type is kept no longer than the rest. -/
theorem chart_complete_iff (toLowerCase : String → String) (inventory : Inventory) (now : Int)
    (hdrop : ∀ cutoff rows, ∀ row ∈ rows, cutoff ≤ row.time → row ∈ dropChunks cutoff rows)
    (retention : SampleRetention) (stream : RetentionStream) (ha : a ∈ inventory.rows) :
    (∀ since, (pickSampleTier now since (windows retention stream (inventory.assetType a.id))).tier =
      .detail →
      Spared dropChunks (retention.get stream).detail
        (getSwitchAndAccessPointAssetIds toLowerCase inventory) now since
        a.id) ↔
      isFortinet toLowerCase a = true ∨ (retention.get stream).detail.default = 0 ∨
        (retention.get stream).detail.get (pickClassForAssetType (some a.assetType)) ≤
          (retention.get stream).detail.default := by
  generalize hdays : (retention.get stream).detail.get (pickClassForAssetType (some a.assetType)) = n
  have hpick : ∀ since, (pickSampleTier now since (windows retention stream (inventory.assetType a.id))).tier =
      .detail ↔ now - n * DAY_MS ≤ since := by
    intro since
    rw [pickSampleTier_eq, windows, assetType_of_mem ha]
    dsimp only
    rw [hdays]
    split_ifs with hd hh
    · exact iff_of_true rfl hd
    · exact iff_of_false (fun h => by cases h) hd
    · exact iff_of_false (fun h => by cases h) hd
  have hlongest : n ≤ max (retention.get stream).detail.default
      (max (retention.get stream).detail.switch (retention.get stream).detail.accessPoint) := by
    rw [← hdays]
    cases pickClassForAssetType (some a.assetType) <;> simp [ClassRetention.get]
  refine Iff.trans ⟨fun h => h _ ((hpick _).mpr le_rfl), fun h since hd sweeps rows hat row hrow hid ht => ?_⟩
    ((spared_iff hdrop hlongest a.id).trans ?_)
  · exact h sweeps rows hat row hrow hid (((hpick since).mp hd).trans ht)
  · rw [classOf_eq ha]
    cases isFortinet toLowerCase a with
    | true => exact iff_of_true (.inr hdays.ge) (.inl rfl)
    | false => simp [ClassRetention.get]

def monthOfSwitches : SampleRetention :=
  { defaultSampleRetention with sample := { defaultTier with detail := ⟨7, 30, 7⟩ } }

def otherSwitch : Inventory := ⟨[⟨"sw", "switch", some "Other"⟩], by simp⟩

/-- A switch of another vendor, where switches are kept for a month and the
rest for a week. -/
theorem other_switch_incomplete :
    ¬∀ since, (pickSampleTier 0 since (windows monthOfSwitches .sample (otherSwitch.assetType "sw"))).tier
      = .detail →
      Spared (fun _ rows => rows) (monthOfSwitches.get .sample).detail
        (getSwitchAndAccessPointAssetIds id otherSwitch) 0
        since "sw" :=
  (chart_complete_iff id otherSwitch 0 (fun _ _ _ h _ => h) monthOfSwitches .sample
    List.mem_cons_self).not.mpr
    (by decide +kernel)

end Sweeps

section Asset

/-- A chart is read from the finest tier that holds it exactly when no tier
that is kept for ever is measured in days. -/
theorem pickSampleTierForAsset_finest_iff (Number : Json → Option Rat) (assets : String → Option String)
    (readAt now : Int) (s : Store) (assetId : String) (stream : RetentionStream) (since : Int)
    (h : since ≤ now) :
    (pickSampleTierForAsset Number assets readAt now s assetId stream since).1.tier =
        finestTier now since (windows (getSampleRetention Number readAt s).1 stream (assets assetId)) ↔
      Bounded now since (windows (getSampleRetention Number readAt s).1 stream (assets assetId)) :=
  pickSampleTier_finest_iff h

def plainNumber : Json → Option Rat
  | .null => some 0
  | .bool b => some (if b then 1 else 0)
  | .num q => some q
  | _ => none

def daysOf (detail hourly : Rat) : Json :=
  .obj [("sample", .obj [("detail", .obj [("default", .num detail)]),
                         ("hourly", .obj [("default", .num hourly)])])]

def chartTier (document : Json) (days : Int) : SampleTier :=
  (pickSampleTierForAsset plainNumber (fun _ => some "server") 0 (100 * DAY_MS) { row := some document }
    "a1" .sample ((100 - days) * DAY_MS)).1.tier

theorem pickSampleTierForAsset_finest_iff_fortnight :
    chartTier (daysOf 14 90) 20 = finestTier (100 * DAY_MS) (80 * DAY_MS) ⟨14, 90⟩ := by
  have hdays : windows
    (getSampleRetention plainNumber 0 { row := some (daysOf 14 90) }).1 .sample (some "server") =
      ⟨14, 90⟩ := by decide +kernel
  have hiff := pickSampleTierForAsset_finest_iff plainNumber (fun _ => some "server") 0 (100 * DAY_MS)
    { row := some (daysOf 14 90) } "a1" .sample (80 * DAY_MS) (by decide)
  rw [hdays] at hiff
  exact hiff.mpr (by decide)

/-- Detail that is kept for ever is not read for yesterday, nor the hours that
are for last month. -/
theorem kept_for_ever_is_not_read :
    chartTier (daysOf 0 30) 1 = .hourly ∧
      finestTier (100 * DAY_MS) (99 * DAY_MS)
        (windows (getSampleRetention plainNumber 0 { row := some (daysOf 0 30) }).1 .sample
          (some "server")) = .detail ∧
      chartTier (daysOf 7 0) 31 = .daily ∧
      finestTier (100 * DAY_MS) (69 * DAY_MS)
        (windows (getSampleRetention plainNumber 0 { row := some (daysOf 7 0) }).1 .sample (some "server")) =
          .hourly := by
  decide +kernel

end Asset

end Polaris.SampleQueryRouter
