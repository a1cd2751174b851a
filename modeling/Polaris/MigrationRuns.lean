import Polaris.SettingsMigrated

namespace Polaris.MigrationRuns

open Polaris.Lib.Jobs Polaris.Lib.Runs Polaris.Lib.Store Polaris.SettingsMigration Polaris.SettingsMigrated

section Hierarchy

variable (Number : Json → Option Rat) (legacy : Json) (initial : List Integration)

def HierarchySafe : Job Db → Db → Prop :=
  Safe (Inv Number legacy initial) LegacyGone HierarchyDone ByRetention ByHierarchy

/-- The row is still there, and the manual tier and the integrations are
seeded, and so are the overrides of some classes. -/
structure Stage (kinds : List AssetClass) (db : Db) : Prop where
  before : Before Number legacy initial db
  manual : db.manualMonitorSettings.isSome
  integrations : ∀ j ∈ db.integrations, seedConfig (topLevel Number legacy) j = none
  overrides : ∀ kind ∈ kinds, Differs Number legacy kind → ∀ i ∈ initial, isFortinet i = true →
    hasOverride db i.id kind = true

variable {Number legacy initial} {s t : Db} {kind other : AssetClass} {kinds : List AssetClass}
  {marker : HierarchyMarker}

theorem write_before {write : Db → Option Db} {next : Db → Job Db} (h : Before Number legacy initial s)
    (hw : ∀ t, write s = some t → Inv Number legacy initial t ∧ ByHierarchy s t ∧
      HierarchySafe Number legacy initial (next s) t) :
    HierarchySafe Number legacy initial (.act write next) s := by
  intro t hst _ t' ht'
  have hthere : s.monitorSettings ≠ none := by simp [h.there]
  obtain rfl := hst.still hthere
  exact hw t' ht'

theorem read_before {next : Db → Job Db} (h : Before Number legacy initial s)
    (hnext : HierarchySafe Number legacy initial (next s) s) :
    HierarchySafe Number legacy initial (.read next) s :=
  write_before h fun t ht => by
    cases ht
    exact ⟨h.inv, ByHierarchy.refl s, hnext⟩

/-- While the row is there, the retention job relies on nothing. -/
theorem byHierarchy_before (h : Before Number legacy initial s)
    (ht : t.retentionMigratedAt = s.retentionMigratedAt) :
    ByHierarchy s t := by
  refine ⟨fun hgone => ?_, fun hm => ?_⟩
  · rw [h.there] at hgone
    cases hgone
  · rw [RetentionDone, ht]
    exact hm

theorem stampHierarchy_safe (h : s.monitorSettings = none) :
    HierarchySafe Number legacy initial (stampHierarchy marker) s := by
  intro t hst ht t' hw
  have hgone := hst.gone h
  dsimp only at hw
  split at hw
  next => cases hw
  next =>
    cases hw
    refine ⟨⟨ht.document, ht.manual, ht.integrations, ht.overrides, ht.single, fun hg => ?_, fun _ => hgone,
      fun hm => ?_⟩, ⟨fun _ => ⟨_, rfl⟩, fun hm => hm⟩, rfl⟩
    · obtain ⟨hmanual, hints, hover⟩ := ht.seeded hg
      exact ⟨hmanual, hints, hover⟩
    · obtain ⟨hg, hmanual, hints, hover⟩ := ht.expanded hm
      exact ⟨hg, hmanual, hints, hover⟩

theorem deleteLegacy_safe (h : Stage Number legacy initial [.switch, .accessPoint] s) :
    HierarchySafe Number legacy initial (deleteLegacy marker) s := by
  apply write_before h.before
  intro t ht
  rw [h.before.there] at ht
  cases ht
  have hinv := h.before.inv
  refine ⟨⟨nofun, hinv.manual, hinv.integrations, hinv.overrides, hinv.single, fun _ => ?_, fun _ => rfl,
    fun hm => ?_⟩,
    byHierarchy_before h.before rfl, stampHierarchy_safe rfl⟩
  · exact ⟨h.manual, h.integrations, fun kind => h.overrides kind (by cases kind <;> simp)⟩
  · exact absurd hm h.before.unmarked

theorem hasOverride_iff {i : String} :
    hasOverride s i kind = true ↔ ∃ r ∈ s.overrides.rows, r.data.integrationId = i ∧
      r.data.assetType = kind := by
  simp [hasOverride, List.any_eq_true]

theorem createOverride_rows {i : String} {tier : Field → Option Nat}
    (h : createOverride i kind tier s = some t) :
    ∃ n, t.overrides.rows = s.overrides.rows ++
      [⟨n, { integrationId := i, assetType := kind, tier := tier }⟩] ∧
      t = { s with overrides := t.overrides } := by
  rw [createOverride] at h
  split at h
  · cases h
    exact ⟨_, (Table.append_rows _ _).1, rfl⟩
  · cases h

theorem createOverride_stage {i : Integration} (h : Stage Number legacy initial kinds s)
    (hdiff : Differs Number legacy kind)
    (hi : ∃ i₀ ∈ initial, isFortinet i₀ = true ∧ i₀.id = i.id) (hnew : hasOverride s i.id kind = false)
    (ht : createOverride i.id kind (classOverride Number legacy kind) s = some t) :
    Stage Number legacy initial kinds t ∧ hasOverride t i.id kind = true ∧
      ∀ j other, hasOverride s j other = true → hasOverride t j other = true := by
  obtain ⟨n, hrows, heq⟩ := createOverride_rows ht
  have hkept : ∀ j other, hasOverride s j other = true → hasOverride t j other = true := by
    intro j other hj
    obtain ⟨r, hr, hmatch⟩ := hasOverride_iff.mp hj
    exact hasOverride_iff.mpr ⟨r, hrows ▸ List.mem_append_left _ hr, hmatch⟩
  have hself : hasOverride t i.id kind = true :=
    hasOverride_iff.mpr ⟨_, hrows ▸ List.mem_append_right _ List.mem_cons_self, rfl, rfl⟩
  have hfree : ∀ r ∈ s.overrides.rows, r.data.integrationId = i.id → r.data.assetType ≠ kind := by
    intro r hr hid hkind
    rw [hasOverride_iff.mpr ⟨r, hr, hid, hkind⟩] at hnew
    cases hnew
  have hinv := h.before.inv
  have hms : t.monitorSettings = s.monitorSettings := by rw [heq]
  have hmanual : t.manualMonitorSettings = s.manualMonitorSettings := by rw [heq]
  have hints : t.integrations = s.integrations := by rw [heq]
  have hmark : t.hierarchyMigratedAt = s.hierarchyMigratedAt := by rw [heq]
  have hret : t.retentionMigratedAt = s.retentionMigratedAt := by rw [heq]
  refine ⟨⟨⟨⟨hms ▸ hinv.document, hmanual ▸ hinv.manual, hints ▸ hinv.integrations, ?_, ?_, ?_, ?_, ?_⟩,
    hms ▸ h.before.there⟩,
    hmanual ▸ h.manual, hints ▸ h.integrations, ?_⟩, hself, hkept⟩
  · rw [hrows]
    intro r hr
    obtain hr | hr := List.mem_append.mp hr
    · exact hinv.overrides r hr
    · obtain rfl := List.mem_singleton.mp hr
      exact ⟨hi, hdiff, rfl, .inl fun _ => rfl⟩
  · rw [hrows]
    intro a ha b hb hid hkind
    obtain ha | ha := List.mem_append.mp ha
    · obtain hb | hb := List.mem_append.mp hb
      · exact hinv.single a ha b hb hid hkind
      · obtain rfl := List.mem_singleton.mp hb
        exact absurd hkind (hfree a ha hid)
    · obtain rfl := List.mem_singleton.mp ha
      obtain hb | hb := List.mem_append.mp hb
      · exact absurd hkind.symm (hfree b hb hid.symm)
      · exact (List.mem_singleton.mp hb).symm
  · rw [hms, h.before.there]
    exact nofun
  · rw [hmark, hms]
    exact hinv.marked
  · rw [hret]
    exact fun hm => absurd hm h.before.unmarked
  · exact fun other ho hd j hj hf => hkept j.id other (h.overrides other ho hd j hj hf)

theorem createOverrides_safe {next : Nat → Job Db} (hdiff : Differs Number legacy kind)
    {rest : List Integration}
    (hrest : ∀ j ∈ rest, ∃ i ∈ initial, isFortinet i = true ∧ i.id = j.id)
    (hnext : ∀ n t, Stage Number legacy initial (kind :: kinds) t →
      HierarchySafe Number legacy initial (next n) t)
    (h : Stage Number legacy initial kinds s)
    (hdone : ∀ i ∈ initial, isFortinet i = true → hasOverride s i.id kind = true ∨
      ∃ j ∈ rest, j.id = i.id) (n : Nat) :
    HierarchySafe Number legacy initial
      (createOverrides kind (classOverride Number legacy kind) next rest n) s := by
  induction rest generalizing s n with
  | nil =>
    refine hnext n s ⟨h.before, h.manual, h.integrations, fun other ho hd i hi hf => ?_⟩
    obtain rfl | ho := List.mem_cons.mp ho
    · exact (hdone i hi hf).resolve_right fun ⟨_, hj, _⟩ => List.not_mem_nil hj
    · exact h.overrides other ho hd i hi hf
  | cons j rest ih =>
    have hlater := fun x hx => hrest x (List.mem_cons_of_mem j hx)
    apply read_before h.before
    cases hhas : hasOverride s j.id kind with
    | true =>
      rw [if_pos rfl]
      refine ih hlater h (fun i hi hf => ?_) n
      obtain hi | ⟨x, hx, hid⟩ := hdone i hi hf
      · exact .inl hi
      · obtain rfl | hx := List.mem_cons.mp hx
        · exact .inl (hid ▸ hhas)
        · exact .inr ⟨x, hx, hid⟩
    | false =>
      rw [if_neg Bool.false_ne_true]
      apply write_before h.before
      intro t ht
      obtain ⟨hstage, hself, hkept⟩ := createOverride_stage h hdiff (hrest j List.mem_cons_self) hhas ht
      refine ⟨hstage.before.inv, byHierarchy_before h.before ?_, ih hlater hstage (fun i hi hf => ?_) (n + 1)⟩
      · obtain ⟨_, -, heq⟩ := createOverride_rows ht
        rw [heq]
      · obtain hi | ⟨x, hx, hid⟩ := hdone i hi hf
        · exact .inl (hkept i.id kind hi)
        · obtain rfl | hx := List.mem_cons.mp hx
          · exact .inl (hid ▸ hself)
          · exact .inr ⟨x, hx, hid⟩

theorem isFortinet_evolved {top : TierShape} {i j : Integration}
    (h : Evolved top i j) : isFortinet j = isFortinet i := by
  rw [isFortinet, isFortinet, h.id.2]

theorem classOverrides_safe {next : Nat → Job Db} {rows : List Integration}
    (hrows : List.Forall₂ (Evolved (topLevel Number legacy)) initial rows)
    (hnext : ∀ n t, Stage Number legacy initial (kind :: kinds) t →
      HierarchySafe Number legacy initial (next n) t)
    (h : Stage Number legacy initial kinds s) :
    HierarchySafe Number legacy initial (classOverrides Number legacy kind rows next) s := by
  rw [classOverrides]
  split
  next hdiff =>
    rw [List.forall₂_iff_get] at hrows
    obtain ⟨hlen, hget⟩ := hrows
    refine createOverrides_safe hdiff (fun j hj => ?_) hnext h (fun i hi hf => .inr ?_) 0
    · obtain ⟨hj, hf⟩ := List.mem_filter.mp hj
      obtain ⟨k, hk, rfl⟩ := List.mem_iff_getElem.mp hj
      have hev := hget k (hlen ▸ hk) hk
      exact ⟨_, List.get_mem _ _, (isFortinet_evolved hev).symm.trans hf, hev.id.1.symm⟩
    · obtain ⟨k, hk, rfl⟩ := List.mem_iff_getElem.mp hi
      have hev := hget k hk (hlen ▸ hk)
      exact ⟨_, List.mem_filter.mpr ⟨List.get_mem _ _, (isFortinet_evolved hev).trans hf⟩, hev.id.1⟩
  next hsame =>
    refine hnext 0 s ⟨h.before, h.manual, h.integrations, fun other ho hd => ?_⟩
    obtain rfl | ho := List.mem_cons.mp ho
    · exact absurd hd hsame
    · exact h.overrides other ho hd

theorem putConfig_inv {j : Integration} {config : Json} (hids : (initial.map Integration.id).Nodup)
    (h : Inv Number legacy initial s) (hj : j ∈ s.integrations)
    (hnew : ∀ i, Evolved (topLevel Number legacy) i j →
      Evolved (topLevel Number legacy) i (setConfig config j))
    (hseeded : seedConfig (topLevel Number legacy) (setConfig config j) = none)
    (hexpanded : RetentionDone s → expandConfig (setConfig config j) = none) :
    Inv Number legacy initial
      { s with integrations := replace Integration.id setConfig j config s.integrations } := by
  have hnodup : (s.integrations.map Integration.id).Nodup := evolved_ids h.integrations ▸ hids
  refine ⟨h.document, h.manual, evolved_replace h.integrations hnodup hj hnew, h.overrides, h.single,
    fun hgone => ?_,
    h.marked, fun hm => ?_⟩
  · obtain ⟨hmanual, hints, hover⟩ := h.seeded hgone
    exact ⟨hmanual, forall_replace hints hnodup hj hseeded, hover⟩
  · obtain ⟨hgone, hmanual, hints, hover⟩ := h.expanded hm
    exact ⟨hgone, hmanual, forall_replace hints hnodup hj (hexpanded hm), hover⟩

theorem seedIntegrations_safe (hids : (initial.map Integration.id).Nodup) {manualSeeded : Bool}
    (h : Before Number legacy initial s) (hmanual : s.manualMonitorSettings.isSome) :
    HierarchySafe Number legacy initial (seedIntegrations Number legacy manualSeeded) s := by
  apply read_before h
  have hnodup : (s.integrations.map Integration.id).Nodup := evolved_ids h.inv.integrations ▸ hids
  refine sweep_safe Integration.id setConfig (fun t => Before Number legacy initial t ∧
    t.manualMonitorSettings.isSome)
    Db.integrations (fun _ _ => rfl)
    (fun i config => seedConfig_setConfig config i) (fun u t hu hut _ => ?_)
      (fun u i config t hu hi hneed ht => ?_)
    (fun t n ht hall => ?_) ⟨h, hmanual⟩ (Swept.start hnodup) 0
  · have hthere : u.monitorSettings ≠ none := by simp [hu.1.there]
    obtain rfl := hut.still hthere
    exact ⟨hu, rfl⟩
  · cases ht
    have hinv := putConfig_inv hids hu.1.inv hi (fun x hx => .inr (.inl (hx.seed hneed)))
      (seedConfig_setConfig config i hneed) (fun hm => absurd hm hu.1.unmarked)
    exact ⟨hinv, byHierarchy_before hu.1 rfl, ⟨⟨hinv, hu.1.there⟩, hu.2⟩, rfl⟩
  · have hstage : Stage Number legacy initial [] t :=
      ⟨ht.1, ht.2, hall, fun _ hk => absurd hk List.not_mem_nil⟩
    apply classOverrides_safe h.inv.integrations _ hstage
    intro n t hstage
    apply classOverrides_safe h.inv.integrations _ hstage
    intro n t hstage
    apply deleteLegacy_safe
    exact ⟨hstage.before, hstage.manual, hstage.integrations,
      fun kind _ => hstage.overrides kind (by cases kind <;> simp)⟩

theorem seedManual_safe (hids : (initial.map Integration.id).Nodup) (h : Before Number legacy initial s) :
    HierarchySafe Number legacy initial (seedManual Number legacy) s := by
  apply read_before h
  split
  next hmanual => exact seedIntegrations_safe hids h hmanual
  next hmissing =>
    apply write_before h
    intro t ht
    rw [createManual, if_neg hmissing] at ht
    cases ht
    have hinv : Inv Number legacy initial
      { s with manualMonitorSettings := some (tierJson (topLevel Number legacy)) } := by
      refine ⟨h.inv.document, fun m hm => ?_, h.inv.integrations, h.inv.overrides, h.inv.single,
        fun hgone => ?_,
        h.inv.marked,
        fun hm => absurd hm h.unmarked⟩
      · cases hm
        exact .inl rfl
      · rw [h.there] at hgone
        cases hgone
    exact ⟨hinv, byHierarchy_before h rfl, seedIntegrations_safe hids ⟨hinv, h.there⟩ rfl⟩

theorem hierarchy_safe (hids : (initial.map Integration.id).Nodup) (s : Db) :
    HierarchySafe Number legacy initial (migrateMonitorSettingsHierarchy Number) s := by
  apply Safe.read ByHierarchy.refl
  intro t _ ht
  split
  next hm => exact hm
  next =>
    apply Safe.read ByHierarchy.refl
    intro u _ hu
    split
    next hgone => exact stampHierarchy_safe hgone
    next l hl =>
      obtain rfl := hu.document l hl
      exact seedManual_safe hids ⟨hu, hl⟩

end Hierarchy

section Retention

variable (Number : Json → Option Rat) (legacy : Json) (initial : List Integration)

def RetentionSafe : Job Db → Db → Prop :=
  Safe (Inv Number legacy initial) LegacyGone RetentionDone ByHierarchy ByRetention

structure After (db : Db) : Prop where
  inv : Inv Number legacy initial db
  gone : db.monitorSettings = none

/-- The manual tier and the integrations are expanded. -/
structure Expanding (db : Db) : Prop where
  after : After Number legacy initial db
  manual : ∀ m ∈ db.manualMonitorSettings, (expandTierRetention m).2 = false
  integrations : ∀ j ∈ db.integrations, expandConfig j = none

variable {Number legacy initial} {s t : Db} {r : Row ClassOverride} {data : Stream → Option Nat}

/-- Once the row is gone, the other job only writes its marker. -/
theorem After.stable (h : After Number legacy initial s) (hst : ByHierarchy s t)
    (ht : Inv Number legacy initial t) :
    After Number legacy initial t ∧ t.manualMonitorSettings = s.manualMonitorSettings ∧
      t.integrations = s.integrations ∧ t.overrides = s.overrides := by
  obtain ⟨marker, rfl⟩ := hst.still h.gone
  exact ⟨⟨ht, h.gone⟩, rfl, rfl, rfl⟩

theorem byRetention_after (h : After Number legacy initial s) (hgone : t.monitorSettings = none)
    (hmark : t.hierarchyMigratedAt = s.hierarchyMigratedAt) : ByRetention s t := by
  refine ⟨fun hthere => absurd h.gone hthere, fun _ => hgone, fun hm => ?_⟩
  rw [HierarchyDone, hmark]
  exact hm

theorem stampRetention_safe {marker : RetentionMarker} (h : After Number legacy initial s)
    (hexp : Expanded s) :
    RetentionSafe Number legacy initial (stampRetention marker) s := by
  intro t hst ht t' hw
  obtain ⟨hafter, hmanual, hints, hover⟩ := h.stable hst ht
  have hinv := hafter.inv
  dsimp only at hw
  split at hw
  next => cases hw
  next =>
    cases hw
    refine ⟨⟨hinv.document, hinv.manual, hinv.integrations, hinv.overrides, hinv.single, fun hg => ?_,
      hinv.marked, fun _ => ?_⟩,
      byRetention_after hafter hafter.gone rfl, rfl⟩
    · obtain ⟨hmanual, hints, hover⟩ := hinv.seeded hg
      exact ⟨hmanual, hints, hover⟩
    · refine ⟨hafter.gone, ?_, ?_, ?_⟩
      · rw [hmanual]
        exact hexp.manual
      · rw [hints]
        exact hexp.integrations
      · rw [hover]
        exact hexp.overrides

def setRow (data : Stream → Option Nat) (r : Row ClassOverride) : Row ClassOverride :=
  { r with data := setDetail data r.data }

theorem putDetail_rows (h : putDetail r data s = some t) :
    t.overrides.rows = replace Row.id setRow r data s.overrides.rows ∧
      t = { s with overrides := t.overrides } := by
  cases h
  refine ⟨?_, rfl⟩
  rw [(Table.amendWhere_rows _ _ _).1, replace]
  apply List.map_congr_left
  intro x _
  by_cases hid : x.id = r.id
  · rw [if_pos hid, amend_of_pos (decide_eq_true hid)]
    rfl
  · rw [if_neg hid, amend_of_neg (decide_eq_false hid)]

theorem detailData_some (h : detailData r = some data) :
    data = fun s => if (r.data.detail s).isNone then r.data.tier s.legacy else none := by
  rw [detailData] at h
  dsimp only at h
  split at h
  · exact (Option.some.inj h).symm
  · cases h

theorem setDetail_eq (h : detailData r = some data) (stream : Stream) :
    (setDetail data r.data).detail stream = (r.data.detail stream).or (r.data.tier stream.legacy) := by
  rw [detailData_some h, setDetail]
  dsimp only
  cases r.data.detail stream with
  | none => exact Option.or_none
  | some d => rfl

theorem detailData_none (h : ∀ stream, r.data.detail stream = none → r.data.tier stream.legacy = none) :
    detailData r = none := by
  rw [detailData]
  apply if_neg
  rintro ⟨stream, -, hs⟩
  dsimp only at hs
  split at hs
  next hd =>
    rw [h stream (Option.isNone_iff_eq_none.mp hd)] at hs
    cases hs
  next => cases hs

theorem detailData_setRow (r : Row ClassOverride) (data : Stream → Option Nat)
    (h : detailData r = some data) :
    detailData (setRow data r) = none := by
  apply detailData_none
  intro stream hd
  rw [setRow, setDetail_eq h, Option.or_eq_none_iff] at hd
  exact hd.2

theorem overrideOk_setDetail (h : OverrideOk Number legacy initial r.data)
    (hdata : detailData r = some data) :
    OverrideOk Number legacy initial (setDetail data r.data) := by
  refine ⟨h.fortinet, h.differs, h.tier, .inr ?_⟩
  funext stream
  rw [setDetail_eq hdata]
  obtain hnone | hret := h.detail
  · rw [hnone, Option.none_or]
    rfl
  · rw [hret]
    exact Option.or_self

theorem putDetail_after (h : After Number legacy initial s) (hr : r ∈ s.overrides.rows)
    (hdata : detailData r = some data)
    (ht : putDetail r data s = some t) : After Number legacy initial t ∧
      t.overrides.rows = replace Row.id setRow r data s.overrides.rows ∧
      t.manualMonitorSettings = s.manualMonitorSettings ∧ t.integrations = s.integrations ∧
      t.hierarchyMigratedAt = s.hierarchyMigratedAt := by
  obtain ⟨hrows, heq⟩ := putDetail_rows ht
  have hinv := h.inv
  have hms : t.monitorSettings = s.monitorSettings := by rw [heq]
  have hmanual : t.manualMonitorSettings = s.manualMonitorSettings := by rw [heq]
  have hints : t.integrations = s.integrations := by rw [heq]
  have hmark : t.hierarchyMigratedAt = s.hierarchyMigratedAt := by rw [heq]
  have hret : t.retentionMigratedAt = s.retentionMigratedAt := by rw [heq]
  have hrow : ∀ x ∈ t.overrides.rows, ∃ y ∈ s.overrides.rows, x.data.integrationId = y.data.integrationId ∧
      x.data.assetType = y.data.assetType ∧ x = if y.id = r.id then setRow data y else y := by
    rw [hrows]
    intro x hx
    obtain ⟨y, hy, rfl⟩ := List.mem_map.mp hx
    refine ⟨y, hy, ?_, ?_, rfl⟩ <;> split <;> rfl
  have hhas : ∀ i kind, hasOverride s i kind = true → hasOverride t i kind = true := by
    intro i kind hi
    obtain ⟨y, hy, hid, hkind⟩ := hasOverride_iff.mp hi
    rw [hasOverride_iff, hrows]
    refine ⟨_, List.mem_map.mpr ⟨y, hy, rfl⟩, ?_, ?_⟩
    · split
      · exact hid
      · exact hid
    · split
      · exact hkind
      · exact hkind
  refine ⟨⟨⟨hms ▸ hinv.document, hmanual ▸ hinv.manual, hints ▸ hinv.integrations, ?_, ?_, ?_, ?_, ?_⟩,
    hms ▸ h.gone⟩,
    hrows, hmanual, hints, hmark⟩
  · intro x hx
    obtain ⟨y, hy, -, -, rfl⟩ := hrow x hx
    split
    next hid =>
      obtain rfl := Table.eq_of_id hy hr hid
      exact overrideOk_setDetail (hinv.overrides y hy) hdata
    next => exact hinv.overrides y hy
  · intro a ha b hb hid hkind
    obtain ⟨y, hy, hyid, hykind, rfl⟩ := hrow a ha
    obtain ⟨z, hz, hzid, hzkind, rfl⟩ := hrow b hb
    obtain rfl := hinv.single y hy z hz (hyid.symm.trans (hid.trans hzid))
      (hykind.symm.trans (hkind.trans hzkind))
    rfl
  · intro _
    obtain ⟨hm, hi, ho⟩ := hinv.seeded h.gone
    exact ⟨hmanual ▸ hm, hints ▸ hi, fun kind hd i hi hf => hhas i.id kind (ho kind hd i hi hf)⟩
  · rw [hmark, hms]
    exact hinv.marked
  · rw [hret, hms]
    intro hm
    -- a marked store has no override left to write
    rw [((hinv.expanded hm).2.overrides r hr)] at hdata
    cases hdata

theorem expandOverrides_safe {manualUpdated : Bool} {integrationsUpdated : Nat}
    (h : Expanding Number legacy initial s) :
    RetentionSafe Number legacy initial (expandOverrides manualUpdated integrationsUpdated) s := by
  apply Safe.read ByRetention.refl
  intro t hst ht
  obtain ⟨hafter, hmanual, hints, -⟩ := h.after.stable hst ht
  have hexp : Expanding Number legacy initial t :=
    ⟨hafter, hmanual ▸ h.manual, hints ▸ h.integrations⟩
  refine sweep_safe Row.id setRow (Expanding Number legacy initial)
    (fun db => db.overrides.rows) (fun _ _ => rfl) detailData_setRow (fun u v hu huv hv => ?_)
      (fun u r data v hu hr hdata hv => ?_)
    (fun u n hu hall => stampRetention_safe hu.after ⟨hu.manual, hu.integrations, hall⟩) hexp
    (Swept.start t.overrides.ids_nodup) 0
  · obtain ⟨hafter, hmanual, hints, hover⟩ := hu.after.stable huv hv
    exact ⟨⟨hafter, hmanual ▸ hu.manual, hints ▸ hu.integrations⟩, congrArg Table.rows hover⟩
  · obtain ⟨hafter, hrows, hmanual, hints, hmark⟩ := putDetail_after hu.after hr hdata hv
    exact ⟨hafter.inv, byRetention_after hu.after hafter.gone hmark,
      ⟨hafter, hmanual ▸ hu.manual, hints ▸ hu.integrations⟩, hrows⟩

theorem expandIntegrations_safe (hids : (initial.map Integration.id).Nodup) {manualUpdated : Bool}
    (h : After Number legacy initial s) (hmanual : ∀ m ∈ s.manualMonitorSettings,
      (expandTierRetention m).2 = false) :
    RetentionSafe Number legacy initial (expandIntegrations manualUpdated) s := by
  apply Safe.read ByRetention.refl
  intro t hst ht
  obtain ⟨hafter, hsame, hints, -⟩ := h.stable hst ht
  have hnodup : (t.integrations.map Integration.id).Nodup := evolved_ids hafter.inv.integrations ▸ hids
  refine sweep_safe Integration.id setConfig
    (fun u => After Number legacy initial u ∧ ∀ m ∈ u.manualMonitorSettings,
      (expandTierRetention m).2 = false)
    Db.integrations (fun _ _ => rfl) expandConfig_setConfig (fun u v hu huv hv => ?_)
      (fun u i config v hu hi hneed hv => ?_)
    (fun u n hu hall => expandOverrides_safe ⟨hu.1, hu.2, hall⟩) ⟨hafter, hsame ▸ hmanual⟩
      (Swept.start hnodup) 0
  · obtain ⟨hafter, hmanual, hints, -⟩ := hu.1.stable huv hv
    exact ⟨⟨hafter, hmanual ▸ hu.2⟩, hints⟩
  · cases hv
    have hseed := (hu.1.inv.seeded hu.1.gone).integrations i hi
    have hinv := putConfig_inv hids hu.1.inv hi (fun x hx => .inr (.inr (hx.expand hseed hneed)))
      (seedConfig_none.mpr (own_setConfig hneed)) (fun _ => expandConfig_setConfig i config hneed)
    exact ⟨hinv, byRetention_after hu.1 hu.1.gone rfl, ⟨⟨hinv, hu.1.gone⟩, hu.2⟩, rfl⟩

theorem updateManual_inv {m : Json} (h : After Number legacy initial s)
    (hm : s.manualMonitorSettings = some m) :
    Inv Number legacy initial { s with manualMonitorSettings := some (.obj (expandTierRetention m).1) } := by
  have hinv := h.inv
  refine ⟨hinv.document, fun x hx => ?_, hinv.integrations, hinv.overrides, hinv.single, fun _ => ?_,
    hinv.marked,
    fun hmark => ?_⟩
  · obtain rfl := Option.some.inj hx
    obtain rfl | rfl := hinv.manual m hm
    · exact .inr rfl
    · rw [expandTier_again]
      dsimp only
      exact .inr rfl
  · obtain ⟨-, hints, hover⟩ := hinv.seeded h.gone
    exact ⟨rfl, hints, hover⟩
  · obtain ⟨hgone, -, hints, hover⟩ := hinv.expanded hmark
    refine ⟨hgone, fun x hx => ?_, hints, hover⟩
    obtain rfl := Option.some.inj hx
    exact expandTier_expanded m

theorem expandManual_safe (hids : (initial.map Integration.id).Nodup) (h : After Number legacy initial s) :
    RetentionSafe Number legacy initial expandManual s := by
  apply Safe.read ByRetention.refl
  intro t hst ht
  obtain ⟨hafter, -⟩ := h.stable hst ht
  obtain ⟨m, hm⟩ := Option.isSome_iff_exists.mp (hafter.inv.seeded hafter.gone).manual
  rw [hm]
  dsimp only
  cases hchanged : (expandTierRetention m).2 with
  | true =>
    rw [if_pos rfl]
    intro u htu hu v hv
    obtain ⟨hu, hmanual, -⟩ := hafter.stable htu hu
    rw [updateManual, hmanual, hm, Option.map_some] at hv
    obtain rfl := Option.some.inj hv
    have hinv := updateManual_inv hu (hmanual.trans hm)
    refine ⟨hinv, byRetention_after hu hu.gone rfl,
      expandIntegrations_safe hids ⟨hinv, hu.gone⟩ fun x hx => ?_⟩
    obtain rfl := Option.some.inj hx
    exact expandTier_expanded m
  | false =>
    rw [if_neg Bool.false_ne_true]
    refine expandIntegrations_safe hids hafter fun x hx => ?_
    obtain rfl := Option.some.inj (hm.symm.trans hx)
    exact hchanged

theorem retention_safe (hids : (initial.map Integration.id).Nodup) (s : Db) :
    RetentionSafe Number legacy initial migrateRetentionTiers s := by
  apply Safe.read ByRetention.refl
  intro t _ ht
  split
  next hm => exact hm
  next =>
    intro u _ hu hleave
    apply expandManual_safe hids
    obtain hready | hgone := hleave
    · exact ⟨hu, hu.marked hready⟩
    · exact ⟨hu, hgone⟩

end Retention

section Expanded

variable {top : TierShape} {i j : Integration} {ms : Json} {s : Fields × Bool} {k : String} {d : Nat}

theorem setDefault_flag (h : (setDefault k d s).2 = false) : s.2 = false := by
  rw [setDefault_unchanged h] at h
  exact h

theorem expandStream_unchanged {stream : Stream} (h : (expandStream s stream).2 = false) :
    expandStream s stream = s := by
  rw [expandStream] at h ⊢
  have hhourly := setDefault_flag h
  rw [setDefault_unchanged h, setDefault_unchanged hhourly, setDefault_unchanged (setDefault_flag hhourly)]

theorem expandTier_unchanged {raw : Json} (h : (expandTierRetention raw).2 = false) :
    (expandTierRetention raw).1 = raw.spread := by
  rw [expandTier_eq] at h ⊢
  have h₃ := expandStream_unchanged h
  rw [h₃] at h ⊢
  have h₂ := expandStream_unchanged h
  rw [h₂] at h ⊢
  rw [expandStream_unchanged h]

theorem isObject_config (h : settingsOf i = some ms) : i.config.isObject = true := by
  rw [settingsOf, configFields] at h
  split at h
  next hobj => exact hobj
  next => cases h

theorem settingsOf_expanded (h : settingsOf i = some ms) (hobj : ms.isObject = true) :
    ∃ m, settingsOf (expanded i) = some m ∧ m.spread = (expandTierRetention ms).1 := by
  rw [expanded]
  split
  next hnone =>
    refine ⟨ms, h, ?_⟩
    cases hchanged : (expandTierRetention ms).2 with
    | false => exact (expandTier_unchanged hchanged).symm
    | true =>
      rw [settingsOf] at h
      rw [expandConfig, if_pos (isObject_config h), h] at hnone
      dsimp only at hnone
      rw [if_pos ⟨hobj, hchanged⟩] at hnone
      cases hnone
  next config hconfig =>
    obtain ⟨m, hm, -, hset⟩ := expandConfig_some hconfig
    obtain rfl := Option.some.inj (h.symm.trans hm)
    exact ⟨_, hset, spread_obj _⟩

theorem settingsOf_expanded_other (h : ∀ m, settingsOf i = some m → m.isObject = false) : expanded i = i := by
  rw [expanded]
  split
  next => rfl
  next config hconfig =>
    obtain ⟨m, hm, hobj, -⟩ := expandConfig_some hconfig
    rw [h m hm] at hobj
    cases hobj

theorem settingsOf_seeded (h : ownSettings i.config = false) :
    settingsOf (seeded top i) = some (tierJson top) := by
  rw [seeded]
  split
  next hnone =>
    rw [seedConfig_none.mp hnone] at h
    cases h
  next config hconfig => exact seeded_settings hconfig

theorem seeded_own (h : ownSettings i.config = true) : seeded top i = i := by
  rw [seeded, seedConfig_none.mpr h]

end Expanded

section Outcome

variable (Number : Json → Option Rat) (legacy : Json) (initial : List Integration)

/-- Every value that was set before is still set. -/
def Extends (before after : Option Json) : Prop :=
  ∀ ms, before = some ms → ∃ m, after = some m ∧ ∀ k v, ms.get k = some v → m.get k = some v

structure SettingsKept (i j : Integration) : Prop where
  same : j.id = i.id ∧ j.type = i.type
  own : ownSettings i.config = true → Extends (settingsOf i) (settingsOf j)
  seeded : ownSettings i.config = false → ∃ m, settingsOf j = some m ∧ Carries (topLevel Number legacy) m

/-- The values of the legacy document in the tiers that replace it. An
override exists for the classes that differ, and holds the fields that do. -/
structure Migrated (db : Db) : Prop where
  manual : ∃ m, db.manualMonitorSettings = some m ∧ Carries (topLevel Number legacy) m
  integrations : List.Forall₂ (SettingsKept Number legacy) initial db.integrations
  overrides : ∀ kind, ∀ i ∈ initial, hasOverride db i.id kind = true ↔
    Differs Number legacy kind ∧ ∃ x ∈ initial, isFortinet x = true ∧ x.id = i.id
  fields : ∀ r ∈ db.overrides.rows, ∀ f, r.data.tier f =
    if classTier Number legacy r.data.assetType f ≠ topLevel Number legacy f then
      some (classTier Number legacy r.data.assetType f)
    else none
  single : ∀ a ∈ db.overrides.rows, ∀ b ∈ db.overrides.rows, a.data.integrationId = b.data.integrationId →
    a.data.assetType = b.data.assetType → a = b

structure DetailKept (i j : Integration) : Prop where
  own : ownSettings i.config = true → ∀ ms, settingsOf i = some ms → ms.isObject = true →
    ∃ m, settingsOf j = some m ∧ ∀ stream : Stream, m.get stream.detail =
      some ((ms.get stream.detail).getD
        (.num ((legacyDays (ms.get stream.legacy.key)).getD DEFAULT_HOURLY_DAYS : Nat)))
  seeded : ownSettings i.config = false →
    ∃ m, settingsOf j = some m ∧ ∀ stream : Stream,
      m.get stream.detail = some (.num (topLevel Number legacy stream.legacy))

/-- The detail retention of every tier is the legacy one. -/
structure Detailed (db : Db) : Prop where
  manual : ∃ m, db.manualMonitorSettings = some m ∧
    ∀ stream : Stream, m.get stream.detail = some (.num (topLevel Number legacy stream.legacy))
  integrations : List.Forall₂ (DetailKept Number legacy) initial db.integrations
  overrides : ∀ r ∈ db.overrides.rows, ∀ stream : Stream, r.data.detail stream = r.data.tier stream.legacy

def start : Db := { monitorSettings := some legacy, integrations := initial }

def jobs : Duo Db := ⟨start legacy initial, migrateMonitorSettingsHierarchy Number, migrateRetentionTiers⟩

def run (turns : List Turn) : Duo Db :=
  turns.foldl (Duo.step (migrateMonitorSettingsHierarchy Number) migrateRetentionTiers)
    (jobs Number legacy initial)

/-- The retention job never gives up its wait while the row is there. -/
def Patient (turns : List Turn) : Prop :=
  Along (Duo.step (migrateMonitorSettingsHierarchy Number) migrateRetentionTiers) (Duo.Clear LegacyGone)
    (jobs Number legacy initial) turns

variable {Number legacy initial} {db : Db} {i j : Integration} {stream : Stream} {o : Fields}
  {top : TierShape}

theorem start_inv : Inv Number legacy initial (start legacy initial) where
  document l hl := (Option.some.inj hl).symm
  manual := nofun
  integrations := by
    rw [start, List.forall₂_same]
    exact fun i _ => .inl rfl
  overrides r hr := absurd hr List.not_mem_nil
  single r hr := absurd hr List.not_mem_nil
  seeded := nofun
  marked := nofun
  expanded := nofun

theorem carries_spread {m : Json} (h : m.spread = (expandTierRetention (tierJson top)).1) :
    Carries top m := by
  intro f
  rw [Json.get, h]
  exact (carries_tierJson top).expand f

theorem detail_spread {m : Json} (h : m.spread = (expandTierRetention (tierJson top)).1) :
    m.get stream.detail = some (.num (top stream.legacy)) := by
  rw [Json.get, h]
  exact tierJson_detail top stream

theorem settingsKept_evolved (h : Evolved (topLevel Number legacy) i j)
    (hseed : seedConfig (topLevel Number legacy) j = none) :
    SettingsKept Number legacy i j := by
  refine ⟨h.id, fun hown ms hms => ?_, fun hnone => ?_⟩
  · have hold : ∃ m, settingsOf i = some m ∧ ∀ k v, ms.get k = some v → m.get k = some v :=
      ⟨ms, hms, fun _ _ hv => hv⟩
    obtain rfl | rfl := h.ofSeeded hseed
    · rw [seeded_own hown]
      exact hold
    · rw [seeded_own hown]
      cases hobj : ms.isObject with
      | true =>
        obtain ⟨m, hm, hspread⟩ := settingsOf_expanded hms hobj
        refine ⟨m, hm, fun k v hv => ?_⟩
        rw [Json.get, hspread]
        exact expandTier_get hv
      | false =>
        rw [settingsOf_expanded_other fun m hm => Option.some.inj (hms.symm.trans hm) ▸ hobj]
        exact hold
  · have hset : settingsOf (seeded (topLevel Number legacy) _) = some (tierJson _) := settingsOf_seeded hnone
    obtain rfl | rfl := h.ofSeeded hseed
    · exact ⟨_, hset, carries_tierJson _⟩
    · obtain ⟨m, hm, hspread⟩ := settingsOf_expanded hset rfl
      exact ⟨m, hm, carries_spread hspread⟩

theorem detailKept_evolved (h : Evolved (topLevel Number legacy) i j)
    (hseed : seedConfig (topLevel Number legacy) j = none)
    (hexpand : expandConfig j = none) : DetailKept Number legacy i j := by
  obtain rfl := h.done hseed hexpand
  refine ⟨fun hown ms hms hobj => ?_, fun hnone => ?_⟩
  · rw [seeded_own hown]
    obtain ⟨m, hm, hspread⟩ := settingsOf_expanded hms hobj
    refine ⟨m, hm, fun stream => ?_⟩
    rw [Json.get, hspread]
    exact expandTier_detail ms stream
  · obtain ⟨m, hm, hspread⟩ := settingsOf_expanded (settingsOf_seeded hnone) rfl
    exact ⟨m, hm, fun stream => detail_spread hspread⟩

theorem forall₂_evolved {P : Integration → Integration → Prop} {rows : List Integration}
    (h : List.Forall₂ (Evolved (topLevel Number legacy)) initial rows)
    (hP : ∀ i j, j ∈ rows → Evolved (topLevel Number legacy) i j → P i j) : List.Forall₂ P initial rows := by
  rw [List.forall₂_iff_get] at h ⊢
  exact ⟨h.1, fun k hk hk' => hP _ _ (List.get_mem _ _) (h.2 k hk hk')⟩

theorem migrated_of_inv (h : Inv Number legacy initial db) (hgone : db.monitorSettings = none) :
    Migrated Number legacy initial db := by
  obtain ⟨hmanual, hints, hover⟩ := h.seeded hgone
  refine ⟨?_, forall₂_evolved h.integrations fun i j hj hij => settingsKept_evolved hij (hints j hj),
    fun kind i hi => ?_,
    fun r hr f => ?_, h.single⟩
  · obtain ⟨m, hm⟩ := Option.isSome_iff_exists.mp hmanual
    refine ⟨m, hm, ?_⟩
    obtain rfl | rfl := h.manual m hm
    · exact carries_tierJson _
    · exact (carries_tierJson _).expand
  · refine ⟨fun hhas => ?_, fun ⟨hdiff, x, hx, hf, hid⟩ => hid ▸ hover kind hdiff x hx hf⟩
    obtain ⟨r, hr, hid, rfl⟩ := hasOverride_iff.mp hhas
    obtain ⟨⟨x, hx, hf, hxid⟩, hdiff, -, -⟩ := h.overrides r hr
    exact ⟨hdiff, x, hx, hf, hxid.trans hid⟩
  · rw [(h.overrides r hr).tier]
    rfl

theorem detailed_of_inv (h : Inv Number legacy initial db) (hm : RetentionDone db) :
    Detailed Number legacy initial db := by
  obtain ⟨hgone, hmanual, hints, hover⟩ := h.expanded hm
  obtain ⟨hsome, hseed, -⟩ := h.seeded hgone
  refine ⟨?_, forall₂_evolved h.integrations fun i j hj hij =>
    detailKept_evolved hij (hseed j hj) (hints j hj),
    fun r hr stream => ?_⟩
  · obtain ⟨m, hm⟩ := Option.isSome_iff_exists.mp hsome
    have hunchanged := expandTier_unchanged (hmanual m hm)
    refine ⟨m, hm, fun stream => detail_spread ?_⟩
    obtain rfl | rfl := h.manual m hm
    · exact hunchanged.symm
    · exact spread_obj _
  · have hnone := hover r hr
    obtain hdetail | hdetail := (h.overrides r hr).detail
    · rw [hdetail]
      cases htier : r.data.tier stream.legacy with
      | none => rfl
      | some n =>
        rw [detailData] at hnone
        dsimp only at hnone
        rw [if_pos ⟨stream, by cases stream <;> decide, by rw [hdetail, htier]; rfl⟩] at hnone
        cases hnone
    · rw [hdetail]
      rfl

theorem jobs_compatible (hids : (initial.map Integration.id).Nodup) :
    Compatible (Inv Number legacy initial) LegacyGone HierarchyDone RetentionDone ByRetention ByHierarchy
      (migrateMonitorSettingsHierarchy Number) migrateRetentionTiers where
  refl₁ := ByRetention.refl
  refl₂ := ByHierarchy.refl
  trans₁ _ _ _ := ByRetention.trans
  trans₂ _ _ _ := ByHierarchy.trans
  stable₁ _ _ h := h.marker
  stable₂ _ _ h := h.marker
  first s _ := hierarchy_safe hids s
  second s _ := retention_safe hids s

def numberOf : Json → Option Rat
  | .num q => some q
  | _ => none

def tunedDocument : Json := .obj [("intervalSeconds", .num 120)]

def siteIntegrations : List Integration := [⟨"i1", "fortimanager", .obj []⟩]

/-- The process dies after the manual tier was written, and starts again. -/
def restartTurns : List Turn := List.replicate 5 .first ++ [.crash] ++ List.replicate 12 .first ++
    List.replicate 8 .second

/-- The retention job runs first, gives up, and writes its own manual tier. -/
def impatientTurns : List Turn := List.replicate 56 .second ++ List.replicate 6 .first

end Outcome

end Polaris.MigrationRuns
