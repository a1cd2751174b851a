import Polaris.Lib.Checks
import Polaris.Lib.Runs
import Polaris.ManufacturerAliases
import Polaris.ProjectionSources
import Polaris.ReservationDescription

namespace Polaris.ManufacturerBackfill

open Polaris.Cidr Polaris.Lib.Runs Polaris.Lib.Store Polaris.Lib.Text Polaris.ManufacturerNormalize
  Polaris.ManufacturerAliases

section Names

variable {toLowerCase : String → String} {cache : Option AliasMap} {raw canonical : String}
  {v : Option String}

theorem trim_trim (s : String) : trim (trim s) = trim s := by
  apply String.toList_inj.mp
  rw [ReservationDescription.toList_trim, ReservationDescription.toList_trim,
    ReservationDescription.trimChars_trimChars]

/-- A name as it is kept: trimmed, and not empty. -/
def Tidy (name : String) : Prop := trim name = name ∧ name ≠ ""

/-- Every canonical name is kept so. -/
def Clean (cache : Option AliasMap) : Prop := ∀ map ∈ cache, ∀ key canonical, map key = some canonical →
    Tidy canonical

/-- No canonical name stands, up to case, for another one. -/
def Unchained (toLowerCase : String → String) (cache : Option AliasMap) : Prop :=
  ∀ map ∈ cache, ∀ key canonical other, map key = some canonical → map (toLowerCase canonical) = some other →
    other = canonical

theorem normalize_some (raw : String) : normalizeManufacturer toLowerCase cache (some raw) =
    if trim raw = "" then none else some (normalizeText toLowerCase cache (trim raw)) := by
  rw [normalizeManufacturer, Option.bind_some]

theorem normalize_tidy (hclean : Clean cache)
    (h : normalizeManufacturer toLowerCase cache v = some canonical) :
    Tidy canonical := by
  obtain ⟨raw, rfl, _⟩ := Option.bind_eq_some_iff.mp h
  rw [normalize_some] at h
  split_ifs at h with hempty
  obtain rfl := Option.some.inj h
  cases cache with
  | none => exact ⟨trim_trim raw, hempty⟩
  | some map =>
    rw [normalizeText]
    cases hkey : map (toLowerCase (trim raw)) with
    | none => exact ⟨trim_trim raw, hempty⟩
    | some name => exact hclean map rfl _ name hkey

theorem normalize_of_tidy (h : Tidy raw) :
    normalizeManufacturer toLowerCase cache (some raw) = some (normalizeText toLowerCase cache raw) := by
  rw [normalize_some, h.1, if_neg h.2]

theorem normalizeText_fixed (hfree : Unchained toLowerCase cache) (raw : String) :
    normalizeText toLowerCase cache (normalizeText toLowerCase cache raw) =
      normalizeText toLowerCase cache raw := by
  cases cache with
  | none => rfl
  | some map =>
    simp only [normalizeText]
    cases hkey : map (toLowerCase raw) with
    | none => rw [Option.getD_none, hkey, Option.getD_none]
    | some name =>
      rw [Option.getD_some]
      cases hname : map (toLowerCase name) with
      | none => rfl
      | some other => exact hfree map rfl _ name other hkey hname

theorem normalize_normalize (hclean : Clean cache) (hfree : Unchained toLowerCase cache) (v : Option String) :
    normalizeManufacturer toLowerCase cache (normalizeManufacturer toLowerCase cache v) =
      normalizeManufacturer
      toLowerCase cache v := by
  cases v with
  | none => rfl
  | some raw =>
    by_cases hempty : trim raw = ""
    · rw [normalize_some, if_pos hempty]
      rfl
    · have hraw : normalizeManufacturer toLowerCase cache (some raw) = some (normalizeText toLowerCase cache
        (trim raw)) := by
        rw [normalize_some, if_neg hempty]
      rw [hraw, normalize_of_tidy (normalize_tidy hclean hraw), normalizeText_fixed hfree]

/-- What a row may hold: nothing, or a name as it is kept. -/
def Kept (v : Option String) : Prop := ∀ name ∈ v, Tidy name

def Fixed (toLowerCase : String → String) (cache : Option AliasMap) (v : Option String) : Prop :=
  normalizeManufacturer toLowerCase cache v = v

theorem stored_kept (hclean : Clean cache) (v : Option String) : Kept (stored toLowerCase cache v) :=
  fun _ h => normalize_tidy hclean h

theorem rewritten_of_tidy (h : Tidy raw) : rewritten toLowerCase cache (some raw) =
    (some (normalizeText toLowerCase cache raw)).filter fun canonical => canonical ≠ "" ∧
      canonical ≠ raw := by
  rw [rewritten, Option.filter_some_pos (by simpa using h.2), Option.bind_some, normalize_of_tidy h]

theorem rewritten_none (hclean : Clean cache) (hkept : Kept v) :
    rewritten toLowerCase cache v = none ↔ Fixed toLowerCase cache v := by
  cases v with
  | none => exact iff_of_true rfl rfl
  | some raw =>
    have htidy := hkept raw rfl
    have hne := (normalize_tidy hclean (@normalize_of_tidy toLowerCase cache raw htidy)).2
    rw [rewritten_of_tidy htidy, Option.filter_eq_none_iff, Fixed, normalize_of_tidy htidy, Option.some_inj]
    simp [hne]

theorem rewritten_some (hclean : Clean cache) (hfree : Unchained toLowerCase cache)
    (h : rewritten toLowerCase cache v = some canonical) :
    normalizeManufacturer toLowerCase cache v = some canonical ∧
      stored toLowerCase cache (some canonical) = some canonical ∧
      v ≠ some canonical := by
  obtain ⟨raw, hraw, hwritten⟩ := Option.bind_eq_some_iff.mp h
  obtain ⟨rfl, _⟩ := Option.filter_eq_some_iff.mp hraw
  obtain ⟨hnormal, hne⟩ := Option.filter_eq_some_iff.mp hwritten
  refine ⟨hnormal, ?_, fun heq => ?_⟩
  · have htwice := normalize_normalize hclean hfree (some raw)
    rwa [hnormal] at htwice
  · rw [Option.some.inj heq] at hne
    simp at hne

end Names

section Assets

variable {toLowerCase : String → String} {cache : Option AliasMap} {assets : List Asset}

def fixedAssets (toLowerCase : String → String) (cache : Option AliasMap) (assets : List Asset) : Prop :=
  ∀ a ∈ assets, Fixed toLowerCase cache a.manufacturer

theorem rewriteAssets_kept (hclean : Clean cache) {acc : List Asset × Nat} (raw : String)
    (h : ∀ a ∈ acc.1, Kept a.manufacturer) : ∀ a ∈ (rewriteAssets toLowerCase cache acc raw).1,
      Kept a.manufacturer := by
  rw [rewriteAssets]
  cases rewritten toLowerCase cache (some raw) with
  | none => exact h
  | some canonical =>
    intro a ha
    obtain ⟨b, hb, rfl⟩ := List.mem_map.mp ha
    split_ifs
    · dsimp only
      exact stored_kept hclean _
    · exact h b hb

/-- A turn leaves its own name on no asset, unless it is a canonical one. -/
theorem rewriteAssets_turn (hclean : Clean cache) (hfree : Unchained toLowerCase cache)
    {acc : List Asset × Nat}
    {raw : String}
    {raws : List String} (hkept : ∀ a ∈ acc.1, Kept a.manufacturer)
    (h : ∀ a ∈ acc.1, Fixed toLowerCase cache a.manufacturer ∨ ∃ r ∈ raw :: raws, a.manufacturer = some r) :
    ∀ a ∈ (rewriteAssets toLowerCase cache acc raw).1,
      Fixed toLowerCase cache a.manufacturer ∨ ∃ r ∈ raws, a.manufacturer = some r := by
  rw [rewriteAssets]
  cases hwritten : rewritten toLowerCase cache (some raw) with
  | none =>
    intro a ha
    obtain hfixed | ⟨r, hr, hraw⟩ := h a ha
    · exact .inl hfixed
    · obtain rfl | hr := List.mem_cons.mp hr
      · have hkept' := hkept a ha
        rw [hraw] at hkept' ⊢
        exact .inl ((rewritten_none hclean hkept').mp hwritten)
      · exact .inr ⟨r, hr, hraw⟩
  | some canonical =>
    obtain ⟨hnormal, hstored, _⟩ := rewritten_some hclean hfree hwritten
    intro a ha
    obtain ⟨b, hb, rfl⟩ := List.mem_map.mp ha
    by_cases hraw : b.manufacturer = some raw
    · rw [if_pos hraw]
      dsimp only
      rw [hstored]
      exact .inl hstored
    · rw [if_neg hraw]
      obtain hfixed | ⟨r, hr, hbr⟩ := h b hb
      · exact .inl hfixed
      · obtain rfl | hr := List.mem_cons.mp hr
        · exact absurd hbr hraw
        · exact .inr ⟨r, hr, hbr⟩

theorem rewriteAssets_all (hclean : Clean cache) (hfree : Unchained toLowerCase cache)
    {acc : List Asset × Nat}
    {raws : List String}
    (hkept : ∀ a ∈ acc.1, Kept a.manufacturer)
    (h : ∀ a ∈ acc.1, Fixed toLowerCase cache a.manufacturer ∨ ∃ r ∈ raws, a.manufacturer = some r) :
    fixedAssets toLowerCase cache (raws.foldl (rewriteAssets toLowerCase cache) acc).1 := by
  induction raws generalizing acc with
  | nil => exact fun a ha => (h a ha).resolve_right fun ⟨_, hr, _⟩ => List.not_mem_nil hr
  | cons raw raws ih =>
    exact ih (rewriteAssets_kept hclean raw hkept) (rewriteAssets_turn hclean hfree hkept h)

theorem rewriteAssets_idle (hclean : Clean cache) {acc : List Asset × Nat} {raws : List String}
    (h : ∀ raw ∈ raws, Tidy raw ∧ Fixed toLowerCase cache (some raw)) :
    raws.foldl (rewriteAssets toLowerCase cache) acc = acc := by
  induction raws with
  | nil => rfl
  | cons raw raws ih =>
    obtain ⟨hraw, hraws⟩ := List.forall_mem_cons.mp h
    have hkept : Kept (some raw) := fun name hname => Option.some.inj hname ▸ hraw.1
    rw [List.foldl_cons, rewriteAssets, (rewritten_none hclean hkept).mpr hraw.2]
    exact ih hraws

end Assets

section Mibs

variable {toLowerCase : String → String} {cache : Option AliasMap} {t : Table mibKey} {r m : Row MibFile}

/-- Another row already has the place that the canonical name would give. -/
def Blocked (toLowerCase : String → String) (cache : Option AliasMap) (t : Table mibKey)
    (m : Row MibFile) : Prop :=
  ∃ other ∈ t.rows, other.id ≠ m.id ∧ other.data.model = m.data.model ∧ m.data.model ≠ none ∧
    other.data.moduleName = m.data.moduleName ∧
    other.data.manufacturer = normalizeManufacturer toLowerCase cache m.data.manufacturer

def Settled (toLowerCase : String → String) (cache : Option AliasMap) (t : Table mibKey)
    (m : Row MibFile) : Prop :=
  Fixed toLowerCase cache m.data.manufacturer ∨ Blocked toLowerCase cache t m

def renamed (canonical : String) (m : MibFile) : MibFile := { m with manufacturer := some canonical }

theorem mibKey_some {m : MibFile} {manufacturer model moduleName : String} :
    mibKey m = some (manufacturer, model, moduleName) ↔
      m.manufacturer = some manufacturer ∧ m.model = some model ∧ m.moduleName = moduleName := by
  cases hman : m.manufacturer <;> cases hmodel : m.model <;> simp [mibKey, hman, hmodel]

theorem blocked_of_violation {raw canonical : String} (hr : r ∈ t.rows)
    (hraw : r.data.manufacturer = some raw)
    (hnormal : normalizeManufacturer toLowerCase cache (some raw) = some canonical)
    (h : t.updateWhere (·.id = r.id) (renamed canonical) = none) : Blocked toLowerCase cache t r := by
  by_contra hfree
  have hsame : ∀ a ∈ t.rows, decide (a.id = r.id) = true → a = r := fun a ha hid =>
    Table.eq_of_id ha hr (of_decide_eq_true hid)
  obtain ⟨t', ht'⟩ := Table.updateWhere_isSome (t := t) (p := (·.id = r.id)) (f := renamed canonical)
    (fun a ha b hb hpa hpb _ hkey => by
      obtain rfl := hsame a ha hpa
      obtain rfl := hsame b hb hpb
      refine ⟨rfl, fun hnone => hkey ?_⟩
      rw [mibKey, hraw, Option.bind_some, Option.map_eq_none_iff] at hnone
      rw [mibKey, renamed, Option.bind_some, Option.map_eq_none_iff, hnone]) (fun a ha hpa b hb hpb hkey => by
      obtain rfl := hsame a ha hpa
      by_contra hsome
      obtain ⟨⟨manufacturer, model, moduleName⟩, hb'⟩ := Option.ne_none_iff_exists'.mp hsome
      obtain ⟨hbman, hbmodel, hbname⟩ := mibKey_some.mp hb'
      rw [hb'] at hkey
      obtain ⟨haman, hamodel, haname⟩ := mibKey_some.mp hkey.symm
      change a.data.model = some model at hamodel
      change some canonical = some manufacturer at haman
      refine hfree ⟨b, hb, of_decide_eq_false hpb, hbmodel.trans hamodel.symm, ?_,
        hbname.trans haname.symm, ?_⟩
      · rw [hamodel]
        exact Option.some_ne_none model
      · rw [hraw, hnormal, haman, hbman])
  rw [h] at ht'
  cases ht'

theorem rewriteMib_cases (hclean : Clean cache) (hfree : Unchained toLowerCase cache)
    {acc : Table mibKey × Nat}
    (hr : r ∈ acc.1.rows) (hkept : Kept r.data.manufacturer) :
    rewriteMib toLowerCase cache acc r = acc ∧ Settled toLowerCase cache acc.1 r ∨
      ∃ canonical, ¬ Fixed toLowerCase cache r.data.manufacturer ∧ Fixed toLowerCase cache (some canonical) ∧
        normalizeManufacturer toLowerCase cache r.data.manufacturer = some canonical ∧
          (rewriteMib toLowerCase cache acc r).1.rows = acc.1.rows.map
            (amend (·.id = r.id) (renamed canonical)) := by
  cases hwritten : rewritten toLowerCase cache r.data.manufacturer with
  | none => exact .inl ⟨by rw [rewriteMib, hwritten], .inl ((rewritten_none hclean hkept).mp hwritten)⟩
  | some canonical =>
    obtain ⟨hnormal, hstored, hne⟩ := rewritten_some hclean hfree hwritten
    obtain ⟨raw, hraw⟩ : ∃ raw, r.data.manufacturer = some raw := by
      obtain ⟨raw, hfilter, _⟩ := Option.bind_eq_some_iff.mp hwritten
      exact ⟨raw, (Option.filter_eq_some_iff.mp hfilter).1⟩
    have hupdated : ∀ u, acc.1.updateWhere (·.id = r.id) (renamed canonical) = u →
        acc.1.updateWhere (·.id = r.id)
          (fun m => { m with manufacturer := stored toLowerCase cache (some canonical) }) = u := by
      rw [hstored]
      exact fun _ h => h
    cases hupdate : acc.1.updateWhere (·.id = r.id) (renamed canonical) with
    | none =>
      refine .inl ⟨by rw [rewriteMib, hwritten]; dsimp only; rw [hupdated _ hupdate], .inr ?_⟩
      exact blocked_of_violation hr hraw (by rw [← hraw, hnormal]) hupdate
    | some mibs =>
      refine .inr ⟨canonical, fun hfixed => hne ?_, hstored, hnormal, ?_⟩
      · rw [← hnormal, hfixed]
      · rw [rewriteMib, hwritten]
        dsimp only
        rw [hupdated _ hupdate]
        exact (Table.updateWhere_rows hupdate).1

theorem Settled.keep (hclean : Clean cache) (hfree : Unchained toLowerCase cache) {canonical : String}
    {t' : Table mibKey}
    (hr : r ∈ t.rows) (hnot : ¬ Fixed toLowerCase cache r.data.manufacturer)
    (hrows : t'.rows = t.rows.map (amend (·.id = r.id) (renamed canonical)))
    (h : Settled toLowerCase cache t m) :
    Settled toLowerCase cache t' m := by
  obtain hfixed | ⟨other, hother, hid, hmodel, hsome, hname, hman⟩ := h
  · exact .inl hfixed
  · refine .inr ⟨other, ?_, hid, hmodel, hsome, hname, hman⟩
    rw [hrows, Table.mem_map_amend hr]
    refine .inl ⟨hother, fun heq => hnot ?_⟩
    subst heq
    change normalizeManufacturer toLowerCase cache other.data.manufacturer = _
    rw [hman]
    exact normalize_normalize hclean hfree _

/-- In the middle of the pass: the rows whose turn has not come are as they
were read, and the others are settled. -/
structure Passing (toLowerCase : String → String) (cache : Option AliasMap) (t : Table mibKey)
  (rest : List (Row MibFile)) :
    Prop where
  kept : ∀ m ∈ t.rows, Kept m.data.manufacturer
  unread : ∀ m ∈ rest, m ∈ t.rows
  apart : (rest.map Row.id).Nodup
  settled : ∀ m ∈ t.rows, m ∈ rest ∨ Settled toLowerCase cache t m

theorem passing_turn (hclean : Clean cache) (hfree : Unchained toLowerCase cache) {acc : Table mibKey × Nat}
    {rest : List (Row MibFile)} (h : Passing toLowerCase cache acc.1 (r :: rest)) :
    Passing toLowerCase cache (rewriteMib toLowerCase cache acc r).1 rest := by
  have hr : r ∈ acc.1.rows := h.unread r List.mem_cons_self
  have hapart := List.nodup_cons.mp (List.map_cons ▸ h.apart)
  obtain ⟨hsame, hsettled⟩ | ⟨canonical, hnot, hfixed, _, hrows⟩ :=
    rewriteMib_cases hclean hfree hr (h.kept r hr)
  · rw [hsame]
    refine ⟨h.kept, fun m hm => h.unread m (List.mem_cons_of_mem _ hm), hapart.2, fun m hm => ?_⟩
    obtain hrest | hdone := h.settled m hm
    · obtain rfl | hrest := List.mem_cons.mp hrest
      · exact .inr hsettled
      · exact .inl hrest
    · exact .inr hdone
  · refine ⟨fun m hm => ?_, fun m hm => ?_, hapart.2, fun m hm => ?_⟩
    · rw [hrows, Table.mem_map_amend hr] at hm
      obtain ⟨hm, _⟩ | rfl := hm
      · exact h.kept m hm
      · exact fun name hname => normalize_tidy hclean (hfixed.trans hname)
    · rw [hrows, Table.mem_map_amend hr]
      refine .inl ⟨h.unread m (List.mem_cons_of_mem _ hm), fun heq => hapart.1 ?_⟩
      rw [← heq]
      exact List.mem_map_of_mem hm
    · rw [hrows, Table.mem_map_amend hr] at hm
      obtain ⟨hm, hne⟩ | rfl := hm
      · obtain hrest | hdone := h.settled m hm
        · exact .inl ((List.mem_cons.mp hrest).resolve_left hne)
        · exact .inr (hdone.keep hclean hfree hr hnot hrows)
      · exact .inr (.inl hfixed)

theorem passing_done (hclean : Clean cache) (hfree : Unchained toLowerCase cache) {acc : Table mibKey × Nat}
    {rest : List (Row MibFile)} (h : Passing toLowerCase cache acc.1 rest) :
    Passing toLowerCase cache (rest.foldl (rewriteMib toLowerCase cache) acc).1 [] := by
  induction rest generalizing acc with
  | nil => exact h
  | cons r rest ih => exact ih (passing_turn hclean hfree h)

theorem rewriteMib_idle (hclean : Clean cache) (hfree : Unchained toLowerCase cache)
    {acc : Table mibKey × Nat}
    (hr : r ∈ acc.1.rows) (hkept : Kept r.data.manufacturer) (h : Settled toLowerCase cache acc.1 r) :
    rewriteMib toLowerCase cache acc r = acc := by
  obtain ⟨hsame, _⟩ | ⟨canonical, hnot, _, hnormal, hrows⟩ := rewriteMib_cases hclean hfree hr hkept
  · exact hsame
  · obtain ⟨other, hother, hid, hmodel, hsome, hname, hman⟩ := h.resolve_left hnot
    obtain ⟨model, hrmodel⟩ := Option.ne_none_iff_exists'.mp hsome
    have hmoved : (⟨r.id, renamed canonical r.data⟩ : Row MibFile) ∈
      (rewriteMib toLowerCase cache acc r).1.rows := by
      rw [hrows, Table.mem_map_amend hr]
      exact .inr rfl
    have hstill : other ∈ (rewriteMib toLowerCase cache acc r).1.rows := by
      rw [hrows, Table.mem_map_amend hr]
      exact .inl ⟨hother, fun heq => hid (congrArg Row.id heq)⟩
    have hkey : mibKey other.data = some (canonical, model, r.data.moduleName) :=
      mibKey_some.mpr ⟨hman.trans hnormal, hmodel.trans hrmodel, hname⟩
    have hkey' : mibKey (renamed canonical r.data) = some (canonical, model, r.data.moduleName) :=
      mibKey_some.mpr ⟨rfl, hrmodel, rfl⟩
    have heq := Table.eq_of_key hstill hmoved (hkey.trans hkey'.symm)
      (by rw [hkey]; exact Option.some_ne_none _)
    exact absurd (congrArg Row.id heq) hid

theorem rewriteMibs_idle (hclean : Clean cache) (hfree : Unchained toLowerCase cache)
    {acc : Table mibKey × Nat}
    {rest : List (Row MibFile)} (h : Passing toLowerCase cache acc.1 [])
    (hrest : ∀ m ∈ rest, m ∈ acc.1.rows) :
    rest.foldl (rewriteMib toLowerCase cache) acc = acc := by
  induction rest with
  | nil => rfl
  | cons r rest ih =>
    obtain ⟨hr, hrest⟩ := List.forall_mem_cons.mp hrest
    rw [List.foldl_cons, rewriteMib_idle hclean hfree hr (h.kept r hr)
      ((h.settled r hr).resolve_left List.not_mem_nil)]
    exact ih hrest

theorem rewriteMib_kept (hclean : Clean cache) {acc : Table mibKey × Nat}
    (h : ∀ m ∈ acc.1.rows, Kept m.data.manufacturer) :
    ∀ m ∈ (rewriteMib toLowerCase cache acc r).1.rows, Kept m.data.manufacturer := by
  rw [rewriteMib]
  cases rewritten toLowerCase cache r.data.manufacturer with
  | none => exact h
  | some canonical =>
    dsimp only
    cases hupdate : acc.1.updateWhere (·.id = r.id)
      (fun m => { m with manufacturer := stored toLowerCase cache (some canonical) }) with
    | none => exact h
    | some mibs =>
      intro m hm
      rw [(Table.updateWhere_rows hupdate).1] at hm
      obtain ⟨b, hb, rfl⟩ := List.mem_map.mp hm
      rw [amend]
      split_ifs
      · dsimp only
        exact stored_kept hclean _
      · exact h b hb

end Mibs

section Backfill

variable {toLowerCase : String → String} {s : State}

/-- The canonical names in the table and in the map, and the manufacturers of
the rows, are as they are to be kept. -/
structure WellKept (s : State) : Prop where
  cache : Clean s.cache
  aliases : ∀ r ∈ s.aliases.rows, Tidy r.data.canonical
  assets : ∀ a ∈ s.assets, Kept a.manufacturer
  mibs : ∀ m ∈ s.mibs.rows, Kept m.data.manufacturer

theorem backfill_settles (h : WellKept s) (hfree : Unchained toLowerCase s.cache) :
    fixedAssets toLowerCase s.cache (applyAliasesToExistingRows toLowerCase s).1.assets ∧
      Passing toLowerCase s.cache (applyAliasesToExistingRows toLowerCase s).1.mibs [] := by
  refine ⟨rewriteAssets_all h.cache hfree h.assets fun a ha => ?_, passing_done h.cache hfree ⟨h.mibs, ?_, ?_,
    fun m hm => ?_⟩⟩
  · cases hman : a.manufacturer with
    | none => exact .inl rfl
    | some raw =>
      refine .inr ⟨raw, List.mem_eraseDups.mpr (List.mem_filterMap.mpr ⟨a, ha, hman⟩), rfl⟩
  · exact fun m hm => (List.mem_filter.mp hm).1
  · exact s.mibs.ids_nodup.sublist (List.filter_sublist.map Row.id)
  · cases hman : m.data.manufacturer with
    | none => exact .inr (.inl (by rw [hman]; rfl))
    | some raw => exact .inl (List.mem_filter.mpr ⟨hm, by rw [hman]; rfl⟩)

theorem backfill_kept (h : WellKept s) : WellKept (applyAliasesToExistingRows toLowerCase s).1 := by
  refine ⟨h.cache, h.aliases, ?_, ?_⟩
  · exact foldl_invariant (I := fun acc : List Asset × Nat => ∀ a ∈ acc.1, Kept a.manufacturer)
      (fun _ raw hacc _ => rewriteAssets_kept h.cache raw hacc) h.assets along_true
  · exact foldl_invariant (I := fun acc : Table mibKey × Nat => ∀ m ∈ acc.1.rows, Kept m.data.manufacturer)
      (fun _ _ hacc _ => rewriteMib_kept h.cache hacc) h.mibs along_true

theorem backfill_idle (h : WellKept s) (hfree : Unchained toLowerCase s.cache)
    (hassets : fixedAssets toLowerCase s.cache s.assets) (hmibs : Passing toLowerCase s.cache s.mibs []) :
    applyAliasesToExistingRows toLowerCase s = (s, 0, 0) := by
  rw [applyAliasesToExistingRows, rewriteAssets_idle h.cache, rewriteMibs_idle h.cache hfree hmibs]
  · exact fun m hm => (List.mem_filter.mp hm).1
  · intro raw hraw
    obtain ⟨a, ha, hman⟩ := List.mem_filterMap.mp (List.mem_eraseDups.mp hraw)
    exact ⟨h.assets a ha raw hman, hman ▸ hassets a ha⟩

end Backfill

section Runs

variable {toLowerCase : String → String} {s s' : State} {e : Event}

theorem setAliasMap_some {entries : List (String × String)} {key canonical : String}
    (h : setAliasMap toLowerCase entries key = some canonical) :
    ∃ entry ∈ entries, entry.2 = canonical ∧ toLowerCase (trim entry.1) = key ∧ key ≠ "" := by
  induction entries using List.reverseRecOn with
  | nil => cases h
  | append_singleton entries entry ih =>
    rw [setAliasMap, List.foldl_append, List.foldl_cons, List.foldl_nil, setAlias] at h
    have hearlier : setAliasMap toLowerCase entries key = some canonical →
        ∃ e ∈ entries ++ [entry], e.2 = canonical ∧ toLowerCase (trim e.1) = key ∧ key ≠ "" := fun h => by
      obtain ⟨e, he, hrest⟩ := ih h
      exact ⟨e, List.mem_append_left _ he, hrest⟩
    split_ifs at h with hempty
    · exact hearlier h
    · by_cases hkey : key = toLowerCase (trim entry.1)
      · subst hkey
        rw [Function.update_self] at h
        exact ⟨entry, List.mem_append_right _ (List.mem_singleton_self _), Option.some.inj h, rfl, hempty⟩
      · rw [Function.update_of_ne hkey] at h
        exact hearlier h

theorem refresh_kept (h : WellKept s) : WellKept (refreshAliasCache toLowerCase s) := by
  refine ⟨fun map hmap key canonical hkey => ?_, h.aliases, h.assets, h.mibs⟩
  obtain rfl := Option.some.inj hmap
  obtain ⟨entry, hentry, rfl, _⟩ := setAliasMap_some hkey
  obtain ⟨r, hr, rfl⟩ := List.mem_map.mp hentry
  exact h.aliases r hr

theorem tidy_trim {text : String} (h : trim text ≠ "") : Tidy (trim text) := ⟨trim_trim text, h⟩

theorem insert_tidy {t t' : Table aliasKey} {data : ManufacturerAlias} (hinsert : t.insert data = some t')
    (h : ∀ r ∈ t.rows, Tidy r.data.canonical) (hdata : Tidy data.canonical) :
    ∀ r ∈ t'.rows, Tidy r.data.canonical := by
  rw [(Table.insert_rows hinsert).1]
  intro r hr
  obtain hr | hr := List.mem_append.mp hr
  · exact h r hr
  · exact List.mem_singleton.mp hr ▸ hdata

theorem create_kept {input : ManufacturerAlias} (h : WellKept s)
    (hcreate : createAlias toLowerCase s input = .ok s') :
    WellKept s' := by
  rw [createAlias] at hcreate
  split_ifs at hcreate with _ hcanonical
  split at hcreate
  · cases hcreate
  next aliases hinsert =>
    obtain rfl := Except.ok.inj hcreate
    exact refresh_kept ⟨h.cache, insert_tidy hinsert h.aliases (tidy_trim hcanonical), h.assets, h.mibs⟩

theorem givenField_tidy {message : String} {given canonical : Option String}
    (h : givenField trim message given = .ok canonical) :
    ∀ text ∈ canonical, Tidy text := by
  cases given with
  | none =>
    obtain rfl := Except.ok.inj h
    exact fun _ h => (by cases h)
  | some raw =>
    rw [givenField] at h
    split_ifs at h with hempty
    obtain rfl := Except.ok.inj h
    exact fun text htext => Option.some.inj htext ▸ tidy_trim hempty

theorem update_kept {id : Nat} {aliasText canonical : Option String} (h : WellKept s)
    (hupdate : updateAlias toLowerCase s id aliasText canonical = .ok s') : WellKept s' := by
  obtain ⟨aliasText, _, hrest⟩ := Lib.Checks.bind_ok hupdate
  obtain ⟨canonical, hcanonical, hrest⟩ := Lib.Checks.bind_ok hrest
  split_ifs at hrest
  split at hrest
  · cases hrest
  next aliases hwritten =>
    obtain rfl := Except.ok.inj hrest
    refine refresh_kept ⟨h.cache, fun r hr => ?_, h.assets, h.mibs⟩
    rw [(Table.updateWhere_rows hwritten).1] at hr
    obtain ⟨b, hb, rfl⟩ := List.mem_map.mp hr
    rw [amend]
    split_ifs
    · change Tidy (canonical.getD b.data.canonical)
      cases hgiven : canonical with
      | none => exact h.aliases b hb
      | some text => exact givenField_tidy hcanonical text hgiven
    · exact h.aliases b hb

theorem delete_kept {id : Nat} (h : WellKept s) (hdelete : deleteAlias toLowerCase s id = .ok s') :
    WellKept s' := by
  rw [deleteAlias] at hdelete
  split_ifs at hdelete
  obtain rfl := Except.ok.inj hdelete
  exact refresh_kept ⟨h.cache, fun r hr => h.aliases r (Table.mem_deleteWhere.mp hr).1, h.assets, h.mibs⟩

theorem seedEntry_tidy {t : Table aliasKey} {entry : ManufacturerAlias}
    (h : ∀ r ∈ t.rows, Tidy r.data.canonical) :
    ∀ r ∈ (seedEntry toLowerCase t entry).rows, Tidy r.data.canonical := by
  rw [seedEntry]
  split_ifs with hempty
  · exact h
  · exact h
  · cases hinsert : t.insert ⟨toLowerCase (trim entry.aliasText), trim entry.canonical⟩ with
    | none => exact h
    | some t' => exact insert_tidy hinsert h (tidy_trim fun hcanonical => hempty (.inr hcanonical))

theorem seedEntries_tidy (entries : List ManufacturerAlias) {t : Table aliasKey}
    (h : ∀ r ∈ t.rows, Tidy r.data.canonical) :
    ∀ r ∈ (entries.foldl (seedEntry toLowerCase) t).rows, Tidy r.data.canonical := by
  induction entries generalizing t with
  | nil => exact h
  | cons entry entries ih => exact ih (seedEntry_tidy h)

theorem seed_kept (h : WellKept s) : WellKept (seedDefaultAliases toLowerCase s) :=
  ⟨h.cache, seedEntries_tidy DEFAULT_ALIASES h.aliases, h.assets, h.mibs⟩

theorem saveAsset_kept (h : WellKept s) (id : String) (manufacturer : Option String) :
    WellKept (saveAsset toLowerCase s id manufacturer) := by
  refine ⟨h.cache, h.aliases, fun a ha => ?_, h.mibs⟩
  rw [saveAsset] at ha
  split_ifs at ha
  · obtain ⟨b, hb, rfl⟩ := List.mem_map.mp ha
    split_ifs
    · dsimp only
      exact stored_kept h.cache _
    · exact h.assets b hb
  · obtain ha | ha := List.mem_append.mp ha
    · exact h.assets a ha
    · exact List.mem_singleton.mp ha ▸ @stored_kept toLowerCase s.cache h.cache manufacturer

theorem createMib_kept {filename moduleName : String} {manufacturer model : Option String} (h : WellKept s)
    (hcreate : createMib toLowerCase s filename manufacturer model moduleName = .ok s') : WellKept s' := by
  rw [createMib] at hcreate
  split_ifs at hcreate
  split at hcreate
  · cases hcreate
  next mibs hinsert =>
    obtain rfl := Except.ok.inj hcreate
    refine ⟨h.cache, h.aliases, h.assets, fun m hm => ?_⟩
    change m ∈ mibs.rows at hm
    rw [(Table.insert_rows hinsert).1] at hm
    obtain hm | hm := List.mem_append.mp hm
    · exact h.mibs m hm
    · exact List.mem_singleton.mp hm ▸ @stored_kept toLowerCase s.cache h.cache _

theorem kept_or (h : WellKept s) {r : Except Failure State} (hok : ∀ s', r = .ok s' → WellKept s') :
    WellKept (r.toOption.getD s) := by
  cases r with
  | error _ => exact h
  | ok s' => exact hok s' rfl

theorem wellKept_step (h : WellKept s) : WellKept (step toLowerCase s e) := by
  cases e with
  | createAlias input => exact kept_or h fun _ => create_kept h
  | updateAlias id aliasText canonical => exact kept_or h fun _ => update_kept h
  | deleteAlias id => exact kept_or h fun _ => delete_kept h
  | seedDefaultAliases => exact seed_kept h
  | refreshAliasCache => exact refresh_kept h
  | applyAliasesToExistingRows => exact backfill_kept h
  | saveAsset id manufacturer => exact saveAsset_kept h id manufacturer
  | deleteAsset id => exact ⟨h.cache, h.aliases, fun a ha => h.assets a (List.mem_filter.mp ha).1, h.mibs⟩
  | createMib filename manufacturer model moduleName => exact kept_or h fun _ => createMib_kept h
  | deleteMib id =>
    refine kept_or h fun s' hdelete => ?_
    rw [deleteMib] at hdelete
    split_ifs at hdelete
    obtain rfl := Except.ok.inj hdelete
    exact ⟨h.cache, h.aliases, h.assets, fun m hm => h.mibs m (Table.mem_deleteWhere.mp hm).1⟩

theorem wellKept_run (events : List Event) : WellKept (events.foldl (step toLowerCase) installed) :=
  foldl_invariant (fun _ _ hs _ => wellKept_step hs)
    ⟨fun _ h => (by cases h), fun _ h => (by cases h), fun _ h => (by cases h), fun _ h => (by cases h)⟩
      along_true

/-- The projection of an asset relies on this. -/
theorem named_run (events : List Event) :
    ProjectionSources.Named (events.foldl (step toLowerCase) installed).cache :=
  fun map hmap key hkey => ((wellKept_run events).cache map hmap key "" hkey).2 rfl

theorem unchained_of_rows {entries : List (String × String)}
    (h : ∀ e ∈ entries, ∀ e' ∈ entries, toLowerCase (trim e'.1) = toLowerCase e.2 → e'.2 = e.2) :
    Unchained toLowerCase (some (setAliasMap toLowerCase entries)) := by
  intro map hmap key canonical other hkey hother
  obtain rfl := Option.some.inj hmap
  obtain ⟨e, he, rfl, _⟩ := setAliasMap_some hkey
  obtain ⟨e', he', rfl, hcase, _⟩ := setAliasMap_some hother
  exact h e he e' he' hcase

end Runs

section Claim

variable (toLowerCase : String → String)

theorem backfill_projects (events : List Event)
    (hfree : Unchained toLowerCase (events.foldl (step toLowerCase) installed).cache) :
    let s := events.foldl (step toLowerCase) installed
    let done := (applyAliasesToExistingRows toLowerCase s).1
    (∀ v, normalizeManufacturer toLowerCase s.cache (normalizeManufacturer toLowerCase s.cache v) =
        normalizeManufacturer toLowerCase s.cache v) ∧
      applyAliasesToExistingRows toLowerCase done = (done, 0, 0) ∧
      (∀ a ∈ done.assets, Fixed toLowerCase s.cache a.manufacturer) ∧
      ∀ m ∈ done.mibs.rows, Fixed toLowerCase s.cache m.data.manufacturer ∨
        Blocked toLowerCase s.cache done.mibs m := by
  intro s done
  have hs : WellKept s := wellKept_run events
  obtain ⟨hassets, hmibs⟩ := backfill_settles hs hfree
  refine ⟨normalize_normalize hs.cache hfree, backfill_idle (backfill_kept hs) hfree hassets hmibs, hassets,
    fun m hm => ?_⟩
  exact (hmibs.settled m hm).resolve_left List.not_mem_nil

def lower (s : String) : String := String.ofList (s.toList.map Char.toLower)

def settling : List Event :=
  [.saveAsset "fw1" (some "fortinet, inc."), .createMib "a.mib" (some "Cisco Systems") none "CISCO-MIB",
    .createAlias ⟨"Fortinet, Inc.", "Fortinet"⟩, .createAlias ⟨"Cisco Systems", "Cisco"⟩]

theorem backfill_projects_settling :
    let s := settling.foldl (step lower) installed
    let done := (applyAliasesToExistingRows lower s).1
    (done.assets.map (·.manufacturer) = [some "Fortinet"] ∧
      done.mibs.rows.map (·.data.manufacturer) = [some "Cisco"]) ∧
      (∀ v, normalizeManufacturer lower s.cache (normalizeManufacturer lower s.cache v) =
        normalizeManufacturer lower s.cache v) ∧
      applyAliasesToExistingRows lower done = (done, 0, 0) ∧
      (∀ a ∈ done.assets, Fixed lower s.cache a.manufacturer) ∧
      ∀ m ∈ done.mibs.rows, Fixed lower s.cache m.data.manufacturer ∨ Blocked lower s.cache done.mibs m := by
  have hentries : ∀ e ∈ (settling.foldl (step lower) installed).aliases.rows.map fun r =>
        (r.data.aliasText, r.data.canonical),
      ∀ e' ∈ (settling.foldl (step lower) installed).aliases.rows.map fun r =>
        (r.data.aliasText, r.data.canonical),
        lower (trim e'.1) = lower e.2 → e'.2 = e.2 := by decide +kernel
  have hcache : (settling.foldl (step lower) installed).cache = some (setAliasMap lower
      ((settling.foldl (step lower) installed).aliases.rows.map fun r => (r.data.aliasText,
        r.data.canonical))) := rfl
  have hfree : Unchained lower (settling.foldl (step lower) installed).cache :=
    hcache ▸ unchained_of_rows hentries
  exact ⟨by decide +kernel, backfill_projects lower settling hfree⟩

def chained : List Event := [.createAlias ⟨"Acme Inc", "Acme"⟩, .createAlias ⟨"Acme", "Acme Group"⟩]

def collapsing : List Event :=
  [.createMib "a.mib" (some "Acme Inc") (some "m1") "ACME-MIB",
    .createMib "b.mib" (some "Acme") (some "m1") "ACME-MIB",
    .createAlias ⟨"Acme Inc", "Acme"⟩, .applyAliasesToExistingRows]

/-- An alias of an alias takes two steps, and of two MIBs that would be one
the second keeps its manufacturer. -/
theorem chain_and_collision :
    normalizeManufacturer lower (chained.foldl (step lower) installed).cache (some "Acme Inc") = some "Acme" ∧
      normalizeManufacturer lower (chained.foldl (step lower) installed).cache (some "Acme") =
        some "Acme Group" ∧
      (collapsing.foldl (step lower) installed).mibs.rows.map (·.data.manufacturer) =
        [some "Acme Inc", some "Acme"] ∧
      normalizeManufacturer lower (collapsing.foldl (step lower) installed).cache (some "Acme Inc") =
        some "Acme" := by
  decide +kernel

end Claim

end Polaris.ManufacturerBackfill
