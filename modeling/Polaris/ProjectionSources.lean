import Polaris.AssetProjection

namespace Polaris.ProjectionSources

open Polaris.Lib.Priority Polaris.Lib.Text Polaris.ManufacturerNormalize Polaris.AssetProjection

section Values

variable {toLowerCase : String → String} {aliasMap : Option AliasMap} {o : Observed} {key : String}

/-- No alias stands for the empty name. -/
def Named (aliasMap : Option AliasMap) : Prop := ∀ map ∈ aliasMap, ∀ key, map key ≠ some ""

theorem named_unloaded : Named none := by
  intro map hmap
  cases hmap

def GivesValue (rule : FieldRule) : Prop := ∀ o, rule.pick o ≠ some (.text "")

theorem obsString_ne_empty : obsString o key ≠ some "" := by
  rw [obsString]
  split
  next s _ =>
    by_cases htrim : trim s = ""
    · rw [if_pos htrim]
      exact nofun
    · rw [if_neg htrim]
      exact fun h => htrim (Option.some.inj h)
  next => exact nofun

theorem normalizeText_ne_empty (hnames : Named aliasMap) {s : String} (hs : s ≠ "") :
    normalizeText toLowerCase aliasMap s ≠ "" := by
  cases aliasMap with
  | none => exact hs
  | some map =>
    rw [normalizeText]
    cases hmap : map (toLowerCase s) with
    | none => exact hs
    | some name =>
      rintro rfl
      exact hnames map rfl _ hmap

theorem normalizeManufacturer_ne_empty (hnames : Named aliasMap) (input : Option String) :
    normalizeManufacturer toLowerCase aliasMap input ≠ some "" := by
  cases input with
  | none => exact nofun
  | some s =>
    rw [normalizeManufacturer, Option.bind_some]
    by_cases htrim : trim s = ""
    · rw [if_pos htrim]
      exact nofun
    · rw [if_neg htrim]
      exact fun h => normalizeText_ne_empty hnames htrim (Option.some.inj h)

theorem map_text_ne {s : Option String} (h : s ≠ some "") : s.map Value.text ≠ some (.text "") := by
  intro hs
  obtain ⟨t, rfl, ht⟩ := Option.map_eq_some_iff.mp hs
  cases ht
  exact h rfl

theorem textRule_gives (kind : AssetSourceKind) (key : String) : GivesValue (textRule kind key) :=
  fun _ => map_text_ne obsString_ne_empty

theorem vendorRule_gives (hnames : Named aliasMap) (kind : AssetSourceKind) (key : String) :
    GivesValue (vendorRule toLowerCase aliasMap kind key) :=
  fun _ => map_text_ne (normalizeManufacturer_ne_empty hnames _)

theorem coordinateRule_gives (side : Tier → Observed → Option Number)
    (t : Tier) : GivesValue (coordinateRule side t) := by
  intro o h
  rw [coordinateRule] at h
  dsimp only at h
  split_ifs at h
  obtain ⟨_, _, hv⟩ := Option.map_eq_some_iff.mp h
  cases hv

theorem hostname_gives : ∀ rule ∈ HOSTNAME_RULES, GivesValue rule := by
  have hfqdn : ∀ o, ((obsString o "dnsHostName").filter fun v => '.' ∈ v.toList) ≠ some "" := by
    intro o h
    exact obsString_ne_empty (Option.filter_eq_some_iff.mp h).1
  have hshort : ∀ o, (obsString o "dnsHostName").or (obsString o "cn") ≠ some "" := by
    intro o h
    cases hdns : obsString o "dnsHostName" with
    | none =>
      rw [hdns, Option.none_or] at h
      exact obsString_ne_empty h
    | some v =>
      rw [hdns, Option.some_or] at h
      exact obsString_ne_empty (hdns.trans h)
  simp only [HOSTNAME_RULES, List.forall_mem_cons, textRule_gives, true_and]
  exact ⟨fun o => map_text_ne (hfqdn o), fun o => map_text_ne (hshort o),
    fun _ h => absurd h List.not_mem_nil⟩

/-- No rule of any field gives an empty text. -/
theorem rulesOf_give (hnames : Named aliasMap) (field : Field) : ∀ rule ∈ rulesOf toLowerCase aliasMap field,
    GivesValue rule := by
  have hfortinet : ∀ kind, GivesValue (fortinetRule kind) := by
    intro kind o h
    have htext : "Fortinet" = "" := Value.text.inj (Option.some.inj h)
    exact absurd htext (by decide)
  cases field with
  | hostname => exact hostname_gives
  | latitude | longitude =>
    intro rule hrule
    obtain ⟨t, -, rfl⟩ := List.mem_map.mp hrule
    exact coordinateRule_gives _ t
  | manufacturer =>
    simp only [rulesOf, MANUFACTURER_RULES, List.forall_mem_cons, vendorRule_gives hnames, hfortinet,
      true_and]
    exact fun _ h => absurd h List.not_mem_nil
  | _ =>
    simp only [rulesOf, SERIAL_RULES, MODEL_RULES, OS_RULES, OS_VERSION_RULES, LEARNED_LOCATION_RULES,
      IP_ADDRESS_RULES,
      SNMP_LOCATION_RULES, List.forall_mem_cons, textRule_gives, true_and]
    exact fun _ h => absurd h List.not_mem_nil

end Values

section Sources

/-- The rules of a field as a scheme over the sources. One that was inferred
is of no kind. -/
def scheme (rules : List FieldRule) : Scheme AssetSource FieldRule AssetSourceKind Value where
  kind s := if s.inferred then none else some s.sourceKind
  target := FieldRule.sourceKind
  value rule s := (rule.pick s.observed).filter (· ≠ .text "")
  rules := rules

theorem scheme_kind {rules : List FieldRule} {s : AssetSource} {kind : AssetSourceKind} :
    (scheme rules).kind s = some kind ↔ s.sourceKind = kind ∧ s.inferred = false := by
  cases hs : s.inferred <;> simp [scheme, hs]

theorem projectField_eq (sources : List AssetSource) (rules : List FieldRule) :
    projectField sources rules = (scheme rules).select sources := by
  apply congrArg fun f => rules.findSome? f
  funext rule
  apply congrArg fun c : Option AssetSource => (c.bind ((scheme rules).value rule)).map (rule.sourceKind, ·)
  apply congrArg fun p => sources.find? p
  funext s
  rw [Bool.eq_iff_iff, Bool.and_eq_true, decide_eq_true_eq, decide_eq_true_eq, Bool.not_eq_true', scheme_kind]
  rfl

variable (toLowerCase : String → String) (aliasMap : Option AliasMap)

def fieldScheme (field : Field) : Scheme AssetSource FieldRule AssetSourceKind Value :=
  scheme (rulesOf toLowerCase aliasMap field)

/-- The order counts for no field beyond the ties between sources of one kind
that both have a value for it, and a field is null only where no rule of its
own has a value from any source. -/
def SeesEverySource (sources : List AssetSource) : Prop :=
  ∀ field,
    (∀ sources', (fieldScheme toLowerCase aliasMap field).Reordered sources sources' →
      (projectAssetFromSources toLowerCase aliasMap sources').projected field =
        (projectAssetFromSources toLowerCase aliasMap sources).projected field ∧
      (projectAssetFromSources toLowerCase aliasMap sources').provenance field =
        (projectAssetFromSources toLowerCase aliasMap sources).provenance field) ∧
    ((projectAssetFromSources toLowerCase aliasMap sources).projected field = none →
      ∀ s ∈ sources, s.inferred = false → ∀ rule ∈ rulesOf toLowerCase aliasMap field,
        rule.sourceKind = s.sourceKind → rule.pick s.observed = none)

variable {toLowerCase aliasMap} {sources : List AssetSource}

theorem silent_iff (hnames : Named aliasMap) (field : Field) (s : AssetSource) :
    (fieldScheme toLowerCase aliasMap field).speaks s = false ↔
      (s.inferred = false → ∀ rule ∈ rulesOf toLowerCase aliasMap field, rule.sourceKind = s.sourceKind →
        rule.pick s.observed = none) := by
  constructor
  · intro hsilent hinferred rule hrule hkind
    have hnone := Scheme.value_of_silent (S := fieldScheme toLowerCase aliasMap field) hrule
      (scheme_kind.mpr ⟨hkind.symm, hinferred⟩) hsilent
    cases hpick : rule.pick s.observed with
    | none => rfl
    | some v =>
      have hne : v ≠ .text "" := fun hv => rulesOf_give hnames field rule hrule s.observed (hv ▸ hpick)
      have hvalue : (fieldScheme toLowerCase aliasMap field).value rule s =
        (rule.pick s.observed).filter (· ≠ .text "") := rfl
      rw [hvalue, hpick, Option.filter_some, if_pos (decide_eq_true hne)] at hnone
      cases hnone
  · intro h
    by_contra hspeaks
    rw [Bool.not_eq_false] at hspeaks
    obtain ⟨rule, hrule, hkind, hvalue⟩ := Scheme.speaks_iff.mp hspeaks
    obtain ⟨hsame, hinferred⟩ := scheme_kind.mp hkind
    have hfilter : ((rule.pick s.observed).filter (· ≠ .text "")).isSome = true := hvalue
    rw [h hinferred rule hrule hsame.symm] at hfilter
    cases hfilter

theorem projection_iff {sources' : List AssetSource} (field : Field) :
    ((projectAssetFromSources toLowerCase aliasMap sources').projected field =
        (projectAssetFromSources toLowerCase aliasMap sources).projected field ∧
      (projectAssetFromSources toLowerCase aliasMap sources').provenance field =
        (projectAssetFromSources toLowerCase aliasMap sources).provenance field) ↔
      (fieldScheme toLowerCase aliasMap field).select sources' =
        (fieldScheme toLowerCase aliasMap field).select
        sources := by
  dsimp only [projectAssetFromSources]
  rw [projectField_eq, projectField_eq, fieldScheme]
  cases (scheme (rulesOf toLowerCase aliasMap field)).select sources' with
  | none => cases (scheme (rulesOf toLowerCase aliasMap field)).select sources <;> simp
  | some p =>
    cases (scheme (rulesOf toLowerCase aliasMap field)).select sources with
    | none => simp
    | some q => simp [Prod.ext_iff, and_comm]

/-- No source is passed over just when, for every field, all sources of the
kind that decides it have a value for it. -/
theorem projection_sees_iff (hnames : Named aliasMap) (sources : List AssetSource) :
    SeesEverySource toLowerCase aliasMap sources ↔
      ∀ field, (fieldScheme toLowerCase aliasMap field).Settled sources := by
  apply forall_congr'
  intro field
  rw [← Scheme.select_free_iff]
  apply and_congr
  · exact forall₂_congr fun sources' _ => projection_iff field
  · have hnull : (projectAssetFromSources toLowerCase aliasMap sources).projected field = none ↔
        (fieldScheme toLowerCase aliasMap field).select sources = none := by
      dsimp only [projectAssetFromSources]
      rw [Option.map_eq_none_iff, projectField_eq, fieldScheme]
    rw [hnull]
    exact forall_congr' fun _ => forall₂_congr fun s _ => (silent_iff hnames field s).symm

def enrolledTwice : List AssetSource :=
  [⟨.intune, false, some [("deviceName", .text "lt-7"), ("serialNumber", .text "5CD1"),
                          ("model", .text "EliteBook"),
      ("osVersion", .text "10.0")]⟩,
    ⟨.polarisAgent, false, some [("hostname", .text "lt-7"), ("os", .text "Windows 11 Pro")]⟩,
    ⟨.ad, false, some [("dnsHostName", .text "lt-7.corp.example")]⟩,
    ⟨.intune, false, some [("serialNumber", .text "5CD2"), ("model", .text "EliteBook"),
      ("osVersion", .text "10.0")]⟩]

theorem projection_sees_enrolments : SeesEverySource id none enrolledTwice := by
  refine (projection_sees_iff named_unloaded enrolledTwice).mpr fun field => ?_
  cases field <;> decide +kernel

def partialTwins : List AssetSource :=
  [⟨.intune, false, some [("deviceName", .text "lt-7")]⟩,
    ⟨.intune, false, some [("serialNumber", .text "5CD2")]⟩]

theorem partial_twin_hides_serial : ¬ SeesEverySource id none partialTwins := by
  intro h
  have hnull : (projectAssetFromSources id none partialTwins).projected .serialNumber =
    none := by decide +kernel
  have hsilent :=
    (h .serialNumber).2 hnull ⟨.intune, false, some [("serialNumber", .text "5CD2")]⟩ (by decide) rfl
    (textRule .intune "serialNumber") (List.mem_cons_of_mem _ List.mem_cons_self) rfl
  revert hsilent
  decide +kernel

end Sources

section Coordinates

variable {sources : List AssetSource} {o : Observed} {t : Tier}

def firewall (sources : List AssetSource) : Option AssetSource :=
  sources.find? fun s => s.sourceKind = .fortigateFirewall && !s.inferred

theorem isValidGeoCoord_some {lat lng : Option Number} (h : isValidGeoCoord lat lng = true) :
    ∃ x y, lat = some x ∧ lng = some y := by
  cases lat with
  | none => cases h
  | some x =>
    cases lng with
    | none => cases x <;> cases h
    | some y => exact ⟨x, y, rfl, rfl⟩

def pair (side : Tier → Observed → Option Number) (o : Observed) (t : Tier) : Option Value :=
  if t.valid o then (side t o).map .number else none

theorem coordinateRule_answer (side : Tier → Observed → Option Number) (t : Tier) :
    (((sources.find? fun s => s.sourceKind = (coordinateRule side t).sourceKind && !s.inferred).bind
      fun candidate =>
      ((coordinateRule side t).pick candidate.observed).filter (· ≠ .text "")).map
        ((coordinateRule side t).sourceKind, ·)) =
      (firewall sources).bind fun s => (pair side s.observed t).map (.fortigateFirewall, ·) := by
  have hfirewall : (sources.find? fun s => s.sourceKind = (coordinateRule side t).sourceKind && !s.inferred) =
      firewall sources := rfl
  rw [hfirewall]
  cases firewall sources with
  | none => rfl
  | some s =>
    have hgives : pair side s.observed t ≠ some (.text "") := coordinateRule_gives side t s.observed
    have hpick : (coordinateRule side t).pick s.observed = pair side s.observed t := rfl
    rw [Option.bind_some, Option.bind_some, hpick]
    cases hpair : pair side s.observed t with
    | none => rfl
    | some v =>
      have hne : v ≠ .text "" := fun hv => hgives (hv ▸ hpair)
      rw [Option.filter_some, if_pos (decide_eq_true hne)]
      rfl

/-- Either coordinate comes from the first tier that holds a valid pair. -/
theorem projectField_coordinate (side : Tier → Observed → Option Number) (l : List Tier) :
    projectField sources (l.map (coordinateRule side)) = (firewall sources).bind fun s =>
      (l.findSome? (pair side s.observed)).map (.fortigateFirewall, ·) := by
  rw [projectField, List.findSome?_map]
  induction l with
  | nil => cases firewall sources <;> rfl
  | cons t l ih =>
    rw [List.findSome?_cons, ih, Function.comp, coordinateRule_answer]
    cases firewall sources with
    | none => rfl
    | some s =>
      rw [Option.bind_some, Option.bind_some, Option.bind_some, List.findSome?_cons]
      cases pair side s.observed t <;> rfl

theorem findSome_pair_none (side : Tier → Observed → Option Number) {o : Observed} {l : List Tier}
    (hinvalid : ∀ t ∈ l, t.valid o = false) : l.findSome? (pair side o) = none := by
  rw [List.findSome?_eq_none_iff]
  intro t ht
  rw [pair, hinvalid t ht, if_neg Bool.false_ne_true]

theorem findSome_pair_some (side : Tier → Observed → Option Number) {o : Observed} {higher lower : List Tier}
    {t : Tier} {x : Number} (hhigher : ∀ t' ∈ higher, t'.valid o = false) (hvalid : t.valid o = true)
    (hx : side t o = some x) : (higher ++ t :: lower).findSome? (pair side o) = some (.number x) := by
  rw [List.findSome?_append, findSome_pair_none side hhigher, Option.none_or, List.findSome?_cons, pair,
    if_pos hvalid, hx]
  rfl

/-- Both coordinates are missing, and no tier of the firewall's source holds
a valid pair, or both are the pair of the first tier that does. -/
theorem coordinates_share_tier (toLowerCase : String → String) (aliasMap : Option AliasMap)
    (sources : List AssetSource) :
    let projected := (projectAssetFromSources toLowerCase aliasMap sources).projected
    (projected .latitude = none ∧ projected .longitude = none ∧
      ∀ s ∈ firewall sources, ∀ t ∈ tiers, isValidGeoCoord (t.lat s.observed) (t.lng s.observed) = false) ∨
    ∃ s ∈ sources, s.sourceKind = .fortigateFirewall ∧ s.inferred = false ∧
      ∃ higher t lower, tiers = higher ++ t :: lower ∧
        (∀ t' ∈ higher, isValidGeoCoord (t'.lat s.observed) (t'.lng s.observed) = false) ∧
        ∃ lat lng, t.lat s.observed = some lat ∧ t.lng s.observed = some lng ∧
          isValidGeoCoord (some lat) (some lng) = true ∧
          projected .latitude = some (.number lat) ∧ projected .longitude = some (.number lng) := by
  intro projected
  have hlat : projected .latitude =
    (projectField sources (tiers.map (coordinateRule Tier.lat))).map Prod.snd := rfl
  have hlng : projected .longitude =
    (projectField sources (tiers.map (coordinateRule Tier.lng))).map Prod.snd := rfl
  rw [projectField_coordinate] at hlat hlng
  cases hs : firewall sources with
  | none =>
    rw [hs] at hlat hlng
    exact .inl ⟨hlat, hlng, nofun⟩
  | some s =>
    rw [hs, Option.bind_some, Option.map_map] at hlat hlng
    cases hfind : tiers.find? fun t => t.valid s.observed with
    | none =>
      have hinvalid : ∀ t ∈ tiers, t.valid s.observed = false := fun t ht =>
        Bool.not_eq_true _ ▸ List.find?_eq_none.mp hfind t ht
      rw [findSome_pair_none _ hinvalid] at hlat hlng
      refine .inl ⟨hlat, hlng, fun s' hs' t ht => ?_⟩
      obtain rfl := Option.some.inj hs'
      exact hinvalid t ht
    | some t =>
      obtain ⟨hvalid, higher, lower, htiers, hhigher⟩ := List.find?_eq_some_iff_append.mp hfind
      obtain ⟨lat, lng, hx, hy⟩ := isValidGeoCoord_some hvalid
      have hkind := List.find?_some hs
      rw [Bool.and_eq_true, decide_eq_true_eq, Bool.not_eq_true'] at hkind
      have hinvalid : ∀ t' ∈ higher, t'.valid s.observed = false := by
        intro t' ht'
        have hnot := hhigher t' ht'
        rwa [Bool.not_eq_true'] at hnot
      rw [htiers, findSome_pair_some _ hinvalid hvalid hx] at hlat
      rw [htiers, findSome_pair_some _ hinvalid hvalid hy] at hlng
      refine .inr ⟨s, List.mem_of_find?_eq_some hs, hkind.1, hkind.2, higher, t, lower, htiers, hinvalid,
        lat, lng, hx, hy, ?_, hlat, hlng⟩
      rw [Tier.valid, hx, hy] at hvalid
      exact hvalid

/-- A pair on the equator is not mistaken for an unset one. -/
example : (projectAssetFromSources id none [⟨.fortigateFirewall, false, some [("latitude", .number (.finite 0)),
    ("longitude", .number (.finite 37)), ("metavarLatitude", .number (.finite 12))]⟩]).projected .latitude =
      some (.number (.finite 0)) := by
  decide +kernel

end Coordinates

end Polaris.ProjectionSources
