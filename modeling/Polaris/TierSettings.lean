import Polaris.MonitorSettings
import Polaris.SettingsMigrated

namespace Polaris.TierSettings

open Polaris.AgentEtags (ALL_METHODS AssetSourceKind PollingMethod Stream assetSourceKindFromIntegrationType
  isPollingMethod
  isPollingMethodCompatible)
open Polaris.Cidr (Failure)
open Polaris.Lib.Text
open Polaris.MonitorSettings
open Polaris.Reservations (truthy)
open Polaris.SettingsMigrated (get_obj get_set)
open Polaris.SettingsMigration (Fields Json toInt)

section Schema

inductive Key
  | num (s : Setting) | polling (stream : Stream) | mibId (stream : MibStream)
  deriving DecidableEq

def Key.text : Key → String
  | .num s => s.key
  | .polling stream => pollingKey stream
  | .mibId stream => stream.mibIdKey

def Key.all : List Key := Setting.all.map .num ++ streams.map .polling ++ mibStreams.map .mibId

def isRetention : Setting → Bool
  | .sampleRetentionDays | .telemetryRetentionDays | .systemInfoRetentionDays => true
  | _ => false

def isCollectorTimeout : Setting → Bool
  | .cpuMemoryTimeoutMs | .temperatureTimeoutMs | .systemInfoTimeoutMs => true
  | _ => false

def bounds : Setting → Nat × Nat
  | .intervalSeconds => (1, 86400)
  | .failureThreshold => (1, 100)
  | .probeTimeoutMs => (100, 60000)
  | .cpuMemoryTimeoutMs | .temperatureTimeoutMs | .systemInfoTimeoutMs => (1000, 120000)
  | .cpuMemoryIntervalSeconds | .temperatureIntervalSeconds => (15, 86400)
  | .systemInfoIntervalSeconds => (60, 86400)
  | .sampleRetentionDays | .telemetryRetentionDays | .systemInfoRetentionDays => (0, 0)

/-- A number without a fraction and within the bounds. -/
def isIntIn (b : Nat × Nat) : Json → Bool
  | .num q => q.den = 1 && (b.1 : Rat) ≤ q && q ≤ (b.2 : Rat)
  | _ => false

def isNullish : Option Json → Bool
  | none | some .null => true
  | some _ => false

def accepts (v : Option Json) : Key → Bool
  | .num s => isRetention s || (isCollectorTimeout s && isNullish v) || v.any (isIntIn (bounds s))
  | .polling _ =>
    isNullish v || v.any fun w => match w with | .str t => (isPollingMethod t).isSome | _ => false
  | .mibId _ => isNullish v || v.any fun w => match w with | .str _ => true | _ => false

def keys : List String := Key.all.map Key.text

def TierSettingsSchema (body : Json) : Option Fields :=
  match body with
  | .obj o =>
    if Key.all.all fun k => accepts (Fields.get o k.text) k then
      some (keys.filterMap fun k => (Fields.get o k).map fun v => (k, v))
    else none
  | _ => none

def legacyRetention : List String :=
  ["sampleRetentionDays", "telemetryRetentionDays", "systemInfoRetentionDays"]

def stripLegacyRetention (input : Fields) : Fields := input.filter fun p => p.1 ∉ legacyRetention

end Schema

section Routes

def pollingMethodLabel : PollingMethod → String
  | .restApi => "REST API"
  | .snmp => "SNMP"
  | .winrm => "WinRM"
  | .ssh => "SSH"
  | .icmp => "ICMP"
  | .disabled => "Disabled"
  | .agent => "Polaris Agent"

def sourceText : AssetSourceKind → String
  | .fortimanager => "fortimanager"
  | .fortigate => "fortigate"
  | .activedirectory => "activedirectory"
  | .entraid => "entraid"
  | .windowsserver => "windowsserver"
  | .manual => "manual"

def assertPollingCompatible (source : AssetSourceKind) (input : Fields) : Option Failure :=
  streams.findSome? fun stream =>
    ((readPollingFromJson (some (.obj input)) (pollingKey stream)).filter
      fun v => !isPollingMethodCompatible source v).map fun v =>
      .app 400 (pollingMethodLabel v ++ " polling is not supported for " ++ sourceText source ++
        " assets (field: " ++ pollingKey stream ++ ")")

/-- A body that the schema refuses, or an error of the route. -/
inductive PutError
  | invalid | failed (e : Failure)
  deriving DecidableEq

inductive Tier
  | manual | integration (id : String)
  deriving DecidableEq

def putManual (db : Db) (body : Json) : Except PutError Db :=
  match TierSettingsSchema body with
  | none => .error .invalid
  | some input => .ok { db with manualMonitorSettings := some (.obj (stripLegacyRetention input)) }

def putIntegration (db : Db) (id : String) (body : Json) : Except PutError Db :=
  match TierSettingsSchema body with
  | none => .error .invalid
  | some parsed =>
    let input := stripLegacyRetention parsed
    match db.integrations.find? (·.id = id) with
    | none => .error (.failed (.app 404 "Integration not found"))
    | some integration =>
      match assertPollingCompatible (assetSourceKindFromIntegrationType integration.type) input with
      | some e => .error (.failed e)
      | none =>
        let cfg := integration.config.spread.set "monitorSettings" (.obj input)
        .ok { db with integrations :=
          db.integrations.map fun i => if i.id = id then { i with config := .obj cfg } else i }

def putTier (db : Db) (tier : Tier) (body : Json) : Except PutError Db :=
  match tier with
  | .manual => putManual db body
  | .integration id => putIntegration db id body

def tierOf (asset : AssetMonitorContext) : Tier :=
  match truthy asset.discoveredByIntegrationId with
  | some id => .integration id
  | none => .manual

def asked (body : Json) : MonitorTierSettings where
  num s :=
    match body.get s.key with
    | some (.num q) => if isRetention s then HARDCODED_FLOOR s else ⌊q⌋.toNat
    | _ => HARDCODED_FLOOR s
  polling stream := readPollingFromJson (some body) (pollingKey stream)
  mibId stream := readMibIdFromJson (body.get stream.mibIdKey)
  credentialId _ := none

end Routes

section Saved

variable {Number : Json → Option Rat} {body : Json} {parsed : Fields} {k : String}

theorem get_filterMap (keys : List String) (g : String → Option Json) (k : String) :
    Fields.get (keys.filterMap fun k => (g k).map fun v => (k, v)) k = if k ∈ keys then g k else none := by
  induction keys with
  | nil => rfl
  | cons k' keys ih =>
    by_cases hk : k = k'
    · subst hk
      rw [if_pos List.mem_cons_self]
      cases hg : g k with
      | none =>
        rw [hg, ite_self] at ih
        rw [List.filterMap_cons_none (by rw [hg]; rfl), ih]
      | some v =>
        rw [List.filterMap_cons_some (by rw [hg]; rfl), Fields.get, List.find?_cons_of_pos (by simp),
          Option.map_some]
    · rw [if_congr (List.mem_cons.trans (or_iff_right hk)) rfl rfl, ← ih, List.filterMap_cons]
      cases hg : g k' with
      | none => rfl
      | some v =>
        rw [Option.map_some, Fields.get, List.find?_cons_of_neg (by simpa using Ne.symm hk)]
        rfl

theorem get_filter (o : Fields) (p : String → Bool) (k : String) :
    Fields.get (o.filter fun e => p e.1) k = if p k then o.get k else none := by
  rw [Fields.get, List.find?_filter, Fields.get]
  have hkey : (fun e : String × Json => p e.1 && decide (e.1 = k)) = fun e => p k && decide (e.1 = k) := by
    funext e
    by_cases hk : e.1 = k <;> simp [hk]
  cases hp : p k <;> simp [hkey, hp]

theorem schema_some (h : TierSettingsSchema body = some parsed) :
    (∀ k ∈ Key.all, accepts (body.get k.text) k = true) ∧
      ∀ k, (stripLegacyRetention parsed).get k = if k ∈ keys ∧
        k ∉ legacyRetention then body.get k else none := by
  cases body with
  | obj o =>
    rw [TierSettingsSchema] at h
    split at h
    next hall =>
      cases h
      refine ⟨List.all_eq_true.mp hall, fun k => ?_⟩
      rw [stripLegacyRetention, get_filter _ (fun k => decide (k ∉ legacyRetention)), get_filterMap, get_obj]
      by_cases hk : k ∈ keys <;> by_cases hl : k ∈ legacyRetention <;> simp [hk, hl]
    next => cases h
  | _ => cases h

theorem num_saved_iff (s : Setting) : (s.key ∈ keys ∧ s.key ∉ legacyRetention) ↔ isRetention s = false := by
  cases s <;> decide +kernel

theorem polling_saved (stream : Stream) : pollingKey stream ∈ keys ∧ pollingKey stream ∉ legacyRetention := by
  cases stream <;> decide +kernel

theorem mibId_saved (stream : MibStream) : stream.mibIdKey ∈ keys ∧ stream.mibIdKey ∉ legacyRetention := by
  cases stream <;> decide +kernel

/-- No key that the older tiers had is saved any more. -/
theorem legacy_notMem :
    ∀ k ∈ ["polling", "telemetryIntervalSeconds", "telemetryTimeoutMs", "telemetryPolling",
      "telemetryMibId"], k ∉ keys := by
  decide +kernel

/-- A tier that was saved is read by its own keys alone. -/
theorem tierFromJson_saved (h : TierSettingsSchema body = some parsed) :
    tierFromJson Number (some (.obj (stripLegacyRetention parsed))) =
      { num := fun s =>
        toPositiveInt Number (if isRetention s then none else body.get s.key) (HARDCODED_FLOOR s)
        polling := (asked body).polling, mibId := (asked body).mibId, credentialId := fun _ => none } := by
  have hget : ∀ k, (Json.obj (stripLegacyRetention parsed)).get k =
    if k ∈ keys ∧ k ∉ legacyRetention then body.get k else none := (schema_some h).2
  generalize Json.obj (stripLegacyRetention parsed) = o at hget ⊢
  have hold : ∀ k ∈ ["polling", "telemetryIntervalSeconds", "telemetryTimeoutMs", "telemetryPolling",
      "telemetryMibId"], o.get k = none :=
    fun k hk => by rw [hget, if_neg fun hx => legacy_notMem k hk hx.1]
  have hnum : ∀ s : Setting, o.get s.key = if isRetention s then none else body.get s.key := by
    intro s
    rw [hget, if_congr (num_saved_iff s) rfl rfl]
    cases isRetention s <;> rfl
  have hmibId : ∀ stream : MibStream, o.get stream.mibIdKey = body.get stream.mibIdKey :=
    fun stream => by rw [hget, if_pos (mibId_saved stream)]
  have hread : ∀ stream, readPollingFromJson (some o) (pollingKey stream) =
      readPollingFromJson (some body) (pollingKey stream) := by
    intro stream
    rw [readPollingFromJson, readPollingFromJson, Option.bind_some, Option.bind_some, hget,
      if_pos (polling_saved stream)]
  simp only [List.forall_mem_cons] at hold
  obtain ⟨hblock, hinterval, htimeout, hpoll, hmib, -⟩ := hold
  have hblank : readPollingFromJson (some o) "telemetryPolling" = none := by
    rw [readPollingFromJson, Option.bind_some, hpoll]
  rw [tierFromJson, Option.getD_some, hblock, hinterval, htimeout, hmib, hblank]
  apply MonitorTierSettings.ext
  · funext s
    dsimp only
    rw [hnum]
    cases s <;> rfl
  · funext stream
    dsimp only
    rw [hread]
    cases stream <;> first | rfl | exact Option.or_none
  · funext stream
    dsimp only
    rw [hmibId]
    cases stream <;> first | rfl | exact Option.or_none
  · rfl

theorem isIntIn_num {b : Nat × Nat} {v : Json} (h : isIntIn b v = true) : ∃ q : Rat, v = .num q ∧ 0 ≤ q := by
  cases v with
  | num q =>
    simp only [isIntIn, Bool.and_eq_true, decide_eq_true_eq] at h
    exact ⟨q, rfl, (Nat.cast_nonneg b.1).trans h.1.2⟩
  | _ => cases h

theorem accepted_num {s : Setting} (h : accepts (body.get s.key) (.num s) = true) : isRetention s = true ∨
    (isCollectorTimeout s = true ∧ (body.get s.key = none ∨ body.get s.key = some .null)) ∨
    ∃ q : Rat, body.get s.key = some (.num q) ∧ 0 ≤ q := by
  simp only [accepts, Bool.or_eq_true, Bool.and_eq_true] at h
  obtain (h | ⟨ht, hnull⟩) | h := h
  · exact .inl h
  · refine .inr (.inl ⟨ht, ?_⟩)
    cases hv : body.get s.key with
    | none => exact .inl rfl
    | some v =>
      rw [hv] at hnull
      cases v <;> first | exact .inr rfl | cases hnull
  · obtain ⟨v, hv, hint⟩ := (Option.any_eq_true _ _).mp h
    obtain ⟨q, rfl, hq⟩ := isIntIn_num hint
    exact .inr (.inr ⟨q, hv, hq⟩)

theorem num_read_iff (hnum : ∀ q, Number (.num q) = some q) (hnull : Number .null = some 0) {s : Setting}
    (h : accepts (body.get s.key) (.num s) = true) :
    toPositiveInt Number (if isRetention s then none else body.get s.key) (HARDCODED_FLOOR s) =
      (asked body).num s ↔
      (isCollectorTimeout s = true → body.get s.key ≠ some .null) := by
  rw [asked]
  dsimp only
  obtain hr | ⟨ht, hv | hv⟩ | ⟨q, hv, hq⟩ := accepted_num h
  · have hfree : ¬isCollectorTimeout s = true := by cases s <;> simp [isRetention, isCollectorTimeout] at hr ⊢
    rw [if_pos hr]
    refine iff_of_true ?_ fun ht => absurd ht hfree
    split
    · rw [if_pos hr]; rfl
    · rfl
  · rw [hv, ite_self]
    exact iff_of_true rfl fun _ hx => by cases hx
  · have hr : isRetention s = false := by cases s <;> simp [isRetention, isCollectorTimeout] at ht ⊢
    rw [hv, hr, if_neg Bool.false_ne_true]
    refine iff_of_false (fun hx => ?_) fun hx => hx ht rfl
    have hzero : toPositiveInt Number (some .null) (HARDCODED_FLOOR s) = 0 := by
      rw [toPositiveInt, toInt, Option.bind_some, hnull]
      simp
    rw [hzero] at hx
    cases s <;> simp [isCollectorTimeout] at ht <;> cases hx
  · rw [hv]
    refine iff_of_true ?_ fun _ hx => by cases hx
    cases isRetention s with
    | true => rfl
    | false =>
      rw [if_neg Bool.false_ne_true, toPositiveInt, toInt, Option.bind_some, hnum]
      exact if_pos hq

end Saved

section Tiers

variable {Number : Json → Option Rat} {db db' : Db} {body : Json} {parsed : Fields} {tier : Tier}

theorem read_iff (hnum : ∀ q, Number (.num q) = some q) (hnull : Number .null = some 0)
    (h : TierSettingsSchema body = some parsed) :
    tierFromJson Number (some (.obj (stripLegacyRetention parsed))) = asked body ↔
      ∀ s, isCollectorTimeout s = true → body.get s.key ≠ some .null := by
  rw [tierFromJson_saved h, MonitorTierSettings.ext_iff, and_iff_left ⟨rfl, rfl, rfl⟩, funext_iff]
  have hkey : ∀ s, Key.num s ∈ Key.all := fun s => by cases s <;> simp [Key.all, Setting.all]
  exact forall_congr' fun s => num_read_iff hnum hnull ((schema_some h).1 _ (hkey s))

theorem putManual_ok (h : putManual db body = .ok db') : ∃ parsed, TierSettingsSchema body = some parsed ∧
    db' = { db with manualMonitorSettings := some (.obj (stripLegacyRetention parsed)) } := by
  rw [putManual] at h
  split at h
  · cases h
  next parsed hparsed =>
    cases h
    exact ⟨parsed, hparsed, rfl⟩

theorem putIntegration_ok {id : String} (h : putIntegration db id body = .ok db') :
    ∃ parsed integration, TierSettingsSchema body = some parsed ∧
      db.integrations.find? (·.id = id) = some integration ∧
      db' = { db with integrations := db.integrations.map fun i => if i.id = id then { i with
          config := .obj
            (integration.config.spread.set "monitorSettings" (.obj (stripLegacyRetention parsed))) }
        else i } := by
  rw [putIntegration] at h
  split at h
  · cases h
  next parsed hparsed =>
    dsimp only at h
    split at h
    · cases h
    next integration hfound =>
      split at h
      · cases h
      · cases h
        exact ⟨parsed, integration, hparsed, hfound, rfl⟩

theorem find?_update {id id' : String} {cfg : Json} (integrations : List Integration) :
    (integrations.map fun i => if i.id = id then { i with config := cfg } else i).find? (·.id = id') =
      (integrations.find? (·.id = id')).map fun i => if i.id = id then { i with config := cfg } else i := by
  rw [List.find?_map]
  congr 2
  funext i
  dsimp only [Function.comp]
  split <;> rfl

/-- Once a tier has been put, its assets have what the body asks for just
where no timeout of a collector is null in it, and no other asset has
anything else than before. -/
theorem put_tier_reads_back (hnum : ∀ q, Number (.num q) = some q) (hnull : Number .null = some 0)
    (h : putTier db tier body = .ok db') (asset : AssetMonitorContext) :
    (tierOf asset = tier → (tier3 Number db' asset = asked body ↔
      ∀ s, isCollectorTimeout s = true → body.get s.key ≠ some .null)) ∧
    (tierOf asset ≠ tier → tier3 Number db' asset = tier3 Number db asset) := by
  cases tier with
  | manual =>
    obtain ⟨parsed, hparsed, rfl⟩ := putManual_ok h
    rw [tierOf, tier3, tier3]
    cases truthy asset.discoveredByIntegrationId with
    | some id => exact ⟨fun hx => Tier.noConfusion hx, fun _ => rfl⟩
    | none => exact ⟨fun _ => read_iff hnum hnull hparsed, fun hx => absurd rfl hx⟩
  | integration id =>
    obtain ⟨parsed, integration, hparsed, hfound, rfl⟩ := putIntegration_ok h
    rw [tierOf, tier3, tier3]
    cases truthy asset.discoveredByIntegrationId with
    | none => exact ⟨fun hx => Tier.noConfusion hx, fun _ => rfl⟩
    | some id' =>
      dsimp only
      rw [loadIntegrationTierSettings, loadIntegrationTierSettings, find?_update]
      by_cases hid : id' = id
      · subst hid
        refine ⟨fun _ => ?_, fun hx => absurd rfl hx⟩
        have hown : integration.id = id' := by simpa using List.find?_some hfound
        rw [hfound, Option.map_some, if_pos hown, Option.bind_some, get_obj, get_set, if_pos rfl]
        exact read_iff hnum hnull hparsed
      · refine ⟨fun hx => absurd (Tier.integration.inj hx) hid, fun _ => ?_⟩
        cases hfound : db.integrations.find? (·.id = id') with
        | none => rfl
        | some i =>
          rw [Option.map_some,
            if_neg fun hi => hid ((by simpa using List.find?_some hfound : i.id = id') ▸ hi)]; rfl

def blankTimeout : Json :=
  .obj [("intervalSeconds", .num 60), ("failureThreshold", .num 3), ("probeTimeoutMs", .num 5000),
    ("temperatureTimeoutMs", .null), ("cpuMemoryIntervalSeconds", .num 60),
      ("temperatureIntervalSeconds", .num 60),
    ("systemInfoIntervalSeconds", .num 600), ("responseTimePolling", .str "icmp")]

/-- The conversion of the values that the form can send. -/
def formNumber : Json → Option Rat
  | .num q => some q
  | .null => some 0
  | _ => none

theorem blank_timeout_is_zero : ∃ db', putTier {} .manual blankTimeout = .ok db' ∧
    ¬tier3 formNumber db' { assetType := "server", discoveredByIntegrationId := none } = asked blankTimeout :=
  ⟨_, rfl, fun heq =>
    ((put_tier_reads_back (fun _ => rfl) rfl rfl _).1 rfl).mp heq .temperatureTimeoutMs rfl rfl⟩

end Tiers

end Polaris.TierSettings
