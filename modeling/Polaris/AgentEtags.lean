import Mathlib.Data.List.Basic
import Mathlib.Logic.Function.Basic
import Polaris.Cidr
import Polaris.Lib.Text

namespace Polaris.AgentEtags

open Polaris.Cidr (Failure)
open Polaris.Lib.Text

section Polling

inductive PollingMethod
  | restApi | snmp | winrm | ssh | icmp | disabled | agent
  deriving DecidableEq

inductive Stream
  | responseTime | cpuMemory | temperature | interfaces | lldp | storage
  deriving DecidableEq

inductive AssetSourceKind
  | fortimanager | fortigate | activedirectory | entraid | windowsserver | manual
  deriving DecidableEq

def ALL_METHODS : List PollingMethod := [.restApi, .snmp, .winrm, .ssh, .icmp, .disabled, .agent]

def PollingMethod.text : PollingMethod → String
  | .restApi => "rest_api"
  | .snmp => "snmp"
  | .winrm => "winrm"
  | .ssh => "ssh"
  | .icmp => "icmp"
  | .disabled => "disabled"
  | .agent => "agent"

def COMPATIBILITY : AssetSourceKind → List PollingMethod
  | .fortimanager | .fortigate => [.restApi, .snmp, .ssh, .icmp, .disabled]
  | .activedirectory | .entraid | .windowsserver => [.icmp, .winrm, .ssh, .disabled, .agent]
  | .manual => ALL_METHODS

def isPollingMethodCompatible (source : AssetSourceKind) (method : PollingMethod) : Bool :=
  method ∈ COMPATIBILITY source

def isPollingMethod (v : String) : Option PollingMethod := ALL_METHODS.find? (·.text = v)

def assetSourceKindFromIntegrationType : Option String → AssetSourceKind
  | some "fortimanager" => .fortimanager
  | some "fortigate" => .fortigate
  | some "activedirectory" => .activedirectory
  | some "entraid" => .entraid
  | some "windowsserver" => .windowsserver
  | _ => .manual

def defaultPollingForSource : AssetSourceKind → Stream → Option PollingMethod
  | .fortimanager, .lldp | .fortigate, .lldp => some .disabled
  | .fortimanager, .storage | .fortigate, .storage => some .disabled
  | .fortimanager, _ | .fortigate, _ => some .restApi
  | _, .responseTime => some .icmp
  | _, _ => none

end Polling

section Settings

structure Cadences (α : Type) where
  intervalSeconds : α
  probeTimeoutMs : α
  cpuMemoryIntervalSeconds : α
  cpuMemoryTimeoutMs : α
  systemInfoIntervalSeconds : α
  systemInfoTimeoutMs : α
  deriving DecidableEq

/-- The settings of an integration, or of the assets without one. -/
structure MonitorTierSettings where
  cadences : Cadences Int
  polling : Stream → Option PollingMethod

structure MonitorOverrideSettings where
  cadences : Cadences (Option Int)
  polling : Stream → Option PollingMethod

structure ResolvedMonitorSettings where
  cadences : Cadences Int
  polling : Stream → Option PollingMethod

structure Asset where
  assetType : String
  discoveredByIntegrationId : Option String
  discoveredByIntegrationType : Option String
  cadences : Cadences (Option Int)
  polling : Stream → Option String
  monitored : Bool

/-- The stored settings, as the loaders of the resolver read them. -/
structure Settings where
  tier3 : Option String → MonitorTierSettings
  classOverride : Option String → String → Option MonitorOverrideSettings

def Cadences.over (c : Cadences (Option Int)) (base : Cadences Int) : Cadences Int where
  intervalSeconds := c.intervalSeconds.getD base.intervalSeconds
  probeTimeoutMs := c.probeTimeoutMs.getD base.probeTimeoutMs
  cpuMemoryIntervalSeconds := c.cpuMemoryIntervalSeconds.getD base.cpuMemoryIntervalSeconds
  cpuMemoryTimeoutMs := c.cpuMemoryTimeoutMs.getD base.cpuMemoryTimeoutMs
  systemInfoIntervalSeconds := c.systemInfoIntervalSeconds.getD base.systemInfoIntervalSeconds
  systemInfoTimeoutMs := c.systemInfoTimeoutMs.getD base.systemInfoTimeoutMs

/-- A value of a tier counts where the source admits it. -/
def adopt (source : AssetSourceKind) (v resolved : Option PollingMethod) : Option PollingMethod :=
  match v with
  | some method => if isPollingMethodCompatible source method then some method else resolved
  | none => resolved

def resolveStream (source : AssetSourceKind) (stream : Stream) (tierVal classVal : Option PollingMethod)
    (assetVal : Option String) : Option PollingMethod :=
  adopt source (assetVal.bind isPollingMethod)
    (adopt source classVal (adopt source tierVal (defaultPollingForSource source stream)))

def resolveMonitorSettings (s : Settings) (asset : Asset) : ResolvedMonitorSettings :=
  let tier3 := s.tier3 asset.discoveredByIntegrationId
  let classOverride := s.classOverride asset.discoveredByIntegrationId asset.assetType
  { cadences := asset.cadences.over (classOverride.elim tier3.cadences fun o => o.cadences.over tier3.cadences)
    polling := fun stream =>
      resolveStream (assetSourceKindFromIntegrationType asset.discoveredByIntegrationType) stream
        (tier3.polling stream) (classOverride.bind (·.polling stream)) (asset.polling stream) }

end Settings

section Texts

abbrev Text := List Char

def field (key : String) (value : Text) : Text := '"' :: (key.toList ++ '"' :: ':' :: value)

def object (fields : List Text) : Text := '\x7b' :: ([','].intercalate fields ++ ['\x7d'])

def array (items : List Text) : Text := '[' :: ([','].intercalate items ++ [']'])

def boolText (b : Bool) : Text := if b then "true".toList else "false".toList

def intText (n : Int) : Text := n.repr.toList

def methodText : Option PollingMethod → Text
  | some method => '"' :: (method.text.toList ++ ['"'])
  | none => "null".toList

end Texts

section Handlers

structure StreamConfig where
  enabled : Bool
  intervalSec : Int
  timeoutMs : Int
  deriving DecidableEq

/-- The answer to GET /config, without its etag. -/
structure Payload where
  responseTime : StreamConfig
  telemetry : StreamConfig
  interfaces : StreamConfig
  lldp : StreamConfig
  monitored : Bool
  deriving DecidableEq

def StreamConfig.stringify (s : StreamConfig) : Text :=
  object [field "enabled" (boolText s.enabled), field "intervalSec" (intText s.intervalSec),
    field "timeoutMs" (intText s.timeoutMs)]

def Payload.stringify (p : Payload) : Text :=
  object [field "streams" (object [field "responseTime" p.responseTime.stringify,
    field "telemetry" p.telemetry.stringify, field "interfaces" p.interfaces.stringify,
    field "lldp" p.lldp.stringify]), field "monitored" (boolText p.monitored)]

structure Triple where
  polling : Option PollingMethod
  interval : Int
  timeout : Int
  deriving DecidableEq

structure Compact where
  rt : Triple
  tel : Triple
  ifc : Triple
  lldp : Triple
  mon : Bool
  deriving DecidableEq

def Triple.stringify (t : Triple) : Text :=
  array [methodText t.polling, intText t.interval, intText t.timeout]

def Compact.stringify (c : Compact) : Text :=
  object [field "rt" c.rt.stringify, field "tel" c.tel.stringify, field "ifc" c.ifc.stringify,
    field "lldp" c.lldp.stringify, field "mon" (boolText c.mon)]

variable (digest : Text → String)

def computeEtag (text : Text) : String := "\"" ++ digest text ++ "\""

def compact (eff : ResolvedMonitorSettings) (monitored : Bool) : Compact where
  rt := ⟨eff.polling .responseTime, eff.cadences.intervalSeconds, eff.cadences.probeTimeoutMs⟩
  tel := ⟨eff.polling .cpuMemory, eff.cadences.cpuMemoryIntervalSeconds, eff.cadences.cpuMemoryTimeoutMs⟩
  ifc := ⟨eff.polling .interfaces, eff.cadences.systemInfoIntervalSeconds, eff.cadences.systemInfoTimeoutMs⟩
  lldp := ⟨eff.polling .lldp, eff.cadences.systemInfoIntervalSeconds, eff.cadences.systemInfoTimeoutMs⟩
  mon := monitored

/-- What POST /heartbeat and POST /enroll answer as the etag of the
configuration. -/
def computeConfigEtag (s : Settings) : Option Asset → String
  | none => "\"deleted\""
  | some asset => computeEtag digest (compact (resolveMonitorSettings s asset) asset.monitored).stringify

def payload (eff : ResolvedMonitorSettings) (monitored : Bool) : Payload where
  responseTime := ⟨eff.polling .responseTime = some .agent, eff.cadences.intervalSeconds,
    eff.cadences.probeTimeoutMs⟩
  telemetry := ⟨eff.polling .cpuMemory = some .agent, eff.cadences.cpuMemoryIntervalSeconds,
    eff.cadences.cpuMemoryTimeoutMs⟩
  interfaces := ⟨eff.polling .interfaces = some .agent, eff.cadences.systemInfoIntervalSeconds,
    eff.cadences.systemInfoTimeoutMs⟩
  lldp := ⟨eff.polling .lldp = some .agent, eff.cadences.systemInfoIntervalSeconds,
    eff.cadences.systemInfoTimeoutMs⟩
  monitored := monitored

inductive ConfigResponse
  | notModified
  | config (etag : String) (payload : Payload)
  deriving DecidableEq

/-- An active agent owns the polling columns, and GET /config sets those that
drifted. -/
def restamp (asset : Asset) : Asset := { asset with polling := fun _ => some "agent" }

def getConfig (s : Settings) (asset : Option Asset) (ifNoneMatch : Option String) :
    Option Asset × Except Failure ConfigResponse :=
  match asset with
  | none => (none, .error (.app 404 "Asset not found"))
  | some asset =>
    let asset := restamp asset
    let p := payload (resolveMonitorSettings s asset) asset.monitored
    let etag := computeEtag digest p.stringify
    (some asset, .ok (if ifNoneMatch = some etag then .notModified else .config etag p))

end Handlers

section Codes

variable {r r' : Text}

theorem boolText_inj {a b : Bool} (h : boolText a ++ r = boolText b ++ r') : a = b ∧ r = r' := by
  cases a <;> cases b <;> simp_all [boolText]

/-- What an integer is followed by ends it. -/
def Ends (r : Text) : Prop := ∃ c rest, r = c :: rest ∧ c.isDigit = false ∧ c ≠ '-'

theorem ends_comma (r : Text) : Ends (',' :: r) := ⟨_, _, rfl, rfl, by decide⟩

theorem ends_brace (r : Text) : Ends ('\x7d' :: r) := ⟨_, _, rfl, rfl, by decide⟩

theorem ends_bracket (r : Text) : Ends (']' :: r) := ⟨_, _, rfl, rfl, by decide⟩

theorem intText_injective {m n : Int} (h : intText m = intText n) : m = n :=
  Option.some.inj ((parseInt_repr m).symm.trans ((congrArg parseInt h).trans (parseInt_repr n)))

theorem takeWhile_intText (n : Int) (hr : Ends r) :
    (intText n ++ r).takeWhile (fun c => c.isDigit || c = '-') = intText n := by
  obtain ⟨c, rest, rfl, hd, hm⟩ := hr
  have hall : ∀ c ∈ intText n, (c.isDigit || decide (c = '-')) = true := by
    intro c hc
    by_contra hn
    rw [Bool.or_eq_true, not_or, Bool.not_eq_true, decide_eq_true_iff] at hn
    exact not_mem_repr hn.1 hn.2 n hc
  rw [List.takeWhile_append_of_pos hall, List.takeWhile_cons_of_neg (by simp [hd, hm]), List.append_nil]

theorem intText_inj {m n : Int} (hr : Ends r) (hr' : Ends r') (h : intText m ++ r = intText n ++ r') :
    m = n ∧ r = r' := by
  have ht := congrArg (List.takeWhile fun c => c.isDigit || decide (c = '-')) h
  rw [takeWhile_intText m hr, takeWhile_intText n hr'] at ht
  obtain rfl := intText_injective ht
  exact ⟨rfl, List.append_cancel_left h⟩

theorem methodText_injective : ∀ a b, methodText a = methodText b → a = b := by
  rintro (_ | a) (_ | b) h
  · rfl
  · cases b <;> exact absurd h (by decide)
  · cases a <;> exact absurd h (by decide)
  · cases a <;> cases b <;> first | rfl | exact absurd h (by decide)

theorem comma_not_mem_methodText (a : Option PollingMethod) : ',' ∉ methodText a := by
  rcases a with _ | a
  · decide
  · cases a <;> decide

theorem takeWhile_methodText (a : Option PollingMethod) :
    (methodText a ++ ',' :: r).takeWhile (· ≠ ',') = methodText a := by
  have hall : ∀ c ∈ methodText a, decide (c ≠ ',') = true := by
    intro c hc
    rw [decide_eq_true_iff]
    rintro rfl
    exact comma_not_mem_methodText a hc
  rw [List.takeWhile_append_of_pos hall, List.takeWhile_cons_of_neg (by simp), List.append_nil]

theorem methodText_inj {a b : Option PollingMethod}
    (h : methodText a ++ ',' :: r = methodText b ++ ',' :: r') :
    a = b ∧ r = r' := by
  have ht := congrArg (List.takeWhile (· ≠ ',')) h
  rw [takeWhile_methodText, takeWhile_methodText] at ht
  obtain rfl := methodText_injective a b ht
  exact ⟨rfl, (List.cons.inj (List.append_cancel_left h)).2⟩

variable {key key' : String} {v w : Text}

theorem field_append : field key v ++ r = field key (v ++ r) := by
  rw [field, field, List.cons_append, List.append_assoc, List.cons_append, List.cons_append]

theorem field_inj (h : field key v = field key w) : v = w := by
  have h1 := List.append_cancel_left (List.cons.inj h).2
  exact (List.cons.inj (List.cons.inj h1).2).2

theorem member_inj {c : Char} (h : c :: field key v = c :: field key w) :
    v = w := field_inj (List.cons.inj h).2

theorem field_ne (h : key.toList.head? ≠ key'.toList.head?) (hk : key.toList ≠ []) (hk' : key'.toList ≠ []) :
    field key v ≠ field key' w := by
  intro he
  have h1 := congrArg List.head? (List.cons.inj he).2
  rw [List.head?_append_of_ne_nil _ hk, List.head?_append_of_ne_nil _ hk'] at h1
  exact h h1

theorem StreamConfig.stringify_append (s : StreamConfig) : s.stringify ++ r =
    '\x7b' :: field "enabled" (boolText s.enabled ++ ',' :: field "intervalSec" (intText s.intervalSec ++
      ',' :: field "timeoutMs" (intText s.timeoutMs ++ '\x7d' :: r))) := by
  simp only [StreamConfig.stringify, object, List.intercalate_cons_cons, List.intercalate_singleton,
    field_append,
    List.cons_append, List.append_assoc, List.nil_append]

theorem stream_inj {s t : StreamConfig} (h : s.stringify ++ r = t.stringify ++ r') : s = t ∧ r = r' := by
  rw [s.stringify_append, t.stringify_append] at h
  obtain ⟨h1, h⟩ := boolText_inj (member_inj h)
  obtain ⟨h2, h⟩ := intText_inj (ends_comma _) (ends_comma _) (member_inj h)
  obtain ⟨h3, h⟩ := intText_inj (ends_brace _) (ends_brace _) (member_inj h)
  refine ⟨?_, (List.cons.inj h).2⟩
  cases s
  cases t
  simp_all

theorem Payload.stringify_eq (p : Payload) : p.stringify =
    '\x7b' :: field "streams" ('\x7b' :: field "responseTime" (p.responseTime.stringify ++
      ',' :: field "telemetry" (p.telemetry.stringify ++ ',' :: field "interfaces" (p.interfaces.stringify ++
        ',' :: field "lldp" (p.lldp.stringify ++ '\x7d' :: ',' :: field "monitored"
          (boolText p.monitored ++ ['\x7d'])))))) := by
  simp only [Payload.stringify, object, List.intercalate_cons_cons, List.intercalate_singleton, field_append,
    List.cons_append, List.append_assoc, List.nil_append]

theorem payload_stringify_injective : Function.Injective Payload.stringify := by
  intro p q h
  rw [p.stringify_eq, q.stringify_eq] at h
  obtain ⟨h1, h⟩ := stream_inj (member_inj (member_inj h))
  obtain ⟨h2, h⟩ := stream_inj (member_inj h)
  obtain ⟨h3, h⟩ := stream_inj (member_inj h)
  obtain ⟨h4, h⟩ := stream_inj (member_inj h)
  obtain ⟨h5, -⟩ := boolText_inj (member_inj (List.cons.inj h).2)
  cases p
  cases q
  simp_all

theorem Triple.stringify_append (s : Triple) : s.stringify ++ r = '[' :: (methodText s.polling ++
    ',' :: (intText s.interval ++ ',' :: (intText s.timeout ++ ']' :: r))) := by
  simp only [Triple.stringify, array, List.intercalate_cons_cons, List.intercalate_singleton,
    List.cons_append, List.append_assoc, List.nil_append]

theorem triple_inj {s t : Triple} (h : s.stringify ++ r = t.stringify ++ r') : s = t ∧ r = r' := by
  rw [s.stringify_append, t.stringify_append] at h
  obtain ⟨h1, h⟩ := methodText_inj (List.cons.inj h).2
  obtain ⟨h2, h⟩ := intText_inj (ends_comma _) (ends_comma _) h
  obtain ⟨h3, h⟩ := intText_inj (ends_bracket _) (ends_bracket _) (List.cons.inj h).2
  refine ⟨?_, (List.cons.inj h).2⟩
  cases s
  cases t
  simp_all

theorem Compact.stringify_eq (c : Compact) : c.stringify =
    '\x7b' :: field "rt" (c.rt.stringify ++ ',' :: field "tel" (c.tel.stringify ++
      ',' :: field "ifc" (c.ifc.stringify ++ ',' :: field "lldp" (c.lldp.stringify ++
        ',' :: field "mon" (boolText c.mon ++ ['\x7d']))))) := by
  simp only [Compact.stringify, object, List.intercalate_cons_cons, List.intercalate_singleton, field_append,
    List.cons_append, List.append_assoc, List.nil_append]

theorem compact_stringify_injective : Function.Injective Compact.stringify := by
  intro c d h
  rw [c.stringify_eq, d.stringify_eq] at h
  obtain ⟨h1, h⟩ := triple_inj (member_inj h)
  obtain ⟨h2, h⟩ := triple_inj (member_inj h)
  obtain ⟨h3, h⟩ := triple_inj (member_inj h)
  obtain ⟨h4, h⟩ := triple_inj (member_inj h)
  obtain ⟨h5, -⟩ := boolText_inj (member_inj h)
  cases c
  cases d
  simp_all

theorem stringify_ne (p : Payload) (c : Compact) : p.stringify ≠ c.stringify := by
  rw [p.stringify_eq, c.stringify_eq]
  intro h
  exact field_ne (by decide) (by decide) (by decide) (List.cons.inj h).2

end Codes

section Agreement

variable {digest : Text → String} {s s' : Settings} {asset asset' : Asset}

/-- The polling columns of an asset that an agent owns. -/
def Stamped (asset : Asset) : Prop := ∀ stream, asset.polling stream = some "agent"

def configOf (s : Settings) (asset : Asset) : Payload :=
  payload (resolveMonitorSettings s asset) asset.monitored

def configEtag (digest : Text → String) (s : Settings) (asset : Asset) : String :=
  computeEtag digest (configOf s asset).stringify

def compactOf (s : Settings) (asset : Asset) : Compact :=
  compact (resolveMonitorSettings s asset) asset.monitored

theorem restamp_of_stamped (h : Stamped asset) : restamp asset = asset := by
  rw [restamp, ← funext h]

theorem getConfig_notModified_iff {ifNoneMatch : Option String} (h : Stamped asset) :
    (getConfig digest s (some asset) ifNoneMatch).2 = .ok .notModified ↔
      ifNoneMatch = some (configEtag digest s asset) := by
  rw [getConfig, restamp_of_stamped h]
  by_cases he : ifNoneMatch = some (configEtag digest s asset)
  · simp [he, configEtag, configOf]
  · simp [he]
    exact he

theorem computeEtag_injective (hd : Function.Injective digest) : Function.Injective (computeEtag digest) := by
  intro t t' h
  rw [computeEtag, computeEtag] at h
  have hl := congrArg String.toList h
  rw [String.toList_append, String.toList_append, String.toList_append, String.toList_append] at hl
  exact hd (String.toList_inj.mp (List.append_cancel_left (List.append_cancel_right hl)))

theorem configEtag_iff (hd : Function.Injective digest) :
    configEtag digest s asset = configEtag digest s' asset' ↔ configOf s asset = configOf s' asset' := by
  rw [configEtag, configEtag, (computeEtag_injective hd).eq_iff, payload_stringify_injective.eq_iff]

theorem computeConfigEtag_iff (hd : Function.Injective digest) :
    computeConfigEtag digest s (some asset) = computeConfigEtag digest s' (some asset') ↔
      compactOf s asset = compactOf s' asset' :=
  (computeEtag_injective hd).eq_iff.trans compact_stringify_injective.eq_iff

theorem configOf_of_compactOf (h : compactOf s asset = compactOf s' asset') :
    configOf s asset = configOf s' asset' := by
  rw [compactOf, compactOf, compact, compact] at h
  injection h with h1 h2 h3 h4 h5
  injection h1 with p1 i1 t1
  injection h2 with p2 i2 t2
  injection h3 with p3 i3 t3
  injection h4 with p4 i4 t4
  rw [configOf, configOf, payload, payload, p1, i1, t1, p2, i2, t2, p3, i3, t3, p4, h5]

theorem polling_of_admits (h : Stamped asset)
    (ha : isPollingMethodCompatible
      (assetSourceKindFromIntegrationType asset.discoveredByIntegrationType) .agent)
    (stream : Stream) : (resolveMonitorSettings s asset).polling stream = some .agent := by
  have hm : (some "agent").bind isPollingMethod = some .agent := by decide
  show resolveStream _ stream _ _ (asset.polling stream) = _
  rw [h stream, resolveStream, hm, adopt, if_pos ha]

theorem compactOf_iff_of_admits (h : Stamped asset) (h' : Stamped asset')
    (ha : isPollingMethodCompatible
      (assetSourceKindFromIntegrationType asset.discoveredByIntegrationType) .agent)
    (ha' : isPollingMethodCompatible
      (assetSourceKindFromIntegrationType asset'.discoveredByIntegrationType) .agent) :
    compactOf s asset = compactOf s' asset' ↔ configOf s asset = configOf s' asset' := by
  refine ⟨configOf_of_compactOf, fun hc => ?_⟩
  rw [configOf, configOf, payload, payload] at hc
  injection hc with h1 h2 h3 h4 h5
  injection h1 with _ i1 t1
  injection h2 with _ i2 t2
  injection h3 with _ i3 t3
  rw [compactOf, compactOf, compact, compact, i1, t1, i2, t2, i3, t3, h5]
  simp only [polling_of_admits h ha, polling_of_admits h' ha']

theorem computeConfigEtag_ne (hd : Function.Injective digest) :
    computeConfigEtag digest s' (some asset') ≠ configEtag digest s asset := by
  intro h
  exact stringify_ne _ _ (computeEtag_injective hd h).symm

/-- What an agent relies on that compares the etag of a heartbeat with the one it
cached. -/
structure EtagsAgree (digest : Text → String) (s : Settings) (asset : Asset) : Prop where
  same : computeConfigEtag digest s (some asset) = configEtag digest s asset
  config : ∀ s' asset', Stamped asset' →
    (configEtag digest s' asset' = configEtag digest s asset ↔ configOf s' asset' = configOf s asset)
  heartbeat : ∀ s' asset', Stamped asset' →
    (computeConfigEtag digest s' (some asset') = computeConfigEtag digest s (some asset) ↔
      configOf s' asset' = configOf s asset)
  refetch : ∀ s' asset', Stamped asset' →
    (computeConfigEtag digest s' (some asset') ≠ configEtag digest s asset ↔
      configOf s' asset' ≠ configOf s asset)

/-- The etags never agree, and an agent that caches the etag of its configuration
sees another one at every heartbeat. -/
theorem etags_never_agree (hd : Function.Injective digest) (s : Settings) (asset : Asset) :
    ¬ EtagsAgree digest s asset ∧
      ∀ s' asset', computeConfigEtag digest s' (some asset') ≠ configEtag digest s asset :=
  ⟨fun he => computeConfigEtag_ne hd he.same, fun _ _ => computeConfigEtag_ne hd⟩

/-- Where the sources admit the agent, a heartbeat answers another etag just
where the configuration is another one, and just there a GET with the etag of
the earlier answer is answered in full. -/
theorem etags_change_together (hd : Function.Injective digest) (h : Stamped asset) (h' : Stamped asset')
    (ha : isPollingMethodCompatible
      (assetSourceKindFromIntegrationType asset.discoveredByIntegrationType) .agent)
    (ha' : isPollingMethodCompatible
      (assetSourceKindFromIntegrationType asset'.discoveredByIntegrationType) .agent) :
    (computeConfigEtag digest s (some asset) = computeConfigEtag digest s' (some asset') ↔
      configOf s asset = configOf s' asset') ∧
    ((getConfig digest s' (some asset') (some (configEtag digest s asset))).2 = .ok .notModified ↔
      configOf s asset = configOf s' asset') := by
  refine ⟨(computeConfigEtag_iff hd).trans (compactOf_iff_of_admits h h' ha ha'), ?_⟩
  rw [getConfig_notModified_iff h', Option.some_inj, configEtag_iff hd]

def someCadences : Cadences Int := ⟨60, 5000, 300, 10000, 3600, 15000⟩

def someSettings : Settings := ⟨fun _ => ⟨someCadences, fun _ => none⟩, fun _ _ => none⟩

def someHost : Asset :=
  ⟨"server", none, none, ⟨none, none, none, none, none, none⟩, fun _ => some "agent", true⟩

theorem ofList_injective : Function.Injective String.ofList := fun _ _ h => String.ofList_injective h

def hastySettings : Settings :=
  ⟨fun _ => ⟨{ someCadences with intervalSeconds := 30 }, fun _ => none⟩, fun _ _ => none⟩

theorem hasty_seen : computeConfigEtag String.ofList someSettings (some someHost) ≠
      computeConfigEtag String.ofList hastySettings (some someHost) ∧
    (getConfig String.ofList hastySettings (some someHost)
      (some (configEtag String.ofList someSettings someHost))).2 ≠ .ok .notModified :=
  have hdiffer : configOf someSettings someHost ≠ configOf hastySettings someHost := by decide
  ⟨mt (etags_change_together ofList_injective (fun _ => rfl) (fun _ => rfl) rfl rfl).1.mp hdiffer,
    mt (etags_change_together ofList_injective (fun _ => rfl) (fun _ => rfl) rfl rfl).2.mp hdiffer⟩

theorem etags_never_agree_host : ¬ EtagsAgree String.ofList someSettings someHost ∧ ∀ s' asset',
    computeConfigEtag String.ofList s' (some asset') ≠ configEtag String.ofList someSettings someHost :=
  etags_never_agree ofList_injective someSettings someHost

/-- A host with an agent: the two projections of its settings and their etags. -/
theorem etags_differ : Stamped someHost ∧ (configOf someSettings someHost).responseTime = ⟨true, 60, 5000⟩ ∧
    (compactOf someSettings someHost).rt = ⟨some .agent, 60, 5000⟩ ∧
    computeConfigEtag String.ofList someSettings (some someHost) ≠
      configEtag String.ofList someSettings someHost ∧
    ¬ EtagsAgree String.ofList someSettings someHost :=
  ⟨fun _ => rfl, by decide, by decide, computeConfigEtag_ne ofList_injective,
    fun he => computeConfigEtag_ne ofList_injective he.same⟩

end Agreement

end Polaris.AgentEtags
