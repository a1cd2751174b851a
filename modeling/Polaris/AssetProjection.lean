import Mathlib.Data.Rat.Defs
import Mathlib.Algebra.Order.Ring.Rat
import Polaris.Lib.Priority
import Polaris.ManufacturerNormalize

namespace Polaris.AssetProjection

open Polaris.Lib.Priority Polaris.Lib.Text Polaris.ManufacturerNormalize

section Observed

inductive Number
  | finite (q : Rat)
  | infinite (negative : Bool)
  | nan
  deriving DecidableEq

inductive Value
  | text (s : String)
  | number (n : Number)
  | other
  deriving DecidableEq

abbrev Observed := Option (List (String × Value))

def observedAt (o : Observed) (key : String) : Option Value :=
  o.bind fun fields => (fields.find? (·.1 = key)).map Prod.snd

def obsString (o : Observed) (key : String) : Option String :=
  match observedAt o key with
  | some (.text s) => if trim s = "" then none else some (trim s)
  | _ => none

def obsNumber (o : Observed) (key : String) : Option Number :=
  match observedAt o key with
  | some (.number (.finite q)) => some (.finite q)
  | _ => none

/-- In range, and not the pair that stands for an unset one. -/
def isValidGeoCoord : Option Number → Option Number → Bool
  | some (.finite lat), some (.finite lng) =>
    !(lat < -90 || lat > 90) && !(lng < -180 || lng > 180) && !(lat = 0 && lng = 0)
  | _, _ => false

end Observed

section Rules

inductive AssetSourceKind
  | entra | intune | ad | fortigateFirewall | fortiswitch | fortiap | fortigateEndpoint | polarisAgent
    | manual
  | other (name : String)
  deriving DecidableEq

structure AssetSource where
  sourceKind : AssetSourceKind
  inferred : Bool
  observed : Observed
  deriving DecidableEq

structure FieldRule where
  sourceKind : AssetSourceKind
  pick : Observed → Option Value

inductive Field
  | hostname | serialNumber | manufacturer | model | os | osVersion | learnedLocation | ipAddress
    | latitude | longitude
  | snmpLocation
  deriving DecidableEq

def textRule (kind : AssetSourceKind) (key : String) : FieldRule :=
  ⟨kind, fun o => (obsString o key).map .text⟩

def HOSTNAME_RULES : List FieldRule :=
  [textRule .polarisAgent "hostname",
    ⟨.ad, fun o => ((obsString o "dnsHostName").filter fun v => '.' ∈ v.toList).map .text⟩,
    textRule .intune "deviceName", textRule .entra "displayName",
    ⟨.ad, fun o => ((obsString o "dnsHostName").or (obsString o "cn")).map .text⟩,
    textRule .fortigateFirewall "hostname", textRule .fortiswitch "switchId", textRule .fortiap "name",
    textRule .fortigateEndpoint "hostname"]

def SERIAL_RULES : List FieldRule :=
  [textRule .polarisAgent "serialNumber", textRule .intune "serialNumber",
    textRule .fortigateFirewall "serial",
    textRule .fortiswitch "serial", textRule .fortiap "serial"]

section Vendors

variable (toLowerCase : String → String) (aliasMap : Option AliasMap)

def vendorRule (kind : AssetSourceKind) (key : String) : FieldRule :=
  ⟨kind, fun o => (normalizeManufacturer toLowerCase aliasMap (obsString o key)).map .text⟩

def fortinetRule (kind : AssetSourceKind) : FieldRule := ⟨kind, fun _ => some (.text "Fortinet")⟩

def MANUFACTURER_RULES : List FieldRule :=
  [vendorRule toLowerCase aliasMap .polarisAgent "manufacturer",
    vendorRule toLowerCase aliasMap .intune "manufacturer",
    fortinetRule .fortigateFirewall, fortinetRule .fortiswitch, fortinetRule .fortiap,
    vendorRule toLowerCase aliasMap .fortigateEndpoint "hardwareVendor"]

end Vendors

def MODEL_RULES : List FieldRule :=
  [textRule .polarisAgent "model", textRule .intune "model", textRule .fortigateFirewall "model",
    textRule .fortiap "model",
    textRule .fortigateEndpoint "model"]

def OS_RULES : List FieldRule :=
  [textRule .polarisAgent "os", textRule .ad "operatingSystem", textRule .intune "operatingSystem",
    textRule .entra "operatingSystem", textRule .fortigateEndpoint "os"]

def OS_VERSION_RULES : List FieldRule :=
  [textRule .polarisAgent "osVersion", textRule .intune "osVersion", textRule .entra "operatingSystemVersion",
    textRule .ad "operatingSystemVersion", textRule .fortigateFirewall "osVersion",
      textRule .fortiswitch "osVersion",
    textRule .fortiap "osVersion", textRule .fortigateEndpoint "osVersion"]

def LEARNED_LOCATION_RULES : List FieldRule :=
  [textRule .ad "ouPath", textRule .fortigateEndpoint "learnedLocation",
    textRule .fortiswitch "controllerFortigate",
    textRule .fortiap "controllerFortigate"]

def IP_ADDRESS_RULES : List FieldRule :=
  [textRule .fortigateEndpoint "ipAddress", textRule .fortigateFirewall "mgmtIp",
    textRule .fortiswitch "mgmtIp",
    textRule .fortiap "mgmtIp"]

/-- Where a firewall's blob holds a pair of coordinates. -/
structure Tier where
  latKey : String
  lngKey : String
  deriving DecidableEq

def snmpGeocoded : Tier := ⟨"snmpGeocodedLatitude", "snmpGeocodedLongitude"⟩

def metavar : Tier := ⟨"metavarLatitude", "metavarLongitude"⟩

def cmdb : Tier := ⟨"latitude", "longitude"⟩

def Tier.lat (t : Tier) (o : Observed) : Option Number := obsNumber o t.latKey

def Tier.lng (t : Tier) (o : Observed) : Option Number := obsNumber o t.lngKey

def Tier.valid (t : Tier) (o : Observed) : Bool := isValidGeoCoord (t.lat o) (t.lng o)

def coordinateRule (side : Tier → Observed → Option Number) (t : Tier) : FieldRule :=
  ⟨.fortigateFirewall, fun o => if t.valid o then (side t o).map .number else none⟩

/-- From the authoritative pair to the weakest. -/
def tiers : List Tier := [snmpGeocoded, metavar, cmdb]

def LATITUDE_RULES : List FieldRule := tiers.map (coordinateRule Tier.lat)

def LONGITUDE_RULES : List FieldRule := tiers.map (coordinateRule Tier.lng)

def SNMP_LOCATION_RULES : List FieldRule := [textRule .fortigateFirewall "snmpLocation"]

end Rules

section Projection

/-- The first rule decides whose kind's first source, of those that were not
inferred, has a value for it. -/
def projectField (sources : List AssetSource) (rules : List FieldRule) : Option (AssetSourceKind × Value) :=
  rules.findSome? fun rule =>
    ((sources.find? fun s => s.sourceKind = rule.sourceKind && !s.inferred).bind fun candidate =>
      (rule.pick candidate.observed).filter (· ≠ .text "")).map (rule.sourceKind, ·)

structure ProjectionResult where
  projected : Field → Option Value
  provenance : Field → Option AssetSourceKind

variable (toLowerCase : String → String) (aliasMap : Option AliasMap)

def rulesOf : Field → List FieldRule
  | .hostname => HOSTNAME_RULES
  | .serialNumber => SERIAL_RULES
  | .manufacturer => MANUFACTURER_RULES toLowerCase aliasMap
  | .model => MODEL_RULES
  | .os => OS_RULES
  | .osVersion => OS_VERSION_RULES
  | .learnedLocation => LEARNED_LOCATION_RULES
  | .ipAddress => IP_ADDRESS_RULES
  | .latitude => LATITUDE_RULES
  | .longitude => LONGITUDE_RULES
  | .snmpLocation => SNMP_LOCATION_RULES

def projectAssetFromSources (sources : List AssetSource) : ProjectionResult where
  projected field := (projectField sources (rulesOf toLowerCase aliasMap field)).map Prod.snd
  provenance field := (projectField sources (rulesOf toLowerCase aliasMap field)).map Prod.fst

end Projection

end Polaris.AssetProjection
