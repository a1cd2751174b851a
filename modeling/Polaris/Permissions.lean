import Polaris.Cidr

namespace Polaris.Permissions

open Polaris.Cidr

inductive AccessLevel
  | none | read | write | fullwrite
  deriving DecidableEq

namespace AccessLevel

def text : AccessLevel → String
  | .none => "none"
  | .read => "read"
  | .write => "write"
  | .fullwrite => "fullwrite"

def rank : AccessLevel → Nat
  | .none => 0
  | .read => 1
  | .write => 2
  | .fullwrite => 3

def ofText (level : String) : Option AccessLevel :=
  [AccessLevel.none, .read, .write, .fullwrite].find? (·.text = level)

theorem ofText_text (level : AccessLevel) : ofText level.text = some level := by
  cases level <;> simp [ofText, text]

end AccessLevel

/-- One row for each functional area, in the order of the matrix. -/
inductive FunctionKey
  | ipBlocks | subnets | reservations | reservationPush | allocationTemplates | assets | assetsQuarantine
  | assetsProbe | assetMonitorSettings | mibDatabase | manufacturerProfiles | manufacturerAliases
    | credentials
  | integrations | discoveryConflicts | deviceMap | mapRegions | deviceIcons | events | staleReservations
  | apiTokens | users | roles | serverSettingsSystem | serverSettingsData
  deriving DecidableEq

namespace FunctionKey

def text : FunctionKey → String
  | .ipBlocks => "ipBlocks"
  | .subnets => "subnets"
  | .reservations => "reservations"
  | .reservationPush => "reservationPush"
  | .allocationTemplates => "allocationTemplates"
  | .assets => "assets"
  | .assetsQuarantine => "assetsQuarantine"
  | .assetsProbe => "assetsProbe"
  | .assetMonitorSettings => "assetMonitorSettings"
  | .mibDatabase => "mibDatabase"
  | .manufacturerProfiles => "manufacturerProfiles"
  | .manufacturerAliases => "manufacturerAliases"
  | .credentials => "credentials"
  | .integrations => "integrations"
  | .discoveryConflicts => "discoveryConflicts"
  | .deviceMap => "deviceMap"
  | .mapRegions => "mapRegions"
  | .deviceIcons => "deviceIcons"
  | .events => "events"
  | .staleReservations => "staleReservations"
  | .apiTokens => "apiTokens"
  | .users => "users"
  | .roles => "roles"
  | .serverSettingsSystem => "serverSettingsSystem"
  | .serverSettingsData => "serverSettingsData"

def all : List FunctionKey :=
  [.ipBlocks, .subnets, .reservations, .reservationPush, .allocationTemplates, .assets, .assetsQuarantine,
    .assetsProbe, .assetMonitorSettings, .mibDatabase, .manufacturerProfiles, .manufacturerAliases,
      .credentials,
    .integrations, .discoveryConflicts, .deviceMap, .mapRegions, .deviceIcons, .events, .staleReservations,
    .apiTokens, .users, .roles, .serverSettingsSystem, .serverSettingsData]

end FunctionKey

/-- The text entries of a stored or submitted permissions object. -/
abbrev RawPermissions := List (String × String)

abbrev Matrix := FunctionKey → AccessLevel

/-- Unknown keys and bad values are dropped, and a missing key is `none`. -/
def normalizePermissions (raw : RawPermissions) : Matrix :=
  fun k => ((raw.lookup k.text).bind AccessLevel.ofText).getD .none

def storedMatrix (m : Matrix) : RawPermissions := FunctionKey.all.map fun k => (k.text, (m k).text)

theorem normalize_storedMatrix (m : Matrix) : normalizePermissions (storedMatrix m) = m := by
  funext k
  have hlookup : (storedMatrix m).lookup k.text = some (m k).text := by
    cases k <;> simp [storedMatrix, FunctionKey.all, FunctionKey.text, List.lookup_cons]
  rw [normalizePermissions, hlookup, Option.bind_some, AccessLevel.ofText_text, Option.getD_some]

def rankMeets (actual required : AccessLevel) : Bool := required.rank ≤ actual.rank

def requirePermission (snapshot : Option Matrix) (key : FunctionKey) (required : AccessLevel) :
    Except Failure Unit :=
  match snapshot with
  | none => .error (.app 403 "Forbidden — session role required")
  | some matrix =>
    if rankMeets (matrix key) required then .ok ()
    else .error (.app 403 ("Forbidden — your role lacks " ++ required.text ++ " access on " ++ key.text))

def hasPermission (snapshot : Option Matrix) (key : FunctionKey) (required : AccessLevel) : Bool :=
  match snapshot with
  | none => false
  | some matrix => rankMeets (matrix key) required

/-- The two rights that make a role equivalent to the administrator's. -/
def adminEquivalent (m : Matrix) : Bool := m .users = .fullwrite && m .roles = .fullwrite

end Polaris.Permissions
