import Polaris.Cidr
import Polaris.Lib.Store
import Polaris.ManufacturerNormalize

namespace Polaris.ManufacturerAliases

open Polaris.Cidr Polaris.Lib.Store Polaris.Lib.Text Polaris.ManufacturerNormalize

section Data

structure ManufacturerAlias where
  aliasText : String
  canonical : String
  deriving DecidableEq

structure Asset where
  id : String
  manufacturer : Option String
  deriving DecidableEq

structure MibFile where
  moduleName : String
  manufacturer : Option String
  model : Option String
  deriving DecidableEq

def aliasKey (a : ManufacturerAlias) : Option String := some a.aliasText

/-- The unique columns of a MIB. A null in one of them is unlike any other. -/
def mibKey (m : MibFile) : Option (String × String × String) :=
  m.manufacturer.bind fun manufacturer => m.model.map fun model => (manufacturer, model, m.moduleName)

structure State where
  aliases : Table aliasKey
  cache : Option AliasMap
  assets : List Asset
  mibs : Table mibKey

def DEFAULT_ALIASES : List ManufacturerAlias :=
  [⟨"Fortinet, Inc.", "Fortinet"⟩, ⟨"Fortinet Inc.", "Fortinet"⟩, ⟨"Fortinet Inc", "Fortinet"⟩,
    ⟨"Cisco Systems, Inc.", "Cisco"⟩, ⟨"Cisco Systems Inc", "Cisco"⟩, ⟨"Cisco Systems", "Cisco"⟩,
    ⟨"Cisco Meraki", "Cisco"⟩, ⟨"Juniper Networks, Inc.", "Juniper"⟩, ⟨"Juniper Networks Inc", "Juniper"⟩,
    ⟨"Juniper Networks", "Juniper"⟩, ⟨"Hewlett Packard Enterprise", "HPE"⟩, ⟨"HPE", "HPE"⟩,
    ⟨"Hewlett-Packard Company", "HP"⟩, ⟨"Hewlett Packard", "HP"⟩, ⟨"HP Inc.", "HP"⟩, ⟨"HP Inc", "HP"⟩,
    ⟨"Aruba, a Hewlett Packard Enterprise company", "Aruba"⟩, ⟨"Aruba Networks", "Aruba"⟩,
    ⟨"MikroTikls SIA", "MikroTik"⟩, ⟨"Mikrotikls SIA", "MikroTik"⟩, ⟨"Mikrotik", "MikroTik"⟩,
    ⟨"Microsoft Corporation", "Microsoft"⟩, ⟨"Microsoft Corp.", "Microsoft"⟩, ⟨"Dell Inc.", "Dell"⟩,
    ⟨"Dell Inc", "Dell"⟩, ⟨"Dell Computer Corp.", "Dell"⟩, ⟨"Dell Technologies, Inc.", "Dell"⟩,
    ⟨"Dell EMC", "Dell"⟩, ⟨"Palo Alto Networks", "Palo Alto"⟩, ⟨"Palo Alto Networks, Inc.", "Palo Alto"⟩,
    ⟨"Arista Networks, Inc.", "Arista"⟩, ⟨"Arista Networks", "Arista"⟩, ⟨"VMware, Inc.", "VMware"⟩,
    ⟨"VMware Inc", "VMware"⟩, ⟨"Apple, Inc.", "Apple"⟩, ⟨"Apple Inc.", "Apple"⟩,
    ⟨"Lenovo Group Ltd.", "Lenovo"⟩, ⟨"LENOVO", "Lenovo"⟩, ⟨"Ubiquiti Networks Inc.", "Ubiquiti"⟩,
    ⟨"Ubiquiti Networks", "Ubiquiti"⟩, ⟨"Ubiquiti Inc.", "Ubiquiti"⟩, ⟨"NETGEAR", "Netgear"⟩,
    ⟨"Netgear, Inc.", "Netgear"⟩, ⟨"Brocade Communications Systems, Inc.", "Brocade"⟩,
    ⟨"Extreme Networks, Inc.", "Extreme Networks"⟩, ⟨"Ruckus Wireless", "Ruckus"⟩,
    ⟨"Ruckus Networks", "Ruckus"⟩]

end Data

section Aliases

variable (toLowerCase : String → String) (s : State)

def refreshAliasCache : State :=
  { s with
    cache := some (setAliasMap toLowerCase
      (s.aliases.rows.map fun r => (r.data.aliasText, r.data.canonical))) }

def createAlias (input : ManufacturerAlias) : Except Failure State :=
  let aliasText := toLowerCase (trim input.aliasText)
  let canonical := trim input.canonical
  if aliasText = "" then .error (.app 400 "alias is required")
  else if canonical = "" then .error (.app 400 "canonical is required")
  else if aliasText = toLowerCase canonical then .error
    (.app 400 "alias and canonical cannot be the same string")
  else if s.aliases.rows.any (·.data.aliasText = aliasText) then
    .error (.app 409 ("An alias for \"" ++ input.aliasText ++ "\" already exists"))
  else
    match s.aliases.insert ⟨aliasText, canonical⟩ with
    | none => .error (.thrown "Unique constraint failed on the fields: (alias)")
    | some aliases => .ok (refreshAliasCache toLowerCase { s with aliases := aliases })

def givenField (clean : String → String) (message : String) (given : Option String) :
    Except Failure (Option String) :=
  match given with
  | none => .ok none
  | some text => if clean text = "" then .error (.app 400 message) else .ok (some (clean text))

def updateAlias (id : Nat) (aliasText canonical : Option String) : Except Failure State := do
  let aliasText ← givenField (fun text => toLowerCase (trim text)) "alias cannot be empty" aliasText
  let canonical ← givenField trim "canonical cannot be empty" canonical
  if aliasText.any fun a => canonical.any fun c => a = toLowerCase c then
    .error (.app 400 "alias and canonical cannot be the same string")
  else if (s.aliases.find id).isNone then .error (.app 404 "Alias not found")
  else
    match s.aliases.updateWhere (·.id = id) fun a =>
      ⟨aliasText.getD a.aliasText, canonical.getD a.canonical⟩ with
    | none => .error (.app 404 "Alias not found")
    | some aliases => .ok (refreshAliasCache toLowerCase { s with aliases := aliases })

def deleteAlias (id : Nat) : Except Failure State :=
  if (s.aliases.find id).isNone then .error (.app 404 "Alias not found")
  else .ok (refreshAliasCache toLowerCase { s with aliases := s.aliases.deleteWhere (·.id = id) })

def seedEntry (aliases : Table aliasKey) (entry : ManufacturerAlias) : Table aliasKey :=
  let aliasText := toLowerCase (trim entry.aliasText)
  let canonical := trim entry.canonical
  if aliasText = "" ∨ canonical = "" then aliases
  else if aliases.rows.any (·.data.aliasText = aliasText) then aliases
  else (aliases.insert ⟨aliasText, canonical⟩).getD aliases

def seedDefaultAliases : State :=
  { s with aliases := DEFAULT_ALIASES.foldl (seedEntry toLowerCase) s.aliases }

end Aliases

section Rows

variable (toLowerCase : String → String) (s : State)

/-- Every write of a manufacturer goes through the extension of the client. -/
def stored (cache : Option AliasMap) (manufacturer : Option String) : Option String :=
  normalizeManufacturer toLowerCase cache manufacturer

def saveAsset (id : String) (manufacturer : Option String) : State :=
  let asset : Asset := ⟨id, stored toLowerCase s.cache manufacturer⟩
  { s with assets := if s.assets.any (·.id = id) then s.assets.map fun a => if a.id = id then asset else a
      else s.assets ++ [asset] }

def deleteAsset (id : String) : State := { s with assets := s.assets.filter (·.id ≠ id) }

def blankToNull (text : Option String) : Option String := (text.map trim).filter (· ≠ "")

def createMib (filename : String) (manufacturer model : Option String) (moduleName : String) :
    Except Failure State :=
  let manufacturer := blankToNull manufacturer
  let model := blankToNull model
  if trim filename = "" then .error (.app 400 "filename is required")
  else if manufacturer = none ∧ model ≠ none then
    .error (.app 400 "model cannot be set without a manufacturer (generic MIBs apply to all devices)")
  else if s.mibs.rows.any (·.data = ⟨moduleName, manufacturer, model⟩) then
    .error (.app 409 ("A MIB module named \"" ++ moduleName ++
      "\" is already uploaded for this manufacturer/model — delete the existing one first"))
  else
    match s.mibs.insert ⟨moduleName, stored toLowerCase s.cache manufacturer, model⟩ with
    | none => .error (.thrown "Unique constraint failed on the fields: (manufacturer,model,moduleName)")
    | some mibs => .ok { s with mibs := mibs }

def deleteMib (id : Nat) : Except Failure State :=
  if (s.mibs.find id).isNone then .error (.app 404 "MIB not found")
  else .ok { s with mibs := s.mibs.deleteWhere (·.id = id) }

/-- The name that a row with this manufacturer is to be given. -/
def rewritten (cache : Option AliasMap) (manufacturer : Option String) : Option String :=
  (manufacturer.filter (· ≠ "")).bind fun raw =>
    (normalizeManufacturer toLowerCase cache (some raw)).filter fun canonical => canonical ≠ "" ∧
      canonical ≠ raw

def rewriteAssets (cache : Option AliasMap) (acc : List Asset × Nat) (raw : String) : List Asset × Nat :=
  match rewritten toLowerCase cache (some raw) with
  | none => acc
  | some canonical =>
    (acc.1.map fun a =>
        if a.manufacturer = some raw then
          { a with manufacturer := stored toLowerCase cache (some canonical) } else a,
      acc.2 + acc.1.countP (·.manufacturer = some raw))

/-- A row that would collide is left as it is, with a warning. -/
def rewriteMib (cache : Option AliasMap) (acc : Table mibKey × Nat) (r : Row MibFile) : Table mibKey × Nat :=
  match rewritten toLowerCase cache r.data.manufacturer with
  | none => acc
  | some canonical =>
    match acc.1.updateWhere (·.id = r.id) fun m =>
      { m with manufacturer := stored toLowerCase cache (some canonical) } with
    | none => acc
    | some mibs => (mibs, acc.2 + 1)

def applyAliasesToExistingRows : State × Nat × Nat :=
  let (assets, assetCount) :=
    (s.assets.filterMap (·.manufacturer)).eraseDups.foldl (rewriteAssets toLowerCase s.cache) (s.assets, 0)
  let (mibs, mibCount) :=
    (s.mibs.rows.filter (·.data.manufacturer.isSome)).foldl (rewriteMib toLowerCase s.cache) (s.mibs, 0)
  ({ s with assets := assets, mibs := mibs }, assetCount, mibCount)

end Rows

section Runs

variable (toLowerCase : String → String)

inductive Event
  | createAlias (input : ManufacturerAlias)
  | updateAlias (id : Nat) (aliasText canonical : Option String)
  | deleteAlias (id : Nat)
  | seedDefaultAliases
  | refreshAliasCache
  | applyAliasesToExistingRows
  | saveAsset (id : String) (manufacturer : Option String)
  | deleteAsset (id : String)
  | createMib (filename : String) (manufacturer model : Option String) (moduleName : String)
  | deleteMib (id : Nat)

def step (s : State) : Event → State
  | .createAlias input => (createAlias toLowerCase s input).toOption.getD s
  | .updateAlias id aliasText canonical => (updateAlias toLowerCase s id aliasText canonical).toOption.getD s
  | .deleteAlias id => (deleteAlias toLowerCase s id).toOption.getD s
  | .seedDefaultAliases => seedDefaultAliases toLowerCase s
  | .refreshAliasCache => refreshAliasCache toLowerCase s
  | .applyAliasesToExistingRows => (applyAliasesToExistingRows toLowerCase s).1
  | .saveAsset id manufacturer => saveAsset toLowerCase s id manufacturer
  | .deleteAsset id => deleteAsset s id
  | .createMib filename manufacturer model moduleName =>
    (createMib toLowerCase s filename manufacturer model moduleName).toOption.getD s
  | .deleteMib id => (deleteMib s id).toOption.getD s

/-- Nothing is stored and no map is loaded. -/
def installed : State := ⟨Table.empty aliasKey, none, [], Table.empty mibKey⟩

end Runs

end Polaris.ManufacturerAliases
