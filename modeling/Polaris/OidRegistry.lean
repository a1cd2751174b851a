import Polaris.Lib.Regex
import Polaris.Lib.Worklist
import Polaris.MibParserUtils

namespace Polaris.OidRegistry

open Polaris.Lib.Regex Polaris.Lib.Text Polaris.Lib.Worklist Polaris.MibParserUtils

def BUILT_IN_OIDS : List (String × String) :=
  [("ccitt", "0"), ("iso", "1"), ("joint-iso-ccitt", "2"), ("org", "1.3"), ("dod", "1.3.6"),
   ("internet", "1.3.6.1"), ("directory", "1.3.6.1.1"), ("mgmt", "1.3.6.1.2"),
   ("mib-2", "1.3.6.1.2.1"), ("experimental", "1.3.6.1.3"), ("private", "1.3.6.1.4"),
   ("enterprises", "1.3.6.1.4.1"), ("security", "1.3.6.1.5"), ("snmpV2", "1.3.6.1.6"),
   ("snmpDomains", "1.3.6.1.6.1"), ("snmpProxys", "1.3.6.1.6.2"), ("snmpModules", "1.3.6.1.6.3"),
   ("cisco", "1.3.6.1.4.1.9"), ("ciscoMgmt", "1.3.6.1.4.1.9.9"),
   ("cpmCPUTotal5secRev", "1.3.6.1.4.1.9.9.109.1.1.1.1.6"),
   ("ciscoMemoryPoolUsed", "1.3.6.1.4.1.9.9.48.1.1.1.5"),
   ("ciscoMemoryPoolFree", "1.3.6.1.4.1.9.9.48.1.1.1.6"), ("juniperMIB", "1.3.6.1.4.1.2636"),
   ("jnxOperatingCPU", "1.3.6.1.4.1.2636.3.1.13.1.8"),
   ("jnxOperatingBuffer", "1.3.6.1.4.1.2636.3.1.13.1.11"), ("mikrotik", "1.3.6.1.4.1.14988"),
   ("mtxrSystem", "1.3.6.1.4.1.14988.1.1.3"), ("hp", "1.3.6.1.4.1.11"),
   ("hpSwitch", "1.3.6.1.4.1.11.2.14.11.5.1.9"),
   ("hpSwitchCpuStat", "1.3.6.1.4.1.11.2.14.11.5.1.9.6.1"), ("fortinet", "1.3.6.1.4.1.12356"),
   ("fnFortiGateMib", "1.3.6.1.4.1.12356.101"), ("fgSysCpuUsage", "1.3.6.1.4.1.12356.101.4.1.3"),
   ("fgSysMemUsage", "1.3.6.1.4.1.12356.101.4.1.4"), ("fnFortiSwitchMib", "1.3.6.1.4.1.12356.106"),
   ("fsSysCpuUsage", "1.3.6.1.4.1.12356.106.4.1.2"),
   ("fsSysMemUsage", "1.3.6.1.4.1.12356.106.4.1.3"),
   ("fsSysMemCapacity", "1.3.6.1.4.1.12356.106.4.1.4"),
   ("fsSysDiskUsage", "1.3.6.1.4.1.12356.106.4.1.5"),
   ("fsSysDiskCapacity", "1.3.6.1.4.1.12356.106.4.1.6"), ("fnFortiAPMib", "1.3.6.1.4.1.12356.120"),
   ("fapCommon", "1.3.6.1.4.1.12356.120.1"), ("fapWTPStatus", "1.3.6.1.4.1.12356.120.3"),
   ("fapCpuUsage", "1.3.6.1.4.1.12356.120.3.41"), ("fapMemoryUsage", "1.3.6.1.4.1.12356.120.3.42"),
   ("fapTemperature", "1.3.6.1.4.1.12356.120.3.44"), ("dell", "1.3.6.1.4.1.674"),
   ("radlan", "1.3.6.1.4.1.89"), ("rlCpuUtilDuringLastMinute", "1.3.6.1.4.1.89.1.7")]

structure ParsedAssignment where
  name : String
  parts : List String
  deriving DecidableEq

def wordOrHyphen (c : Char) : Bool := isWord c || c == '-'

def notBrace (c : Char) : Bool := c != '\x7b' && c != '\x7d'

def assignedTo : Pattern :=
  concat [lit "::=", many isSpace, char '\x7b', many isSpace, .group (some1Lazy notBrace),
    many isSpace, char '\x7d']

def ASSIGNMENT_RE : Pattern :=
  concat [.boundary, .group (.seq (.chars Char.isLower) (many wordOrHyphen)), some1 isSpace,
    oneOf [lit "OBJECT-TYPE", concat [lit "OBJECT", some1 isSpace, lit "IDENTIFIER"],
      lit "MODULE-IDENTITY", lit "OBJECT-IDENTITY", lit "NOTIFICATION-TYPE", lit "OBJECT-GROUP",
      lit "NOTIFICATION-GROUP", lit "MODULE-COMPLIANCE"],
    .boundary, manyLazy fun _ => true, assignedTo]

def tokens (text : List Char) : List String :=
  ((text.splitOnP isSpace).filter (· ≠ [])).map String.ofList

def assignmentOf : Groups → Option ParsedAssignment
  | [name, body] =>
    if name.head?.any Char.isUpper then none
    else if tokens body = [] then none
    else some ⟨String.ofList name, tokens body⟩
  | _ => none

def parseObjectAssignments (rawText : List Char) : List ParsedAssignment :=
  (matchAll ASSIGNMENT_RE (stripComments rawText)).filterMap assignmentOf

structure LoadedMib where
  id : String
  moduleName : String
  manufacturer : Option String
  model : Option String
  entries : List ParsedAssignment
  deriving DecidableEq

inductive Layer
  | seed
  | generic
  | vendor
  | device
  deriving DecidableEq

structure ResolvedSymbol where
  oid : String
  fromMibId : Option String
  fromModuleName : Option String
  fromScope : Layer
  deriving DecidableEq

def isInteger (s : String) : Bool := s ≠ "" && s.toList.all Char.isDigit

def partText (numeric : String → Option String) (p : String) : Option String :=
  if isInteger p then some p else numeric p

def tryResolveParts (parts : List String) (numeric : String → Option String) : Option String :=
  match parts with
  | [] => none
  | head :: rest => do
    let base ← partText numeric head
    rest.foldlM (fun acc p => return acc ++ "." ++ (← partText numeric p)) base

def seed (name : String) : Option String := BUILT_IN_OIDS.lookup name

structure Table where
  numeric : String → Option String
  provenance : String → Option ResolvedSymbol

def seedTable : Table := ⟨seed, fun name => (seed name).map (⟨·, none, none, .seed⟩)⟩

def Table.set (t : Table) (name : String) (r : ResolvedSymbol) : Table :=
  ⟨Function.update t.numeric name (some r.oid), Function.update t.provenance name (some r)⟩

structure Pending where
  entry : ParsedAssignment
  mib : LoadedMib

def resolveEntry (layer : Layer) (p : Pending) (t : Table) : Option Table :=
  (tryResolveParts p.entry.parts t.numeric).map fun oid =>
    t.set p.entry.name ⟨oid, some p.mib.id, some p.mib.moduleName, layer⟩

def pendingOf (mibs : List LoadedMib) : List Pending :=
  mibs.flatMap fun mib => mib.entries.map (⟨·, mib⟩)

def resolveLayer (t : Table) (l : Layer × List LoadedMib) : Table :=
  settle (resolveEntry l.1) (pendingOf l.2).length (pendingOf l.2) t

section Scope

variable (toLowerCase : String → String)

def lowered (s : Option String) : Option String :=
  ((s.filter (· ≠ "")).map toLowerCase).filter (· ≠ "")

/-- The modules a scope sees, the layers that are overridden first. -/
def layersOf (mibs : List LoadedMib) (manufacturer model : Option String) :
    List (Layer × List LoadedMib) :=
  let generic := mibs.filter (·.manufacturer = none)
  let vendor := match lowered toLowerCase manufacturer with
    | some lcMfr => mibs.filter fun m => m.manufacturer.map toLowerCase = some lcMfr ∧ m.model = none
    | none => []
  let device := match lowered toLowerCase manufacturer, lowered toLowerCase model with
    | some lcMfr, some lcModel => mibs.filter fun m =>
        m.manufacturer.map toLowerCase = some lcMfr ∧ m.model.map toLowerCase = some lcModel
    | _, _ => []
  [(.generic, generic), (.vendor, vendor), (.device, device)]

def resolveScope (mibs : Option (List LoadedMib)) (manufacturer model : Option String) :
    String → Option ResolvedSymbol :=
  match mibs with
  | none => fun _ => none
  | some mibs => ((layersOf toLowerCase mibs manufacturer model).foldl resolveLayer seedTable).provenance

def scopeKey (manufacturer model : Option String) : String :=
  toLowerCase (manufacturer.getD "") ++ "|" ++ toLowerCase (model.getD "")

end Scope

end Polaris.OidRegistry
