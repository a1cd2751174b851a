import Polaris.Cidr

namespace Polaris.Transport

open Polaris.Lib.Text Polaris.Cidr

inductive IntegrationType
  | fortimanager | fortigate | other (name : String)
  deriving DecidableEq

def IntegrationType.text : IntegrationType → String
  | .fortimanager => "fortimanager"
  | .fortigate => "fortigate"
  | .other name => name

/-- An integration row, with the settings of its config that are read when
something is written to a device. -/
structure Integration where
  id : String
  type : IntegrationType := .fortimanager
  enabled : Bool := true
  pushQuarantine : Bool := true
  pushReservations : Bool := true
  useProxy : Bool := true
  fortigateApiToken : String := ""
  mgmtInterface : String := ""
  host : String := ""
  apiToken : String := ""
  deriving DecidableEq

/-- The management address FortiManager answers with. -/
abbrev MgmtIp := Except Failure (Option String)

def buildTransport (integration : Integration) (deviceName : String) (mgmtIp : MgmtIp) :
    Except Failure Unit :=
  if integration.useProxy then .ok ()
  else if integration.fortigateApiToken = "" then
    .error (.app 400 "Direct mode requires a FortiGate API token on the integration")
  else if trim integration.mgmtInterface = "" then
    .error (.app 400 "Direct mode requires \"Management Interface\" to be set on the integration")
  else
    match mgmtIp with
    | .error e => .error e
    | .ok none | .ok (some "") =>
      .error (.app 502 ("Could not resolve management IP for \"" ++ deviceName ++ "\" via FortiManager"))
    | .ok (some _) => .ok ()

/-- The reservation and the quarantine service differ only in what they call
the write an integration does not support. -/
def buildTransportFor (write : String) (integration : Integration) (deviceName : String)
    (mgmtIp : MgmtIp) : Except Failure Unit :=
  match integration.type with
  | .fortimanager => buildTransport integration deviceName mgmtIp
  | .fortigate =>
    if integration.host = "" ∨ integration.apiToken = "" then
      .error (.app 400 ("Standalone FortiGate integration " ++ integration.id ++
        " is missing host or apiToken"))
    else .ok ()
  | .other name =>
    .error (.app 400 (write ++ " is not supported for integration type \"" ++ name ++ "\""))

end Polaris.Transport
