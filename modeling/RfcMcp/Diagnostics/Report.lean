import RfcMcp.Demo
import RfcMcp.Sap.Health
import RfcMcp.Sap.Settings

namespace RfcMcp

open Framework

inductive BackendMode
  | sap
  | demo
deriving DecidableEq, Repr

/-- `settings.backend.value`. -/
def BackendMode.value : BackendMode → String
  | .sap => "sap"
  | .demo => "demo"

inductive CheckStatus
  | pass
  | warn
  | skip
  | fail
deriving DecidableEq, Repr

structure DiagnosticCheck where
  name : String
  status : CheckStatus
  detail : String
deriving DecidableEq, Repr

structure DiagnosticReport where
  backend : String
  checks : List DiagnosticCheck
deriving DecidableEq, Repr

def DiagnosticReport.ok (report : DiagnosticReport) : Bool :=
  report.checks.all fun check => check.status != .fail

/-- A problem in a `ValidationError`: its location and its message. -/
structure ValidationProblem where
  loc : List String
  msg : String

/-- The settings that `run_diagnostics` reads; `sapSettings` is what `sap_settings()` comes to. -/
structure DiagnosticSettings (T : PyText) where
  backend : BackendMode := .sap
  sapSettings : Except (List ValidationProblem) (SAPConnectionSettings T)
  readAllowPatterns : List String := []

/-- `_configuration_error`. -/
def configurationError (problems : List ValidationProblem) : String :=
  "; ".intercalate (problems.map fun error => ".".intercalate error.loc ++ ": " ++ error.msg)

namespace Diagnostics

variable {T : PyText}

def backendCheck (settings : DiagnosticSettings T) : DiagnosticCheck :=
  ⟨"backend", .pass, "Selected " ++ settings.backend.value ++ " backend."⟩

def demoChecks : List DiagnosticCheck :=
  [⟨"configuration", .pass, "Demo mode needs no SAP host, credentials, PyRFC, or NW RFC SDK."⟩,
    ⟨"pyrfc", .skip, "Not required by the demo backend."⟩]

/-- `addressing`. -/
def addressing (sapSettings : SAPConnectionFields) : String :=
  if isGiven sapSettings.ashost then "direct application server" else "message server"

def configurationCheck (sapSettings : SAPConnectionFields) : DiagnosticCheck :=
  ⟨"configuration", .pass, "Valid " ++ addressing sapSettings ++
    " settings; credential values are intentionally hidden."⟩

def readPolicyCheck (settings : DiagnosticSettings T) : DiagnosticCheck :=
  if settings.readAllowPatterns ≠ [] ∨ settings.backend = .demo then
    ⟨"read policy", .pass, "At least one read allow pattern is active."⟩
  else
    ⟨"read policy", .warn,
      "No read allow patterns are configured; all business RFC calls remain denied."⟩

/-- `run_diagnostics` from the point on where `pool` has its value. -/
def finish (settings : DiagnosticSettings T) (connect : Bool) (pool : ConnectionManager)
    (ping : Conn → Except PyExc Unit) (checks : List DiagnosticCheck) : Act DiagnosticReport := do
  let checks := checks ++ [readPolicyCheck settings]
  if connect then
    let result ← checkConnectivity T pool ping
    let check : DiagnosticCheck :=
      ⟨"connectivity", if result.ok then .pass else .fail, result.detail⟩
    pool.closeAll
    pure ⟨settings.backend.value, checks ++ [check]⟩
  else
    pure ⟨settings.backend.value, checks ++
      [⟨"connectivity", .skip, "Not attempted. Pass --connect to perform a live ping."⟩]⟩

end Diagnostics

open Diagnostics

/-- `run_diagnostics`; `ping` is what the `ping` of a `pyrfc` connection comes to. A demo connection
answers it. -/
def runDiagnostics {T : PyText} (settings : DiagnosticSettings T) (connect : Bool)
    (pyrfcProbe : Except PyExc Unit) (poolFactory : SAPConnectionSettings T → ConnectionManager)
    (ping : Conn → Except PyExc Unit) : Act DiagnosticReport :=
  let checks := [backendCheck settings]
  match settings.backend with
  | .demo =>
    finish settings connect demoConnectionPool (fun _ => .ok ()) (checks ++ demoChecks)
  | .sap =>
    match settings.sapSettings with
    | .error exc =>
      pure ⟨settings.backend.value, checks ++ [⟨"configuration", .fail, configurationError exc⟩]⟩
    | .ok sapSettings =>
      let checks := checks ++ [configurationCheck sapSettings.toSAPConnectionFields]
      match pyrfcProbe with
      | .error exc =>
        pure ⟨settings.backend.value, checks ++ [⟨"pyrfc", .fail,
          "PyRFC or the NW RFC SDK could not be loaded (" ++ exc.typeName ++ ")."⟩]⟩
      | .ok () =>
        finish settings connect (poolFactory sapSettings) ping
          (checks ++ [⟨"pyrfc", .pass, "PyRFC and its native SDK loaded."⟩])

end RfcMcp
