import RfcMcp.Execution.ParamMapper
import RfcMcp.Runtime.State

namespace RfcMcp

open Framework

def genericTableReaderParam : String := "QUERY_TABLE"

namespace ExecutionPolicy

variable (T : PyText) (settings : PolicySettings)

/-- `_generic_table_reader_target`. -/
def genericTableReaderTarget (functionName : String) (parameters : PyDict) : Option String :=
  if !settings.isGenericTableReader T functionName then none
  else
    match lastUpper T parameters genericTableReaderParam with
    | some (_, tableName) => if tableName.truthy then some (T.str tableName) else none
    | none => none

def isTargetDenied : Option String → Bool
  | some tableName => settings.isTableDenied T tableName
  | none => false

/-- `_authorize_unlogged`. -/
def authorizeUnlogged (functionName mode : String) (tableName : Option String) :
    Except PyExc Unit :=
  if isTargetDenied T settings tableName then
    .error (.policyDenied functionName mode ("target table " ++ T.reprStr (tableName.getD "") ++
      " matches table_deny_patterns (generic table-reader guard)"))
  else if mode = "read" then
    if !settings.isReadAllowed T functionName then
      .error (.policyDenied functionName mode "not in read_allow_patterns, or explicitly denied")
    else .ok ()
  else if mode = "write" then
    if settings.mode ≠ .readWrite then
      .error (.policyDenied functionName mode "server policy mode is read_only")
    else if !settings.isWriteAllowed T functionName then
      .error (.policyDenied functionName mode "not in write_allow_patterns, or explicitly denied")
    else .ok ()
  else .error (.valueError ("Unknown mode: " ++ T.reprStr mode))

def logger : String := "rfc_mcp.execution.policy"

def allowedRecord (functionName mode : String) (tableName : Option String) : LogRecord where
  logger := logger
  level := .info
  format := "ALLOWED function=%s mode=%s table=%s"
  args := [functionName, mode, tableName.getD "None"]

def deniedRecord (functionName mode : String) (tableName : Option String) (reason : String) :
    LogRecord where
  logger := logger
  level := .warning
  format := "DENIED function=%s mode=%s table=%s reason=%s"
  args := [functionName, mode, tableName.getD "None", reason]

def authorize (functionName mode : String) (parameters : PyDict) : Act Unit :=
  let tableName := genericTableReaderTarget T settings functionName parameters
  match authorizeUnlogged T settings functionName mode tableName with
  | .ok () => log (allowedRecord functionName mode tableName)
  | .error (.policyDenied function mode' reason) => do
    log (deniedRecord functionName mode tableName reason)
    Action.raise (.policyDenied function mode' reason)
  | .error exc => Action.raise exc

def controlAllowedRecord : LogRecord where
  logger := logger
  level := .info
  format := "ALLOWED <transaction-control> mode=write"

def controlDeniedRecord : LogRecord where
  logger := logger
  level := .warning
  format := "DENIED <transaction-control> mode=write reason=server policy mode is read_only"

def authorizeTransactionControl : Act Unit :=
  if settings.mode ≠ .readWrite then do
    log controlDeniedRecord
    Action.raise (.policyDenied "<transaction-control>" "write" "server policy mode is read_only")
  else log controlAllowedRecord

end ExecutionPolicy

end RfcMcp
