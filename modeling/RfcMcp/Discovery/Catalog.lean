import RfcMcp.Discovery.Cache
import RfcMcp.Discovery.StructureResolver

namespace RfcMcp

open Framework

namespace FunctionCatalog

variable (cfg : AppSettings) (call : String → PyDict → Act PyDict)

def searchKey (T : PyText) (pattern : String) (group : Option String) (limit : Int) : String :=
  T.upper pattern ++ "|" ++ T.upper (group.getD "") ++ "|" ++ toString limit

def searchKwargs (pattern : String) (group : Option String) : PyDict :=
  match group with
  | some g => if g = "" then [("FUNCNAME", .str pattern)]
    else [("FUNCNAME", .str pattern), ("GROUPNAME", .str g)]
  | none => [("FUNCNAME", .str pattern)]

/-- The loop of `_do_search` over the rows. -/
def searchSummaries (T : PyText) : List PyValue → Except PyExc (List FunctionSummary)
  | [] => .ok []
  | row :: rest => do
    let row ← row.asRow
    let name := row.text T "FUNCNAME"
    if name = "" then searchSummaries T rest
    else
      let remote := (row.get? "REMOTE").getD (row.getD "RFCREMOTE" (.str "X"))
      let remoteFlag := T.upper (strip (T.str remote))
      let summary : FunctionSummary := {
        name := name
        group := row.text T "GROUPNAME"
        shortText := row.text T "STEXT"
        remoteEnabled := remoteFlag ≠ "" ∧ remoteFlag ≠ " " }
      let summaries ← searchSummaries T rest
      return summary :: summaries

/-- What `_do_search` makes of an answer. -/
def searchRows (T : PyText) (limit : Int) (result : PyDict) :
    Except PyExc (List FunctionSummary) := do
  let rows := result.getD "FUNCTIONS" (.list [])
  let rows ← rows.sliceTo limit
  let rows ← rows.iterate
  searchSummaries T rows

/-- `_do_search`. -/
def doSearch (pattern : String) (group : Option String) (limit : Int) :
    Act (List FunctionSummary) := do
  let result ← call "RFC_FUNCTION_SEARCH" (searchKwargs pattern group)
  Action.ofExcept (searchRows cfg.text limit result)

def search (pattern : String) (group : Option String) (limit : Int) : Act (List FunctionSummary) :=
  TTLCache.getOrSet .search (searchKey cfg.text pattern group limit)
    (doSearch cfg call pattern group limit)

def parameterInfo (T : PyText) (row : PyDict) (paramName : String) (paramClass : ParamClass)
    (structureName : Option String) (fields : List FieldInfo) : ParameterInfo where
  name := paramName
  paramClass := paramClass
  abapType := row.text T "PARAMTYPE"
  description := row.text T "PARAMTEXT"
  default := row.text T "DEFAULT"
  optional := T.upper (row.text T "OPTIONAL") ∈ ["X", "TRUE", "1"]
  structureName := structureName
  fields := fields

/-- The body of the loop over `PARAMS`. -/
def interfaceParameter (row : PyValue) : Act (List ParameterInfo) := do
  let row ← Action.ofExcept row.asRow
  let paramName := row.text cfg.text "PARAMETER"
  if paramName = "" then pure []
  else
    match paramclassFromCode cfg.text (row.text cfg.text "PARAMCLASS") with
    | .error _ => pure []
    | .ok paramClass =>
      let structureName := row.text cfg.text "TABNAME"
      if structureName = "" then
        pure [parameterInfo cfg.text row paramName paramClass none []]
      else do
        let fields ← resolveStructureFields cfg.text call structureName
          cfg.structureResolutionMaxDepth
        pure [parameterInfo cfg.text row paramName paramClass (some structureName) fields]

/-- The loop over `EXCEPTIONS`. -/
def interfaceExceptions (T : PyText) : List PyValue → Except PyExc (List ExceptionInfo)
  | [] => .ok []
  | row :: rest => do
    let row ← row.asRow
    let excName := row.text T "EXCEPTION"
    if excName = "" then interfaceExceptions T rest
    else
      let description := (row.get? "STEXT").getD (row.getD "DESCRIPTION" (.str ""))
      let exceptions ← interfaceExceptions T rest
      return { name := excName, description := strip (T.str description) } :: exceptions

/-- `_do_get_interface`. -/
def doGetInterface (functionName : String) : Act FunctionInterface := do
  let result ← call "RFC_GET_FUNCTION_INTERFACE" [("FUNCNAME", .str functionName)]
  let params ← Action.ofExcept (result.getD "PARAMS" (.list [])).iterate
  let parameters ← Action.collect params (interfaceParameter cfg call)
  let rows ← Action.ofExcept (result.getD "EXCEPTIONS" (.list [])).iterate
  let exceptions ← Action.ofExcept (interfaceExceptions cfg.text rows)
  pure { name := functionName, parameters := parameters, exceptions := exceptions }

def getInterface (functionName : String) : Act FunctionInterface :=
  TTLCache.getOrSet .interface (cfg.text.upper functionName) (doGetInterface cfg call functionName)

end FunctionCatalog

end RfcMcp
