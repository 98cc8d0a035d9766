import RfcMcp.Execution.Invoker

namespace RfcMcp

open Framework

namespace SourceReader

variable (cfg : AppSettings) (pool : ConnectionManager)

def logger : String := "rfc_mcp.execution.source_reader"

/-- `_class_pool_program_name`. -/
def classPoolProgramName (T : PyText) (className : String) : String :=
  let upper := T.upper className
  upper ++ String.ofList (List.replicate (30 - upper.length) '=') ++ "CP"

/-- `line.get("LINE", "")` for each line. -/
def lineItems : List PyValue → Except PyExc (List PyValue)
  | [] => .ok []
  | line :: rest => do
    let row ← line.asRow
    return row.getD "LINE" (.str "") :: (← lineItems rest)

/-- The items of `str.join` from number `i` on, which must be texts. -/
def joinItems (i : ℕ) : List PyValue → Except PyExc (List String)
  | [] => .ok []
  | .str s :: rest => do return s :: (← joinItems (i + 1) rest)
  | v :: _ => .error (.typeError ("sequence item " ++ toString i ++ ": expected str instance, " ++
      v.typeName ++ " found"))

/-- `str.join` takes all its items before it looks at the first. -/
def lineTexts (lines : List PyValue) : Except PyExc (List String) := do
  joinItems 0 (← lineItems lines)

/-- `_source_lines`. -/
def sourceLines (result : PyValue) (tableKey : String) : Except PyExc String := do
  let row ← result.asRow
  let lines ← (row.getD tableKey (.list [])).iterate
  return "\n".intercalate (← lineTexts lines)

def readProgramSource (programName : String) : Act String := do
  let result ← ExecutionInvoker.call cfg pool "RPY_PROGRAM_READ"
    [("PROGRAM_NAME", .str programName)] "read"
  Action.ofExcept (sourceLines result "SOURCE_EXTENDED")

def readFunctionModuleSource (functionModuleName : String) : Act String := do
  let result ← ExecutionInvoker.call cfg pool "RPY_FUNCTIONMODULE_READ"
    [("FUNCTIONNAME", .str functionModuleName)] "read"
  Action.ofExcept (sourceLines result "SOURCE")

/-- The include names of a class pool that are there and not empty. -/
def includeNames : List PyValue → Except PyExc (List PyValue)
  | [] => .ok []
  | row :: rest => do
    let row ← row.asRow
    let names ← includeNames rest
    let name := row.getD "INCLNAME" .none
    return if name.truthy then name :: names else names

def isSapError : PyExc → Bool
  | .sap _ _ _ => true
  | _ => false

/-- The parts that one include adds to the source of its class. -/
def readInclude (className : String) (includeName : PyValue) : Act (List String) := do
  let name := cfg.text.str includeName
  let read ← Action.tryExcept
    (do
      let result ← ExecutionInvoker.call cfg pool "RPY_PROGRAM_READ"
        [("PROGRAM_NAME", includeName)] "read"
      pure (Except.ok result))
    fun exc =>
      if isSapError exc then do
        log {
          logger := logger
          level := .warning
          format := "Could not read include %s of class %s: %s"
          args := [name, className, exc.text cfg.text] }
        pure (Except.error exc)
      else Action.raise exc
  match read with
  | .error exc =>
    pure ["* === INCLUDE " ++ name ++ " (unreadable: " ++ exc.text cfg.text ++ ") ==="]
  | .ok result => do
    let source ← Action.ofExcept (sourceLines result "SOURCE_EXTENDED")
    pure ["* === INCLUDE " ++ name ++ " ===", source]

def readClassSource (className : String) : Act String := do
  let cpResult ← ExecutionInvoker.call cfg pool "RPY_PROGRAM_READ"
    [("PROGRAM_NAME", .str (classPoolProgramName cfg.text className)),
      ("WITH_INCLUDELIST", .str "X")] "read"
  let row ← Action.ofExcept cpResult.asRow
  let rows ← Action.ofExcept (row.getD "INCLUDE_TAB" (.list [])).iterate
  let names ← Action.ofExcept (includeNames rows)
  if names.isEmpty then Action.ofExcept (sourceLines cpResult "SOURCE_EXTENDED")
  else do
    let parts ← Action.collect names (readInclude cfg pool className)
    pure ("\n\n".intercalate parts)

end SourceReader

inductive ObjectType
  | program
  | class_
  | functionModule
deriving DecidableEq, Repr

/-- `_read_via_rfc`. -/
def readViaRfc (cfg : AppSettings) (pool : ConnectionManager) (objectType : ObjectType)
    (objectName : String) : Act String :=
  match objectType with
  | .program => SourceReader.readProgramSource cfg pool objectName
  | .class_ => SourceReader.readClassSource cfg pool objectName
  | .functionModule => SourceReader.readFunctionModuleSource cfg pool objectName

end RfcMcp
