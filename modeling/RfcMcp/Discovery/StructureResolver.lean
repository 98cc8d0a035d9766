import RfcMcp.Discovery.Models
import RfcMcp.Framework.Program
import RfcMcp.Python.Sequence

namespace RfcMcp

open Framework

section Resolver

variable {S : Signature} (T : PyText) (call : String → PyDict → Action S PyExc PyDict)

def fieldInfo (fieldName : String) (row : PyDict) : FieldInfo where
  name := fieldName
  description := row.text T "FIELDTEXT"
  position := asInt T row "POSITION"
  abapType := row.text T "TYPE"
  length := asInt T row "LENG"
  decimals := asInt T row "DECIMALS"

/-- The body of the loop of `_resolve`; `nested` resolves a structure one level deeper. -/
def resolveRow (upperName : String) (nested : String → Action S PyExc (List FieldInfo))
    (row : PyValue) : Action S PyExc (List FieldInfo) := do
  let row ← Action.ofExcept row.asRow
  let fieldName := row.text T "FIELDNAME"
  if fieldName = "" then pure []
  else
    let field := fieldInfo T fieldName row
    let nestedTabname := row.text T "TABNAME"
    if nestedTabname ≠ "" ∧ T.upper nestedTabname ≠ upperName then do
      let fields ← nested nestedTabname
      pure (field :: fields)
    else pure [field]

/-- `_resolve`. -/
def resolve (maxDepth : Nat) (tabname : String) (seen : List String) :
    Action S PyExc (List FieldInfo) :=
  match maxDepth with
  | 0 => pure []
  | depth + 1 =>
    let upperName := T.upper (strip tabname)
    if upperName = "" ∨ upperName ∈ seen then pure []
    else do
      let result ← call "RFC_GET_STRUCTURE_DEFINITION" [("TABNAME", .str tabname)]
      let rawFields ← Action.ofExcept (result.getD "FIELDS" (.list [])).iterate
      Action.collect rawFields
        (resolveRow T upperName fun name => resolve depth name (upperName :: seen))

def resolveStructureFields (tabname : String) (maxDepth : Nat) : Action S PyExc (List FieldInfo) :=
  if tabname = "" then pure [] else resolve T call maxDepth tabname []

end Resolver

end RfcMcp
