import RfcMcp.Sap.Exceptions

namespace RfcMcp

inductive ParamClass
  | IMPORT
  | EXPORT
  | TABLES
  | CHANGING
deriving DecidableEq, Repr

/-- `paramclass_from_code`. -/
def paramclassFromCode (T : PyText) (code : String) : Except PyExc ParamClass :=
  let c := T.upper (strip code)
  if c = "I" then .ok .IMPORT
  else if c = "E" then .ok .EXPORT
  else if c = "T" then .ok .TABLES
  else if c = "C" then .ok .CHANGING
  else .error (.valueError ("Unknown RFC PARAMCLASS code: " ++ T.reprStr code))

structure FieldInfo where
  name : String
  description : String := ""
  position : Int := 0
  abapType : String := ""
  length : Int := 0
  decimals : Int := 0
deriving DecidableEq, Repr

structure ParameterInfo where
  name : String
  paramClass : ParamClass
  abapType : String := ""
  description : String := ""
  default : String := ""
  optional : Bool := false
  structureName : Option String := none
  fields : List FieldInfo := []
deriving DecidableEq, Repr

structure ExceptionInfo where
  name : String
  description : String := ""
deriving DecidableEq, Repr

structure FunctionSummary where
  name : String
  group : String := ""
  shortText : String := ""
  remoteEnabled : Bool := true
deriving DecidableEq, Repr

structure FunctionInterface where
  name : String
  parameters : List ParameterInfo := []
  exceptions : List ExceptionInfo := []
deriving DecidableEq, Repr

end RfcMcp
