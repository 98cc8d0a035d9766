import RfcMcp.Discovery.Models

namespace RfcMcp

/-- `{k.upper(): f(k, v) for k, v in parameters.items()}.get(name)`: of several keys with one
upper-case form the last one wins. -/
def lastUpper (T : PyText) (parameters : PyDict) (name : String) : Option (String × PyValue) :=
  parameters.reverse.find? fun e => T.upper e.1 == name

/-- `build_call_kwargs`. -/
def buildCallKwargs (T : PyText) (interface : FunctionInterface) (parameters : PyDict) :
    Except PyExc PyDict :=
  let unknown := parameters.filter fun e =>
    !interface.parameters.any fun p => T.upper p.name == T.upper e.1
  if !unknown.isEmpty then
    .error (.parameterValidation ("Unknown parameter(s) for " ++ interface.name ++ ": " ++
      ", ".intercalate (unknown.map (·.1))))
  else
    let missingRequired := interface.parameters.filter fun p =>
      p.paramClass = .IMPORT && !p.optional && p.default = "" &&
        (lastUpper T parameters (T.upper p.name)).isNone
    if !missingRequired.isEmpty then
      .error (.parameterValidation ("Missing required parameter(s) for " ++ interface.name ++
        ": " ++ ", ".intercalate (missingRequired.map (·.name))))
    else
      .ok (interface.parameters.foldl (fun kwargs p =>
        match lastUpper T parameters (T.upper p.name) with
        | some e => PyDict.set kwargs p.name e.2
        | none => kwargs) [])

end RfcMcp
