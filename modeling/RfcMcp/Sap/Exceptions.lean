import RfcMcp.Python.Text

namespace RfcMcp

/-- The `SAPError` hierarchy. -/
inductive SapErrorKind
  | sap
  | unavailable
  | poolTimeout
  | logon
  | communication
  | application
  | runtime
deriving DecidableEq, Repr

/-- pyrfc's exception classes, as far as `translate_pyrfc_exception` tells them apart. -/
inductive PyrfcKind
  | logon
  | communication
  | abapApplication
  | abapRuntime
  | other
deriving DecidableEq, Repr

/-- The exceptions that travel through the server. `driver` is raised by pyrfc, with the
attributes `message` and `key` that only some of its classes have; `other` is any other class. -/
inductive PyExc
  | sap (kind : SapErrorKind) (message : String) (key : Option String)
  | driver (kind : PyrfcKind) (text : String) (message key : Option String)
  | policyDenied (functionName mode reason : String)
  | parameterValidation (message : String)
  | resultLimitExceeded (message : String)
  | transactionNotFound (message : String)
  | valueError (message : String)
  | typeError (message : String)
  | attributeError (message : String)
  | other (className text : String)
deriving DecidableEq, Repr

namespace PyExc

/-- `type(exc).__name__`. -/
def typeName : PyExc → String
  | .sap .sap _ _ => "SAPError"
  | .sap .unavailable _ _ => "SAPUnavailableError"
  | .sap .poolTimeout _ _ => "SAPPoolTimeoutError"
  | .sap .logon _ _ => "SAPLogonError"
  | .sap .communication _ _ => "SAPCommunicationError"
  | .sap .application _ _ => "SAPApplicationError"
  | .sap .runtime _ _ => "SAPRuntimeError"
  | .driver .logon _ _ _ => "LogonError"
  | .driver .communication _ _ _ => "CommunicationError"
  | .driver .abapApplication _ _ _ => "ABAPApplicationError"
  | .driver .abapRuntime _ _ _ => "ABAPRuntimeError"
  | .driver .other _ _ _ => "RFCError"
  | .policyDenied _ _ _ => "PolicyDeniedError"
  | .parameterValidation _ => "ParameterValidationError"
  | .resultLimitExceeded _ => "ResultLimitExceededError"
  | .transactionNotFound _ => "TransactionNotFoundError"
  | .valueError _ => "ValueError"
  | .typeError _ => "TypeError"
  | .attributeError _ => "AttributeError"
  | .other className _ => className

/-- `str(exc)`. -/
def text (T : PyText) : PyExc → String
  | .sap _ message _ => message
  | .driver _ text _ _ => text
  | .policyDenied functionName mode reason =>
    "Call to " ++ T.reprStr functionName ++ " in mode=" ++ T.reprStr mode ++ " denied: " ++ reason
  | .parameterValidation message => message
  | .resultLimitExceeded message => message
  | .transactionNotFound message => message
  | .valueError message => message
  | .typeError message => message
  | .attributeError message => message
  | .other _ text => text

end PyExc

/-- `isinstance(exc, SAPCommunicationError)`. -/
def isCommunicationError : PyExc → Bool
  | .sap .communication _ _ => true
  | _ => false

/-- `translate_pyrfc_exception`; without pyrfc there are no classes to compare with. -/
def translatePyrfcException (T : PyText) (pyrfcInstalled : Bool) (exc : PyExc) : PyExc :=
  if pyrfcInstalled then
    match exc with
    | .driver .logon text _ _ => .sap .logon text none
    | .driver .communication text _ _ => .sap .communication text none
    | .driver .abapApplication text message key =>
      .sap .application (match message with
        | some m => if m = "" then text else m
        | none => text) key
    | .driver .abapRuntime text _ _ => .sap .runtime text none
    | exc => .sap .sap (exc.text T) none
  else .sap .sap (exc.text T) none

/-- Every exception is translated into some `SAPError`. -/
theorem translatePyrfcException_sap (T : PyText) (pyrfcInstalled : Bool) (exc : PyExc) :
    ∃ kind message key, translatePyrfcException T pyrfcInstalled exc = .sap kind message key := by
  unfold translatePyrfcException
  split
  · split <;> exact ⟨_, _, _, rfl⟩
  · exact ⟨_, _, _, rfl⟩

end RfcMcp
