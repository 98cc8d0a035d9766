import RfcMcp.Framework.Program
import RfcMcp.Sap.Exceptions

namespace RfcMcp

open Framework

/-- A Python string: code points, surrogates included. -/
abbrev CodePoints := List (Fin 0x110000)

def isSurrogate (c : Fin 0x110000) : Bool := decide (0xD800 ≤ c.val ∧ c.val ≤ 0xDFFF)

structure HttpResponse where
  statusCode : Nat
  text : String
deriving DecidableEq

/-- What `httpx.Client.get` may raise: `TransportError` with its subclasses, and the exceptions that
are none of these (`DecodingError`, `TooManyRedirects`, `InvalidURL`). -/
inductive GetError
  | transport (className text : String)
  | other (className text : String)
deriving DecidableEq

/-- The exceptions of `_get_with_retry`; `raise_for_status` adds `HTTPStatusError`. -/
inductive HttpxException
  | status (response : HttpResponse)
  | request (exc : GetError)

inductive AdtErrorKind
  | error
  | notConfigured
  | connection
  | authentication
  | notFound
  | response
deriving DecidableEq

/-- The `ADTError` hierarchy. -/
structure AdtError where
  kind : AdtErrorKind
  message : String
  statusCode : Option Nat := none

def AdtError.typeName (exc : AdtError) : String :=
  match exc.kind with
  | .error => "ADTError"
  | .notConfigured => "ADTNotConfiguredError"
  | .connection => "ADTConnectionError"
  | .authentication => "ADTAuthenticationError"
  | .notFound => "ADTNotFoundError"
  | .response => "ADTResponseError"

/-- The exceptions of reading a source: those of the two transports, and what the code before the
first request may raise. -/
inductive SourceExc
  | adt (exc : AdtError)
  | httpx (exc : GetError)
  | unicodeEncode (position : Nat)
  | assertion
  | rfc (exc : PyExc)

def translateHttpxException : HttpxException → AdtError
  | .request (.transport _ text) => ⟨.connection, text, none⟩
  | .status response =>
    let status := response.statusCode
    let message := toString status ++ ": " ++ (response.text.take 500).toString
    if status = 401 ∨ status = 403 then ⟨.authentication, message, none⟩
    else if status = 404 then ⟨.notFound, message, none⟩
    else ⟨.response, message, some status⟩
  | .request (.other _ text) => ⟨.error, text, none⟩

inductive HttpOp
  | get (uri accept : String)
  | sleep (attempt : Nat)

abbrev HttpOp.Res : HttpOp → Type
  | .get _ _ => Except GetError HttpResponse
  | .sleep _ => Unit

abbrev HttpEffects : Signature := ⟨HttpOp, HttpOp.Res⟩

/-- What the ADT client does: HTTP requests and waits. -/
abbrev HttpAct := Action HttpEffects SourceExc

def http (o : HttpOp) : HttpAct o.Res := Action.perform (S := HttpEffects) o

structure ADTConnectionSettings where
  maxRetries : Nat := 3

/-- The characters that `urllib.parse.quote` leaves alone. -/
def isQuoteSafe (c : Char) : Bool := c.isAlphanum || "_.-~/".toList.contains c

def percentByte (b : UInt8) : String :=
  let digit (n : Nat) : Char := (Nat.digitChar n).toUpper
  String.ofList ['%', digit (b.toNat / 16), digit (b.toNat % 16)]

def quoteChar (c : Char) : String :=
  if isQuoteSafe c then String.ofList [c]
  else String.join ((String.utf8EncodeChar c).map percentByte)

/-- `urllib.parse.quote`, from code point number `position` on: a surrogate has no UTF-8 form. -/
def quoteFrom (position : Nat) : CodePoints → Except SourceExc String
  | [] => .ok ""
  | c :: rest =>
    if isSurrogate c then .error (.unicodeEncode position)
    else do
      let quoted ← quoteFrom (position + 1) rest
      return quoteChar (Char.ofNat c.val) ++ quoted

def quote (name : CodePoints) : Except SourceExc String := quoteFrom 0 name

def programSourceUri (programName : CodePoints) : Except SourceExc String := do
  let name ← quote programName
  return "/sap/bc/adt/programs/programs/" ++ name ++ "/source/main"

def classSourceUri (className : CodePoints) : Except SourceExc String := do
  let name ← quote className
  return "/sap/bc/adt/oo/classes/" ++ name ++ "/source/main"

def functionModuleSourceUri (functionGroup functionModule : CodePoints) :
    Except SourceExc String := do
  let group ← quote functionGroup
  let name ← quote functionModule
  return "/sap/bc/adt/functions/groups/" ++ group ++ "/fmodules/" ++ name ++ "/source/main"

def sourceAccept : String := "text/plain"

/-- `response.raise_for_status()`, which raises on everything but a 2xx status. -/
def raiseForStatus : Except GetError HttpResponse → Except HttpxException HttpResponse
  | .ok response =>
    if 200 ≤ response.statusCode ∧ response.statusCode ≤ 299 then .ok response
    else .error (.status response)
  | .error exc => .error (.request exc)

/-- How the `try` of `_get_with_retry` ends. -/
inductive Attempt
  | done (response : HttpResponse)
  | failed (exc : SourceExc)
  | again (exc : HttpxException)

/-- The body of the loop of `_get_with_retry`: only transport failures and 5xx are tried again. -/
def attempt (outcome : Except GetError HttpResponse) : Attempt :=
  match raiseForStatus outcome with
  | .ok response => .done response
  | .error (.status response) =>
    if response.statusCode < 500 then .failed (.adt (translateHttpxException (.status response)))
    else .again (.status response)
  | .error (.request (.transport className text)) => .again (.request (.transport className text))
  | .error (.request (.other className text)) => .failed (.httpx (.other className text))

namespace ADTClient

/-- The loop of `_get_with_retry` from attempt `number` on, with so many left after it. -/
def getAttempts (uri accept : String) (number : Nat) : (retries : Nat) → HttpAct HttpResponse
  | 0 => do
    let outcome ← http (.get uri accept)
    match attempt outcome with
    | .done response => pure response
    | .failed exc => Action.raise exc
    | .again lastExc => Action.raise (.adt (translateHttpxException lastExc))
  | retries + 1 => do
    let outcome ← http (.get uri accept)
    match attempt outcome with
    | .done response => pure response
    | .failed exc => Action.raise exc
    | .again _ => do
      http (.sleep number)
      getAttempts uri accept (number + 1) retries

def getWithRetry (settings : ADTConnectionSettings) (uri accept : String) : HttpAct HttpResponse :=
  getAttempts uri accept 0 settings.maxRetries

/-- The three `get_…_source` methods differ in the URI. -/
def getSource (settings : ADTConnectionSettings) (uri : Except SourceExc String) :
    HttpAct String := do
  let uri ← Action.ofExcept uri
  let response ← getWithRetry settings uri sourceAccept
  pure response.text

def getProgramSource (settings : ADTConnectionSettings) (programName : CodePoints) :
    HttpAct String :=
  getSource settings (programSourceUri programName)

def getClassSource (settings : ADTConnectionSettings) (className : CodePoints) : HttpAct String :=
  getSource settings (classSourceUri className)

def getFunctionModuleSource (settings : ADTConnectionSettings)
    (functionGroup functionModule : CodePoints) : HttpAct String :=
  getSource settings (functionModuleSourceUri functionGroup functionModule)

end ADTClient

end RfcMcp
