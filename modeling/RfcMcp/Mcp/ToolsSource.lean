import RfcMcp.Adt.Client
import RfcMcp.Execution.SourceReader

namespace RfcMcp

open Framework

/-- The arguments of `_read_source`. `read_abap_source` has checked that a function module comes
with its function group. -/
structure SourceObject where
  objectType : ObjectType
  objectName : CodePoints
  functionGroup : Option CodePoints := none
  group_given : objectType = .functionModule → ∃ group, functionGroup = some group ∧ group ≠ [] :=
    by decide

inductive Via
  | adt
  | rfc
deriving DecidableEq

def ObjectType.text : ObjectType → String
  | .program => "program"
  | .class_ => "class"
  | .functionModule => "function_module"

/-- The server answers one request after the other, from number `n` on: how many it has got, and how
the program ended. -/
def serveFrom {α : Type} (outcomes : Nat → Except GetError HttpResponse) :
    Nat → Program HttpEffects α → Nat × α
  | n, .ret a => (n, a)
  | n, .call (.get _ _) next => serveFrom outcomes (n + 1) (next (outcomes n))
  | n, .call (.sleep _) next => serveFrom outcomes n (next ())

def serve {α : Type} (outcomes : Nat → Except GetError HttpResponse) (x : HttpAct α) :
    Nat × Except SourceExc α :=
  serveFrom outcomes 0 x

/-- `_read_via_adt`. -/
def readViaAdt (settings : ADTConnectionSettings) (object : SourceObject) : HttpAct String :=
  match object.objectType with
  | .program => ADTClient.getProgramSource settings object.objectName
  | .class_ => ADTClient.getClassSource settings object.objectName
  | .functionModule =>
    match object.functionGroup with
    | some group =>
      if group = [] then Action.raise .assertion
      else ADTClient.getFunctionModuleSource settings group object.objectName
    | none => Action.raise .assertion

def fallbackRecord (object : SourceObject) (exc : AdtError) : LogRecord where
  logger := "rfc_mcp.mcp.tools_source"
  level := .warning
  format := "ADT read failed for %s %s (%s: %s), falling back to RFC"
  args := [object.objectType.text,
    String.ofList (object.objectName.map fun c => Char.ofNat c.val), exc.typeName, exc.message]

/-- `_read_via_rfc`, as the end of `_read_source`. -/
def viaRfc (rfc : Act String) : Action Effects SourceExc (String × Via) :=
  Program.bind rfc fun
    | .ok source => .ret (.ok (source, .rfc))
    | .error exc => .ret (.error (.rfc exc))

/-- `_read_source` against the outcomes of its HTTP requests: the number of requests, and what is
left to do. `rfc` is the RFC read of the object. -/
def readSource (adtClient : Option ADTConnectionSettings) (object : SourceObject)
    (outcomes : Nat → Except GetError HttpResponse) (rfc : Act String) :
    Nat × Action Effects SourceExc (String × Via) :=
  match adtClient with
  | none => (0, viaRfc rfc)
  | some settings =>
    match serve outcomes (readViaAdt settings object) with
    | (requests, .ok source) => (requests, pure (source, .adt))
    | (requests, .error (.adt exc)) =>
      (requests, .call (.log (fallbackRecord object exc)) fun _ => viaRfc rfc)
    | (requests, .error exc) => (requests, Action.raise exc)

end RfcMcp
