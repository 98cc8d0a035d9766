import RfcMcp.Sap.Exceptions

namespace RfcMcp

/-- `bool(s)` for a text that may be absent. -/
def isGiven : Option String → Bool
  | some s => s != ""
  | none => false

/-- A text that may be absent, as a value. -/
def textOrNone : Option String → PyValue
  | some s => .str s
  | none => .none

/-- What `^\d{n}$` matches. -/
def matchesDigits (T : PyText) (n : Nat) (s : String) : Bool :=
  s.toList.length == n && s.toList.all fun c => (T.digitValue c).isSome

/-- The fields of `SAPConnectionSettings` that address a system and log on to it. -/
structure SAPConnectionFields where
  ashost : Option String := none
  sysnr : Option String := none
  mshost : Option String := none
  msserv : Option String := none
  group : Option String := none
  r3name : Option String := none
  client : String
  user : String
  passwd : String
  lang : String := "EN"

namespace SAPConnectionFields

variable (s : SAPConnectionFields)

def direct : Bool := isGiven s.ashost && isGiven s.sysnr

def loadBalanced : Bool :=
  isGiven s.mshost && isGiven s.msserv && isGiven s.group && isGiven s.r3name

/-- `_check_addressing_mode`. -/
def checkAddressingMode : Except PyExc Unit :=
  if s.direct == s.loadBalanced then
    .error (.valueError ("Provide exactly one addressing mode: (ashost + sysnr) for a direct " ++
      "application server connection, or (mshost + msserv + group + r3name) " ++
      "for load-balanced connections via message server."))
  else .ok ()

/-- `assert value is not None`. -/
def assertNotNone : Option String → Except PyExc Unit
  | some _ => .ok ()
  | none => .error (.other "AssertionError" "")

def toPyrfcKwargs : Except PyExc PyDict := do
  let base : PyDict :=
    [("client", .str s.client), ("user", .str s.user), ("passwd", .str s.passwd),
      ("lang", .str s.lang)]
  if isGiven s.ashost then
    assertNotNone s.sysnr
    return base ++ [("ashost", textOrNone s.ashost), ("sysnr", textOrNone s.sysnr)]
  else
    assertNotNone s.mshost
    assertNotNone s.msserv
    assertNotNone s.group
    assertNotNone s.r3name
    return base ++ [("mshost", textOrNone s.mshost), ("msserv", textOrNone s.msserv),
      ("group", textOrNone s.group), ("r3name", textOrNone s.r3name)]

end SAPConnectionFields

/-- `SAPConnectionSettings` that have passed their validation. -/
structure SAPConnectionSettings (T : PyText) extends SAPConnectionFields where
  sysnr_pattern : ∀ s, sysnr = some s → matchesDigits T 2 s = true
  client_pattern : matchesDigits T 3 client = true
  addressing : toSAPConnectionFields.checkAddressingMode = .ok ()

end RfcMcp
