import RfcMcp.Sap.Connection
import Mathlib.Tactic.SplitIfs

namespace RfcMcp

open Framework

namespace DemoConnection

/-- `_FUNCTIONS`. -/
def functions : List PyDict :=
  [[("FUNCNAME", .str "STFC_CONNECTION"), ("GROUPNAME", .str "SYST"),
      ("STEXT", .str "Echo text through a synthetic RFC response"), ("REMOTE", .str "X")],
    [("FUNCNAME", .str "Z_DEMO_PRODUCT_LIST"), ("GROUPNAME", .str "ZMCP_DEMO"),
      ("STEXT", .str "Return synthetic products for local MCP evaluation"), ("REMOTE", .str "X")]]

/-- A row of `PARAMS`; none has a default. -/
def paramRow (parameter paramclass paramtype paramtext tabname optional : String) : PyValue :=
  .dict [("PARAMETER", .str parameter), ("PARAMCLASS", .str paramclass),
    ("PARAMTYPE", .str paramtype), ("PARAMTEXT", .str paramtext), ("DEFAULT", .str ""),
    ("TABNAME", .str tabname), ("OPTIONAL", .str optional)]

/-- `_INTERFACES`. -/
def interfaces : List (String × PyDict) :=
  [("STFC_CONNECTION",
      [("PARAMS", .list [paramRow "REQUTEXT" "I" "CHAR255" "Text to echo" "" "",
          paramRow "ECHOTEXT" "E" "CHAR255" "Echoed text" "" "X"]),
        ("EXCEPTIONS", .list [])]),
    ("Z_DEMO_PRODUCT_LIST",
      [("PARAMS", .list [paramRow "CATEGORY" "I" "CHAR20" "Optional category filter" "" "X",
          paramRow "PRODUCTS" "T" "ZDEMO_PRODUCT" "Synthetic product rows" "ZDEMO_PRODUCT" "X"]),
        ("EXCEPTIONS", .list [])])]

/-- A row of `FIELDS`; every type is `CHAR`. -/
def fieldRow (fieldname fieldtext position leng : String) : PyValue :=
  .dict [("FIELDNAME", .str fieldname), ("FIELDTEXT", .str fieldtext),
    ("POSITION", .str position), ("TYPE", .str "CHAR"), ("LENG", .str leng),
    ("DECIMALS", .str "0")]

/-- `_STRUCTURES`. -/
def structures : List (String × PyDict) :=
  [("ZDEMO_PRODUCT",
    [("FIELDS", .list [fieldRow "PRODUCT_ID" "Synthetic product identifier" "1" "10",
      fieldRow "NAME" "Product name" "2" "40", fieldRow "CATEGORY" "Product category" "3" "20"])])]

/-- `_PRODUCTS`. -/
def products : List PyDict :=
  [[("PRODUCT_ID", .str "P100"), ("NAME", .str "Demo Notebook"), ("CATEGORY", .str "OFFICE")],
    [("PRODUCT_ID", .str "P200"), ("NAME", .str "Demo Headset"), ("CATEGORY", .str "ELECTRONICS")],
    [("PRODUCT_ID", .str "P300"), ("NAME", .str "Demo Keyboard"),
      ("CATEGORY", .str "ELECTRONICS")]]

/-- What is answered for a function that is not in `_INTERFACES`. -/
def noInterface : PyDict := [("PARAMS", .list []), ("EXCEPTIONS", .list [])]

section Call

variable (T : PyText)

/-- `str(params.get(key, default))`. -/
def argument (params : PyDict) (key default : String) : String :=
  T.str (params.getD key (.str default))

def call (functionName : String) (params : PyDict) : Except PyExc PyDict :=
  let name := T.upper (strip functionName)
  if name = "RFC_FUNCTION_SEARCH" then
    let pattern := T.upper (argument T params "FUNCNAME" "*")
    let group := T.upper (argument T params "GROUPNAME" "")
    let found := functions.filter fun item =>
      fnmatchcase (argument T item "FUNCNAME" "") pattern &&
        (group == "" || T.upper (argument T item "GROUPNAME" "") == group)
    .ok [("FUNCTIONS", .list (found.map .dict))]
  else if name = "RFC_GET_FUNCTION_INTERFACE" then
    let requested := T.upper (argument T params "FUNCNAME" "")
    .ok ((interfaces.lookup requested).getD noInterface)
  else if name = "RFC_GET_STRUCTURE_DEFINITION" then
    let requested := T.upper (argument T params "TABNAME" "")
    .ok ((structures.lookup requested).getD [("FIELDS", .list [])])
  else if name = "STFC_CONNECTION" then
    let text := argument T params "REQUTEXT" ""
    .ok [("ECHOTEXT", .str text), ("RESPTEXT", .str "Synthetic demo response")]
  else if name = "Z_DEMO_PRODUCT_LIST" then
    let category := T.upper (strip (argument T params "CATEGORY" ""))
    let found := products.filter fun item =>
      category == "" || argument T item "CATEGORY" "" == category
    .ok [("PRODUCTS", .list (found.map .dict))]
  else .error (.valueError ("Demo RFC function is not available: " ++ functionName))

/-- The names of the branches of `call`. -/
def names : List String :=
  ["RFC_FUNCTION_SEARCH", "RFC_GET_FUNCTION_INTERFACE", "RFC_GET_STRUCTURE_DEFINITION",
    "STFC_CONNECTION", "Z_DEMO_PRODUCT_LIST"]

/-- The function whose branch `call` takes. -/
def branch (functionName : String) : Option String :=
  if T.upper (strip functionName) ∈ names then some (T.upper (strip functionName)) else none

/-- `call` answers exactly in its branches. -/
theorem call_ok_iff (functionName : String) (params : PyDict) :
    (∃ result, call T functionName params = .ok result) ↔
      (branch T functionName).isSome = true := by
  unfold call branch names
  simp only
  split_ifs with hsearch hinterface hstructure hecho hproducts <;> simp_all

end Call

end DemoConnection

namespace DemoConnectionPool

def checkout : Act Conn := perform .demoConnection

/-- Every demo connection is closed when it comes back. -/
def release (conn : Conn) : Act Unit := perform (.closeConnection conn)

def acquire {α : Type} (body : Conn → Act α) : Act α := do
  let connection ← checkout
  Action.tryFinally (body connection) (release connection)

end DemoConnectionPool

def demoConnectionPool : ConnectionManager where
  acquire := DemoConnectionPool.acquire
  checkout := DemoConnectionPool.checkout
  release conn _ _ := DemoConnectionPool.release conn
  closeAll := pure ()

end RfcMcp
