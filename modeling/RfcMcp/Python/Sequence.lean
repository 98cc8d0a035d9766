import RfcMcp.Sap.Exceptions

namespace RfcMcp

namespace PyValue

/-- `list(value)`: what a `for` loop over `value` runs through. -/
def iterate : PyValue → Except PyExc (List PyValue)
  | .list xs => .ok xs
  | .dict items => .ok (items.map fun e => .str e.1)
  | .str s => .ok (s.toList.map fun c => .str (String.ofList [c]))
  | .bytes bs => .ok (bs.map fun b => .int b.toNat)
  | v => .error (.typeError ("'" ++ v.typeName ++ "' object is not iterable"))

/-- The first items that `xs[:limit]` keeps; a negative `limit` counts from the end. -/
def takeTo {α : Type} (limit : Int) (xs : List α) : List α :=
  if 0 ≤ limit then xs.take limit.toNat else xs.take (xs.length - (-limit).toNat)

/-- `value[:limit]`. -/
def sliceTo (limit : Int) : PyValue → Except PyExc PyValue
  | .list xs => .ok (.list (takeTo limit xs))
  | .str s => .ok (.str (String.ofList (takeTo limit s.toList)))
  | .bytes bs => .ok (.bytes (takeTo limit bs))
  | .dict _ => .error (.typeError "unhashable type: 'slice'")
  | v => .error (.typeError ("'" ++ v.typeName ++ "' object is not subscriptable"))

/-- `row.get`: only mappings have it. -/
def asRow : PyValue → Except PyExc PyDict
  | .dict items => .ok items
  | v => .error (.attributeError ("'" ++ v.typeName ++ "' object has no attribute 'get'"))

end PyValue

namespace PyDict

/-- `str(row.get(key, default)).strip()`. -/
def text (T : PyText) (row : PyDict) (key : String) (default : String := "") : String :=
  strip (T.str (row.getD key (.str default)))

end PyDict

section Integer

/-- The digits of an integer literal: single underscores may stand between two digits. -/
def intDigits (T : PyText) : List Char → Nat → Option Nat
  | [], n => some n
  | '_' :: c :: rest, n => (T.digitValue c).bind fun d => intDigits T rest (10 * n + d)
  | c :: rest, n => (T.digitValue c).bind fun d => intDigits T rest (10 * n + d)

/-- `sys.get_int_max_str_digits()`, as it is by default. -/
def intMaxStrDigits : Nat := 4300

def unsignedInt (T : PyText) (cs : List Char) : Option Nat :=
  if intMaxStrDigits < cs.countP (· != '_') then none
  else
    match cs with
    | [] => none
    | c :: rest => (T.digitValue c).bind (intDigits T rest)

/-- `int(text)` for a text without surrounding blanks. -/
def parseInt (T : PyText) (text : String) : Option Int :=
  match text.toList with
  | '-' :: rest => (unsignedInt T rest).map fun n => -(n : Int)
  | '+' :: rest => (unsignedInt T rest).map Int.ofNat
  | rest => (unsignedInt T rest).map Int.ofNat

/-- `_as_int(row.get(key))`. -/
def asInt (T : PyText) (row : PyDict) (key : String) : Int :=
  (parseInt T (strip (T.str (row.getD key .none)))).getD 0

end Integer

end RfcMcp
