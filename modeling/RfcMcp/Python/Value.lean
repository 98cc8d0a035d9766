namespace RfcMcp

/-- Python floats as far as the server looks at them: finite ones by their shortest `repr`. -/
inductive PyFloat
  | finite (repr : String)
  | nan
  | posInf
  | negInf
deriving DecidableEq, Repr

/-- The values that parameters and RFC results are built from. `object` is any other object. -/
inductive PyValue
  | none
  | bool (b : Bool)
  | int (n : Int)
  | float (x : PyFloat)
  | str (s : String)
  | decimal (text : String)
  | date (isoformat : String)
  | time (isoformat : String)
  | datetime (isoformat : String)
  | bytes (bs : List UInt8)
  | list (xs : List PyValue)
  | dict (items : List (String × PyValue))
  | object (typeName : String)
deriving Repr

/-- Keyword arguments, JSON objects and RFC results: string keys in insertion order. -/
abbrev PyDict := List (String × PyValue)

namespace PyValue

/-- `bool(value)`. A `Decimal` is zero when its coefficient has no digit but zeros. -/
def truthy : PyValue → Bool
  | .none => false
  | .bool b => b
  | .int n => n != 0
  | .float (.finite r) => r != "0.0" && r != "-0.0"
  | .float _ => true
  | .str s => s != ""
  | .decimal text =>
    (text.toList.takeWhile (· != 'E')).any fun c => c != '0' && c != '.' && c != '-'
  | .date _ | .time _ | .datetime _ | .object _ => true
  | .bytes bs => !bs.isEmpty
  | .list xs => !xs.isEmpty
  | .dict items => !items.isEmpty

/-- `type(value).__name__`. -/
def typeName : PyValue → String
  | .none => "NoneType"
  | .bool _ => "bool"
  | .int _ => "int"
  | .float _ => "float"
  | .str _ => "str"
  | .decimal _ => "Decimal"
  | .date _ => "date"
  | .time _ => "time"
  | .datetime _ => "datetime"
  | .bytes _ => "bytes"
  | .list _ => "list"
  | .dict _ => "dict"
  | .object name => name

end PyValue

namespace PyDict

/-- `d.get(key)`. -/
def get? (d : PyDict) (key : String) : Option PyValue := d.lookup key

/-- `d.get(key, default)`. -/
def getD (d : PyDict) (key : String) (default : PyValue) : PyValue := (d.get? key).getD default

/-- `d[key] = value`: a new key goes last, an old one keeps its place. -/
def set {α : Type} (d : List (String × α)) (key : String) (value : α) : List (String × α) :=
  if d.any (·.1 == key) then d.map fun e => if e.1 == key then (key, value) else e
  else d ++ [(key, value)]

/-- `del d[key]`. -/
def erase {α : Type} (d : List (String × α)) (key : String) : List (String × α) :=
  d.filter (·.1 != key)

end PyDict

/-- Seconds on the monotonic clock, counted in ticks finer than any two readings. -/
abbrev Time := Int

end RfcMcp
