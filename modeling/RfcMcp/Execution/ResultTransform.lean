import RfcMcp.Python.Json

namespace RfcMcp

mutual

/-- `_to_json_safe`. `maxTableRows` is `None` without limits; the state counts the list elements
seen so far, in the order of the traversal. -/
def toJsonSafeFrom (maxTableRows : Option Nat) : PyValue → Nat → Except PyExc (PyValue × Nat)
  | .dict items, rows => do
    let (items, rows) ← toJsonSafeItems maxTableRows items rows
    return (.dict items, rows)
  | .list xs, rows => do
    let rows ← countRows maxTableRows xs.length rows
    let (xs, rows) ← toJsonSafeList maxTableRows xs rows
    return (.list xs, rows)
  | .datetime t, rows => .ok (.str t, rows)
  | .date t, rows => .ok (.str t, rows)
  | .time t, rows => .ok (.str t, rows)
  | .decimal t, rows => .ok (.str t, rows)
  | .bytes bs, rows => .ok (.str (decodeUtf8Replace bs), rows)
  | .none, rows => .ok (.none, rows)
  | .bool b, rows => .ok (.bool b, rows)
  | .int n, rows => .ok (.int n, rows)
  | .float x, rows => .ok (.float x, rows)
  | .str s, rows => .ok (.str s, rows)
  | .object name, rows => .ok (.object name, rows)

def toJsonSafeList (maxTableRows : Option Nat) :
    List PyValue → Nat → Except PyExc (List PyValue × Nat)
  | [], rows => .ok ([], rows)
  | v :: rest, rows => do
    let (v, rows) ← toJsonSafeFrom maxTableRows v rows
    let (rest, rows) ← toJsonSafeList maxTableRows rest rows
    return (v :: rest, rows)

def toJsonSafeItems (maxTableRows : Option Nat) :
    List (String × PyValue) → Nat → Except PyExc (List (String × PyValue) × Nat)
  | [], rows => .ok ([], rows)
  | (k, v) :: rest, rows => do
    let (v, rows) ← toJsonSafeFrom maxTableRows v rows
    let (rest, rows) ← toJsonSafeItems maxTableRows rest rows
    return ((k, v) :: rest, rows)

/-- `rows[0] += len(value)` and the check that follows. -/
def countRows (maxTableRows : Option Nat) (length rows : Nat) : Except PyExc Nat :=
  match maxTableRows with
  | none => .ok rows
  | some limit =>
    if rows + length > limit then
      .error (.resultLimitExceeded ("RFC result exceeds max_table_rows (actual=" ++
        toString (rows + length) ++ ", limit=" ++ toString limit ++ ")"))
    else .ok (rows + length)

end

/-- `to_json_safe`. -/
def toJsonSafe (value : PyValue) : Except PyExc PyValue := do
  let (safe, _) ← toJsonSafeFrom none value 0
  return safe

structure ResultLimitPolicy where
  maxTableRows : Nat := 10000
  maxSerializedBytes : Nat := 1048576

/-- `ResultLimitPolicy.apply`. -/
def ResultLimitPolicy.apply (limits : ResultLimitPolicy) (value : PyValue) :
    Except PyExc PyValue := do
  let (result, _) ← toJsonSafeFrom (some limits.maxTableRows) value 0
  let serialized ← jsonDumps result
  let serializedBytes := serialized.utf8ByteSize
  if serializedBytes > limits.maxSerializedBytes then
    .error (.resultLimitExceeded ("RFC result exceeds max_serialized_bytes (actual=" ++
      toString serializedBytes ++ ", limit=" ++ toString limits.maxSerializedBytes ++ ")"))
  else return result

end RfcMcp
