import RfcMcp.Framework.Except
import RfcMcp.Sap.Exceptions

namespace RfcMcp

section Utf8

/-- An unfinished character: the octets still owed, the range of the next one, the bits so far. -/
structure Utf8Partial where
  owed : Nat
  lo : Nat := 0x80
  hi : Nat := 0xBF
  bits : Nat

def replacementChar : Char := Char.ofNat 0xFFFD

/-- What the decoder makes of the first octet of a character. -/
def utf8Start (b : Nat) : List Char × Option Utf8Partial :=
  if b < 0x80 then ([Char.ofNat b], none)
  else if 0xC2 ≤ b ∧ b ≤ 0xDF then ([], some { owed := 1, bits := b - 0xC0 })
  else if b = 0xE0 then ([], some { owed := 2, lo := 0xA0, bits := 0 })
  else if b = 0xED then ([], some { owed := 2, hi := 0x9F, bits := 0xD })
  else if 0xE1 ≤ b ∧ b ≤ 0xEF then ([], some { owed := 2, bits := b - 0xE0 })
  else if b = 0xF0 then ([], some { owed := 3, lo := 0x90, bits := 0 })
  else if b = 0xF4 then ([], some { owed := 3, hi := 0x8F, bits := 4 })
  else if 0xF1 ≤ b ∧ b ≤ 0xF3 then ([], some { owed := 3, bits := b - 0xF0 })
  else ([replacementChar], none)

def decodeUtf8From : Option Utf8Partial → List UInt8 → List Char
  | none, [] => []
  | some _, [] => [replacementChar]
  | none, b :: rest =>
    let (chars, state) := utf8Start b.toNat
    chars ++ decodeUtf8From state rest
  | some p, b :: rest =>
    if p.lo ≤ b.toNat ∧ b.toNat ≤ p.hi then
      let bits := p.bits * 64 + (b.toNat - 0x80)
      if p.owed = 1 then Char.ofNat bits :: decodeUtf8From none rest
      else decodeUtf8From (some { owed := p.owed - 1, bits := bits }) rest
    else
      -- The octet that does not fit starts a character of its own.
      let (chars, state) := utf8Start b.toNat
      replacementChar :: (chars ++ decodeUtf8From state rest)

/-- `bytes.decode("utf-8", errors="replace")`. -/
def decodeUtf8Replace (bs : List UInt8) : String := String.ofList (decodeUtf8From none bs)

end Utf8

section Dumps

def hexDigit (n : Nat) : Char := if n < 10 then Char.ofNat (48 + n) else Char.ofNat (87 + n)

def jsonChar (c : Char) : List Char :=
  if c = '"' then ['\\', '"']
  else if c = '\\' then ['\\', '\\']
  else if c.toNat = 8 then ['\\', 'b']
  else if c.toNat = 9 then ['\\', 't']
  else if c.toNat = 10 then ['\\', 'n']
  else if c.toNat = 12 then ['\\', 'f']
  else if c.toNat = 13 then ['\\', 'r']
  else if c.toNat < 32 then ['\\', 'u', '0', '0', hexDigit (c.toNat / 16), hexDigit (c.toNat % 16)]
  else [c]

def jsonString (s : String) : String :=
  "\"" ++ String.ofList (s.toList.flatMap jsonChar) ++ "\""

/-- `Out of range float values are not JSON compliant`, with `allow_nan=False`. -/
def jsonFloat : PyFloat → Except PyExc String
  | .finite repr => .ok repr
  | _ => .error (.valueError "Out of range float values are not JSON compliant")

def notSerializable (v : PyValue) : PyExc :=
  .typeError ("Object of type " ++ v.typeName ++ " is not JSON serializable")

mutual

/-- `json.dumps(value, ensure_ascii=False, allow_nan=False, separators=(",", ":"))`. -/
def jsonDumps : PyValue → Except PyExc String
  | .none => .ok "null"
  | .bool b => .ok (if b then "true" else "false")
  | .int n => .ok (toString n)
  | .float x => jsonFloat x
  | .str s => .ok (jsonString s)
  | .list xs => do return "[" ++ ",".intercalate (← jsonElements xs) ++ "]"
  | .dict items => do return "\x7b" ++ ",".intercalate (← jsonMembers items) ++ "\x7d"
  | .decimal t => .error (notSerializable (.decimal t))
  | .date t => .error (notSerializable (.date t))
  | .time t => .error (notSerializable (.time t))
  | .datetime t => .error (notSerializable (.datetime t))
  | .bytes bs => .error (notSerializable (.bytes bs))
  | .object name => .error (notSerializable (.object name))

def jsonElements : List PyValue → Except PyExc (List String)
  | [] => .ok []
  | v :: rest => do
    let s ← jsonDumps v
    return s :: (← jsonElements rest)

def jsonMembers : List (String × PyValue) → Except PyExc (List String)
  | [] => .ok []
  | (k, v) :: rest => do
    let s ← jsonDumps v
    return (jsonString k ++ ":" ++ s) :: (← jsonMembers rest)

end

end Dumps

section Inversion

open Framework

variable {v : PyValue} {xs : List PyValue} {items : List (String × PyValue)} {key text : String}
  {texts : List String} {exc : PyExc}

theorem jsonElements_cons_ok : jsonElements (v :: xs) = .ok texts ↔
    ∃ text more, jsonDumps v = .ok text ∧ jsonElements xs = .ok more ∧ texts = text :: more := by
  rw [jsonElements, bind_eq_ok]
  refine exists_congr fun text => ?_
  rw [map_eq_ok, exists_and_left]

theorem jsonElements_cons_error (h : jsonElements (v :: xs) = .error exc) :
    jsonDumps v = .error exc ∨ jsonElements xs = .error exc := by
  rw [jsonElements, bind_eq_error] at h
  cases h with
  | inl hhead => exact Or.inl hhead
  | inr hrest =>
    obtain ⟨text, _, hrest⟩ := hrest
    exact Or.inr (map_eq_error.mp hrest)

theorem jsonMembers_cons_ok : jsonMembers ((key, v) :: items) = .ok texts ↔
    ∃ text more, jsonDumps v = .ok text ∧ jsonMembers items = .ok more ∧
      texts = (jsonString key ++ ":" ++ text) :: more := by
  rw [jsonMembers, bind_eq_ok]
  refine exists_congr fun text => ?_
  rw [map_eq_ok, exists_and_left]

theorem jsonMembers_cons_error (h : jsonMembers ((key, v) :: items) = .error exc) :
    jsonDumps v = .error exc ∨ jsonMembers items = .error exc := by
  rw [jsonMembers, bind_eq_error] at h
  cases h with
  | inl hhead => exact Or.inl hhead
  | inr hrest =>
    obtain ⟨text, _, hrest⟩ := hrest
    exact Or.inr (map_eq_error.mp hrest)

theorem jsonDumps_list_eq_ok : jsonDumps (.list xs) = .ok text ↔
    ∃ texts, jsonElements xs = .ok texts ∧ text = "[" ++ ",".intercalate texts ++ "]" := by
  rw [jsonDumps, map_eq_ok]

theorem jsonDumps_list_error : jsonDumps (.list xs) = .error exc ↔
    jsonElements xs = .error exc := by
  rw [jsonDumps, map_eq_error]

theorem jsonDumps_dict_eq_ok : jsonDumps (.dict items) = .ok text ↔
    ∃ members, jsonMembers items = .ok members ∧
      text = "\x7b" ++ ",".intercalate members ++ "\x7d" := by
  rw [jsonDumps, map_eq_ok]

theorem jsonDumps_dict_error : jsonDumps (.dict items) = .error exc ↔
    jsonMembers items = .error exc := by
  rw [jsonDumps, map_eq_error]

end Inversion

end RfcMcp
