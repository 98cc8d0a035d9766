import RfcMcp.Python.Value

namespace RfcMcp

/-- Characters that `str.strip` removes. -/
def isSpace (c : Char) : Bool :=
  let n := c.toNat
  (9 ≤ n && n ≤ 13) || (28 ≤ n && n ≤ 32) || n == 0x85 || n == 0xA0 || n == 0x1680 ||
    (0x2000 ≤ n && n ≤ 0x200A) || n == 0x2028 || n == 0x2029 || n == 0x202F || n == 0x205F ||
    n == 0x3000

/-- The interpreter's text tables: Unicode's upper-case mapping, one character at a time, and its
decimal digits; the `repr` of a string, and the `str` of the values whose text no branch of the
server looks into. -/
structure PyText where
  upperChar : Char → List Char
  digitValue : Char → Option Nat
  reprStr : String → String
  reprOther : PyValue → String
  upperChar_ascii : ∀ c, c.toNat < 128 → upperChar c = [c.toUpper]
  upperChar_space : ∀ c, isSpace c = true → upperChar c = [c]
  digitValue_ascii : ∀ c, c.toNat < 128 →
    digitValue c = if c.isDigit then some (c.toNat - 48) else none

namespace PyText

variable (T : PyText)

/-- `s.upper()`. -/
def upper (s : String) : String := String.ofList (s.toList.flatMap T.upperChar)

/-- `str(value)`. -/
def str : PyValue → String
  | .none => "None"
  | .bool b => if b then "True" else "False"
  | .int n => toString n
  | .float (.finite r) => r
  | .float .nan => "nan"
  | .float .posInf => "inf"
  | .float .negInf => "-inf"
  | .str s => s
  | .decimal text => text
  | .date text => text
  | .time text => text
  | v => T.reprOther v

end PyText

/-- `s.strip()`. -/
def strip (s : String) : String :=
  String.ofList ((s.toList.dropWhile isSpace).reverse.dropWhile isSpace).reverse

theorem toUpper_of_isSpace {c : Char} (h : isSpace c = true) : c.toUpper = c := by
  unfold Char.toUpper
  refine dif_neg ?_
  rintro ⟨hlo, hhi⟩
  have hlo' : 97 ≤ c.toNat := UInt32.le_iff_toNat_le.mp hlo
  have hhi' : c.toNat ≤ 122 := UInt32.le_iff_toNat_le.mp hhi
  simp only [isSpace, Bool.or_eq_true, Bool.and_eq_true, decide_eq_true_eq, beq_iff_eq] at h
  omega

/-- Text tables that agree with Unicode on ASCII and leave every other character alone. -/
def asciiText : PyText where
  upperChar c := [c.toUpper]
  digitValue c := if c.isDigit then some (c.toNat - 48) else none
  reprStr s := "'" ++ s ++ "'"
  reprOther v := v.typeName
  upperChar_ascii _ _ := rfl
  upperChar_space _ h := by rw [toUpper_of_isSpace h]
  digitValue_ascii _ _ := rfl

section Upper

variable (T : PyText)

theorem toList_upper (s : String) : (T.upper s).toList = s.toList.flatMap T.upperChar := by
  simp [PyText.upper]

theorem upper_append (s t : String) : T.upper (s ++ t) = T.upper s ++ T.upper t := by
  simp [PyText.upper, String.ofList_append]

/-- On ASCII text `upper` is the usual mapping. -/
theorem upper_ascii {s : String} (h : ∀ c ∈ s.toList, c.toNat < 128) :
    T.upper s = String.ofList (s.toList.map Char.toUpper) := by
  unfold PyText.upper
  congr 1
  generalize s.toList = cs at h
  induction cs with
  | nil => rfl
  | cons c cs ih =>
    rw [List.flatMap_cons, T.upperChar_ascii c (h c (by simp)), ih fun d hd => h d (by simp [hd])]
    rfl

end Upper

end RfcMcp
