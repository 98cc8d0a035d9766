import RfcMcp.Python.Glob
import RfcMcp.Python.Text

namespace RfcMcp

inductive PolicyMode
  | readOnly
  | readWrite
deriving DecidableEq, Repr

def defaultDenyPatterns : List String :=
  ["*_CREATE*", "*_CHANGE*", "*_UPDATE*", "*_DELETE*", "*_SAVE*", "*_POST*", "*_REMOVE*",
    "*_MODIFY*", "*_CANCEL*", "*_MAINTAIN*", "*_INSERT*", "*_LOCK*", "*_RELEASE*", "*_REVERSE*",
    "*_CLOSE*", "*_APPROVE*", "*_REJECT*", "*_SUBMIT*", "*_ADD*", "*_ASSIGN*",
    "BAPI_TRANSACTION_COMMIT", "BAPI_TRANSACTION_ROLLBACK", "RFC_ABAP_INSTALL_AND_RUN", "SUSR_*"]

def defaultSensitiveTablePatterns : List String :=
  ["USR*", "UST04", "UST10*", "USH02", "AGR_*", "DEVACCESS", "RFCDES", "SNC*", "RSECTAB"]

def genericTableReaderFunctions : List String :=
  ["RFC_READ_TABLE", "RFC_GET_TABLE_ENTRIES", "/SDF/RFC_READ_TABLE2", "BBP_RFC_READ_TABLE"]

structure PolicySettings where
  mode : PolicyMode := .readOnly
  readAllowPatterns : List String := []
  writeAllowPatterns : List String := []
  denyPatterns : List String := defaultDenyPatterns
  tableDenyPatterns : List String := defaultSensitiveTablePatterns
  genericTableReaderFunctions : List String := RfcMcp.genericTableReaderFunctions

namespace PolicySettings

variable (T : PyText) (s : PolicySettings)

/-- `any(fnmatchcase(name.upper(), p.upper()) for p in patterns)`. -/
def matchesAny (patterns : List String) (name : String) : Bool :=
  patterns.any fun p => fnmatchcase (T.upper name) (T.upper p)

def isDenied (functionName : String) : Bool := matchesAny T s.denyPatterns functionName

def isReadAllowed (functionName : String) : Bool :=
  if s.isDenied T functionName then false
  else matchesAny T s.readAllowPatterns functionName

def isWriteAllowed (functionName : String) : Bool :=
  if s.mode ≠ .readWrite then false
  else if s.isDenied T functionName then false
  else matchesAny T s.writeAllowPatterns functionName

def isGenericTableReader (functionName : String) : Bool :=
  s.genericTableReaderFunctions.any fun f => T.upper functionName == T.upper f

def isTableDenied (tableName : String) : Bool := matchesAny T s.tableDenyPatterns tableName

/-- Every decision about a function sees its name in upper case only. -/
theorem matchesAny_congr {patterns : List String} {f g : String} (h : T.upper f = T.upper g) :
    matchesAny T patterns f = matchesAny T patterns g := by
  unfold matchesAny
  rw [h]

theorem isReadAllowed_congr {f g : String} (h : T.upper f = T.upper g) :
    s.isReadAllowed T f = s.isReadAllowed T g := by
  have hdeny : s.isDenied T f = s.isDenied T g := matchesAny_congr T h
  unfold isReadAllowed
  rw [hdeny, matchesAny_congr T h]

theorem isWriteAllowed_mode {f : String} (h : s.isWriteAllowed T f = true) :
    s.mode = .readWrite := by
  unfold isWriteAllowed at h
  cases hm : s.mode with
  | readOnly => simp [hm] at h
  | readWrite => rfl

end PolicySettings

section Shapes

variable (T : PyText)

/-- Text that `upper` leaves alone. -/
def isUpperAscii (s : String) : Bool :=
  s.toList.all fun c => decide (c.toNat < 128) && c.toUpper == c

theorem upper_of_isUpperAscii {s : String} (h : isUpperAscii s = true) : T.upper s = s := by
  have hall : ∀ c ∈ s.toList, c.toNat < 128 ∧ c.toUpper = c := by
    simpa [isUpperAscii] using h
  have hsame : s.toList.map Char.toUpper = s.toList := by
    conv_rhs => rw [← List.map_id s.toList]
    exact List.map_congr_left fun c hc => (hall c hc).2
  rw [upper_ascii T fun c hc => (hall c hc).1, hsame]
  simp

/-- A list of patterns denies the names that one of its shapes holds of. -/
theorem matchesAny_iff {shapes : List PatternShape} {name : String}
    (hplain : shapes.all PatternShape.isPlain = true)
    (hupper : shapes.all (fun shape => isUpperAscii shape.pattern) = true) :
    PolicySettings.matchesAny T (shapes.map PatternShape.pattern) name = true ↔
      ∃ shape ∈ shapes, shape.Holds (T.upper name) := by
  unfold PolicySettings.matchesAny
  rw [List.any_map, List.any_eq_true]
  refine exists_congr fun shape => and_congr_right fun hshape => ?_
  have hpattern := upper_of_isUpperAscii T (List.all_eq_true.mp hupper shape hshape)
  simp only [Function.comp_apply, hpattern]
  exact PatternShape.fnmatchcase_iff (List.all_eq_true.mp hplain shape hshape)

end Shapes

end RfcMcp
