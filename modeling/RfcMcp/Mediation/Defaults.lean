import RfcMcp.Durability.Atomic
import RfcMcp.Mediation.Policy
import RfcMcp.Python.Glob

namespace RfcMcp

open Framework Framework.System

/-- What the default deny list says about function names. -/
def defaultDenyShapes : List PatternShape :=
  [.contains "_CREATE", .contains "_CHANGE", .contains "_UPDATE", .contains "_DELETE",
    .contains "_SAVE", .contains "_POST", .contains "_REMOVE", .contains "_MODIFY",
    .contains "_CANCEL", .contains "_MAINTAIN", .contains "_INSERT", .contains "_LOCK",
    .contains "_RELEASE", .contains "_REVERSE", .contains "_CLOSE", .contains "_APPROVE",
    .contains "_REJECT", .contains "_SUBMIT", .contains "_ADD", .contains "_ASSIGN",
    .exactly "BAPI_TRANSACTION_COMMIT", .exactly "BAPI_TRANSACTION_ROLLBACK",
    .exactly "RFC_ABAP_INSTALL_AND_RUN", .startsWith "SUSR_"]

/-- What the default list of sensitive tables says about table names. -/
def sensitiveTableShapes : List PatternShape :=
  [.startsWith "USR", .exactly "UST04", .startsWith "UST10", .exactly "USH02", .startsWith "AGR_",
    .exactly "DEVACCESS", .exactly "RFCDES", .startsWith "SNC", .exactly "RSECTAB"]

section Shapes

variable {T : PyText} {s : PolicySettings} {f : String}

theorem isDenied_default (h : s.denyPatterns = defaultDenyPatterns) :
    s.isDenied T f = true ↔ ∃ shape ∈ defaultDenyShapes, shape.Holds (T.upper f) := by
  have hshapes : defaultDenyPatterns = defaultDenyShapes.map PatternShape.pattern := by decide
  unfold PolicySettings.isDenied
  rw [h, hshapes]
  exact matchesAny_iff T (by decide) (by decide)

theorem isTableDenied_default (h : s.tableDenyPatterns = defaultSensitiveTablePatterns) :
    s.isTableDenied T f = true ↔ ∃ shape ∈ sensitiveTableShapes, shape.Holds (T.upper f) := by
  have hshapes : defaultSensitiveTablePatterns =
      sensitiveTableShapes.map PatternShape.pattern := by decide
  unfold PolicySettings.isTableDenied
  rw [h, hshapes]
  exact matchesAny_iff T (by decide) (by decide)

theorem isGenericTableReader_default
    (h : s.genericTableReaderFunctions = genericTableReaderFunctions)
    (hf : T.upper f ∈ genericTableReaderFunctions) : s.isGenericTableReader T f = true := by
  unfold PolicySettings.isGenericTableReader
  rw [h, List.any_eq_true]
  have hupper : genericTableReaderFunctions.all isUpperAscii = true := by decide
  refine ⟨T.upper f, hf, ?_⟩
  rw [upper_of_isUpperAscii T (List.all_eq_true.mp hupper _ hf)]
  exact beq_self_eq_true _

end Shapes

section Runs

variable {cfg : AppSettings} {c : Run cfg}

/-- The operator has not touched the lists of what is never allowed. -/
structure PolicySettings.KeepsDefaults (s : PolicySettings) : Prop where
  functions : s.denyPatterns = defaultDenyPatterns
  tables : s.tableDenyPatterns = defaultSensitiveTablePatterns
  readers : s.genericTableReaderFunctions = RfcMcp.genericTableReaderFunctions

/-- What the default lists come to. -/
structure DefaultsProtect (c : Run cfg) : Prop where
  /-- They deny these functions and tables, and no others, -/
  functions : ∀ f, cfg.policy.isDenied cfg.text f = true ↔
    ∃ shape ∈ defaultDenyShapes, shape.Holds (cfg.text.upper f)
  tables : ∀ table, cfg.policy.isTableDenied cfg.text table = true ↔
    ∃ shape ∈ sensitiveTableShapes, shape.Holds (cfg.text.upper table)
  /-- and no client gets at them. -/
  called : ∀ (later earlier : History Request) t conn p f kwargs,
    c.history = later ++ .did t (.rfcBegin conn p f kwargs) () :: earlier →
    (p = .read ∨ ∃ e, p = .write e) →
    (∀ shape ∈ defaultDenyShapes, ¬shape.Holds (cfg.text.upper f)) ∧
    (cfg.text.upper f ∈ genericTableReaderFunctions → ∀ k v, (k, v) ∈ kwargs →
      cfg.text.upper k = "QUERY_TABLE" → v.truthy = true →
      ∀ shape ∈ sensitiveTableShapes, ¬shape.Holds (cfg.text.upper (cfg.text.str v)))

theorem defaults_protect (hdefaults : cfg.policy.KeepsDefaults) (h : Reachable c) :
    DefaultsProtect c := by
  have hfunctions : ∀ f, cfg.policy.isDenied cfg.text f = true ↔
      ∃ shape ∈ defaultDenyShapes, shape.Holds (cfg.text.upper f) :=
    fun _ => isDenied_default hdefaults.functions
  have htables : ∀ table, cfg.policy.isTableDenied cfg.text table = true ↔
      ∃ shape ∈ sensitiveTableShapes, shape.Holds (cfg.text.upper table) :=
    fun _ => isTableDenied_default hdefaults.tables
  refine ⟨hfunctions, htables, fun later earlier t conn p f kwargs hh hp => ?_⟩
  obtain ⟨request, _, _, hmay⟩ := issued_mayIssue h hh
  have hcall : cfg.policy.isDenied cfg.text f = false ∧
      ∃ mode, AuthorizedCall cfg t earlier f mode kwargs := by
    rcases hp with rfl | ⟨e, rfl⟩
    · obtain ⟨parameters, hcleared⟩ := hmay
      have hread := authorizeUnlogged_read hcleared.1.allowed
      exact ⟨notDenied_of_readAllowed hread, "read", authorizedCall_of_cleared hcleared⟩
    · obtain ⟨parameters, _, _, _, hcleared⟩ := hmay
      have hwrite := (authorizeUnlogged_write hcleared.1.allowed).2
      exact ⟨notDenied_of_writeAllowed hwrite, "write", authorizedCall_of_cleared hcleared⟩
  obtain ⟨hdenied, mode, hauthorized⟩ := hcall
  refine ⟨fun shape hshape hholds => ?_, fun hreader k v hkv hk hv shape hshape hholds => ?_⟩
  · have hno := (hfunctions f).mpr ⟨shape, hshape, hholds⟩
    rw [hdenied] at hno
    cases hno
  · have hreads := isGenericTableReader_default hdefaults.readers hreader
    have hno := (htables _).mpr ⟨shape, hshape, hholds⟩
    rw [hauthorized.table hreads k v hkv hk hv] at hno
    cases hno

theorem defaults_protect_commit :
    ∃ c, execute (server guardedSettings).initial guardedCommit = some c ∧ DefaultsProtect c := by
  have hrun : (execute (server guardedSettings).initial guardedCommit).isSome = true := by
    decide +kernel
  obtain ⟨c, hc⟩ := Option.isSome_iff_exists.mp hrun
  exact ⟨c, hc, defaults_protect ⟨rfl, rfl, rfl⟩ (execute_reachable hc)⟩

end Runs

end RfcMcp
