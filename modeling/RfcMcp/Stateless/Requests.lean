import RfcMcp.Errors.Transactions
import RfcMcp.Framework.Except
import RfcMcp.Stateless.Lookups

namespace RfcMcp

open Framework Framework.Surroundings ExecutionInvoker SourceReader

section Names

variable {cfg : AppSettings} {sap : String → PyDict → Except PyExc PyDict}

/-- What an answer of SAP says about a function, but for its name. -/
def detailsOf (cfg : AppSettings) (sap : String → PyDict → Except PyExc PyDict) (result : PyDict) :
    Except PyExc (List ParameterInfo × List ExceptionInfo) := do
  let params ← (result.getD "PARAMS" (.list [])).iterate
  let parameters ← (Action.collect params
    (FunctionCatalog.interfaceParameter cfg (catalogCall cfg))).outcome (calm sap)
  let rows ← (result.getD "EXCEPTIONS" (.list [])).iterate
  let exceptions ← FunctionCatalog.interfaceExceptions cfg.text rows
  return (parameters, exceptions)

theorem described_eq (name : String) : described cfg sap name =
    ((sap "RFC_GET_FUNCTION_INTERFACE" [("FUNCNAME", .str name)]).mapError
      (ExecutionInvoker.translate cfg)).bind fun result =>
        (detailsOf cfg sap result).map (named name) := by
  unfold described FunctionCatalog.doGetInterface detailsOf
  simp only [Action.outcome_bind, outcome_pooledCall, Action.outcome_ofExcept, Action.outcome_pure,
    map_except_bind]
  rfl

/-- Under a name that differs in letter case SAP describes the same function. -/
theorem described_congr (hsap : CaseBlind cfg.text sap) {name name' : String}
    (hname : cfg.text.upper name = cfg.text.upper name') {found : FunctionInterface}
    (h : described cfg sap name = .ok found) :
    ∃ found', described cfg sap name' = .ok found' ∧ SameInterface cfg.text found found' := by
  rw [described_eq] at h
  rw [described_eq, ← hsap.interface name name' hname]
  cases hanswer : sap "RFC_GET_FUNCTION_INTERFACE" [("FUNCNAME", .str name)] with
  | error exc =>
    rw [hanswer] at h
    cases h
  | ok result =>
    rw [hanswer] at h
    change (detailsOf cfg sap result).map (named name) = .ok found at h
    cases hdetails : detailsOf cfg sap result with
    | error exc =>
      rw [hdetails] at h
      cases h
    | ok details =>
      rw [hdetails] at h
      cases h
      refine ⟨named name' details, ?_, ⟨hname, rfl⟩⟩
      change (detailsOf cfg sap result).map (named name') = .ok (named name' details)
      rw [hdetails]
      rfl

theorem searched_eq (pattern : String) (group : Option String) (limit : Int) :
    searched cfg sap pattern group limit =
      ((sap "RFC_FUNCTION_SEARCH" (FunctionCatalog.searchKwargs pattern group)).mapError
        (ExecutionInvoker.translate cfg)).bind (FunctionCatalog.searchRows cfg.text limit) := by
  unfold searched FunctionCatalog.doSearch
  rw [Action.outcome_bind, outcome_pooledCall]
  rfl

/-- For an interface under another spelling the parameters come to the same. -/
theorem corresponds_kwargs {T : PyText} {interface interface' : FunctionInterface}
    (h : SameInterface T interface interface') (parameters : PyDict) :
    Corresponds (Alike T) Eq (buildCallKwargs T interface parameters)
      (buildCallKwargs T interface' parameters) := by
  have hparameters : interface'.parameters = interface.parameters := by
    rw [← h.details]
  unfold buildCallKwargs
  dsimp only
  rw [hparameters]
  split
  · have hspelled := Alike.spelled h.name "Unknown parameter(s) for " (": " ++ ", ".intercalate
      ((parameters.filter fun e =>
        !interface.parameters.any fun p => T.upper p.name == T.upper e.1).map (·.1)))
    rw [← String.append_assoc, ← String.append_assoc] at hspelled
    exact .error hspelled
  · split
    · have hspelled := Alike.spelled h.name "Missing required parameter(s) for " (": " ++
        ", ".intercalate ((interface.parameters.filter fun p =>
          p.paramClass = .IMPORT && !p.optional && p.default = "" &&
            (lastUpper T parameters (T.upper p.name)).isNone).map (·.name)))
      rw [← String.append_assoc, ← String.append_assoc] at hspelled
      exact .error hspelled
    · exact .ok rfl

end Names

section Caches

variable {cfg : AppSettings} {sap : String → PyDict → Except PyExc PyDict}
  {known : (id : CacheId) → String → id.Value → Prop} {lax : Prop} {id : CacheId} {key : String}
  {R : id.Value → id.Value → Prop}

/-- What is in the cache fits what is looked up else. -/
theorem mirrors_getOrSet {factory : Act id.Value} {r : Except PyExc id.Value}
    (hrefl : ∀ value, R value value)
    (hfactory : (amongOthers sap cfg known lax).Mirrors Eq Eq factory r)
    (hknown : ∀ value, known id key value → ∃ value', r = .ok value' ∧ R value value') :
    (amongOthers sap cfg known lax).Mirrors Eq R (TTLCache.getOrSet id key factory) r := by
  have hget : Accounts
      (fun exc => (amongOthers sap cfg known lax).Fits Eq R r (.error exc)) Anything
      (TTLCache.get id key) fun cached trace => ⟨Op.cacheGet id key, cached⟩ ∈ trace :=
    accounts_result
  refine accounts_bind hget fun cached => ?_
  cases cached with
  | some value =>
    refine accounts_pure fun trace hmem hhonest => .inl ?_
    obtain ⟨value', rfl, hR⟩ := hknown value (hhonest.cached id key value hmem)
    exact .ok hR
  | none =>
    have hmiss : (amongOthers sap cfg known lax).Mirrors Eq R
        (factory >>= fun value => TTLCache.set id key value >>= fun _ => pure value) r := by
      refine mirrors_finish hfactory fun value value' hvalue => ?_
      refine mirrors_after (silent_section _ _) fun _ => mirrors_pure ?_
      rw [hvalue]
      exact hrefl value'
    exact hmiss.weaken (fun _ _ => trivial) fun _ _ h => h

theorem outcome_getOrSet {factory : Act id.Value} :
    (TTLCache.getOrSet id key factory).outcome (calm sap) = factory.outcome (calm sap) := by
  have hget : (TTLCache.get id key).outcome (calm sap) = .ok none := rfl
  unfold TTLCache.getOrSet
  rw [Action.outcome_bind, hget]
  change Action.outcome (S := Effects) (calm sap) (_ >>= _) = _
  rw [Action.outcome_bind]
  cases factory.outcome (calm sap) <;> rfl

theorem outcome_getInterface (f : String) :
    (ExecutionInvoker.getInterface cfg (connectionPool cfg) f).outcome (calm sap) =
      described cfg sap f :=
  outcome_getOrSet

theorem sameInterface_refl (T : PyText) (interface : FunctionInterface) :
    SameInterface T interface interface :=
  ⟨rfl, rfl⟩

theorem mirrors_getInterface (hsap : CaseBlind cfg.text sap) (f : String) :
    (amongOthers sap cfg (Known cfg sap) lax).Mirrors Eq (SameInterface cfg.text)
      (ExecutionInvoker.getInterface cfg (connectionPool cfg) f) (described cfg sap f) := by
  refine mirrors_getOrSet (sameInterface_refl cfg.text) (conforms_doGetInterface f) ?_
  rintro found ⟨name, hname, hfound⟩
  exact described_congr hsap hname hfound

theorem mirrors_search (hsap : CaseBlind cfg.text sap) {pattern : String} {group : Option String}
    {limit : Int} (htelling : (Request.search pattern group limit).Telling cfg.text) :
    (amongOthers sap cfg (Known cfg sap) lax).Mirrors Eq Eq
      (FunctionCatalog.search cfg (catalogCall cfg) pattern group limit)
      (searched cfg sap pattern group limit) := by
  refine mirrors_getOrSet (fun _ => rfl) (conforms_doSearch pattern group limit) ?_
  rintro found ⟨pattern', group', limit', hkey, hfound⟩
  obtain ⟨hquery, rfl⟩ := (searchKey_eq_iff cfg.text).mp hkey
  have hasked := hsap.search _ _ _ _ (htelling pattern' group' hquery.symm)
  refine ⟨found, ?_, rfl⟩
  rw [searched_eq, hasked, ← searched_eq]
  exact hfound

end Caches

section Invoker

variable {cfg : AppSettings} {sap : String → PyDict → Except PyExc PyDict} {lax : Prop}

theorem alike_refl (exc : PyExc) : Alike cfg.text exc exc := .refl exc

theorem conforms_plain {α : Type} (r : Except PyExc α) :
    (amongOthers sap cfg (Known cfg sap) lax).Conforms (calm sap) (Alike cfg.text)
      (Action.ofExcept r) :=
  conforms_ofExcept alike_refl r

theorem conforms_log (record : LogRecord) :
    (amongOthers sap cfg (Known cfg sap) lax).Conforms (calm sap) (Alike cfg.text) (log record) :=
  conforms_silent (silent_log record) rfl

theorem conforms_authorize (f mode : String) (parameters : PyDict) :
    (amongOthers sap cfg (Known cfg sap) lax).Conforms (calm sap) (Alike cfg.text)
      (ExecutionPolicy.authorize cfg.text cfg.policy f mode parameters) := by
  unfold ExecutionPolicy.authorize
  dsimp only
  split
  · exact conforms_log _
  · exact conforms_bind (conforms_log _) fun _ => conforms_plain (.error _)
  · exact conforms_plain (.error _)

theorem conforms_applyResultLimits (f mode : String) (raw : PyDict) :
    (amongOthers sap cfg (Known cfg sap) lax).Conforms (calm sap) (Alike cfg.text)
      (applyResultLimits cfg f mode raw) := by
  unfold applyResultLimits
  split
  · exact conforms_plain (.ok _)
  · exact conforms_bind (conforms_log _) fun _ => conforms_plain (.error _)
  · exact conforms_plain (.error _)

theorem outcome_callOnConnection {conn : Conn} {f mode : String} {kwargs : PyDict} :
    (callOnConnection cfg conn .read f kwargs mode none).outcome (calm sap) =
      (sap f kwargs).mapError (ExecutionInvoker.translate cfg) := by
  have hcall : Action.outcome (S := Effects) (calm sap) (conn.call .read f kwargs) =
      sap f kwargs :=
    rfl
  unfold callOnConnection
  rw [Action.outcome_bind, Action.outcome_tryExcept, hcall]
  cases sap f kwargs <;> rfl

/-- The RFC of a read. -/
theorem conforms_acquire (f mode : String) (kwargs : PyDict) :
    (amongOthers sap cfg (Known cfg sap) lax).Conforms (calm sap) (Alike cfg.text)
      (ConnectionPool.acquire cfg fun conn =>
        callOnConnection cfg conn .read f kwargs mode none) := by
  unfold Conforms
  rw [outcome_acquire, outcome_callOnConnection]
  refine mirrors_acquire fun conn => ?_
  refine mirrors_finish (R := Eq) ?_ fun raw raw' hraw => ?_
  · refine mirrors_reraise (mirrors_call rfl) (fun _ => silent_log _) fun exc exc' hexc => ?_
    rw [hexc]
    exact .refl _
  · exact mirrors_after (silent_log _) fun _ => mirrors_pure hraw

/-- A read comes to what it comes to alone, whatever the interface was found with. -/
theorem conforms_invokerCall (hsap : CaseBlind cfg.text sap) (f : String) (parameters : PyDict)
    (mode : String) :
    (amongOthers sap cfg (Known cfg sap) lax).Conforms (calm sap) (Alike cfg.text)
      (ExecutionInvoker.call cfg (connectionPool cfg) f parameters mode) := by
  refine conforms_ite (fun _ => conforms_plain (.error _)) fun _ => ?_
  refine conforms_bind (conforms_authorize f mode parameters) fun _ => ?_
  unfold Conforms
  rw [Action.outcome_bind, outcome_getInterface]
  refine mirrors_bind ((mirrors_getInterface hsap f).of_eq alike_refl)
    fun interface interface' hsame => ?_
  rw [Action.outcome_bind, Action.outcome_ofExcept]
  refine mirrors_bind (mirrors_ofExcept (corresponds_kwargs hsame parameters))
    fun kwargs kwargs' hkwargs => ?_
  rw [hkwargs]
  exact conforms_bind (conforms_acquire f mode kwargs') fun raw =>
    conforms_applyResultLimits f mode raw

end Invoker

end RfcMcp
