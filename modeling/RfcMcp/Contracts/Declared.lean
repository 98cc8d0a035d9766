import RfcMcp.Caching.Lookups
import RfcMcp.Execution.Mapping

namespace RfcMcp

open Framework Framework.Program FunctionCatalog

section Answers

variable (T : PyText)

/-- The parameter that a row of `PARAMS` declares. The fields of its structure are asked for
separately. -/
def declaredParameter (row : PyDict) : Option ParameterInfo :=
  let name := row.text T "PARAMETER"
  let structureName := row.text T "TABNAME"
  if name = "" then none
  else
    match paramclassFromCode T (row.text T "PARAMCLASS") with
    | .error _ => none
    | .ok paramClass => some (parameterInfo T row name paramClass
        (if structureName = "" then none else some structureName) [])

def ParameterInfo.header (p : ParameterInfo) : ParameterInfo := { p with fields := [] }

@[simp] theorem header_parameterInfo {row : PyDict} {name : String} {paramClass : ParamClass}
    {structureName : Option String} {fields : List FieldInfo} :
    (parameterInfo T row name paramClass structureName fields).header =
      parameterInfo T row name paramClass structureName [] := by
  simp only [ParameterInfo.header, parameterInfo]

/-- The interface has the parameters that the answer declares, in their order. -/
def Announces (answer : PyDict) (interface : FunctionInterface) : Prop :=
  ∃ rows : List PyDict, (answer.getD "PARAMS" (.list [])).iterate = .ok (rows.map .dict) ∧
    interface.parameters.map ParameterInfo.header = rows.filterMap (declaredParameter T)

/-- A row of the answer declares `p`. -/
def Declares (answer : PyDict) (p : ParameterInfo) : Prop :=
  ∃ rows row, (answer.getD "PARAMS" (.list [])).iterate = .ok rows ∧ .dict row ∈ rows ∧
    declaredParameter T row = some p

variable {T} {answer : PyDict} {interface : FunctionInterface} {p : ParameterInfo}

theorem Announces.declares (h : Announces T answer interface) :
    Declares T answer p ↔ ∃ p' ∈ interface.parameters, p'.header = p := by
  obtain ⟨rows, hrows, hheaders⟩ := h
  have hmem : p ∈ rows.filterMap (declaredParameter T) ↔
      ∃ p' ∈ interface.parameters, p'.header = p := by
    rw [← hheaders, List.mem_map]
  rw [← hmem, List.mem_filterMap]
  constructor
  · rintro ⟨rows', row, hrows', hrow, hp⟩
    have hsame : rows' = rows.map .dict := Except.ok.inj (hrows'.symm.trans hrows)
    rw [hsame, List.mem_map] at hrow
    obtain ⟨row', hrow', heq⟩ := hrow
    rw [PyValue.dict.injEq] at heq
    subst heq
    exact ⟨row', hrow', hp⟩
  · rintro ⟨row, hrow, hp⟩
    exact ⟨_, row, hrows, List.mem_map_of_mem hrow, hp⟩

end Answers

section Lookups

variable {cfg : AppSettings} {mid : Trace Effects}

/-- What a lookup has been answered is what SAP has answered. -/
theorem replays_pooledCall {f : String} {params result : PyDict}
    (h : (catalogCall cfg f params).Replays mid (.ok result)) :
    ∃ conn, ⟨Op.rfcEnd conn f params, .ok result⟩ ∈ mid := by
  obtain ⟨conn, first, rest, rfl, _, h⟩ := replays_bind h
  obtain ⟨result', second, rest', rfl, hbody, h⟩ := replays_bind h
  obtain ⟨_, third, rest'', rfl, _, h⟩ := replays_bind h
  obtain ⟨rfl, heq⟩ := replays_pure h
  cases heq
  have hcall := replays_tryExcept (fun _ _ => not_replays_bind_raise) hbody
  have hbegin := replays_tryExcept (fun _ _ => not_replays_raise) hcall
  obtain ⟨_, rest₁, rfl, hend⟩ := replays_perform_bind hbegin
  obtain ⟨answer, rest₂, rfl, hreturn⟩ := replays_perform_bind hend
  obtain ⟨rfl, rfl⟩ := replays_ofExcept hreturn
  exact ⟨conn, by simp⟩

theorem replays_interfaceParameter {row : PyValue} {part : List ParameterInfo}
    (h : (interfaceParameter cfg (catalogCall cfg) row).Replays mid (.ok part)) :
    ∃ d, row = .dict d ∧
      part.map ParameterInfo.header = (declaredParameter cfg.text d).toList := by
  obtain ⟨d, hrow, h⟩ := replays_ofExcept_bind h
  have hdict : row = .dict d := by
    cases row <;> cases hrow
    rfl
  refine ⟨d, hdict, ?_⟩
  unfold declaredParameter
  dsimp only at h ⊢
  by_cases hname : d.text cfg.text "PARAMETER" = ""
  · rw [if_pos hname] at h ⊢
    obtain ⟨_, hpart⟩ := replays_pure h
    cases hpart
    rfl
  · rw [if_neg hname] at h ⊢
    cases hclass : paramclassFromCode cfg.text (d.text cfg.text "PARAMCLASS") with
    | error exc =>
      rw [hclass] at h
      obtain ⟨_, hpart⟩ := replays_pure h
      cases hpart
      rfl
    | ok paramClass =>
      rw [hclass] at h
      dsimp only at h ⊢
      by_cases hstructure : d.text cfg.text "TABNAME" = ""
      · rw [if_pos hstructure] at h ⊢
        obtain ⟨_, hpart⟩ := replays_pure h
        cases hpart
        simp
      · rw [if_neg hstructure] at h ⊢
        obtain ⟨fields, _, _, _, _, h⟩ := replays_bind h
        obtain ⟨_, hpart⟩ := replays_pure h
        cases hpart
        simp

/-- Every row is a mapping, and together they have declared what has been found. -/
theorem rows_of_parts {items : List PyValue} {parts : List (List ParameterInfo)}
    (h : List.Forall₂ (fun item part => ∃ mid', mid' <:+: mid ∧
      (interfaceParameter cfg (catalogCall cfg) item).Replays mid' (.ok part)) items parts) :
    ∃ rows : List PyDict, items = rows.map .dict ∧
      parts.flatten.map ParameterInfo.header = rows.filterMap (declaredParameter cfg.text) := by
  induction h with
  | nil => exact ⟨[], rfl, rfl⟩
  | cons hpart _ ih =>
    obtain ⟨_, _, hreplays⟩ := hpart
    obtain ⟨row, rfl, hrow⟩ := replays_interfaceParameter hreplays
    obtain ⟨rows, rfl, hrows⟩ := ih
    refine ⟨row :: rows, rfl, ?_⟩
    rw [List.flatten_cons, List.map_append, hrow, hrows, List.filterMap_cons]
    cases declaredParameter cfg.text row <;> rfl

/-- The interface that a lookup comes to is what SAP has announced. -/
theorem replays_doGetInterface {name : String} {interface : FunctionInterface}
    (h : (doGetInterface cfg (catalogCall cfg) name).Replays mid (.ok interface)) :
    ∃ conn answer, ⟨Op.rfcEnd conn "RFC_GET_FUNCTION_INTERFACE" [("FUNCNAME", .str name)],
        .ok answer⟩ ∈ mid ∧ Announces cfg.text answer interface := by
  obtain ⟨answer, first, rest, rfl, hcall, h⟩ := replays_bind h
  obtain ⟨conn, hanswer⟩ := replays_pooledCall hcall
  obtain ⟨params, hparams, h⟩ := replays_ofExcept_bind h
  obtain ⟨parameters, second, rest', rfl, hcollect, h⟩ := replays_bind h
  obtain ⟨rows, _, h⟩ := replays_ofExcept_bind h
  obtain ⟨exceptions, _, h⟩ := replays_ofExcept_bind h
  obtain ⟨_, hinterface⟩ := replays_pure h
  cases hinterface
  obtain ⟨parts, hparts, rfl⟩ := replays_collect hcollect
  obtain ⟨rows, rfl, hrows⟩ := rows_of_parts hparts
  exact ⟨conn, answer, List.mem_append_left _ hanswer, rows, hparams, hrows⟩

end Lookups

end RfcMcp
