import RfcMcp.Contracts.Declared

namespace RfcMcp

section Filled

variable {T : PyText} {parameters : PyDict}

/-- The loop that fills in the arguments of a call. -/
def fillKwargs (T : PyText) (parameters kwargs : PyDict) (ps : List ParameterInfo) : PyDict :=
  ps.foldl (fun kwargs p =>
    match lastUpper T parameters (T.upper p.name) with
    | some e => PyDict.set kwargs p.name e.2
    | none => kwargs) kwargs

theorem fillKwargs_cons (kwargs : PyDict) (p : ParameterInfo) (ps : List ParameterInfo) :
    fillKwargs T parameters kwargs (p :: ps) =
      fillKwargs T parameters
        (match kwarg T parameters p with
          | some e => PyDict.set kwargs e.1 e.2
          | none => kwargs) ps := by
  unfold fillKwargs kwarg
  rw [List.foldl_cons]
  cases lastUpper T parameters (T.upper p.name) <;> rfl

theorem mem_fillKwargs {ps : List ParameterInfo} {kwargs : PyDict} {e : String × PyValue}
    (h : e ∈ fillKwargs T parameters kwargs ps) :
    e ∈ kwargs ∨ ∃ p ∈ ps, kwarg T parameters p = some e := by
  induction ps generalizing kwargs with
  | nil => exact .inl h
  | cons p ps ih =>
    rw [fillKwargs_cons] at h
    rcases ih h with hmem | ⟨p', hp', hkwarg⟩
    · cases hfound : kwarg T parameters p with
      | none =>
        rw [hfound] at hmem
        exact .inl hmem
      | some e' =>
        rw [hfound] at hmem
        rcases mem_set hmem with rfl | hmem
        · exact .inr ⟨p, List.mem_cons_self, hfound⟩
        · exact .inl hmem
    · exact .inr ⟨p', List.mem_cons_of_mem _ hp', hkwarg⟩

theorem key_fillKwargs {ps : List ParameterInfo} {kwargs : PyDict} {key : String}
    (h : key ∈ kwargs.map (·.1) ∨ ∃ p ∈ ps, ∃ e, kwarg T parameters p = some e ∧ e.1 = key) :
    key ∈ (fillKwargs T parameters kwargs ps).map (·.1) := by
  induction ps generalizing kwargs with
  | nil =>
    rcases h with h | ⟨p, hp, _⟩
    · exact h
    · cases hp
  | cons p ps ih =>
    rw [fillKwargs_cons]
    apply ih
    rcases h with h | ⟨p', hp', e, hkwarg, hkey⟩
    · left
      split
      · exact key_set.mpr (.inr h)
      · exact h
    · rcases List.mem_cons.mp hp' with rfl | hp'
      · left
        rw [hkwarg]
        exact key_set.mpr (.inl hkey.symm)
      · exact .inr ⟨p', hp', e, hkwarg, hkey⟩

/-- What a call is sent with, by the interface and by what the client has supplied. -/
structure Filled (T : PyText) (interface : FunctionInterface) (parameters kwargs : PyDict) :
    Prop where
  entry : ∀ e ∈ kwargs, ∃ p ∈ interface.parameters, kwarg T parameters p = some e
  known : ∀ e ∈ parameters, ¬ UnknownKey T interface e.1
  required : ∀ p ∈ interface.parameters, ¬ MissingRequired T parameters p
  key : ∀ p ∈ interface.parameters, ∀ e, kwarg T parameters p = some e →
    e.1 ∈ kwargs.map (·.1)

theorem filled_of_built {interface : FunctionInterface} {kwargs : PyDict}
    (h : buildCallKwargs T interface parameters = .ok kwargs) :
    Filled T interface parameters kwargs := by
  unfold buildCallKwargs at h
  dsimp only at h
  split at h
  · cases h
  rename_i hunknown
  split at h
  · cases h
  rename_i hmissing
  have hkwargs : fillKwargs T parameters [] interface.parameters = kwargs := Except.ok.inj h
  subst hkwargs
  refine ⟨fun e he => ?_, fun e he hkey => hunknown ?_, fun p hp hmiss => hmissing ?_,
    fun p hp e hkwarg => key_fillKwargs (.inr ⟨p, hp, e, hkwarg, rfl⟩)⟩
  · rcases mem_fillKwargs he with he | hfound
    · cases he
    · exact hfound
  · simp only [UnknownKey] at hkey
    simp only [Bool.not_eq_true', List.isEmpty_eq_false_iff_exists_mem, List.mem_filter]
    refine ⟨e, he, ?_⟩
    simpa using hkey
  · obtain ⟨⟨himport, hoptional, hdefault⟩, hnone⟩ := hmiss
    simp only [Bool.not_eq_true', List.isEmpty_eq_false_iff_exists_mem, List.mem_filter]
    refine ⟨p, hp, ?_⟩
    have hlast : lastUpper T parameters (T.upper p.name) = none := lastUpper_none.mpr hnone
    simp [himport, hoptional, hdefault, hlast]

end Filled

section Contract

/-- The arguments of a call fit what SAP has answered about the function and what the client has
supplied: no other parameters, no other values, nothing left out. -/
structure MeetsContract (T : PyText) (answer parameters kwargs : PyDict) : Prop where
  declared : ∀ e ∈ kwargs, ∃ p, Declares T answer p ∧ p.name = e.1
  supplied : ∀ e ∈ kwargs, ∃ e' ∈ parameters, T.upper e'.1 = T.upper e.1 ∧ e'.2 = e.2
  complete : ∀ e ∈ parameters, ∃ key ∈ kwargs.map (·.1), T.upper key = T.upper e.1
  required : ∀ p, Declares T answer p → p.paramClass = .IMPORT → p.optional = false →
    p.default = "" → p.name ∈ kwargs.map (·.1)

variable {T : PyText} {interface : FunctionInterface} {answer parameters kwargs : PyDict}

theorem kwarg_some {p : ParameterInfo} {e : String × PyValue}
    (h : kwarg T parameters p = some e) :
    e.1 = p.name ∧ ∃ e' ∈ parameters, T.upper e'.1 = T.upper e.1 ∧ e'.2 = e.2 := by
  obtain ⟨e', hlast, rfl⟩ := Option.map_eq_some_iff.mp h
  obtain ⟨hmem, hupper⟩ := lastUpper_some hlast
  exact ⟨rfl, e', hmem, hupper, rfl⟩

theorem kwarg_of_supplied {p : ParameterInfo} {e : String × PyValue} (he : e ∈ parameters)
    (hname : T.upper e.1 = T.upper p.name) : ∃ e', kwarg T parameters p = some e' := by
  cases hlast : lastUpper T parameters (T.upper p.name) with
  | none => exact absurd hname (lastUpper_none.mp hlast e he)
  | some e' => exact ⟨(p.name, e'.2), by rw [kwarg, hlast]; rfl⟩

theorem meetsContract_of_built (hannounced : Announces T answer interface)
    (h : buildCallKwargs T interface parameters = .ok kwargs) :
    MeetsContract T answer parameters kwargs := by
  have hfilled := filled_of_built h
  constructor
  · intro e he
    obtain ⟨p, hp, hkwarg⟩ := hfilled.entry e he
    exact ⟨p.header, hannounced.declares.mpr ⟨p, hp, rfl⟩, (kwarg_some hkwarg).1.symm⟩
  · intro e he
    obtain ⟨p, _, hkwarg⟩ := hfilled.entry e he
    exact (kwarg_some hkwarg).2
  · intro e he
    have hknown := hfilled.known e he
    unfold UnknownKey at hknown
    push Not at hknown
    obtain ⟨p, hp, hname⟩ := hknown
    obtain ⟨e', hkwarg⟩ := kwarg_of_supplied he hname.symm
    refine ⟨e'.1, hfilled.key p hp e' hkwarg, ?_⟩
    rw [(kwarg_some hkwarg).1, hname]
  · intro p hdeclares himport hoptional hdefault
    obtain ⟨p', hp', rfl⟩ := hannounced.declares.mp hdeclares
    have hsupplied := hfilled.required p' hp'
    unfold MissingRequired at hsupplied
    push Not at hsupplied
    obtain ⟨e, he, hname⟩ := hsupplied ⟨himport, hoptional, hdefault⟩
    obtain ⟨e', hkwarg⟩ := kwarg_of_supplied he hname
    have hkey := hfilled.key p' hp' e' hkwarg
    rw [(kwarg_some hkwarg).1] at hkey
    exact hkey

end Contract

end RfcMcp
