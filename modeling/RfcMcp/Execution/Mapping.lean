import RfcMcp.Execution.ParamMapper
import RfcMcp.Python.Dict
import Mathlib.Data.List.Nodup

namespace RfcMcp

section Mapping

variable (T : PyText) (interface : FunctionInterface) (parameters : PyDict)

def UnknownKey (key : String) : Prop := ∀ p ∈ interface.parameters, T.upper p.name ≠ T.upper key

/-- A required IMPORT parameter that no supplied key names. -/
def MissingRequired (p : ParameterInfo) : Prop :=
  (p.paramClass = .IMPORT ∧ p.optional = false ∧ p.default = "") ∧
    ∀ e ∈ parameters, T.upper e.1 ≠ T.upper p.name

/-- The interface's own spelling of a supplied key. -/
def canonicalName (key : String) : String :=
  ((interface.parameters.find? fun p => T.upper p.name == T.upper key).map (·.name)).getD key

/-- What a caller may expect of the mapping: bad keys are reported, and every supplied value
arrives once, under the interface's spelling of its key. -/
structure LosslessMapping : Prop where
  unknown : (∃ e ∈ parameters, UnknownKey T interface e.1) →
    ∃ message, buildCallKwargs T interface parameters = .error (.parameterValidation message)
  missing : (∃ p ∈ interface.parameters, MissingRequired T parameters p) →
    ∃ message, buildCallKwargs T interface parameters = .error (.parameterValidation message)
  kept : ∀ kwargs, buildCallKwargs T interface parameters = .ok kwargs →
    (∀ e ∈ parameters, ∃ p ∈ interface.parameters,
      p.name = canonicalName T interface e.1 ∧ T.upper p.name = T.upper e.1) ∧
    (kwargs.map (·.1)).Nodup ∧
    kwargs.Perm (parameters.map fun e => (canonicalName T interface e.1, e.2))

end Mapping

section Lookup

variable {T : PyText} {interface : FunctionInterface} {parameters : PyDict}

theorem lastUpper_some {name : String} {e : String × PyValue}
    (h : lastUpper T parameters name = some e) : e ∈ parameters ∧ T.upper e.1 = name := by
  have hmem := List.mem_of_find?_eq_some h
  have hname := List.find?_some h
  exact ⟨List.mem_reverse.mp hmem, beq_iff_eq.mp hname⟩

theorem lastUpper_none {name : String} :
    lastUpper T parameters name = none ↔ ∀ e ∈ parameters, T.upper e.1 ≠ name := by
  simp [lastUpper]

/-- Where no two keys are one up to case, every entry is found by its key. -/
theorem lastUpper_of_mem (hkeys : (parameters.map fun e => T.upper e.1).Nodup)
    {e : String × PyValue} (he : e ∈ parameters) :
    lastUpper T parameters (T.upper e.1) = some e := by
  cases hfound : lastUpper T parameters (T.upper e.1) with
  | none => exact absurd rfl (lastUpper_none.mp hfound e he)
  | some e' =>
    obtain ⟨he', hname⟩ := lastUpper_some hfound
    rw [List.inj_on_of_nodup_map hkeys he' he hname]

theorem canonicalName_of_known {key : String} (h : ¬ UnknownKey T interface key) :
    ∃ p ∈ interface.parameters,
      p.name = canonicalName T interface key ∧ T.upper p.name = T.upper key := by
  unfold UnknownKey at h
  push Not at h
  obtain ⟨p, hp, hname⟩ := h
  cases hfind : interface.parameters.find? fun p => T.upper p.name == T.upper key with
  | none =>
    have hnone := List.find?_eq_none.mp hfind p hp
    simp [hname] at hnone
  | some q =>
    have hfound := List.find?_some hfind
    have hupper : T.upper q.name = T.upper key := by simpa using hfound
    refine ⟨q, List.mem_of_find?_eq_some hfind, ?_, hupper⟩
    rw [canonicalName, hfind]
    rfl

end Lookup

section Build

variable {T : PyText} {interface : FunctionInterface} {parameters : PyDict}

/-- The entry of one parameter in the call, if it was supplied. -/
def kwarg (T : PyText) (parameters : PyDict) (p : ParameterInfo) : Option (String × PyValue) :=
  (lastUpper T parameters (T.upper p.name)).map fun e => (p.name, e.2)

/-- Setting keys that are all new appends the entries. -/
theorem foldl_set {α β : Type} {entry : β → Option (String × α)}
    {f : List (String × α) → β → List (String × α)}
    (hnone : ∀ d b, entry b = none → f d b = d)
    (hsome : ∀ d b e, entry b = some e → f d b = PyDict.set d e.1 e.2)
    (bs : List β) (d : List (String × α))
    (hkeys : ((d ++ bs.filterMap entry).map (·.1)).Nodup) :
    bs.foldl f d = d ++ bs.filterMap entry := by
  induction bs generalizing d with
  | nil => simp
  | cons b bs ih =>
    rw [List.foldl_cons]
    cases hentry : entry b with
    | none =>
      rw [List.filterMap_cons_none hentry] at hkeys ⊢
      rw [hnone d b hentry, ih d hkeys]
    | some e =>
      rw [List.filterMap_cons_some hentry, List.append_cons] at hkeys ⊢
      have hnew : e.1 ∉ d.map (·.1) := by
        intro hmem
        rw [List.map_append, List.map_append] at hkeys
        have hdisjoint := List.disjoint_of_nodup_append (List.Nodup.of_append_left hkeys)
        exact hdisjoint hmem (by simp)
      rw [hsome d b e hentry, set_of_notMem e.2 hnew, ih (d ++ [e]) hkeys]

theorem keys_kwargs (ps : List ParameterInfo) :
    ((ps.filterMap (kwarg T parameters)).map (·.1)).Sublist (ps.map (·.name)) := by
  induction ps with
  | nil => exact List.Sublist.refl _
  | cons p ps ih =>
    cases hfound : lastUpper T parameters (T.upper p.name) with
    | none =>
      rw [List.filterMap_cons_none (by simp [kwarg, hfound])]
      exact ih.cons _
    | some e =>
      rw [List.filterMap_cons_some (show kwarg T parameters p = some (p.name, e.2) by
        simp [kwarg, hfound])]
      exact ih.cons_cons _

/-- The mapping's three ways to end. -/
theorem buildCallKwargs_cases (hnames : (interface.parameters.map (·.name)).Nodup) :
    ((∃ e ∈ parameters, UnknownKey T interface e.1) ∧
      ∃ message, buildCallKwargs T interface parameters = .error (.parameterValidation message)) ∨
    ((∃ p ∈ interface.parameters, MissingRequired T parameters p) ∧
      ∃ message, buildCallKwargs T interface parameters = .error (.parameterValidation message)) ∨
    ((∀ e ∈ parameters, ¬ UnknownKey T interface e.1) ∧
      (∀ p ∈ interface.parameters, ¬ MissingRequired T parameters p) ∧
      buildCallKwargs T interface parameters =
        .ok (interface.parameters.filterMap (kwarg T parameters))) := by
  have hunknown : (!(parameters.filter fun e =>
      !interface.parameters.any fun p => T.upper p.name == T.upper e.1).isEmpty) = true ↔
        ∃ e ∈ parameters, UnknownKey T interface e.1 := by
    simp [UnknownKey]
  have hmissing : (!(interface.parameters.filter fun p =>
      p.paramClass = .IMPORT && !p.optional && p.default = "" &&
        (lastUpper T parameters (T.upper p.name)).isNone).isEmpty) = true ↔
        ∃ p ∈ interface.parameters, MissingRequired T parameters p := by
    simp [MissingRequired, lastUpper_none, and_assoc]
  unfold buildCallKwargs
  by_cases hu : ∃ e ∈ parameters, UnknownKey T interface e.1
  · exact Or.inl ⟨hu, _, if_pos (hunknown.mpr hu)⟩
  refine Or.inr ?_
  rw [if_neg (fun h => hu (hunknown.mp h))]
  by_cases hm : ∃ p ∈ interface.parameters, MissingRequired T parameters p
  · exact Or.inl ⟨hm, _, if_pos (hmissing.mpr hm)⟩
  rw [if_neg (fun h => hm (hmissing.mp h))]
  push Not at hu hm
  refine Or.inr ⟨hu, hm, congrArg Except.ok ?_⟩
  refine @foldl_set _ _ (kwarg T parameters) _ ?_ ?_ interface.parameters [] ?_
  · intro kwargs p hentry
    rw [kwarg, Option.map_eq_none_iff] at hentry
    rw [hentry]
  · intro kwargs p entry hentry
    rw [kwarg, Option.map_eq_some_iff] at hentry
    obtain ⟨e, hfound, rfl⟩ := hentry
    rw [hfound]
  · exact hnames.sublist (keys_kwargs interface.parameters)

end Build

section Lossless

variable {T : PyText} {interface : FunctionInterface} {parameters : PyDict}

theorem names_nodup (h : (interface.parameters.map fun p => T.upper p.name).Nodup) :
    (interface.parameters.map (·.name)).Nodup := by
  refine List.Nodup.of_map T.upper ?_
  rw [List.map_map]
  exact h

/-- The canonical name of a known key depends on its upper-case form only. -/
theorem canonicalName_congr {key key' : String} (h : ¬ UnknownKey T interface key)
    (hupper : T.upper key = T.upper key') :
    canonicalName T interface key = canonicalName T interface key' := by
  obtain ⟨p, hp, hname, hsame⟩ := canonicalName_of_known h
  cases hfind : interface.parameters.find? fun p => T.upper p.name == T.upper key with
  | none =>
    have hnone := List.find?_eq_none.mp hfind p hp
    simp [hsame] at hnone
  | some q =>
    rw [canonicalName, canonicalName, ← hupper, hfind]
    rfl

theorem mem_kwargs (hkeys : (parameters.map fun e => T.upper e.1).Nodup)
    (hnames : (interface.parameters.map fun p => T.upper p.name).Nodup)
    (hknown : ∀ e ∈ parameters, ¬ UnknownKey T interface e.1) (entry : String × PyValue) :
    entry ∈ interface.parameters.filterMap (kwarg T parameters) ↔
      entry ∈ parameters.map fun e => (canonicalName T interface e.1, e.2) := by
  rw [List.mem_filterMap, List.mem_map]
  constructor
  · intro h
    obtain ⟨p, hp, hentry⟩ := h
    rw [kwarg, Option.map_eq_some_iff] at hentry
    obtain ⟨e, hfound, rfl⟩ := hentry
    obtain ⟨he, hupper⟩ := lastUpper_some hfound
    obtain ⟨q, hq, hname, hsame⟩ := canonicalName_of_known (hknown e he)
    have hpq : q = p := List.inj_on_of_nodup_map hnames hq hp (hsame.trans hupper)
    exact ⟨e, he, by rw [← hname, hpq]⟩
  · intro h
    obtain ⟨e, he, rfl⟩ := h
    obtain ⟨p, hp, hname, hupper⟩ := canonicalName_of_known (hknown e he)
    refine ⟨p, hp, ?_⟩
    rw [kwarg, hupper, lastUpper_of_mem hkeys he, ← hname]
    rfl

theorem canonical_nodup (hkeys : (parameters.map fun e => T.upper e.1).Nodup)
    (hknown : ∀ e ∈ parameters, ¬ UnknownKey T interface e.1) :
    (parameters.map fun e => (canonicalName T interface e.1, e.2)).Nodup := by
  have hparameters : parameters.Nodup := hkeys.of_map
  refine hparameters.map_on ?_
  intro e he e' he' hsame
  obtain ⟨p, _, hname, hupper⟩ := canonicalName_of_known (hknown e he)
  obtain ⟨p', _, hname', hupper'⟩ := canonicalName_of_known (hknown e' he')
  refine List.inj_on_of_nodup_map hkeys he he' ?_
  rw [← hupper, ← hupper', hname, hname', (Prod.mk.inj hsame).1]

end Lossless

section Exact

variable {T : PyText} {interface : FunctionInterface} {parameters : PyDict}

/-- The mapping loses nothing exactly when it refuses the request or no two supplied keys are one
up to letter case. -/
theorem mapping_lossless_iff
    (hnames : (interface.parameters.map fun p => T.upper p.name).Nodup) :
    LosslessMapping T interface parameters ↔
      (parameters.map fun e => T.upper e.1).Nodup ∨
      (∃ e ∈ parameters, UnknownKey T interface e.1) ∨
      ∃ p ∈ interface.parameters, MissingRequired T parameters p := by
  have hcases := @buildCallKwargs_cases T interface parameters (names_nodup hnames)
  constructor
  · intro hlossless
    rcases hcases with ⟨hunknown, _⟩ | ⟨hmissing, _⟩ | ⟨hknown, _, hbuild⟩
    · exact Or.inr (Or.inl hunknown)
    · exact Or.inr (Or.inr hmissing)
    · obtain ⟨_, hnodup, hperm⟩ := hlossless.kept _ hbuild
      have hcanonical := (hperm.map (·.1)).nodup_iff.mp hnodup
      rw [List.map_map] at hcanonical
      have hinjective := List.inj_on_of_nodup_map hcanonical
      refine Or.inl (hcanonical.of_map.map_on ?_)
      intro e he e' he' hupper
      exact hinjective he he' (canonicalName_congr (hknown e he) hupper)
  · intro hcondition
    constructor
    · intro hunknown
      rcases hcases with ⟨_, hraise⟩ | ⟨_, hraise⟩ | ⟨hknown, _, _⟩
      · exact hraise
      · exact hraise
      · obtain ⟨e, he, hkey⟩ := hunknown
        exact absurd hkey (hknown e he)
    · intro hmissing
      rcases hcases with ⟨_, hraise⟩ | ⟨_, hraise⟩ | ⟨_, hsupplied, _⟩
      · exact hraise
      · exact hraise
      · obtain ⟨p, hp, hmiss⟩ := hmissing
        exact absurd hmiss (hsupplied p hp)
    · intro kwargs hok
      rcases hcases with ⟨_, _, hraise⟩ | ⟨_, _, hraise⟩ | ⟨hknown, hsupplied, hbuild⟩
      · rw [hraise] at hok
        cases hok
      · rw [hraise] at hok
        cases hok
      · rw [hbuild] at hok
        cases hok
        have hkeys : (parameters.map fun e => T.upper e.1).Nodup := by
          rcases hcondition with hkeys | ⟨e, he, hkey⟩ | ⟨p, hp, hmiss⟩
          · exact hkeys
          · exact absurd hkey (hknown e he)
          · exact absurd hmiss (hsupplied p hp)
        have hsublist := @keys_kwargs T parameters interface.parameters
        have hnodup := (names_nodup hnames).sublist hsublist
        refine ⟨fun e he => canonicalName_of_known (hknown e he), hnodup, ?_⟩
        refine (List.perm_ext_iff_of_nodup hnodup.of_map (canonical_nodup hkeys hknown)).mpr ?_
        intro entry
        exact mem_kwargs hkeys hnames hknown entry

def sampleInterface : FunctionInterface where
  name := "BAPI_CUSTOMER_GETDETAIL2"
  parameters := [
    { name := "CUSTOMERNO", paramClass := .IMPORT },
    { name := "LANGU", paramClass := .IMPORT, default := "EN", optional := true },
    { name := "CUSTOMERDETAIL", paramClass := .EXPORT, optional := true }]

theorem mapping_lossless_iff_sample :
    LosslessMapping asciiText sampleInterface [("customerno", .str "1"), ("Langu", .str "DE")] ↔
      ([("customerno", PyValue.str "1"), ("Langu", .str "DE")].map fun e =>
        asciiText.upper e.1).Nodup ∨
      (∃ e ∈ [("customerno", PyValue.str "1"), ("Langu", .str "DE")],
        UnknownKey asciiText sampleInterface e.1) ∨
      ∃ p ∈ sampleInterface.parameters,
        MissingRequired asciiText [("customerno", .str "1"), ("Langu", .str "DE")] p :=
  mapping_lossless_iff (by decide)

/-- Of two spellings of one key the last value is passed on, and the other one is lost. -/
theorem mapping_loses_case_variant :
    (sampleInterface.parameters.map fun p => asciiText.upper p.name).Nodup ∧
      ("CUSTOMERNO" : String) ≠ "customerno" ∧
      ¬ LosslessMapping asciiText sampleInterface
        [("CUSTOMERNO", .str "0000001000"), ("customerno", .str "0000002000")] := by
  refine ⟨by decide, by decide, ?_⟩
  intro hlossless
  have hbuild : buildCallKwargs asciiText sampleInterface
      [("CUSTOMERNO", .str "0000001000"), ("customerno", .str "0000002000")] =
        .ok [("CUSTOMERNO", .str "0000002000")] := by rfl
  obtain ⟨_, _, hperm⟩ := hlossless.kept _ hbuild
  have hlength := hperm.length_eq
  cases hlength

end Exact

end RfcMcp
