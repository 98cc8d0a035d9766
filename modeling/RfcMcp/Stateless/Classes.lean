import RfcMcp.Stateless.Requests

namespace RfcMcp

open Framework Framework.Program Framework.Surroundings ExecutionInvoker SourceReader

section Parts

variable (cfg : AppSettings) (sap : String → PyDict → Except PyExc PyDict)

/-- The includes that a class is found to have on a server that has nothing else to do. -/
def includesAlone (className : String) : Except PyExc (List PyValue) := do
  let cpResult ← (ExecutionInvoker.call cfg (connectionPool cfg) "RPY_PROGRAM_READ"
    [("PROGRAM_NAME", .str (classPoolProgramName cfg.text className)),
      ("WITH_INCLUDELIST", .str "X")] "read").outcome (calm sap)
  let row ← cpResult.asRow
  let rows ← (row.getD "INCLUDE_TAB" (.list [])).iterate
  includeNames rows

/-- The part is what is read of the include there, or a note that it could not be read. -/
def PartOf (className : String) (includeName : PyValue) (part : List String) : Prop :=
  (readInclude cfg (connectionPool cfg) className includeName).outcome (calm sap) = .ok part ∨
    ∃ exc, isSapError exc = true ∧ part = ["* === INCLUDE " ++ cfg.text.str includeName ++
      " (unreadable: " ++ exc.text cfg.text ++ ") ==="]

/-- The source has a part for each of the includes, in their order. -/
def PartlyRead (className source : String) : Prop :=
  ∃ names parts, includesAlone cfg sap className = .ok names ∧
    List.Forall₂ (PartOf cfg sap className) names parts ∧
    source = "\n\n".intercalate parts.flatten

end Parts

section Source

variable {cfg : AppSettings} {sap : String → PyDict → Except PyExc PyDict} {mid : Trace Effects}

/-- A read that has gone well has found what is found alone. -/
theorem read_of_replays (hsap : CaseBlind cfg.text sap) {f mode : String} {parameters : PyDict}
    {value : PyValue}
    (h : (ExecutionInvoker.call cfg (connectionPool cfg) f parameters mode).Replays mid (.ok value))
    (hcredible : Credible sap (Known cfg sap) mid.reverse) :
    (ExecutionInvoker.call cfg (connectionPool cfg) f parameters mode).outcome (calm sap) =
      .ok value := by
  have hcall : (amongOthers sap cfg (Known cfg sap) False).Conforms (calm sap) (Alike cfg.text)
      (ExecutionInvoker.call cfg (connectionPool cfg) f parameters mode) :=
    conforms_invokerCall hsap f parameters mode
  exact hcall.returned not_false h hcredible

theorem part_of_replays (hsap : CaseBlind cfg.text sap) {className : String}
    {includeName : PyValue} {part : List String}
    (h : (readInclude cfg (connectionPool cfg) className includeName).Replays mid (.ok part))
    (hcredible : Credible sap (Known cfg sap) mid.reverse) :
    PartOf cfg sap className includeName part := by
  obtain ⟨read, first, rest, rfl, hread, h⟩ := replays_bind h
  rcases replays_tryExcept_cases hread with hread | ⟨exc, before, after, rfl, _, hhandler⟩
  · obtain ⟨result, first, after, rfl, hcall, hresult⟩ := replays_bind hread
    obtain ⟨rfl, hok⟩ := replays_pure hresult
    cases hok
    have hfirst : first.reverse <:+: (first ++ [] ++ rest).reverse := by
      rw [List.reverse_infix, List.append_nil]
      exact (List.prefix_append first rest).isInfix
    have halone := read_of_replays hsap hcall (hcredible.part sap hfirst)
    obtain ⟨source, hsource, h⟩ := replays_ofExcept_bind h
    obtain ⟨_, hpart⟩ := replays_pure h
    cases hpart
    left
    unfold readInclude
    rw [Action.outcome_bind, Action.outcome_tryExcept, Action.outcome_bind, halone]
    change Action.outcome (S := Effects) (calm sap) (_ >>= _) = _
    rw [Action.outcome_bind, Action.outcome_ofExcept, hsource]
    rfl
  · right
    by_cases hexc : isSapError exc = true
    · rw [if_pos hexc] at hhandler
      obtain ⟨_, _, _, _, _, hcaught⟩ := replays_bind hhandler
      obtain ⟨_, herror⟩ := replays_pure hcaught
      cases herror
      obtain ⟨_, hpart⟩ := replays_pure h
      cases hpart
      exact ⟨exc, hexc, rfl⟩
    · rw [if_neg hexc] at hhandler
      exact absurd hhandler not_replays_raise

/-- What has been read of a class is what is read of it alone, or some include is missing. -/
theorem source_of_replays (hsap : CaseBlind cfg.text sap) {className source : String}
    (h : (readClassSource cfg (connectionPool cfg) className).Replays mid (.ok source))
    (hcredible : Credible sap (Known cfg sap) mid.reverse) :
    (readClassSource cfg (connectionPool cfg) className).outcome (calm sap) = .ok source ∨
      PartlyRead cfg sap className source := by
  obtain ⟨cpResult, first, rest, rfl, hcall, h⟩ := replays_bind h
  have hfirst : first.reverse <:+: (first ++ rest).reverse :=
    List.reverse_infix.mpr (List.prefix_append first rest).isInfix
  have halone := read_of_replays hsap hcall (hcredible.part sap hfirst)
  obtain ⟨row, hrow, h⟩ := replays_ofExcept_bind h
  obtain ⟨rows, hrows, h⟩ := replays_ofExcept_bind h
  obtain ⟨names, hnames, h⟩ := replays_ofExcept_bind h
  by_cases hempty : names.isEmpty = true
  · left
    rw [if_pos hempty] at h
    obtain ⟨_, hsource⟩ := replays_ofExcept h
    unfold readClassSource
    simp only [Action.outcome_bind, Action.outcome_ofExcept, halone, hrow, hrows, hnames,
      Except.bind, if_pos hempty]
    exact hsource
  · right
    rw [if_neg hempty] at h
    obtain ⟨found, second, rest', rfl, hcollect, h⟩ := replays_bind h
    obtain ⟨_, hsource⟩ := replays_pure h
    cases hsource
    obtain ⟨parts, hparts, rfl⟩ := replays_collect hcollect
    refine ⟨names, parts, ?_, hparts.imp fun includeName part hpart => ?_, rfl⟩
    · unfold includesAlone
      rw [halone]
      change (cpResult.asRow >>= _) = _
      rw [hrow]
      change ((row.getD "INCLUDE_TAB" (.list [])).iterate >>= _) = _
      rw [hrows]
      exact hnames
    · obtain ⟨mid, hmid, hreplays⟩ := hpart
      refine part_of_replays hsap hreplays (hcredible.part sap (List.reverse_infix.mpr ?_))
      exact hmid.trans ⟨first, rest', List.append_assoc first second rest'⟩

end Source

end RfcMcp
