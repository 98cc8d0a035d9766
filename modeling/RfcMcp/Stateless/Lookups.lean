import RfcMcp.Errors.Calls
import RfcMcp.Stateless.Reference

namespace RfcMcp

open Framework Framework.Protocol Framework.Surroundings ExecutionInvoker

section Borrowing

variable {α : Type} {cfg : AppSettings} {sap : String → PyDict → Except PyExc PyDict}
  {known : (id : CacheId) → String → id.Value → Prop} {lax : Prop} {E : PyExc → PyExc → Prop}

/-- Some connection is borrowed, unless there is trouble. -/
theorem mirrors_checkout : (amongOthers sap cfg known lax).Mirrors E (fun _ _ => True)
    (ConnectionPool.checkout cfg) (.ok (0 : Nat)) := by
  refine mirrors_of_accounts (((accounts_replays _).causes fun exc trace h _ => ?_).weaken
    (fun _ h => h) fun _ _ _ _ => trivial)
  obtain ⟨mid, hreplays, hpart⟩ := h
  exact .unlent hreplays hpart

theorem mirrors_acquire {body : Conn → Act α} {r : Except PyExc α}
    (hbody : ∀ conn, (amongOthers sap cfg known lax).Mirrors E Eq (body conn) r) :
    (amongOthers sap cfg known lax).Mirrors E Eq (ConnectionPool.acquire cfg body) r := by
  have hsame : r = r.mapError id := by cases r <;> rfl
  refine mirrors_bind (k := fun _ => r) mirrors_checkout fun conn _ _ => ?_
  refine mirrors_finish (R := Eq) ?_ fun result result' hresult => ?_
  · rw [hsame]
    exact mirrors_reraise (hbody conn) (fun _ => silent_giveBack conn false none) fun _ _ h => h
  · exact mirrors_after (silent_giveBack conn true none) fun _ => mirrors_pure hresult

theorem outcome_acquire {body : Conn → Act α} :
    (ConnectionPool.acquire cfg body).outcome (calm sap) =
      (body (0 : Nat)).outcome (calm sap) := by
  have hcheckout : (ConnectionPool.checkout cfg).outcome (calm sap) = .ok (0 : Nat) := rfl
  have hrelease : ∀ (conn : Conn) reusable,
      (ConnectionPool.release conn reusable none).outcome (calm sap) = .ok () := by
    intro conn reusable
    cases reusable <;> rfl
  unfold ConnectionPool.acquire
  rw [Action.outcome_bind, hcheckout]
  change Action.outcome (S := Effects) (calm sap) (_ >>= _) = _
  rw [Action.outcome_bind, Action.outcome_tryExcept]
  cases (body (0 : Nat)).outcome (calm sap) with
  | ok a =>
    change Action.outcome (S := Effects) (calm sap) (_ >>= _) = _
    rw [Action.outcome_bind, hrelease]
    rfl
  | error exc =>
    change Except.bind (Action.outcome (S := Effects) (calm sap) (_ >>= _)) _ = _
    rw [Action.outcome_bind, hrelease]
    rfl

end Borrowing

section Rfc

variable {cfg : AppSettings} {sap : String → PyDict → Except PyExc PyDict}
  {known : (id : CacheId) → String → id.Value → Prop} {lax : Prop}

/-- An RFC comes to what SAP says, or it is a disturbance. -/
theorem mirrors_call {conn : Conn} {p : Purpose} {f : String} {kwargs : PyDict}
    (hp : p.looksUp = true) :
    (amongOthers sap cfg known lax).Mirrors Eq Eq (conn.call p f kwargs) (sap f kwargs) := by
  have hended : Accounts (fun exc => RfcEnded p f kwargs (.error exc)) Anything
      (conn.call p f kwargs) fun raw => RfcEnded p f kwargs (.ok raw) :=
    accounts_call
  refine Accounts.causes (hended.weaken (fun _ h => h) fun raw trace h hhonest => ?_)
    fun exc trace h hhonest => ?_
  · have hanswer : sap f kwargs = .ok raw := hhonest.answered p f kwargs raw hp h
    rw [hanswer]
    exact .inl (.ok rfl)
  · by_cases hanswer : sap f kwargs = .error exc
    · rw [hanswer]
      exact .inl (.error rfl)
    · exact .inr ⟨.failed hp h hanswer, .inr ⟨exc, rfl⟩⟩

theorem outcome_pooledCall (f : String) (params : PyDict) :
    (catalogCall cfg f params).outcome (calm sap) =
      (sap f params).mapError (ExecutionInvoker.translate cfg) := by
  refine outcome_acquire.trans (Action.outcome_tryExcept.trans ?_)
  have hcall : Action.outcome (S := Effects) (calm sap) (Conn.call (0 : Nat) .discovery f params) =
      sap f params :=
    rfl
  rw [hcall]
  cases sap f params <;> rfl

theorem conforms_pooledCall (f : String) (params : PyDict) :
    (amongOthers sap cfg known lax).Conforms (calm sap) Eq (catalogCall cfg f params) := by
  unfold Conforms
  rw [outcome_pooledCall]
  refine mirrors_acquire fun conn => ?_
  exact mirrors_reraise (y := fun _ => (pure () : Act Unit)) (mirrors_call rfl)
    (fun _ => silent_pure) fun _ _ h => congrArg _ h

end Rfc

section Discovery

variable {cfg : AppSettings} {sap : String → PyDict → Except PyExc PyDict}
  {known : (id : CacheId) → String → id.Value → Prop} {lax : Prop}

theorem conforms_result {α : Type} (r : Except PyExc α) :
    (amongOthers sap cfg known lax).Conforms (calm sap) Eq (Action.ofExcept r) :=
  conforms_ofExcept (fun _ => rfl) r

theorem conforms_doSearch (pattern : String) (group : Option String) (limit : Int) :
    (amongOthers sap cfg known lax).Mirrors Eq Eq
      (FunctionCatalog.doSearch cfg (catalogCall cfg) pattern group limit)
      (searched cfg sap pattern group limit) :=
  conforms_bind (conforms_pooledCall _ _) fun _ => conforms_result _

theorem conforms_resolve (depth : Nat) (tabname : String) (seen : List String) :
    (amongOthers sap cfg known lax).Conforms (calm sap) Eq
      (resolve cfg.text (catalogCall cfg) depth tabname seen) := by
  induction depth generalizing tabname seen with
  | zero => exact conforms_result (.ok [])
  | succ depth ih =>
    unfold resolve
    dsimp only
    generalize cfg.text.upper (strip tabname) = upperName
    refine conforms_ite (fun _ => conforms_result (.ok [])) fun _ => ?_
    refine conforms_bind (conforms_pooledCall _ _) fun result => ?_
    refine conforms_bind (conforms_result _) fun rawFields => ?_
    refine conforms_collect (fun _ => rfl) fun row => ?_
    refine conforms_bind (conforms_result _) fun fields => ?_
    refine conforms_ite (fun _ => conforms_result (.ok [])) fun _ => ?_
    refine conforms_ite (fun _ => ?_) fun _ => conforms_result (.ok _)
    exact conforms_bind (ih _ _) fun nested => conforms_result (.ok _)

theorem conforms_interfaceParameter (row : PyValue) :
    (amongOthers sap cfg known lax).Conforms (calm sap) Eq
      (FunctionCatalog.interfaceParameter cfg (catalogCall cfg) row) := by
  refine conforms_bind (conforms_result _) fun fields => ?_
  refine conforms_ite (fun _ => conforms_result (.ok [])) fun _ => ?_
  cases paramclassFromCode cfg.text (fields.text cfg.text "PARAMCLASS") with
  | error exc => exact conforms_result (.ok [])
  | ok paramClass =>
    refine conforms_ite (fun _ => conforms_result (.ok _)) fun _ => ?_
    refine conforms_bind ?_ fun found => conforms_result (.ok _)
    exact conforms_ite (fun _ => conforms_result (.ok [])) fun _ => conforms_resolve _ _ _

theorem conforms_doGetInterface (name : String) :
    (amongOthers sap cfg known lax).Mirrors Eq Eq
      (FunctionCatalog.doGetInterface cfg (catalogCall cfg) name) (described cfg sap name) := by
  refine conforms_bind (conforms_pooledCall _ _) fun result => ?_
  refine conforms_bind (conforms_result _) fun params => ?_
  refine conforms_bind (conforms_collect (fun _ => rfl) conforms_interfaceParameter)
    fun parameters => ?_
  refine conforms_bind (conforms_result _) fun rows => ?_
  exact conforms_bind (conforms_result _) fun exceptions => conforms_result (.ok _)

end Discovery

end RfcMcp
