import RfcMcp.Framework.Ledger
import RfcMcp.Mediation.Policy

namespace RfcMcp

open Framework Framework.System

/-- A call as SAP receives it. -/
structure SapCall where
  function : String
  kwargs : PyDict

/-- What a call does to the LUW of its connection, if `updates` tells which calls change the
database. -/
def workEffect (updates : SapCall → Bool) (call : SapCall) : WorkEffect :=
  if call.function = "BAPI_TRANSACTION_COMMIT" then .commits
  else if call.function = "BAPI_TRANSACTION_ROLLBACK" then .rollsBack
  else if updates call then .stages
  else .none

abbrev SapLedger := Ledger Conn SapCall

def Op.reaches : Op → Option (Conn × SapCall)
  | .rfcBegin conn _ function kwargs => some (conn, ⟨function, kwargs⟩)
  | _ => none

def Op.answers : (o : Op) → o.Res → Option (Conn × Bool)
  | .rfcEnd conn _ _, .ok _ => some (conn, true)
  | .rfcEnd conn _ _, .error _ => some (conn, false)
  | _, _ => none

/-- SAP may be in state `L` after a history. -/
abbrev SapSees {R : Type} (updates : SapCall → Bool) (h : History R) (L : SapLedger) : Prop :=
  Sees (workEffect updates) Op.reaches Op.answers h L

/-- The updates that an operation requests for the transaction `e`. -/
def Op.updatesFor (updates : SapCall → Bool) (e : Entry) : (o : Op) → o.Res → List SapCall
  | .rfcBegin _ p function kwargs, _ =>
    if p = .write e then
      [⟨function, kwargs⟩].filter fun call => workEffect updates call = .stages
    else []
  | _, _ => []

/-- The updates requested for a transaction, the newest first. -/
def updatesFor {R : Type} (updates : SapCall → Bool) (e : Entry) (h : History R) : List SapCall :=
  record (Op.updatesFor updates e) h

/-- The policy agrees with what the functions of the SAP system do: what may be read changes
nothing, the catalog's own functions do not either, and nobody calls COMMIT or ROLLBACK by name. -/
structure Classified (cfg : AppSettings) (updates : SapCall → Bool) : Prop where
  read : ∀ function kwargs, cfg.policy.isReadAllowed cfg.text function = true →
    updates ⟨function, kwargs⟩ = false
  discovery : ∀ function ∈ discoveryFunctions, ∀ kwargs, updates ⟨function, kwargs⟩ = false
  commit : cfg.policy.isDenied cfg.text "BAPI_TRANSACTION_COMMIT" = true
  rollback : cfg.policy.isDenied cfg.text "BAPI_TRANSACTION_ROLLBACK" = true

/-- The call does to the LUW what it is issued for. -/
def Purpose.Suits (updates : SapCall → Bool) (p : Purpose) (call : SapCall) : Prop :=
  match p with
  | .read | .discovery => workEffect updates call = .none
  | .write _ => workEffect updates call = .none ∨ workEffect updates call = .stages
  | .commit _ => workEffect updates call = .commits
  | .rollback _ | .expire _ | .shutdown _ => workEffect updates call = .rollsBack

section Suits

variable {cfg : AppSettings} {c : Run cfg} {t : ℕ} {conn : Conn} {p : Purpose}
  {f : String} {kwargs : PyDict} {updates : SapCall → Bool}

theorem authorizeUnlogged_read {T : PyText} {settings : PolicySettings} {target : Option String}
    (h : ExecutionPolicy.authorizeUnlogged T settings f "read" target = .ok ()) :
    settings.isReadAllowed T f = true := by
  unfold ExecutionPolicy.authorizeUnlogged at h
  split at h
  · cases h
  · rw [if_pos rfl] at h
    split at h
    · cases h
    · rename_i hallowed
      simpa using hallowed

theorem notDenied_of_readAllowed {T : PyText} {s : PolicySettings}
    (h : s.isReadAllowed T f = true) : s.isDenied T f = false := by
  unfold PolicySettings.isReadAllowed at h
  split at h
  · cases h
  · rename_i hdenied
    exact Bool.eq_false_of_not_eq_true hdenied

theorem notDenied_of_writeAllowed {T : PyText} {s : PolicySettings}
    (h : s.isWriteAllowed T f = true) : s.isDenied T f = false := by
  unfold PolicySettings.isWriteAllowed at h
  split at h
  · cases h
  · split at h
    · cases h
    · rename_i hdenied
      exact Bool.eq_false_of_not_eq_true hdenied

theorem Classified.ordinary (h : Classified cfg updates)
    (hf : cfg.policy.isDenied cfg.text f = false) :
    workEffect updates ⟨f, kwargs⟩ = if updates ⟨f, kwargs⟩ then .stages else .none := by
  have hcommit : f ≠ "BAPI_TRANSACTION_COMMIT" := by
    rintro rfl
    rw [h.commit] at hf
    cases hf
  have hrollback : f ≠ "BAPI_TRANSACTION_ROLLBACK" := by
    rintro rfl
    rw [h.rollback] at hf
    cases hf
  rw [workEffect, if_neg hcommit, if_neg hrollback]

theorem workEffect_commit : workEffect updates ⟨"BAPI_TRANSACTION_COMMIT", kwargs⟩ = .commits := rfl

theorem workEffect_rollback :
    workEffect updates ⟨"BAPI_TRANSACTION_ROLLBACK", kwargs⟩ = .rollsBack := rfl

/-- Every RFC of a run does to the LUW of its connection what it is issued for. -/
theorem issued_suits (hclass : Classified cfg updates) (h : Reachable c)
    {later earlier : History Request}
    (hh : c.history = later ++ .did t (.rfcBegin conn p f kwargs) () :: earlier) :
    p.Suits updates ⟨f, kwargs⟩ := by
  obtain ⟨request, _, _, hmay⟩ := issued_mayIssue h hh
  cases p with
  | read =>
    obtain ⟨parameters, ⟨hallowed, _⟩, _⟩ := hmay
    have hread := authorizeUnlogged_read hallowed
    show workEffect updates ⟨f, kwargs⟩ = .none
    rw [hclass.ordinary (notDenied_of_readAllowed hread), hclass.read f kwargs hread]
    rfl
  | discovery =>
    have hcatalog : f ∈ discoveryFunctions := hmay
    have hcommit : f ≠ "BAPI_TRANSACTION_COMMIT" := by
      rintro rfl
      exact absurd hcatalog (by decide)
    have hrollback : f ≠ "BAPI_TRANSACTION_ROLLBACK" := by
      rintro rfl
      exact absurd hcatalog (by decide)
    show workEffect updates ⟨f, kwargs⟩ = .none
    rw [workEffect, if_neg hcommit, if_neg hrollback, hclass.discovery f hcatalog kwargs]
    rfl
  | write e =>
    obtain ⟨parameters, _, _, _, ⟨hallowed, _⟩, _⟩ := hmay
    have hwrite := (authorizeUnlogged_write hallowed).2
    have hordinary : workEffect updates ⟨f, kwargs⟩ =
        if updates ⟨f, kwargs⟩ then .stages else .none :=
      hclass.ordinary (notDenied_of_writeAllowed hwrite)
    show workEffect updates ⟨f, kwargs⟩ = .none ∨ workEffect updates ⟨f, kwargs⟩ = .stages
    rw [hordinary]
    cases updates ⟨f, kwargs⟩ with
    | true => exact .inr rfl
    | false => exact .inl rfl
  | commit e =>
    obtain ⟨_, rfl, _⟩ := hmay
    exact workEffect_commit
  | rollback e =>
    obtain ⟨_, rfl, _⟩ := hmay
    exact workEffect_rollback
  | expire e =>
    obtain ⟨_, rfl⟩ := hmay
    exact workEffect_rollback
  | shutdown e =>
    obtain ⟨_, rfl⟩ := hmay
    exact workEffect_rollback

end Suits

section Updates

variable {R : Type} {updates : SapCall → Bool} {e : Entry} {t : ℕ} {h : History R}

theorem updatesFor_did {o : Op} (v : o.Res)
    (ho : ∀ conn f kwargs, o ≠ .rfcBegin conn (.write e) f kwargs) :
    updatesFor updates e (.did t o v :: h) = updatesFor updates e h := by
  have hnone : Op.updatesFor updates e o v = [] := by
    cases o with
    | rfcBegin conn p f kwargs =>
      refine if_neg ?_
      rintro rfl
      exact ho conn f kwargs rfl
    | _ => rfl
  simp only [updatesFor, record, hnone, List.nil_append]

theorem updatesFor_write {conn : Conn} {f : String} {kwargs : PyDict} :
    updatesFor updates e (.did t (.rfcBegin conn (.write e) f kwargs) () :: h) =
      [⟨f, kwargs⟩].filter (fun call => workEffect updates call = .stages) ++
        updatesFor updates e h := by
  simp only [updatesFor, record, Op.updatesFor, if_true]

end Updates

end RfcMcp
