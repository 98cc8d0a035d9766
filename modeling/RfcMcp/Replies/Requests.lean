import RfcMcp.Replies.Calls

namespace RfcMcp

open Framework Framework.Protocol ExecutionInvoker

section Transactions

variable {α : Type} {cfg : AppSettings} {request : Request} {done : List RfcAttempt}
  {f : String} {e : Entry} {Q : Except PyExc α → List RfcAttempt → Prop}

theorem yields_discardTransaction {next : Unit → Act α} (hnext : Yields request (next ()) Q done) :
    Yields request (discardTransaction (connectionPool cfg) e >>= next) Q done := by
  have hdiscard : Yields request (discardTransaction (connectionPool cfg) e)
      (fun r d => r = .ok () ∧ d = done) done := by
    refine yields_section rfl fun removed => yields_ite (fun _ => ?_) fun _ => ?_
    · exact yields_release fun attempts hdone => once_step rfl fun _ => ⟨rfl, hdone⟩
    · exact yields_pure ⟨rfl, rfl⟩
  refine yields_bind hdiscard (fun v d hd => ?_) fun exc d hd => ?_
  · rw [hd.2]
    exact hnext
  · cases hd.1

theorem yields_findTransaction (id : TxId) : Yields request (findTransaction cfg id)
    (fun r d => d = done ∧ ∀ e, r = .ok e → e.1 = id) done := by
  refine yields_section rfl fun found => ?_
  cases found with
  | none => exact yields_raise ⟨rfl, nofun⟩
  | some a =>
    refine yields_pure ⟨rfl, fun e he => ?_⟩
    cases he
    rfl

theorem yields_getOrCreateTransaction (id : Option TxId) :
    Yields request (getOrCreateTransaction cfg (connectionPool cfg) id)
      (fun r d => d = done ∧ ∀ e, r = .ok e → id = some e.1 ∨ id = none) done := by
  cases id with
  | some id =>
    refine (yields_findTransaction id).mono fun r d hd => ⟨hd.1, fun e he => ?_⟩
    rw [hd.2 e he]
    exact .inl rfl
  | none =>
    have hcheckout : (once request).Keeps (HasAsked done) (ConnectionPool.checkout cfg) := by
      refine keeps_checkout_of fun o ho => once_op ?_
      cases o <;> first | rfl | cases ho
    refine yields_after hcheckout (fun conn => ?_) fun exc => ⟨rfl, nofun⟩
    refine yields_step rfl fun id => yields_step rfl fun now => yields_step rfl fun ref => ?_
    exact yields_section rfl fun _ => yields_log (yields_pure ⟨rfl, fun _ _ => .inr rfl⟩)

/-- A write is tried once. -/
theorem yields_writeLocked (f : String) (kwargs : PyDict) (e : Entry) :
    Yields request (writeLocked cfg (connectionPool cfg) f kwargs "write" e)
      (Tried (.write e) f (· = kwargs) (limited cfg) []) [] := by
  refine yields_section rfl fun current => yields_ite (fun _ => ?_) fun _ => ?_
  · exact yields_raise (.inl ⟨rfl, _, rfl⟩)
  have hcall : Yields request
      (callOnConnection cfg e.2.connection (.write e) f kwargs "write" (some e.1))
      (Tried (.write e) f (· = kwargs) (fun result => result.mapError (translate cfg)) []) [] := by
    refine (yields_callOnConnection rfl (.inl rfl)).mono fun r d hd => ?_
    obtain ⟨result, hd, hr⟩ := hd
    exact .inr ⟨kwargs, result, rfl, hd, hr⟩
  have hbody : Yields request
      (callOnConnection cfg e.2.connection (.write e) f kwargs "write" (some e.1) >>= fun raw =>
        applyResultLimits cfg f "write" raw)
      (Tried (.write e) f (· = kwargs) (limited cfg) []) [] := by
    refine (yields_tried_bind hcall fun _ _ => yields_applyResultLimits).mono fun r d hd => ?_
    simp only [limited_eq] at hd
    exact hd
  refine yields_bind (yields_tryExcept hbody (fun _ _ hd => hd) fun exc d hd => ?_)
    (fun value d hd => ?_) fun exc d hd => hd
  · exact yields_discardTransaction (yields_raise hd)
  · exact yields_step rfl fun now => yields_step rfl fun _ => yields_pure hd

/-- The result of a write goes back with the transaction's ID. -/
def Wrote (cfg : AppSettings) (f : String) (parameters : PyDict) (id : Option TxId)
    (r : Except PyExc (PyValue × Option TxId)) (done : List RfcAttempt) : Prop :=
  (done = [] ∧ ∃ exc, r = .error exc) ∨
    ∃ e, (id = some e.1 ∨ id = none) ∧ Tried (.write e) f (Sent cfg parameters)
      (fun result => (limited cfg result).map fun value => (value, some e.1)) [] r done

theorem yields_write (f : String) (parameters : PyDict) (id : Option TxId) :
    Yields request (write cfg (connectionPool cfg) f parameters id) (Wrote cfg f parameters id)
      [] := by
  have hlookups : Lookups cfg (once request) (HasAsked []) := once_lookups
  have hnothing : ∀ exc, Wrote cfg f parameters id (.error exc) [] :=
    fun exc => .inl ⟨rfl, exc, rfl⟩
  refine yields_after (hlookups.authorize _ _ _ _ _) (fun _ => ?_) hnothing
  refine yields_after (hlookups.getInterface f) (fun interface => ?_) hnothing
  refine yields_ofExcept_bind (fun kwargs hbuilt => ?_) fun exc _ => hnothing exc
  refine yields_bind (yields_getOrCreateTransaction id) (fun e d hd => ?_) fun exc d hd => ?_
  · obtain ⟨rfl, he⟩ := hd
    have hlocked : Yields request
        (withLock (.active e.2.ref)
          (writeLocked cfg (connectionPool cfg) f kwargs "write" e) >>= fun value =>
            pure (value, some e.1) : Act (PyValue × Option TxId)) _ [] :=
      yields_tried_map (yields_withLock (yields_writeLocked f kwargs e))
    refine hlocked.mono fun r d hd => .inr ⟨e, he e rfl, hd.mono ?_⟩
    rintro _ rfl
    exact ⟨interface, hbuilt⟩
  · rw [hd.1]
    exact hnothing exc

/-- The RFC that ends a transaction. -/
def ExecutionInvoker.ControlAction.attempt (e : Entry) : ControlAction → Purpose × String × PyDict
  | .commit wait =>
    (.commit e, "BAPI_TRANSACTION_COMMIT", [("WAIT", .str (if wait then "X" else ""))])
  | .rollback => (.rollback e, "BAPI_TRANSACTION_ROLLBACK", [])

theorem yields_control (action : ControlAction) (e : Entry) :
    Yields request (control action e)
      (fun r d => d = [⟨(action.attempt e).1, (action.attempt e).2.1, (action.attempt e).2.2,
        some r⟩]) [] := by
  cases action with
  | commit wait => exact yields_call rfl (.inl rfl)
  | rollback => exact yields_call rfl (.inl rfl)

/-- The end of a transaction is tried once. -/
theorem yields_finishLocked (action : ControlAction) (e : Entry) :
    Yields request (finishLocked cfg (connectionPool cfg) action e)
      (Tried (action.attempt e).1 (action.attempt e).2.1 (· = (action.attempt e).2.2)
        (fun result => result.mapError (translate cfg)) []) [] := by
  refine yields_section rfl fun removed => yields_ite (fun _ => ?_) fun _ => ?_
  · exact yields_raise (.inl ⟨rfl, _, rfl⟩)
  have hcontrol : Yields request
      ((control action e).tryExcept fun exc => do
        log (warning "%s FAILED transaction_id=%s error=%s: %s"
          [action.upper, e.1, (translate cfg exc).typeName, (translate cfg exc).text cfg.text])
        ConnectionPool.release e.2.connection false (some e)
        Action.raise (translate cfg exc))
      (Tried (action.attempt e).1 (action.attempt e).2.1 (· = (action.attempt e).2.2)
        (fun result => result.mapError (translate cfg)) []) [] := by
    refine yields_tryExcept (yields_control action e) (fun raw d hd => ?_) fun exc d hd => ?_
    · exact .inr ⟨_, .ok raw, rfl, hd, rfl⟩
    · exact yields_log (yields_release (yields_raise (.inr ⟨_, .error exc, rfl, hd, rfl⟩)))
  exact yields_bind hcontrol (fun raw d hd => yields_release (yields_pure hd)) fun exc d hd => hd

/-- The answer of SAP goes back to the client. -/
def Finished (cfg : AppSettings) (action : ControlAction) (id : TxId) (r : Except PyExc PyValue)
    (done : List RfcAttempt) : Prop :=
  (done = [] ∧ ∃ exc, r = .error exc) ∨
    ∃ e, e.1 = id ∧ Tried (action.attempt e).1 (action.attempt e).2.1
      (· = (action.attempt e).2.2) (controlled cfg) [] r done

theorem controlled_eq (result : Except PyExc PyDict) :
    (result.mapError (translate cfg) >>= fun raw => toJsonSafe (.dict raw)) =
      controlled cfg result := by
  cases result <;> rfl

theorem yields_finishTransaction (id : TxId) (action : ControlAction) :
    Yields request (finishTransaction cfg (connectionPool cfg) id action) (Finished cfg action id)
      [] := by
  have hnothing : ∀ exc, Finished cfg action id (.error exc) [] := fun exc => .inl ⟨rfl, exc, rfl⟩
  refine yields_after once_expireTransactions (fun _ => ?_) hnothing
  refine yields_bind (yields_findTransaction id) (fun e d hd => ?_) fun exc d hd => ?_
  · obtain ⟨rfl, he⟩ := hd
    have hlocked : Yields request
        (withLock (.active e.2.ref) (finishLocked cfg (connectionPool cfg) action e) >>=
          fun result => do
            log (info "%s SUCCEEDED transaction_id=%s" [action.upper, e.1])
            Action.ofExcept (toJsonSafe (.dict result)))
        (Tried (action.attempt e).1 (action.attempt e).2.1 (· = (action.attempt e).2.2)
          (fun result => result.mapError (translate cfg) >>= fun raw => toJsonSafe (.dict raw))
          []) [] :=
      yields_tried_bind (yields_withLock (yields_finishLocked action e))
        fun result d => yields_log (yields_ofExcept ⟨rfl, rfl⟩)
    refine hlocked.mono fun r d hd => .inr ⟨e, he e rfl, ?_⟩
    simp only [controlled_eq] at hd
    exact hd
  · rw [hd.1]
    exact hnothing exc

end Transactions

end RfcMcp
