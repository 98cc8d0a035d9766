import RfcMcp.Errors.Requests
import RfcMcp.Execution.ResultLimits

namespace RfcMcp

open Framework Framework.Protocol ExecutionInvoker

section Silent

variable {cfg : AppSettings}

/-- The failure of a rollback is noted, and goes no further. -/
theorem silent_expireLocked (cutoff : Time) (e : Entry) :
    Silent (expireLocked (connectionPool cfg) cutoff e) := by
  refine silent_bind (silent_section _ _) fun removed => silent_ite ?_ silent_pure
  refine silent_bind (silent_tryExcept fun exc => ?_) fun reusable => ?_
  · exact silent_bind (silent_log _) fun _ => silent_pure
  · exact silent_bind (silent_giveBack _ _ _) fun _ => silent_log _

theorem silent_expireTransactions :
    Silent (ExecutionInvoker.expireTransactions cfg (connectionPool cfg)) := by
  refine silent_bind (silent_operation _) fun now => ?_
  refine silent_bind (silent_section _ _) fun candidates => silent_forEach fun e => ?_
  refine silent_bind (silent_operation _) fun lastUsed => silent_ite silent_pure ?_
  refine silent_bind (silent_operation _) fun locked => silent_ite ?_ silent_pure
  exact silent_tryFinally (silent_expireLocked _ e) (silent_operation _)

theorem silent_discardTransaction (e : Entry) :
    Silent (discardTransaction (connectionPool cfg) e) := by
  refine silent_bind (silent_section _ _) fun removed => silent_ite ?_ silent_pure
  exact silent_bind (silent_giveBack _ _ _) fun _ => silent_log _

theorem silent_close : Silent (ExecutionInvoker.close (connectionPool cfg)) := by
  refine silent_bind (silent_section _ _) fun pending => silent_forEach fun e => ?_
  refine silent_bind (silent_operation _) fun _ => silent_tryFinally ?_ (silent_operation _)
  refine silent_bind (silent_tryExcept fun exc => ?_) fun reusable => silent_giveBack _ _ _
  exact silent_bind (silent_log _) fun _ => silent_pure

theorem silent_closeAll : Silent ConnectionPool.closeAll :=
  silent_bind (silent_section _ _) fun _ => silent_forEach fun _ => silent_operation _

end Silent

section Transactions

variable {cfg : AppSettings} {request : Request} {id : TxId} {e : Entry}

theorem accounts_findTransaction (hid : request.names = some id) :
    Accounts (Blames cfg request) Anything (findTransaction cfg id)
      fun e => request.Obtained e := by
  have hfound : Accounts (Blames cfg request) Anything
      (withLock .transactions (perform (.lookup id))) fun found trace =>
        ⟨Op.lookup id, found⟩ ∈ trace :=
    accounts_result
  refine accounts_bind hfound fun found => ?_
  cases found with
  | none => exact accounts_raise fun trace hmem => .unknown hid hmem rfl
  | some a => exact accounts_pure fun trace hmem => .inl ⟨hid, hmem⟩

theorem accounts_createTransaction : Accounts (Blames cfg request) Anything
    (createTransaction (connectionPool cfg)) fun e => request.Obtained e := by
  refine accounts_bind accounts_checkout fun conn => ?_
  refine (silent_operation _).accounts_bind persistent_anything fun id => ?_
  refine (silent_operation _).accounts_bind persistent_anything fun now => ?_
  refine (silent_operation _).accounts_bind persistent_anything fun ref => ?_
  have hregister : Accounts (Blames cfg request) Anything
      (withLock .transactions (perform (.register id ⟨ref, conn⟩))) fun _ trace =>
        ⟨Op.register id ⟨ref, conn⟩, ()⟩ ∈ trace :=
    accounts_result
  refine accounts_bind hregister fun _ => ?_
  exact (silent_log _).accounts_bind (mem_enduring _) fun _ => accounts_pure fun _ h => .inr h

theorem accounts_getOrCreateTransaction (id : Option TxId)
    (hid : ∀ id', id = some id' → request.names = id) :
    Accounts (Blames cfg request) Anything
      (getOrCreateTransaction cfg (connectionPool cfg) id) fun e => request.Obtained e := by
  cases id with
  | none => exact accounts_createTransaction
  | some id => exact accounts_findTransaction (hid id rfl)

theorem accounts_writeLocked (f : String) (kwargs : PyDict) (mode : String) (e : Entry) :
    Accounts (Blames cfg request) (request.Obtained e)
      (writeLocked cfg (connectionPool cfg) f kwargs mode e) fun _ => Anything := by
  have hcurrent : Accounts (Blames cfg request) Anything (isCurrentTransaction e)
      fun current trace => ⟨Op.isCurrent e.1 e.2, current⟩ ∈ trace :=
    accounts_result
  refine accounts_bind (hcurrent.frame (fun _ _ => trivial) (obtained_enduring e)) fun current =>
    accounts_ite (fun hgone => ?_) fun _ => ?_
  · obtain rfl : current = false := by simpa using hgone
    exact accounts_raise fun trace h => .gone h.2 (.inl h.1) rfl
  refine accounts_bind (Q := fun _ => Anything) ?_ fun value => ?_
  · refine accounts_reraise (C := Blames cfg request) (g := id) ?_
      (fun _ => silent_discardTransaction e) (fun _ _ h => h) blames_enduring
    refine accounts_bind (Q := fun raw => RfcEnded (.write e) f kwargs (.ok raw)) ?_ fun raw => ?_
    · exact (accounts_callOnConnection rfl).weaken (fun _ _ => trivial) fun _ _ h => h
    · exact (accounts_applyResultLimits rfl).weaken (fun _ h => h) fun _ _ _ => trivial
  · refine (silent_operation _).accounts_bind persistent_anything fun now => ?_
    exact (silent_operation _).accounts_bind persistent_anything fun _ =>
      accounts_pure fun _ h => h

theorem accounts_write {f : String} {parameters : PyDict} (id : Option TxId)
    (hasks : request.AsksFor cfg.text f parameters)
    (hid : ∀ id', id = some id' → request.names = id) :
    Accounts (Blames cfg request) Anything
      (ExecutionInvoker.write cfg (connectionPool cfg) f parameters id) fun _ => Anything := by
  refine accounts_bind (accounts_authorize (.inr rfl) hasks) fun _ => ?_
  refine accounts_bind (accounts_getInterface f) fun interface => ?_
  refine accounts_kwargs hasks fun kwargs => ?_
  refine accounts_bind (accounts_getOrCreateTransaction id hid) fun e => ?_
  refine accounts_bind (Q := fun _ => Anything) ?_ fun value => accounts_pure fun _ _ => trivial
  exact accounts_withLock (accounts_writeLocked f kwargs "write" e) (obtained_enduring e)
    fun _ _ _ _ => trivial

/-- The RFC that ends a transaction. -/
theorem accounts_control (action : ControlAction) (e : Entry) :
    ∃ p f kwargs, p.isReported = true ∧ Accounts (fun exc => RfcEnded p f kwargs (.error exc))
      Anything (control action e) fun raw => RfcEnded p f kwargs (.ok raw) := by
  cases action with
  | commit wait => exact ⟨.commit e, _, _, rfl, accounts_call⟩
  | rollback => exact ⟨.rollback e, _, _, rfl, accounts_call⟩

theorem accounts_finishTransaction (id : TxId) (action : ControlAction)
    (hid : request.names = some id) :
    Accounts (Blames cfg request) Anything
      (finishTransaction cfg (connectionPool cfg) id action) fun _ => Anything := by
  refine silent_expireTransactions.accounts_bind persistent_anything fun _ => ?_
  refine accounts_bind (accounts_findTransaction hid) fun e => ?_
  obtain ⟨p, f, kwargs, hp, hcontrol⟩ := accounts_control action e
  have henduring : ∀ raw, Enduring (RfcEnded p f kwargs (.ok raw)) :=
    fun raw => rfcEnded_enduring _ _ _ _
  have hremove : Accounts (Blames cfg request) Anything (removeIfCurrent e)
      fun removed trace => ⟨Op.removeIfCurrent e.1 e.2, removed⟩ ∈ trace :=
    accounts_result
  have hlocked : Accounts (Blames cfg request) (request.Obtained e)
      (finishLocked cfg (connectionPool cfg) action e)
      fun raw => RfcEnded p f kwargs (.ok raw) := by
    refine accounts_bind (hremove.frame (fun _ _ => trivial) (obtained_enduring e)) fun removed =>
      accounts_ite (fun hgone => ?_) fun _ => ?_
    · obtain rfl : removed = false := by simpa using hgone
      exact accounts_raise fun trace h => .gone h.2 (.inr h.1) rfl
    refine accounts_bind (Q := fun raw => RfcEnded p f kwargs (.ok raw)) ?_ fun raw => ?_
    · refine accounts_tryExcept (hcontrol.weaken (fun _ _ => trivial) fun _ _ h => h) fun exc => ?_
      refine (silent_log _).accounts_bind (rfcEnded_enduring _ _ _ _) fun _ => ?_
      refine (silent_giveBack _ _ _).accounts_bind (rfcEnded_enduring _ _ _ _) fun _ => ?_
      exact accounts_raise fun trace hended => .failed hp hended rfl
    · exact (silent_giveBack _ _ _).accounts_bind (henduring raw) fun _ =>
        accounts_pure fun _ h => h
  refine accounts_bind (accounts_withLock hlocked (obtained_enduring e) henduring) fun raw => ?_
  refine (silent_log _).accounts_bind (henduring raw) fun _ => ?_
  rw [toJsonSafe_eq]
  exact accounts_pure fun _ _ => trivial

end Transactions

section Requests

variable {cfg : AppSettings}

theorem accounts_callTransactional (f : String) (parameters : PyDict) (mode : String)
    (id : Option TxId) :
    Accounts (Blames cfg (.callTransactional f parameters mode id)) Anything
      (callTransactional cfg (connectionPool cfg) f parameters mode id) fun _ => Anything := by
  refine silent_expireTransactions.accounts_bind persistent_anything fun _ => ?_
  refine accounts_ite (fun hread => accounts_ite (fun hid => ?_) fun _ => ?_)
    fun hread => accounts_ite (fun hwrite => ?_) fun hwrite => ?_
  · obtain ⟨id', rfl⟩ := Option.isSome_iff_exists.mp hid
    subst hread
    exact accounts_raise fun _ _ => .misused .read
  · refine accounts_bind (accounts_invokerCall ⟨rfl, rfl⟩ fun hmode => absurd hread hmode) ?_
    exact fun value => accounts_pure fun _ _ => trivial
  · exact accounts_raise fun _ _ => .misused (.mode hread hwrite)
  · obtain rfl : mode = "write" := by simpa using hwrite
    exact accounts_write id ⟨rfl, rfl⟩ fun _ _ => rfl

/-- Whatever a request raises, its thread has seen the cause. -/
theorem program_blames (request : Request) : observing.Follows
    (fun reply trace => ∀ exc, reply = .error exc → Blames cfg request exc trace)
    (request.program cfg (connectionPool cfg)) [] := by
  have hanswer : ∀ {α : Type} {x : Act α} (answer : α → Answer),
      Accounts (Blames cfg request) Anything x (fun _ => Anything) →
      observing.Follows
        (fun reply trace => ∀ exc, reply = .error exc → Blames cfg request exc trace)
        (x >>= fun a => pure (answer a) : Act Answer) [] := by
    intro α x answer hx
    have hmeets := accounts_bind (R := fun _ => Anything) hx
      (fun a => accounts_pure (a := answer a) fun _ _ => trivial) [] trivial
    refine Follows.mono hmeets fun reply trace h => ?_
    cases reply with
    | ok a => exact nofun
    | error exc =>
      rintro _ ⟨⟩
      exact h
  have hsilent : ∀ {α : Type} {x : Act α}, Silent x →
      Accounts (Blames cfg request) Anything x fun _ => Anything :=
    fun hx => hx.causes fun _ _ hfalse => hfalse.elim
  cases request with
  | call f parameters mode =>
    have hcall : Accounts (Blames cfg (.call f parameters mode)) Anything
        (ExecutionInvoker.call cfg (connectionPool cfg) f parameters mode) (ReadBack cfg) :=
      accounts_invokerCall ⟨rfl, rfl⟩ fun _ => ⟨f, parameters, rfl⟩
    exact hanswer _ (hcall.weaken (fun _ h => h) fun _ _ _ => trivial)
  | callTransactional f parameters mode id =>
    exact hanswer (fun answer : PyValue × Option TxId => .written answer.1 answer.2)
      (accounts_callTransactional f parameters mode id)
  | commit id wait =>
    exact hanswer _ (accounts_bind (accounts_authorizeTransactionControl rfl) fun _ =>
      accounts_finishTransaction id (.commit wait) rfl)
  | rollback id =>
    exact hanswer _ (accounts_bind (accounts_authorizeTransactionControl rfl) fun _ =>
      accounts_finishTransaction id .rollback rfl)
  | search pattern group limit => exact hanswer _ (accounts_search pattern group limit)
  | getInterface f =>
    exact hanswer _ ((accounts_getInterface f).weaken (fun _ h => h) fun _ _ _ => trivial)
  | readSource objectType name => exact hanswer _ (accounts_readViaRfc objectType name)
  | expireTransactions => exact hanswer (fun _ => .done) (hsilent silent_expireTransactions)
  | close => exact hanswer (fun _ => .done) (hsilent silent_close)
  | closeAll => exact hanswer (fun _ => .done) (hsilent silent_closeAll)

end Requests

end RfcMcp
