import RfcMcp.Audit.Deeds
import RfcMcp.Custody.Shutdown

namespace RfcMcp

open Framework Framework.Protocol Framework.System ExecutionInvoker

section Pool

variable {α : Type} {cfg : AppSettings} {last : Option Purpose} {debt : List LogRecord}

/-- An RFC gives an occasion for reports. -/
theorem deeds_call {conn : Conn} {p : Purpose} {f : String} {kwargs : PyDict} :
    (deeds cfg).protocol.Meets (conn.call p f kwargs)
      (fun raw g => g = (some p, debt ++ rfcRecords cfg f (.ok raw) (some p)))
      (fun exc g => g = (some p, debt ++ rfcRecords cfg f (.error exc) (some p)))
      (last, debt) := by
  unfold Conn.call
  rw [meets_bind]
  refine Billing.free_step (free_of_silent rfl) fun _ => ?_
  rw [meets_bind]
  refine Billing.unpaid_step rfl fun r => ?_
  rw [meets_ofExcept]
  exact ⟨fun raw hraw => by rw [hraw], fun exc hexc => by rw [hexc]⟩

/-- Discovery is nobody's concern. -/
theorem silent_call {conn : Conn} {f : String} {kwargs : PyDict} :
    (deeds cfg).protocol.Keeps (deeds cfg).Clear (conn.call .discovery f kwargs) := by
  constructor
  rintro ⟨last, debt⟩ hclear
  refine deeds_call.mono (fun raw g hg => ?_) fun exc g hg => ?_ <;>
  · subst hg
    exact (List.append_nil debt).trans hclear

/-- The occasion that the release of a transaction gives. -/
def releaseDue (luw : Option Entry) (last : Option Purpose) : List LogRecord :=
  match luw with
  | none => []
  | some e => releaseRecords e last

theorem deeds_release {conn : Conn} {reusable : Bool} {luw : Option Entry} :
    (deeds cfg).protocol.Meets (ConnectionPool.release conn reusable luw)
      (fun _ g => g = (last, debt ++ releaseDue luw last)) (fun _ _ => False) (last, debt) := by
  have hunlocked : ∀ debt', (deeds cfg).protocol.Meets
      (withLock .pool (perform (.appendIdle conn))) (fun _ g => g = (last, debt'))
      (fun _ _ => False) (last, debt') := by
    intro debt'
    unfold withLock
    rw [meets_bind]
    refine Billing.free_step (free_of_silent rfl) fun _ => ?_
    rw [meets_tryFinally]
    refine Billing.free_step (free_of_silent rfl) fun _ => ?_
    exact Billing.free_step (free_of_silent rfl) fun _ => rfl
  unfold ConnectionPool.release
  rw [meets_bind]
  refine Billing.unpaid_step rfl fun _ => ?_
  have hdue : (deeds cfg).due last (.poolRelease conn reusable luw) () = releaseDue luw last := by
    cases luw <;> rfl
  rw [hdue, meets_tryFinally]
  have hlast : ∀ debt', (deeds cfg).protocol.Meets (perform .semRelease)
      (fun _ g => g = (last, debt')) (fun _ _ => False) (last, debt') :=
    fun debt' => Billing.free_step (free_of_silent rfl) fun _ => rfl
  by_cases hreusable : reusable = true
  · rw [if_pos hreusable]
    refine (hunlocked _).mono (fun _ g hg => ?_) fun _ _ hno => hno.elim
    subst hg
    exact hlast _
  · rw [if_neg hreusable]
    exact Billing.free_step (free_of_silent rfl) fun _ => hlast _

theorem silent_release {conn : Conn} {reusable : Bool} :
    (deeds cfg).protocol.Keeps (deeds cfg).Clear (ConnectionPool.release conn reusable none) := by
  constructor
  rintro ⟨last, debt⟩ hclear
  refine deeds_release.mono (fun _ g hg => ?_) fun _ _ hno => hno.elim
  subst hg
  exact (List.append_nil debt).trans hclear

theorem silent_checkout :
    (deeds cfg).protocol.Keeps (deeds cfg).Clear (ConnectionPool.checkout cfg) := by
  refine keeps_checkout_of fun o ho => silent_op ?_
  cases o <;> first | rfl | cases ho

/-- A connection is borrowed for `body`, which may leave reports to be made. -/
theorem deeds_acquire {body : Conn → Act α} {due : α → List LogRecord}
    (hbody : ∀ conn last, (deeds cfg).protocol.Meets (body conn) (fun a g => g.2 = due a)
      (fun _ => (deeds cfg).Clear) (last, [])) :
    (deeds cfg).protocol.Meets (ConnectionPool.acquire cfg body) (fun a g => g.2 = due a)
      (fun _ => (deeds cfg).Clear) (last, []) := by
  unfold ConnectionPool.acquire
  rw [meets_bind]
  refine (silent_checkout.meets (last, []) rfl).mono ?_ fun _ _ hclear => hclear
  rintro conn ⟨last', debt⟩ hclear
  obtain rfl : debt = [] := hclear
  rw [meets_bind, meets_tryExcept]
  refine (hbody conn last').mono ?_ ?_
  · rintro a ⟨last'', debt⟩ hdue
    rw [meets_bind]
    refine deeds_release.mono (fun _ g hg => ?_) fun _ _ hno => hno.elim
    subst hg
    exact (List.append_nil debt).trans hdue
  · rintro exc ⟨last'', debt⟩ hclear
    rw [meets_bind]
    exact (silent_release.meets (last'', debt) hclear).mono (fun _ _ h => h) fun _ _ h => h

end Pool

section Discovery

variable {cfg : AppSettings}

theorem silent_pooledCall (f : String) (params : PyDict) :
    (deeds cfg).protocol.Keeps (deeds cfg).Clear
      (PooledCaller.call cfg (connectionPool cfg) f params) := by
  refine keeps_bind silent_checkout fun conn => ?_
  refine keeps_bind (keeps_tryExcept ?_ fun exc => ?_) fun result => ?_
  · exact keeps_tryExcept silent_call fun exc => keeps_raise _
  · exact keeps_bind silent_release fun _ => keeps_raise exc
  · exact keeps_bind silent_release fun _ => keeps_pure result

theorem silent_getOrSet {id : CacheId} {key : String} {factory : Act id.Value}
    (hfactory : (deeds cfg).protocol.Keeps (deeds cfg).Clear factory) :
    (deeds cfg).protocol.Keeps (deeds cfg).Clear (TTLCache.getOrSet id key factory) := by
  refine keeps_bind (silent_withLock (silent_op rfl)) fun cached => ?_
  cases cached with
  | some value => exact keeps_pure value
  | none =>
    refine keeps_bind hfactory fun value => ?_
    exact keeps_bind (silent_withLock (silent_op rfl)) fun _ => keeps_pure value

theorem silent_search (pattern : String) (group : Option String) (limit : Int) :
    (deeds cfg).protocol.Keeps (deeds cfg).Clear (FunctionCatalog.search cfg
      (PooledCaller.call cfg (connectionPool cfg)) pattern group limit) :=
  silent_getOrSet (keeps_bind (silent_pooledCall _ _) fun _ => keeps_ofExcept _)

theorem silent_getInterface (f : String) : (deeds cfg).protocol.Keeps (deeds cfg).Clear
    (ExecutionInvoker.getInterface cfg (connectionPool cfg) f) :=
  silent_getOrSet (keeps_bind (silent_pooledCall _ _)
    fun result => keeps_interfaceOf silent_pooledCall f result)

theorem silent_authorize (f mode : String) (parameters : PyDict) :
    (deeds cfg).protocol.Keeps (deeds cfg).Clear
      (ExecutionPolicy.authorize cfg.text cfg.policy f mode parameters) := by
  unfold ExecutionPolicy.authorize
  dsimp only
  split
  · exact silent_op rfl
  · exact keeps_bind (silent_op rfl) fun _ => keeps_raise _
  · exact keeps_raise _

theorem silent_authorizeControl : (deeds cfg).protocol.Keeps (deeds cfg).Clear
    (ExecutionPolicy.authorizeTransactionControl cfg.policy) :=
  keeps_ite (keeps_bind (silent_op rfl) fun _ => keeps_raise _) (silent_op rfl)

end Discovery

section Calls

variable {α : Type} {cfg : AppSettings} {last : Option Purpose} {debt : List LogRecord}

theorem deeds_callOnConnection {conn : Conn} {p : Purpose} {f mode : String} {kwargs : PyDict}
    {id : Option TxId} (hp : ∀ r, rfcRecords cfg f r (some p) = callRecords cfg f mode id r) :
    (deeds cfg).protocol.Meets
      (ExecutionInvoker.callOnConnection cfg conn p f kwargs mode id)
      (fun raw g => g = (some p, blockedRecords cfg f mode raw)) (fun _ g => g = (some p, []))
      (last, []) := by
  unfold ExecutionInvoker.callOnConnection
  rw [meets_bind, meets_tryExcept]
  refine deeds_call.mono (fun raw g hg => ?_) fun exc g hg => ?_
  · subst hg
    rw [hp, meets_bind]
    exact report_step rfl rfl
  · subst hg
    rw [hp, meets_bind]
    exact report_step rfl rfl

theorem deeds_applyResultLimits (f mode : String) (raw : PyDict) :
    (deeds cfg).protocol.Meets (ExecutionInvoker.applyResultLimits cfg f mode raw)
      (fun _ g => g = (last, [])) (fun _ g => g = (last, []))
      (last, blockedRecords cfg f mode raw) := by
  unfold ExecutionInvoker.applyResultLimits blockedRecords
  generalize cfg.limits.apply (.dict raw) = outcome
  cases outcome with
  | ok value => exact rfl
  | error exc =>
    cases exc with
    | resultLimitExceeded message =>
      dsimp only
      rw [meets_bind]
      exact report_step rfl rfl
    | _ => exact rfl

theorem deeds_invokerCall (f : String) (parameters : PyDict) (mode : String) :
    (deeds cfg).protocol.Keeps (deeds cfg).Clear
      (ExecutionInvoker.call cfg (connectionPool cfg) f parameters mode) := by
  unfold ExecutionInvoker.call
  by_cases hmode : mode = "read"
  · subst hmode
    refine keeps_ite (keeps_raise _) ?_
    refine keeps_bind (silent_authorize f "read" parameters) fun _ => ?_
    refine keeps_bind (silent_getInterface f) fun interface => ?_
    refine keeps_bind (keeps_ofExcept _) fun callKwargs => ?_
    constructor
    rintro ⟨last, debt⟩ hclear
    obtain rfl : debt = [] := hclear
    rw [meets_bind]
    have hread : (deeds cfg).protocol.Meets
        (ConnectionPool.acquire cfg fun conn =>
          ExecutionInvoker.callOnConnection cfg conn .read f callKwargs "read" none)
        (fun raw g => g.2 = blockedRecords cfg f "read" raw) (fun _ => (deeds cfg).Clear)
        (last, []) := by
      refine deeds_acquire fun conn last' => ?_
      exact (deeds_callOnConnection fun r => rfl).mono (fun _ g hg => by rw [hg])
        fun _ g hg => by rw [hg]
    refine hread.mono ?_ fun _ _ hclear => hclear
    rintro raw ⟨last', debt⟩ hdebt
    obtain rfl : debt = blockedRecords cfg f "read" raw := hdebt
    exact (deeds_applyResultLimits f "read" raw).mono (fun _ g hg => by rw [hg])
      fun _ g hg => by rw [hg]
  · rw [if_pos hmode]
    exact keeps_raise _

theorem deeds_readInclude (className : String) (includeName : PyValue) :
    (deeds cfg).protocol.Keeps (deeds cfg).Clear
      (SourceReader.readInclude cfg (connectionPool cfg) className includeName) := by
  have hread := @deeds_invokerCall cfg "RPY_PROGRAM_READ" [("PROGRAM_NAME", includeName)] "read"
  refine keeps_bind (keeps_tryExcept (keeps_bind hread fun _ => keeps_pure _) fun exc => ?_) ?_
  · exact keeps_ite (keeps_bind (silent_op rfl) fun _ => keeps_pure _) (keeps_raise _)
  · intro outcome
    cases outcome with
    | error exc => exact keeps_pure _
    | ok result => exact keeps_bind (keeps_ofExcept _) fun _ => keeps_pure _

theorem deeds_readViaRfc (objectType : ObjectType) (objectName : String) :
    (deeds cfg).protocol.Keeps (deeds cfg).Clear
      (readViaRfc cfg (connectionPool cfg) objectType objectName) := by
  cases objectType with
  | program => exact keeps_bind (deeds_invokerCall _ _ _) fun _ => keeps_ofExcept _
  | functionModule => exact keeps_bind (deeds_invokerCall _ _ _) fun _ => keeps_ofExcept _
  | class_ =>
    refine keeps_bind (deeds_invokerCall _ _ _) fun cpResult => ?_
    refine keeps_bind (keeps_ofExcept _) fun row => ?_
    refine keeps_bind (keeps_ofExcept _) fun rows => ?_
    refine keeps_bind (keeps_ofExcept _) fun names => ?_
    refine keeps_ite (keeps_ofExcept _) ?_
    exact keeps_bind (keeps_collect (deeds_readInclude objectName)) fun _ => keeps_pure _

end Calls

section Transactions

variable {α : Type} {cfg : AppSettings} {last : Option Purpose} {debt : List LogRecord}

/-- A section under a lock has the debts of its body. -/
theorem deeds_withLock {l : LockId} {x : Act α} {ok : α → Option Purpose × List LogRecord → Prop}
    {err : PyExc → Option Purpose × List LogRecord → Prop}
    (hx : (deeds cfg).protocol.Meets x ok err (last, debt)) :
    (deeds cfg).protocol.Meets (withLock l x) ok err (last, debt) := by
  unfold withLock
  rw [meets_bind]
  refine Billing.free_step (free_of_silent rfl) fun _ => ?_
  rw [meets_tryFinally]
  refine Meets.mono hx ?_ ?_
  · rintro a ⟨last', debt'⟩ hok
    exact Billing.free_step (free_of_silent rfl) fun _ => hok
  · rintro exc ⟨last', debt'⟩ herr
    exact Billing.free_step (free_of_silent rfl) fun _ => herr

theorem deeds_discardTransaction (e e' : Entry) :
    (deeds cfg).protocol.Meets (ExecutionInvoker.discardTransaction (connectionPool cfg) e)
      (fun _ => (deeds cfg).Clear) (fun _ => (deeds cfg).Clear) (some (.write e'), []) := by
  unfold ExecutionInvoker.discardTransaction ExecutionInvoker.removeIfCurrent
  rw [meets_bind]
  refine deeds_withLock (Billing.free_step (free_of_silent rfl) fun removed => ?_)
  cases removed with
  | false => exact rfl
  | true =>
    rw [if_pos rfl, meets_bind]
    refine deeds_release.mono (fun _ g hg => ?_) fun _ _ hno => hno.elim
    subst hg
    exact report_step rfl rfl

theorem deeds_findTransaction (id : TxId) : (deeds cfg).protocol.Keeps (deeds cfg).Clear
    (ExecutionInvoker.findTransaction cfg id) := by
  refine keeps_bind (silent_withLock (silent_op rfl)) fun found => ?_
  cases found with
  | none => exact keeps_raise _
  | some a => exact keeps_pure _

theorem deeds_createTransaction : (deeds cfg).protocol.Keeps (deeds cfg).Clear
    (ExecutionInvoker.createTransaction (connectionPool cfg)) := by
  refine keeps_bind silent_checkout fun conn => ?_
  refine keeps_bind (silent_op rfl) fun id => ?_
  refine keeps_bind (silent_op rfl) fun now => ?_
  refine keeps_bind (silent_op rfl) fun ref => ⟨?_⟩
  rintro ⟨last, debt⟩ hclear
  obtain rfl : debt = [] := hclear
  rw [meets_bind]
  refine deeds_withLock (Billing.unpaid_step rfl fun _ => ?_)
  rw [meets_bind]
  exact report_step rfl rfl

theorem deeds_getOrCreateTransaction (id : Option TxId) :
    (deeds cfg).protocol.Keeps (deeds cfg).Clear
      (ExecutionInvoker.getOrCreateTransaction cfg (connectionPool cfg) id) := by
  cases id with
  | some id => exact deeds_findTransaction id
  | none => exact deeds_createTransaction

theorem deeds_writeLocked (f : String) (callKwargs : PyDict) (e : Entry) :
    (deeds cfg).protocol.Keeps (deeds cfg).Clear
      (ExecutionInvoker.writeLocked cfg (connectionPool cfg) f callKwargs "write" e) := by
  refine keeps_bind (silent_withLock (silent_op rfl)) fun current => ?_
  refine keeps_ite (keeps_raise _) ⟨?_⟩
  rintro ⟨last, debt⟩ hclear
  obtain rfl : debt = [] := hclear
  have hdiscard : ∀ (ok : PyValue → Option Purpose × List LogRecord → Prop) (exc : PyExc),
      (deeds cfg).protocol.Meets
        (do
          ExecutionInvoker.discardTransaction (connectionPool cfg) e
          (Action.raise exc : Act PyValue))
        ok (fun _ => (deeds cfg).Clear) (some (.write e), []) := by
    intro ok exc
    rw [meets_bind]
    exact (deeds_discardTransaction e e).mono (fun _ _ h => h) fun _ _ h => h
  rw [meets_bind, meets_tryExcept, meets_bind]
  refine (deeds_callOnConnection fun r => rfl).mono (fun raw g hg => ?_) fun exc g hg => ?_
  · subst hg
    refine (deeds_applyResultLimits f "write" raw).mono (fun value g hg => ?_) fun exc g hg => ?_
    · subst hg
      have hrest : (deeds cfg).protocol.Keeps (deeds cfg).Clear (do
          let now ← perform .monotonic
          perform (.setLastUsed e.2 now)
          pure value : Act PyValue) := by
        refine keeps_bind (silent_op rfl) fun now => ?_
        exact keeps_bind (silent_op rfl) fun _ => keeps_pure value
      exact hrest.meets _ rfl
    · subst hg
      exact hdiscard _ exc
  · subst hg
    exact hdiscard _ exc

theorem deeds_write (f : String) (parameters : PyDict) (id : Option TxId) :
    (deeds cfg).protocol.Keeps (deeds cfg).Clear
      (ExecutionInvoker.write cfg (connectionPool cfg) f parameters id) := by
  refine keeps_bind (silent_authorize f "write" parameters) fun _ => ?_
  refine keeps_bind (silent_getInterface f) fun interface => ?_
  refine keeps_bind (keeps_ofExcept _) fun callKwargs => ?_
  refine keeps_bind (deeds_getOrCreateTransaction id) fun e => ?_
  exact keeps_bind (silent_withLock (deeds_writeLocked f callKwargs e)) fun _ => keeps_pure _

theorem deeds_expireLocked (cutoff : Time) (e : Entry) :
    (deeds cfg).protocol.Keeps (deeds cfg).Clear
      (ExecutionInvoker.expireLocked (connectionPool cfg) cutoff e) := by
  refine keeps_bind (silent_withLock (silent_op rfl)) fun removed => ?_
  refine keeps_ite ⟨?_⟩ (keeps_pure ())
  rintro ⟨last, debt⟩ hclear
  obtain rfl : debt = [] := hclear
  have hrest : ∀ reusable, (deeds cfg).protocol.Meets
      (do
        ConnectionPool.release e.2.connection reusable (some e)
        log (warning "TRANSACTION EXPIRED transaction_id=%s" [e.1]))
      (fun _ => (deeds cfg).Clear) (fun _ => (deeds cfg).Clear) (some (.expire e), []) := by
    intro reusable
    rw [meets_bind]
    refine deeds_release.mono (fun _ g hg => ?_) fun _ _ hno => hno.elim
    subst hg
    exact report_step rfl rfl
  rw [meets_bind, meets_tryExcept, meets_bind]
  refine deeds_call.mono (fun raw g hg => ?_) fun exc g hg => ?_
  · subst hg
    exact hrest true
  · subst hg
    rw [meets_bind]
    exact report_step rfl (hrest false)

theorem deeds_expireTransactions : (deeds cfg).protocol.Keeps (deeds cfg).Clear
    (ExecutionInvoker.expireTransactions cfg (connectionPool cfg)) := by
  refine keeps_bind (silent_op rfl) fun now => ?_
  refine keeps_bind (silent_withLock (silent_op rfl)) fun candidates => ?_
  refine keeps_forEach fun e _ => keeps_bind (silent_op rfl) fun lastUsed => ?_
  refine keeps_ite (keeps_pure ()) (keeps_bind (silent_op rfl) fun locked => ?_)
  exact keeps_ite (keeps_tryFinally (deeds_expireLocked _ e) (silent_op rfl)) (keeps_pure ())

/-- What follows a COMMIT or ROLLBACK RFC: the record about a success is still to come. -/
theorem deeds_concludeLocked {action : ControlAction} {e : Entry} {p : Purpose}
    (hsilent : releaseRecords e (some p) = []) {x : Act PyDict}
    (hx : (deeds cfg).protocol.Meets x
      (fun raw g => g = (some p, [controlRecord cfg action.upper e.1 (.ok raw)]))
      (fun exc g => g = (some p, [controlRecord cfg action.upper e.1 (.error exc)]))
      (last, [])) :
    (deeds cfg).protocol.Meets
      (do
        let result ← x.tryExcept fun exc => do
          log (warning "%s FAILED transaction_id=%s error=%s: %s"
            [action.upper, e.1, (translate cfg exc).typeName, (translate cfg exc).text cfg.text])
          ConnectionPool.release e.2.connection false (some e)
          Action.raise (translate cfg exc)
        ConnectionPool.release e.2.connection true (some e)
        pure result)
      (fun result g => g.2 = [controlRecord cfg action.upper e.1 (.ok result)])
      (fun _ => (deeds cfg).Clear) (last, []) := by
  rw [meets_bind, meets_tryExcept]
  refine Meets.mono hx (fun raw g hg => ?_) fun exc g hg => ?_
  · subst hg
    rw [meets_bind]
    refine deeds_release.mono (fun _ g hg => ?_) fun _ _ hno => hno.elim
    subst hg
    simp only [releaseDue, hsilent, List.append_nil]
    exact rfl
  · subst hg
    rw [meets_bind]
    refine report_step rfl ?_
    rw [meets_bind]
    refine deeds_release.mono (fun _ g hg => ?_) fun _ _ hno => hno.elim
    subst hg
    simp only [releaseDue, hsilent, List.append_nil]
    exact rfl

theorem deeds_finishLocked (action : ControlAction) (e : Entry) :
    (deeds cfg).protocol.Meets
      (ExecutionInvoker.finishLocked cfg (connectionPool cfg) action e)
      (fun result g => g.2 = [controlRecord cfg action.upper e.1 (.ok result)])
      (fun _ => (deeds cfg).Clear) (last, []) := by
  unfold ExecutionInvoker.finishLocked ExecutionInvoker.removeIfCurrent
  rw [meets_bind]
  refine deeds_withLock (Billing.free_step (free_of_silent rfl) fun removed => ?_)
  cases removed with
  | false => exact rfl
  | true =>
    cases action with
    | commit wait => exact deeds_concludeLocked (p := .commit e) rfl deeds_call
    | rollback => exact deeds_concludeLocked (p := .rollback e) rfl deeds_call

theorem deeds_finishTransaction (id : TxId) (action : ControlAction) :
    (deeds cfg).protocol.Keeps (deeds cfg).Clear
      (ExecutionInvoker.finishTransaction cfg (connectionPool cfg) id action) := by
  refine keeps_bind deeds_expireTransactions fun _ => ?_
  refine keeps_bind (deeds_findTransaction id) fun e => ⟨?_⟩
  rintro ⟨last, debt⟩ hclear
  obtain rfl : debt = [] := hclear
  rw [meets_bind]
  refine (deeds_withLock (deeds_finishLocked action e)).mono ?_ fun _ _ hclear => hclear
  rintro result ⟨last', debt⟩ hdebt
  obtain rfl : debt = [controlRecord cfg action.upper e.1 (.ok result)] := hdebt
  rw [meets_bind]
  refine report_step rfl ?_
  exact (keeps_ofExcept _).meets _ rfl

theorem deeds_callTransactional (f : String) (parameters : PyDict) (mode : String)
    (id : Option TxId) :
    (deeds cfg).protocol.Keeps (deeds cfg).Clear
      (ExecutionInvoker.callTransactional cfg (connectionPool cfg) f parameters mode id) := by
  refine keeps_bind deeds_expireTransactions fun _ => ?_
  refine keeps_ite (keeps_ite (keeps_raise _) ?_) (keeps_ite (keeps_raise _) ?_)
  · exact keeps_bind (deeds_invokerCall f parameters mode) fun _ => keeps_pure _
  · exact deeds_write f parameters id

theorem deeds_shutdownLocked (e : Entry) :
    (deeds cfg).protocol.Keeps (deeds cfg).Clear
      (ExecutionInvoker.shutdownLocked (connectionPool cfg) e) := by
  constructor
  rintro ⟨last, debt⟩ hclear
  obtain rfl : debt = [] := hclear
  have hrelease : ∀ reusable, (deeds cfg).protocol.Meets
      (ConnectionPool.release e.2.connection reusable (some e))
      (fun _ => (deeds cfg).Clear) (fun _ => (deeds cfg).Clear) (some (.shutdown e), []) := by
    intro reusable
    refine deeds_release.mono (fun _ g hg => ?_) fun _ _ hno => hno.elim
    subst hg
    exact rfl
  unfold ExecutionInvoker.shutdownLocked Transaction.rollback
  rw [meets_bind, meets_tryExcept, meets_bind]
  refine deeds_call.mono (fun raw g hg => ?_) fun exc g hg => ?_
  · subst hg
    rw [meets_bind]
    exact report_step rfl (hrelease true)
  · subst hg
    rw [meets_bind]
    exact report_step rfl (hrelease false)

theorem deeds_close : (deeds cfg).protocol.Keeps (deeds cfg).Clear
    (ExecutionInvoker.close (connectionPool cfg)) := by
  refine keeps_bind (silent_withLock (silent_op rfl)) fun pending => ?_
  exact keeps_forEach fun e _ => silent_withLock (deeds_shutdownLocked e)

theorem deeds_closeAll : (deeds cfg).protocol.Keeps (deeds cfg).Clear
    (ConnectionPool.closeAll) := by
  refine keeps_bind (silent_withLock (silent_op rfl)) fun idle => ?_
  exact keeps_forEach fun conn _ => silent_op rfl

end Transactions

section Runs

variable {cfg : AppSettings}

theorem deeds_answer {α : Type} {x : Act α} (answer : α → Answer)
    (hx : (deeds cfg).protocol.Keeps (deeds cfg).Clear x) :
    (deeds cfg).protocol.Follows (fun _ => (deeds cfg).Clear)
      (x >>= fun a => pure (answer a) : Act Answer) (none, []) := by
  have hmeets := (keeps_bind hx fun a => keeps_pure (answer a)).meets (none, []) rfl
  refine Follows.mono hmeets fun r g h => ?_
  cases r <;> exact h

/-- A request reports all that it has done. -/
theorem program_deeds (request : Request) :
    (deeds cfg).protocol.Follows (fun (_ : Except PyExc Answer) => (deeds cfg).Clear)
      (request.program cfg (connectionPool cfg)) (none, []) := by
  cases request with
  | call f parameters mode => exact deeds_answer _ (deeds_invokerCall f parameters mode)
  | callTransactional f parameters mode id =>
    exact deeds_answer (fun answer : PyValue × Option TxId => .written answer.1 answer.2)
      (deeds_callTransactional f parameters mode id)
  | commit id wait =>
    exact deeds_answer _ (keeps_bind silent_authorizeControl fun _ => deeds_finishTransaction id _)
  | rollback id =>
    exact deeds_answer _ (keeps_bind silent_authorizeControl fun _ => deeds_finishTransaction id _)
  | search pattern group limit => exact deeds_answer _ (silent_search pattern group limit)
  | getInterface f => exact deeds_answer _ (silent_getInterface f)
  | readSource objectType name => exact deeds_answer _ (deeds_readViaRfc objectType name)
  | expireTransactions => exact deeds_answer (fun _ => .done) deeds_expireTransactions
  | close => exact deeds_answer (fun _ => .done) deeds_close
  | closeAll => exact deeds_answer (fun _ => .done) deeds_closeAll

/-- The log can be trusted: in every state of every run a thread has logged, in this order, records
about what it has done and no others, and once its request is over, nothing that it has done is
missing. -/
theorem audit_complete {c : Run cfg} (h : Reachable c) (t : ℕ) :
    (deeds cfg).payments (traceOf t c.history) <+: (deeds cfg).dues (traceOf t c.history) ∧
      ∀ request reply, c.threads[t]? = some (request, .ret reply) →
        (deeds cfg).payments (traceOf t c.history) = (deeds cfg).dues (traceOf t c.history) :=
  Billing.settled program_deeds h t

theorem audit_complete_commit : ∃ c request reply,
    execute (server sampleSettings).initial (sampleWrite 0 ++ sampleCommit 1) = some c ∧
      c.threads[1]? = some (request, .ret reply) ∧
      (deeds sampleSettings).payments (traceOf 1 c.history) =
        (deeds sampleSettings).dues (traceOf 1 c.history) := by
  have hrun : ((execute (server sampleSettings).initial (sampleWrite 0 ++ sampleCommit 1)).any
      fun c => (c.threads.all fun thread => isDone thread.2) && c.threads[1]?.isSome) = true := by
    decide +kernel
  obtain ⟨c, hc, hrest⟩ := (Option.any_eq_true _ _).mp hrun
  obtain ⟨hdone, hthread⟩ := Bool.and_eq_true_iff.mp hrest
  obtain ⟨⟨request, p⟩, hget⟩ := Option.isSome_iff_exists.mp hthread
  obtain ⟨reply, rfl⟩ := quiet_of_all hdone 1 request p hget
  exact ⟨c, request, reply, hc, hget, (audit_complete (execute_reachable hc) 1).2 _ _ hget⟩

end Runs

end RfcMcp
