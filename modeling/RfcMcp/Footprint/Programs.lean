import RfcMcp.Execution.SourceReader
import RfcMcp.Footprint.Areas

namespace RfcMcp

open Framework

variable {α β : Type} {areas areas' : List Area}

section Pool

variable (cfg : AppSettings)

theorem within_createConnection : Within [.borrow] (ConnectionPool.createConnection cfg) := by
  refine within_ite (within_bind (within_ofExcept _) fun _ => ?_) (within_raise _)
  refine within_bind (within_op rfl) fun opened => ?_
  cases opened with
  | ok conn => exact within_pure _
  | error e => exact within_raise _

theorem within_openAttempts (retries attempt : Nat) :
    Within [.borrow] (ConnectionPool.openAttempts cfg attempt retries) := by
  induction retries generalizing attempt with
  | zero => exact within_createConnection cfg
  | succ retries ih =>
    refine within_tryExcept (within_createConnection cfg) fun e => ?_
    exact within_ite (within_bind (within_op rfl) fun _ => ih _) (within_raise _)

theorem within_checkout : Within [.lock, .borrow, .giveBack] (ConnectionPool.checkout cfg) := by
  refine within_bind (within_op rfl) fun acquired => within_ite ?_ (within_raise _)
  refine within_tryExcept (within_bind (within_withLock rfl (within_op rfl)) fun candidate => ?_)
    fun _ => within_bind (within_op rfl) fun _ => within_raise _
  cases candidate with
  | some conn => exact within_pure _
  | none => exact (within_openAttempts cfg _ _).mono rfl

theorem within_release (conn : Conn) (reusable : Bool) (luw : Option Entry) :
    Within [.lock, .giveBack] (ConnectionPool.release conn reusable luw) := by
  refine within_bind (within_op rfl) fun _ => within_tryFinally ?_ (within_op rfl)
  exact within_ite (within_withLock rfl (within_op rfl)) (within_op rfl)

theorem within_acquire {body : Conn → Act α} (h : covers areas [.lock, .borrow, .giveBack] = true)
    (hbody : ∀ conn, Within areas (body conn)) :
    Within areas (ConnectionPool.acquire cfg body) := by
  have hrelease (conn : Conn) (reusable : Bool) :=
    (((within_release conn reusable none).mono rfl) : Within [.lock, .borrow, .giveBack] _).mono h
  refine within_bind ((within_checkout cfg).mono h) fun conn => within_bind ?_ fun _ => ?_
  · exact within_tryExcept (hbody conn) fun _ =>
      within_bind (hrelease conn false) fun _ => within_raise _
  · exact within_bind (hrelease conn true) fun _ => within_pure _

theorem within_closeAll : Within [.lock, .closeAll, .giveBack] ConnectionPool.closeAll :=
  within_bind (within_withLock rfl (within_op rfl)) fun _ =>
    within_forEach fun conn => within_op (o := .closeConnection conn) rfl

end Pool

/-- An RFC for any other purpose than to expire a transaction. -/
theorem within_call {conn : Conn} {p : Purpose} {f : String} {kwargs : PyDict}
    (hp : (Op.rfcBegin conn p f kwargs).area = .rfc) : Within [.rfc] (conn.call p f kwargs) := by
  refine within_bind (within_op ?_) fun _ => within_bind (within_op rfl) fun _ => within_ofExcept _
  rw [hp]
  rfl

section Discovery

variable (cfg : AppSettings)

theorem within_pooledCall (f : String) (params : PyDict) :
    Within [.lock, .borrow, .giveBack, .rfc]
      (PooledCaller.call cfg (connectionPool cfg) f params) :=
  within_acquire cfg rfl fun _ =>
    within_tryExcept ((within_call rfl).mono rfl) fun _ => within_raise _

theorem within_getOrSet {id : CacheId} {key : String} {factory : Act id.Value}
    (h : covers areas [.lock, .cache] = true) (hfactory : Within areas factory) :
    Within areas (TTLCache.getOrSet id key factory) := by
  have hget : Within [.lock, .cache] (TTLCache.get id key) := within_withLock rfl (within_op rfl)
  have hset (value : id.Value) : Within [.lock, .cache] (TTLCache.set id key value) :=
    within_withLock rfl (within_op rfl)
  refine within_bind (hget.mono h) fun cached => ?_
  cases cached with
  | some value => exact within_pure _
  | none =>
    refine within_bind hfactory fun value => ?_
    exact within_bind ((hset value).mono h) fun _ => within_pure _

theorem within_resolve {call : String → PyDict → Act PyDict}
    (hcall : ∀ f params, Within areas (call f params)) (depth : Nat) (tabname : String)
    (seen : List String) : Within areas (resolve cfg.text call depth tabname seen) := by
  induction depth generalizing tabname seen with
  | zero => exact within_pure _
  | succ depth ih =>
    unfold resolve
    refine within_ite (within_pure _) (within_bind (hcall _ _) fun _ => ?_)
    refine within_bind (within_ofExcept _) fun _ => within_collect fun row => ?_
    unfold resolveRow
    refine within_bind (within_ofExcept _) fun _ => within_ite (within_pure _) ?_
    exact within_ite (within_bind (ih _ _) fun _ => within_pure _) (within_pure _)

def discoveryAreas : List Area := [.lock, .cache, .borrow, .giveBack, .rfc]

theorem within_search (pattern : String) (group : Option String) (limit : Int) :
    Within discoveryAreas (FunctionCatalog.search cfg (PooledCaller.call cfg (connectionPool cfg))
      pattern group limit) :=
  within_getOrSet rfl
    (within_bind ((within_pooledCall cfg _ _).mono rfl) fun _ => within_ofExcept _)

theorem within_interfaceParameter {call : String → PyDict → Act PyDict}
    (hcall : ∀ f params, Within areas (call f params)) (row : PyValue) :
    Within areas (FunctionCatalog.interfaceParameter cfg call row) := by
  unfold FunctionCatalog.interfaceParameter
  refine within_bind (within_ofExcept _) fun _ => within_ite (within_pure _) ?_
  split
  · exact within_pure _
  · refine within_ite (within_pure _) (within_bind ?_ fun _ => within_pure _)
    exact within_ite (within_pure _) (within_resolve cfg hcall _ _ _)

theorem within_doGetInterface {call : String → PyDict → Act PyDict}
    (hcall : ∀ f params, Within areas (call f params)) (f : String) :
    Within areas (FunctionCatalog.doGetInterface cfg call f) := by
  refine within_bind (hcall _ _) fun _ => within_bind (within_ofExcept _) fun _ => ?_
  exact within_bind (within_collect (within_interfaceParameter cfg hcall)) fun _ =>
    within_bind (within_ofExcept _) fun _ => within_bind (within_ofExcept _) fun _ => within_pure _

theorem within_getInterface (f : String) :
    Within discoveryAreas (ExecutionInvoker.getInterface cfg (connectionPool cfg) f) :=
  within_getOrSet rfl
    (within_doGetInterface cfg (fun f params => (within_pooledCall cfg f params).mono rfl) f)

end Discovery

section Invoker

variable (cfg : AppSettings)

theorem within_authorize (f mode : String) (parameters : PyDict) :
    Within [.log] (ExecutionPolicy.authorize cfg.text cfg.policy f mode parameters) := by
  unfold ExecutionPolicy.authorize
  dsimp only
  split
  · exact (within_log rfl)
  · exact within_bind (within_log rfl) fun _ => within_raise _
  · exact within_raise _

theorem within_authorizeTransactionControl :
    Within [.log] (ExecutionPolicy.authorizeTransactionControl cfg.policy) := by
  unfold ExecutionPolicy.authorizeTransactionControl
  split
  · exact within_bind (within_log rfl) fun _ => within_raise _
  · exact (within_log rfl)

theorem within_callOnConnection {conn : Conn} {p : Purpose} {f : String} {kwargs : PyDict}
    {mode : String} {id : Option TxId} (hp : (Op.rfcBegin conn p f kwargs).area = .rfc) :
    Within [.rfc, .log] (ExecutionInvoker.callOnConnection cfg conn p f kwargs mode id) := by
  refine within_bind ?_ fun _ => within_bind (within_log rfl) fun _ => within_pure _
  exact within_tryExcept ((within_call hp).mono rfl) fun _ =>
    within_bind (within_log rfl) fun _ => within_raise _

theorem within_applyResultLimits (f mode : String) (result : PyDict) :
    Within [.log] (ExecutionInvoker.applyResultLimits cfg f mode result) := by
  unfold ExecutionInvoker.applyResultLimits
  split
  · exact within_pure _
  · exact within_bind (within_log rfl) fun _ => within_raise _
  · exact within_raise _

def callAreas : List Area := [.lock, .cache, .borrow, .giveBack, .rfc, .log]

theorem within_invokerCall (f : String) (parameters : PyDict) (mode : String) :
    Within callAreas (ExecutionInvoker.call cfg (connectionPool cfg) f parameters mode) := by
  refine within_ite (within_raise _) ?_
  refine within_bind ((within_authorize cfg _ _ _).mono rfl) fun _ => ?_
  refine within_bind ((within_getInterface cfg f).mono rfl) fun _ => ?_
  refine within_bind (within_ofExcept _) fun _ => within_bind ?_ fun _ => ?_
  · exact within_acquire cfg rfl fun _ => (within_callOnConnection cfg rfl).mono rfl
  exact (within_applyResultLimits cfg _ _ _).mono rfl

theorem within_readInclude (className : String) (includeName : PyValue) :
    Within callAreas (SourceReader.readInclude cfg (connectionPool cfg) className includeName) := by
  refine within_bind (within_tryExcept ?_ fun exc => ?_) fun read => ?_
  · exact within_bind (within_invokerCall cfg _ _ _) fun _ => within_pure _
  · exact within_ite (within_bind (within_log rfl) fun _ => within_pure _) (within_raise _)
  · cases read with
    | error exc => exact within_pure _
    | ok result => exact within_bind (within_ofExcept _) fun _ => within_pure _

theorem within_readViaRfc (objectType : ObjectType) (objectName : String) :
    Within callAreas (readViaRfc cfg (connectionPool cfg) objectType objectName) := by
  cases objectType with
  | program => exact within_bind (within_invokerCall cfg _ _ _) fun _ => within_ofExcept _
  | functionModule => exact within_bind (within_invokerCall cfg _ _ _) fun _ => within_ofExcept _
  | class_ =>
    refine within_bind (within_invokerCall cfg _ _ _) fun _ => ?_
    refine within_bind (within_ofExcept _) fun _ => ?_
    refine within_bind (within_ofExcept _) fun _ => within_bind (within_ofExcept _) fun _ => ?_
    refine within_ite (within_ofExcept _) (within_bind ?_ fun _ => within_pure _)
    exact within_collect fun _ => within_readInclude cfg _ _

theorem within_findTransaction (id : TxId) :
    Within [.lock, .find] (ExecutionInvoker.findTransaction cfg id) := by
  refine within_bind (within_withLock rfl (within_op rfl)) fun active => ?_
  cases active with
  | some a => exact within_pure _
  | none => exact within_raise _

theorem within_getOrCreateTransaction (id : Option TxId) :
    Within [.lock, .find, .borrow, .giveBack, .create, .clock, .log]
      (ExecutionInvoker.getOrCreateTransaction cfg (connectionPool cfg) id) := by
  cases id with
  | some id => exact (within_findTransaction cfg id).mono rfl
  | none =>
    refine within_bind ((within_checkout cfg).mono rfl) fun conn => ?_
    refine within_bind (within_op rfl) fun id => within_bind (within_op rfl) fun now => ?_
    refine within_bind (within_op rfl) fun ref => ?_
    refine within_bind (within_withLock rfl (within_op rfl)) fun _ => ?_
    exact within_bind (within_log rfl) fun _ => within_pure _

theorem within_removeIfCurrent (e : Entry) :
    Within [.lock, .remove] (ExecutionInvoker.removeIfCurrent e) :=
  within_withLock rfl (within_op rfl)

theorem within_poolRelease (conn : Conn) (reusable : Bool) (luw : Option Entry) :
    Within [.lock, .giveBack] ((connectionPool cfg).release conn reusable luw) :=
  within_release conn reusable luw

theorem within_discardTransaction (e : Entry) : Within [.lock, .remove, .giveBack, .log]
    (ExecutionInvoker.discardTransaction (connectionPool cfg) e) := by
  unfold ExecutionInvoker.discardTransaction
  refine within_bind ((within_removeIfCurrent e).mono rfl) fun _ => within_ite ?_ (within_pure _)
  exact within_bind ((within_poolRelease cfg _ _ _).mono rfl) fun _ => within_log rfl

theorem within_finishLocked (action : ExecutionInvoker.ControlAction) (e : Entry) :
    Within [.lock, .remove, .rfc, .log, .giveBack]
      (ExecutionInvoker.finishLocked cfg (connectionPool cfg) action e) := by
  have hcontrol : Within [.rfc] (ExecutionInvoker.control action e) := by
    cases action <;> exact within_call rfl
  refine within_bind ((within_removeIfCurrent e).mono rfl) fun _ => within_ite (within_raise _) ?_
  refine within_bind (within_tryExcept (hcontrol.mono rfl) fun _ => ?_) fun _ => ?_
  · exact within_bind (within_log rfl) fun _ =>
      within_bind ((within_poolRelease cfg _ _ _).mono rfl) fun _ => within_raise _
  · exact within_bind ((within_poolRelease cfg _ _ _).mono rfl) fun _ => within_pure _

theorem within_expireTransactions : Within [.lock, .clock, .expiry, .rfc, .giveBack, .log]
    (ExecutionInvoker.expireTransactions cfg (connectionPool cfg)) := by
  refine within_bind (within_op rfl) fun now => ?_
  refine within_bind (within_withLock rfl (within_op rfl)) fun candidates => ?_
  refine within_forEach fun e => within_bind (within_op rfl) fun lastUsed => ?_
  refine within_ite (within_pure _) (within_bind (within_op rfl) fun locked => ?_)
  refine within_ite (within_tryFinally ?_ (within_op rfl)) (within_pure _)
  refine within_bind (within_withLock rfl (within_op rfl)) fun removed => ?_
  refine within_ite ?_ (within_pure _)
  refine within_bind (within_tryExcept ?_ fun exc => ?_) fun reusable => ?_
  · refine within_bind (within_bind (within_op rfl) fun _ => ?_) fun _ => within_pure _
    exact within_bind (within_op rfl) fun r => within_ofExcept r
  · exact within_bind (within_log rfl) fun _ => within_pure _
  · exact within_bind ((within_poolRelease cfg _ _ _).mono rfl) fun _ => within_log rfl

def finishAreas : List Area := [.lock, .clock, .expiry, .find, .remove, .rfc, .giveBack, .log]

theorem within_finishTransaction (id : TxId) (action : ExecutionInvoker.ControlAction) :
    Within finishAreas (ExecutionInvoker.finishTransaction cfg (connectionPool cfg) id action) := by
  refine within_bind ((within_expireTransactions cfg).mono rfl) fun _ => ?_
  refine within_bind ((within_findTransaction cfg id).mono rfl) fun e => ?_
  refine within_bind (within_withLock rfl ((within_finishLocked cfg action e).mono rfl)) fun _ => ?_
  exact within_bind (within_log rfl) fun _ => within_ofExcept _

theorem within_close : Within [.lock, .remove, .rfc, .log, .giveBack]
    (ExecutionInvoker.close (connectionPool cfg)) := by
  refine within_bind (within_withLock rfl (within_op rfl)) fun _ => within_forEach fun e => ?_
  refine within_withLock rfl (within_bind (within_tryExcept ?_ fun _ => ?_) fun _ => ?_)
  · refine within_bind ((within_call rfl).mono rfl) fun _ => ?_
    exact within_bind (within_log rfl) fun _ => within_pure _
  · exact within_bind (within_log rfl) fun _ => within_pure _
  · exact (within_poolRelease cfg _ _ _).mono rfl

end Invoker

end RfcMcp
