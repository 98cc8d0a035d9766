import RfcMcp.Discovery.Catalog
import RfcMcp.Execution.Policy
import RfcMcp.Execution.Transaction

namespace RfcMcp

open Framework

namespace ExecutionInvoker

variable (cfg : AppSettings) (pool : ConnectionManager)

def logger : String := "rfc_mcp.execution.invoker"

def info (format : String) (args : List String) : LogRecord where
  logger := logger
  level := .info
  format := format
  args := args

def warning (format : String) (args : List String) (excInfo : Option PyExc := none) :
    LogRecord where
  logger := logger
  level := .warning
  format := format
  args := args
  excInfo := excInfo

def translate (exc : PyExc) : PyExc := translatePyrfcException cfg.text cfg.pyrfcInstalled exc

/-- `_transaction_error`, raised. -/
def transactionNotFound (id : TxId) : PyExc :=
  .transactionNotFound ("Unknown or expired transaction_id " ++ cfg.text.reprStr id ++
    "; it may already have been committed, rolled back, or discarded after an error.")

/-- `catalog.get_interface`. -/
def getInterface (functionName : String) : Act FunctionInterface :=
  FunctionCatalog.getInterface cfg (PooledCaller.call cfg pool) functionName

/-- `_call_on_connection`. -/
def callOnConnection (conn : Conn) (purpose : Purpose) (functionName : String)
    (callKwargs : PyDict) (mode : String) (id : Option TxId) : Act PyDict := do
  let result ← (conn.call purpose functionName callKwargs).tryExcept fun exc => do
    log (warning "CALL FAILED function=%s mode=%s transaction_id=%s error=%s: %s"
      [functionName, mode, id.getD "None", (translate cfg exc).typeName,
        (translate cfg exc).text cfg.text])
    Action.raise (translate cfg exc)
  log (info "CALL SUCCEEDED function=%s mode=%s transaction_id=%s"
    [functionName, mode, id.getD "None"])
  pure result

/-- `_apply_result_limits`. -/
def applyResultLimits (functionName mode : String) (result : PyDict) : Act PyValue :=
  match cfg.limits.apply (.dict result) with
  | .ok value => pure value
  | .error (.resultLimitExceeded message) => do
    log (warning "CALL RESULT BLOCKED function=%s mode=%s max_table_rows=%s max_serialized_bytes=%s"
      [functionName, mode, toString cfg.limits.maxTableRows,
        toString cfg.limits.maxSerializedBytes])
    Action.raise (.resultLimitExceeded message)
  | .error exc => Action.raise exc

def call (functionName : String) (parameters : PyDict) (mode : String) : Act PyValue :=
  if mode ≠ "read" then
    Action.raise (.valueError ("Write calls require call_transactional() so they can return " ++
      "the SAP transaction ID."))
  else do
    ExecutionPolicy.authorize cfg.text cfg.policy functionName mode parameters
    let interface ← getInterface cfg pool functionName
    let callKwargs ← Action.ofExcept (buildCallKwargs cfg.text interface parameters)
    let result ← pool.acquire fun conn =>
      callOnConnection cfg conn .read functionName callKwargs mode none
    applyResultLimits cfg functionName mode result

/-- `_is_current_transaction`. -/
def isCurrentTransaction (e : Entry) : Act Bool :=
  withLock .transactions (perform (.isCurrent e.1 e.2))

/-- `_remove_if_current`. -/
def removeIfCurrent (e : Entry) : Act Bool :=
  withLock .transactions (perform (.removeIfCurrent e.1 e.2))

/-- `_discard_transaction`. -/
def discardTransaction (e : Entry) : Act Unit := do
  let removed ← removeIfCurrent e
  if removed then do
    pool.release e.2.connection false (some e)
    log (warning "TRANSACTION DISCARDED transaction_id=%s" [e.1])
  else pure ()

/-- The lookup that `_get_or_create_transaction` and `_finish_transaction` begin with. -/
def findTransaction (id : TxId) : Act Entry := do
  let active ← withLock .transactions (perform (.lookup id))
  match active with
  | some a => pure (id, a)
  | none => Action.raise (transactionNotFound cfg id)

/-- The part of `_get_or_create_transaction` without an ID. -/
def createTransaction : Act Entry := do
  let conn ← pool.checkout
  let id ← perform .tokenUrlsafe
  let now ← perform .monotonic
  let ref ← perform (.newTransaction conn now)
  let active : ActiveTransaction := ⟨ref, conn⟩
  withLock .transactions (perform (.register id active))
  log (info "TRANSACTION STARTED transaction_id=%s" [id])
  pure (id, active)

/-- `_get_or_create_transaction`. -/
def getOrCreateTransaction : Option TxId → Act Entry
  | some id => findTransaction cfg id
  | none => createTransaction pool

/-- What a candidate of the sweep goes through once its lock is taken. -/
def expireLocked (cutoff : Time) (e : Entry) : Act Unit := do
  let removed ← withLock .transactions (perform (.removeIfExpired e.1 e.2 cutoff))
  if removed then do
    let reusable ← Action.tryExcept
      (do
        let _ ← Transaction.rollback e.2.connection (.expire e)
        pure true)
      fun exc => do
        log (warning "ROLLBACK FAILED transaction_id=%s reason=expired" [e.1] (some exc))
        pure false
    pool.release e.2.connection reusable (some e)
    log (warning "TRANSACTION EXPIRED transaction_id=%s" [e.1])
  else pure ()

/-- The body of the loop of `_expire_transactions`. -/
def expireCandidate (cutoff : Time) (e : Entry) : Act Unit := do
  let lastUsed ← perform (.readLastUsed e.2)
  if cutoff ≤ lastUsed then pure ()
  else do
    let locked ← perform (.tryAcquire (.active e.2.ref))
    if locked then
      (expireLocked pool cutoff e).tryFinally (perform (.release (.active e.2.ref)))
    else pure ()

/-- `_expire_transactions`. -/
def expireTransactions : Act Unit := do
  let now ← perform .monotonic
  let candidates ← withLock .transactions (perform .snapshot)
  Action.forEach candidates (expireCandidate pool (now - cfg.transactionTtl))

/-- What `call_transactional` does on the transaction's connection, under its lock. -/
def writeLocked (functionName : String) (callKwargs : PyDict) (mode : String) (e : Entry) :
    Act PyValue := do
  let current ← isCurrentTransaction e
  if !current then Action.raise (transactionNotFound cfg e.1)
  else do
    let result ← Action.tryExcept
      (do
        let rawResult ← callOnConnection cfg e.2.connection (.write e) functionName callKwargs mode
          (some e.1)
        applyResultLimits cfg functionName mode rawResult)
      fun exc => do
        discardTransaction pool e
        Action.raise exc
    let now ← perform .monotonic
    perform (.setLastUsed e.2 now)
    pure result

/-- The write branch of `call_transactional`. -/
def write (functionName : String) (parameters : PyDict) (id : Option TxId) :
    Act (PyValue × Option TxId) := do
  ExecutionPolicy.authorize cfg.text cfg.policy functionName "write" parameters
  let interface ← getInterface cfg pool functionName
  let callKwargs ← Action.ofExcept (buildCallKwargs cfg.text interface parameters)
  let e ← getOrCreateTransaction cfg pool id
  let result ← withLock (.active e.2.ref) (writeLocked cfg pool functionName callKwargs "write" e)
  pure (result, some e.1)

def callTransactional (functionName : String) (parameters : PyDict) (mode : String)
    (id : Option TxId) : Act (PyValue × Option TxId) := do
  expireTransactions cfg pool
  if mode = "read" then
    if id.isSome then Action.raise (.valueError "transaction_id is only valid for write calls")
    else do
      let result ← call cfg pool functionName parameters mode
      pure (result, none)
  else if mode ≠ "write" then
    Action.raise (.valueError ("Unknown mode: " ++ cfg.text.reprStr mode))
  else write cfg pool functionName parameters id

inductive ControlAction
  | commit (wait : Bool)
  | rollback
deriving DecidableEq, Repr

/-- `action.upper()`. -/
def ControlAction.upper : ControlAction → String
  | .commit _ => "COMMIT"
  | .rollback => "ROLLBACK"

/-- The RFC that ends a transaction. -/
def control (action : ControlAction) (e : Entry) : Act PyDict :=
  match action with
  | .commit wait => Transaction.commit e.2.connection (.commit e) wait
  | .rollback => Transaction.rollback e.2.connection (.rollback e)

/-- What `_finish_transaction` does under the transaction's lock. -/
def finishLocked (action : ControlAction) (e : Entry) : Act PyDict := do
  let removed ← removeIfCurrent e
  if !removed then Action.raise (transactionNotFound cfg e.1)
  else do
    let result ← (control action e).tryExcept fun exc => do
      log (warning "%s FAILED transaction_id=%s error=%s: %s"
        [action.upper, e.1, (translate cfg exc).typeName, (translate cfg exc).text cfg.text])
      pool.release e.2.connection false (some e)
      Action.raise (translate cfg exc)
    pool.release e.2.connection true (some e)
    pure result

/-- `_finish_transaction`. -/
def finishTransaction (id : TxId) (action : ControlAction) : Act PyValue := do
  expireTransactions cfg pool
  let e ← findTransaction cfg id
  let result ← withLock (.active e.2.ref) (finishLocked cfg pool action e)
  log (info "%s SUCCEEDED transaction_id=%s" [action.upper, e.1])
  Action.ofExcept (toJsonSafe (.dict result))

def commit (id : TxId) (wait : Bool) : Act PyValue := do
  ExecutionPolicy.authorizeTransactionControl cfg.policy
  finishTransaction cfg pool id (.commit wait)

def rollback (id : TxId) : Act PyValue := do
  ExecutionPolicy.authorizeTransactionControl cfg.policy
  finishTransaction cfg pool id .rollback

/-- What `close` does with a pending transaction, under its lock. -/
def shutdownLocked (e : Entry) : Act Unit := do
  let reusable ← Action.tryExcept
    (do
      let _ ← Transaction.rollback e.2.connection (.shutdown e)
      log (info "ROLLBACK SUCCEEDED transaction_id=%s reason=shutdown" [e.1])
      pure true)
    fun exc => do
      log (warning "ROLLBACK FAILED transaction_id=%s reason=shutdown" [e.1] (some exc))
      pure false
  pool.release e.2.connection reusable (some e)

def close : Act Unit := do
  let pending ← withLock .transactions (perform .drain)
  Action.forEach pending fun e => withLock (.active e.2.ref) (shutdownLocked pool e)

end ExecutionInvoker

end RfcMcp
