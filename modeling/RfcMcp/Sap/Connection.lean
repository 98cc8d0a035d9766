import RfcMcp.Runtime.State

namespace RfcMcp

open Framework

/-- The protocol class that both pools implement. The last argument of `release` names the
transaction on whose behalf it happens, for the reader only. -/
structure ConnectionManager : Type 1 where
  acquire : {α : Type} → (Conn → Act α) → Act α
  checkout : Act Conn
  release : Conn → Bool → Option Entry → Act Unit
  closeAll : Act Unit

/-- `conn.call(function, **kwargs)`. -/
def Conn.call (conn : Conn) (purpose : Purpose) (function : String) (kwargs : PyDict) :
    Act PyDict := do
  perform (.rfcBegin conn purpose function kwargs)
  let result ← perform (.rfcEnd conn function kwargs)
  Action.ofExcept result

namespace ConnectionPool

variable (cfg : AppSettings)

/-- `_create_connection`, with `_import_pyrfc`. -/
def createConnection : Act Conn :=
  if cfg.pyrfcInstalled then do
    let _kwargs ← Action.ofExcept cfg.pyrfcKwargs
    let opened ← perform .openConnection
    match opened with
    | .ok conn => pure conn
    | .error exc => Action.raise (translatePyrfcException cfg.text cfg.pyrfcInstalled exc)
  else
    Action.raise (.sap .unavailable ("pyrfc is not installed or the SAP NW RFC SDK could not be " ++
      "loaded (check SAPNWRFC_HOME and PATH). See docs/setup.md.") none)

/-- The attempts of `_open_with_retry` from number `attempt` on, `retries` of them after a
failure. -/
def openAttempts (attempt : Nat) : (retries : Nat) → Act Conn
  | 0 => createConnection cfg
  | retries + 1 => (createConnection cfg).tryExcept fun exc =>
    if isCommunicationError exc then do
      perform (.sleep attempt)
      openAttempts (attempt + 1) retries
    else Action.raise exc

def openWithRetry : Act Conn := openAttempts cfg 0 cfg.maxRetries

def closeQuietly (conn : Conn) : Act Unit := perform (.closeConnection conn)

def poolTimeout : PyExc :=
  .sap .poolTimeout ("No SAP connection became available within " ++
    cfg.poolAcquireTimeoutSeconds ++ " seconds.") none

def checkout : Act Conn := do
  let acquired ← perform .semAcquire
  if acquired then
    Action.tryExcept
      (do
        let candidate ← withLock .pool (perform .scanIdle)
        match candidate with
        | some conn => pure conn
        | none => openWithRetry cfg)
      fun exc => do
        perform .semRelease
        Action.raise exc
  else Action.raise (poolTimeout cfg)

def release (conn : Conn) (reusable : Bool) (luw : Option Entry) : Act Unit := do
  perform (.poolRelease conn reusable luw)
  Action.tryFinally
    (if reusable then withLock .pool (perform (.appendIdle conn)) else closeQuietly conn)
    (perform .semRelease)

/-- The context manager `acquire` around `body`. -/
def acquire {α : Type} (body : Conn → Act α) : Act α := do
  let conn ← checkout cfg
  let result ← (body conn).tryExcept fun exc => do
    release conn false none
    Action.raise exc
  release conn true none
  pure result

def closeAll : Act Unit := do
  let idle ← withLock .pool (perform .swapIdle)
  Action.forEach idle closeQuietly

end ConnectionPool

def connectionPool (cfg : AppSettings) : ConnectionManager where
  acquire := ConnectionPool.acquire cfg
  checkout := ConnectionPool.checkout cfg
  release := ConnectionPool.release
  closeAll := ConnectionPool.closeAll

/-- `PooledCaller.call`. -/
def PooledCaller.call (cfg : AppSettings) (pool : ConnectionManager) (function : String)
    (params : PyDict) : Act PyDict :=
  pool.acquire fun conn =>
    (conn.call .discovery function params).tryExcept fun exc =>
      Action.raise (translatePyrfcException cfg.text cfg.pyrfcInstalled exc)

end RfcMcp
