import RfcMcp.Discovery.Models
import RfcMcp.Framework.Program

namespace RfcMcp

open Framework

/-- A connection object, by the order in which the connections were opened. -/
abbrev Conn := Nat

abbrev TxId := String

/-- `_ActiveTransaction`: the identity of the object and its `connection`, which never changes.
`last_used` and `lock` belong to the shared state. -/
structure ActiveTransaction where
  ref : Nat
  connection : Conn
deriving DecidableEq, Repr

/-- An item of the transaction table. -/
abbrev Entry := TxId × ActiveTransaction

inductive CacheId
  | search
  | interface
deriving DecidableEq, Repr

abbrev CacheId.Value : CacheId → Type
  | .search => List FunctionSummary
  | .interface => FunctionInterface

inductive LockId
  | transactions
  | active (ref : Nat)
  | pool
  | cache (id : CacheId)
deriving DecidableEq, Repr

/-- What an RFC is issued for. The tag is for the reader: no operation looks at it. -/
inductive Purpose
  | read
  | discovery
  | write (e : Entry)
  | commit (e : Entry)
  | rollback (e : Entry)
  | expire (e : Entry)
  | shutdown (e : Entry)
deriving DecidableEq, Repr

inductive LogLevel
  | info
  | warning
deriving DecidableEq, Repr

/-- A log record: its format, its arguments as text, and `exc_info`. -/
structure LogRecord where
  logger : String
  level : LogLevel
  format : String
  args : List String := []
  excInfo : Option PyExc := none
deriving DecidableEq, Repr

/-- The operations on shared state and on the outside world. The body of a lock-protected section
is one operation; taking the lock and letting go of it are operations of their own. -/
inductive Op
  | acquire (l : LockId)
  | tryAcquire (l : LockId)
  | release (l : LockId)
  | semAcquire
  | semRelease
  | scanIdle
  | appendIdle (conn : Conn)
  | swapIdle
  | openConnection
  | sleep (attempt : Nat)
  | closeConnection (conn : Conn)
  | demoConnection
  | rfcBegin (conn : Conn) (purpose : Purpose) (function : String) (kwargs : PyDict)
  | rfcEnd (conn : Conn) (function : String) (kwargs : PyDict)
  | poolRelease (conn : Conn) (reusable : Bool) (luw : Option Entry)
  | newTransaction (conn : Conn) (lastUsed : Time)
  | tokenUrlsafe
  | lookup (id : TxId)
  | register (id : TxId) (a : ActiveTransaction)
  | isCurrent (id : TxId) (a : ActiveTransaction)
  | removeIfCurrent (id : TxId) (a : ActiveTransaction)
  | removeIfExpired (id : TxId) (a : ActiveTransaction) (cutoff : Time)
  | snapshot
  | drain
  | readLastUsed (a : ActiveTransaction)
  | setLastUsed (a : ActiveTransaction) (now : Time)
  | monotonic
  | cacheGet (id : CacheId) (key : String)
  | cacheSet (id : CacheId) (key : String) (value : id.Value)
  | log (record : LogRecord)

abbrev Op.Res : Op → Type
  | .tryAcquire _ => Bool
  | .semAcquire => Bool
  | .scanIdle => Option Conn
  | .swapIdle => List Conn
  | .openConnection => Except PyExc Conn
  | .demoConnection => Conn
  | .rfcEnd _ _ _ => Except PyExc PyDict
  | .newTransaction _ _ => Nat
  | .tokenUrlsafe => TxId
  | .lookup _ => Option ActiveTransaction
  | .isCurrent _ _ => Bool
  | .removeIfCurrent _ _ => Bool
  | .removeIfExpired _ _ _ => Bool
  | .snapshot => List Entry
  | .drain => List Entry
  | .readLastUsed _ => Time
  | .monotonic => Time
  | .cacheGet id _ => Option id.Value
  | _ => Unit

abbrev Effects : Signature := ⟨Op, Op.Res⟩

/-- A piece of the server: it performs operations and returns or raises. -/
abbrev Act := Action Effects PyExc

def perform (o : Op) : Act o.Res := Action.perform (S := Effects) o

/-- `with lock: x`. -/
def withLock {α : Type} (l : LockId) (x : Act α) : Act α :=
  perform (.acquire l) >>= fun _ => x.tryFinally (perform (.release l))

def log (record : LogRecord) : Act Unit := perform (.log record)

end RfcMcp
